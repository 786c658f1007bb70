/-
An intrusive queue: the elements are linked through a word of their own, and the
queue is the first and the last of them.

`Holds l q` says that the links spell the list `q`, and nothing else is linked.
Appending an element that is not there and taking the first one keep it; the list is
what a proof about the queue goes by.
-/
import Mathlib.Logic.Function.Basic
import Mathlib.Data.List.Nodup

structure Intrusive (α : Type) where
  head : Option α
  tail : Option α
  link : α → Option α

namespace Intrusive

open Function

variable {α : Type}

def empty : Intrusive α := ⟨none, none, fun _ => none⟩

section

variable [DecidableEq α]

def append (l : Intrusive α) (x : α) : Intrusive α :=
  match l.tail with
  | none => ⟨some x, some x, Function.update l.link x none⟩
  | some y => ⟨l.head, some x, Function.update (Function.update l.link x none) y (some x)⟩

def pop (l : Intrusive α) : Option (α × Intrusive α) :=
  match l.head with
  | none => none
  | some x => some (x, ⟨l.link x, if l.link x = none then none else l.tail, Function.update l.link x none⟩)

end

/-- Each element's link is the one after it. -/
def Linked (link : α → Option α) : List α → Prop
  | [] => True
  | x :: q => link x = q.head? ∧ Linked link q

structure Holds (l : Intrusive α) (q : List α) : Prop where
  nodup : q.Nodup
  head : l.head = q.head?
  tail : l.tail = q.getLast?
  links : Linked l.link q
  outside : ∀ x, x ∉ q → l.link x = none

theorem holds_empty : (empty : Intrusive α).Holds [] :=
  ⟨List.nodup_nil, rfl, rfl, trivial, fun _ _ => rfl⟩

variable {l : Intrusive α} {q : List α} {x y : α} {link link' : α → Option α}

theorem Linked.congr (h : Linked link q) (heq : ∀ x ∈ q, link' x = link x) : Linked link' q := by
  induction q with
  | nil => trivial
  | cons z q ih =>
    refine ⟨(heq z (by simp)).trans h.1, ih h.2 fun w hw => heq w (by simp [hw])⟩

theorem Holds.head_none (h : l.Holds q) (hh : l.head = none) : q = [] := by
  rw [h.head] at hh
  exact List.head?_eq_none_iff.mp hh

variable [DecidableEq α]

theorem Linked.snoc (h : Linked link (q ++ [y])) (hnd : (q ++ [y]).Nodup) (hx : x ∉ q ++ [y]) :
    Linked (update (update link x none) y (some x)) (q ++ [y] ++ [x]) := by
  induction q with
  | nil =>
    have hne : x ≠ y := by simpa using hx
    exact ⟨by simp, by simp [hne], trivial⟩
  | cons z q ih =>
    simp only [List.cons_append, List.nodup_cons, List.mem_cons, not_or] at hnd hx
    have hzy : z ≠ y := fun he => hnd.1 (by simp [he])
    refine ⟨?_, ih h.2 hnd.2 hx.2⟩
    rw [update_of_ne hzy, update_of_ne (Ne.symm hx.1), h.1]
    cases q <;> rfl

theorem Holds.append (h : l.Holds q) (hx : x ∉ q) : (l.append x).Holds (q ++ [x]) := by
  have hnd : (q ++ [x]).Nodup := by
    refine List.Nodup.append h.nodup (List.nodup_singleton x) ?_
    simpa [List.disjoint_singleton] using hx
  rcases List.eq_nil_or_concat q with rfl | ⟨q, y, rfl⟩
  · have htail : l.tail = none := h.tail
    simp only [Intrusive.append, htail]
    refine ⟨hnd, rfl, rfl, ⟨by simp, trivial⟩, fun z hz => ?_⟩
    have hne : z ≠ x := by simpa using hz
    exact (update_of_ne hne _ _).trans (h.outside z (by simp))
  · rw [List.concat_eq_append] at *
    have htail : l.tail = some y := by simpa using h.tail
    simp only [Intrusive.append, htail]
    refine ⟨hnd, ?_, by simp, h.links.snoc h.nodup hx, fun z hz => ?_⟩
    · rw [h.head]
      cases q <;> rfl
    · simp only [List.mem_append, List.mem_singleton, not_or] at hz
      dsimp only
      rw [update_of_ne hz.1.2, update_of_ne hz.2]
      exact h.outside z (by simp [hz.1])

theorem Holds.pop_nil (h : l.Holds []) : l.pop = none := by
  have hhead : l.head = none := h.head
  simp [Intrusive.pop, hhead]

theorem Holds.pop_cons (h : l.Holds (x :: q)) : ∃ l', l.pop = some (x, l') ∧ l'.Holds q := by
  have hhead : l.head = some x := h.head
  have hlink : l.link x = q.head? := h.links.1
  have hx : x ∉ q := (List.nodup_cons.mp h.nodup).1
  refine ⟨⟨l.link x, if l.link x = none then none else l.tail, update l.link x none⟩,
    by simp only [Intrusive.pop, hhead], (List.nodup_cons.mp h.nodup).2, hlink, ?_, ?_, fun z hz => ?_⟩
  · dsimp only
    rw [hlink, h.tail]
    cases q with
    | nil => rfl
    | cons y q => simp
  · refine h.links.2.congr fun z hz => update_of_ne ?_ _ _
    rintro rfl
    exact hx hz
  · by_cases hzx : z = x
    · subst hzx
      simp
    · exact (update_of_ne hzx _ _).trans (h.outside z (by simp [hzx, hz]))

theorem Holds.pop (h : l.Holds q) {l' : Intrusive α} (hp : l.pop = some (x, l')) : ∃ q', q = x :: q' ∧ l'.Holds q' := by
  cases q with
  | nil => cases h.pop_nil.symm.trans hp
  | cons y q =>
    obtain ⟨l'', hp', hh⟩ := h.pop_cons
    cases hp'.symm.trans hp
    exact ⟨q, rfl, hh⟩

end Intrusive
