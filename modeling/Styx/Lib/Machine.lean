/-
Machines that take labelled steps: what a run is, and the one induction every
safety result rests on.

A machine is its step function. An action names who moves and the choices the
outside makes for that move (a clock reading, the outcome of a send), so the
function is deterministic and can be evaluated, and "every interleaving" is
"every list of actions". `Reach` carries a guard on its steps: the runs all of
whose steps meet a condition are the runs of the same machine under that guard.
-/
import Mathlib.Logic.Function.Basic

namespace Machine

variable {σ α : Type} {step : σ → α → Option σ} {G H : σ → α → Prop} {s t : σ} {as : List α} {p : Prop} {x : Option α}
  {a : α}

/-- Run a list of actions; `none` if one of them is not enabled where it is taken. -/
def run (step : σ → α → Option σ) : σ → List α → Option σ
  | s, [] => some s
  | s, a :: as =>
    match step s a with
    | none => none
    | some t => run step t as

/-- The states reached from `s` by steps that all meet the guard `G`. -/
inductive Reach (step : σ → α → Option σ) (G : σ → α → Prop) (s : σ) : σ → Prop
  | refl : Reach step G s s
  | tail {t u : σ} {a : α} : Reach step G s t → G t a → step t a = some u → Reach step G s u

/-- The guard every step meets. -/
def Any : σ → α → Prop := fun _ _ => True

theorem Reach.trans {u : σ} (h₁ : Reach step G s t) (h₂ : Reach step G t u) : Reach step G s u := by
  induction h₂ with
  | refl => exact h₁
  | tail _ hg hs ih => exact .tail ih hg hs

theorem Reach.mono (hGH : ∀ t a, G t a → H t a) (h : Reach step G s t) : Reach step H s t := by
  induction h with
  | refl => exact .refl
  | tail _ hg hs ih => exact .tail ih (hGH _ _ hg) hs

theorem Reach.any (h : Reach step G s t) : Reach step Any s t :=
  h.mono fun _ _ _ => trivial

/-- **The invariant rule**: what holds at the start and is kept by every step
that meets the guard holds in every state reached. -/
theorem Reach.invariant {Inv : σ → Prop} (h : Reach step G s t) (h0 : Inv s)
    (hstep : ∀ {t a u}, Inv t → G t a → step t a = some u → Inv u) : Inv t := by
  induction h with
  | refl => exact h0
  | tail _ hg hs ih => exact hstep ih hg hs

/-- The machine that takes only the steps meeting a guard. -/
def guarded (step : σ → α → Option σ) (G : σ → α → Prop) [∀ s a, Decidable (G s a)] (s : σ) (a : α) : Option σ :=
  if G s a then step s a else none

/-- A guarded run that can be evaluated reaches its last state. -/
theorem Reach.of_guarded [∀ s a, Decidable (G s a)] (h : run (guarded step G) s as = some t) : Reach step G s t := by
  induction as generalizing s with
  | nil => simp only [run, Option.some.injEq] at h; exact h ▸ .refl
  | cons a as ih =>
    simp only [run, guarded] at h
    split at h
    · cases h
    · next u hu =>
      split at hu
      · next hg => exact (Reach.tail .refl hg hu).trans (ih h)
      · cases hu

/-- A run of actions that all have a property reaches its last state under it. -/
theorem Reach.of_run_of {P : α → Prop} (h : run step s as = some t) (hP : ∀ a ∈ as, P a) :
    Reach step (fun _ a => P a) s t := by
  induction as generalizing s with
  | nil => simp only [run, Option.some.injEq] at h; exact h ▸ .refl
  | cons a as ih =>
    simp only [run] at h
    split at h
    · cases h
    · next u hu => exact (Reach.tail .refl (hP a (by simp)) hu).trans (ih h fun b hb => hP b (by simp [hb]))

theorem Reach.of_run (h : run step s as = some t) : Reach step Any s t :=
  .of_run_of h fun _ _ => trivial

/-! ## Guards

A step function asks for its guard first; a step that was taken had it. -/

theorem guard_some [Decidable p] (h : (if p then x else none) = some a) : p ∧ x = some a :=
  Option.ite_none_right_eq_some.mp h

theorem unless_some [Decidable p] (h : (if p then none else x) = some a) : ¬ p ∧ x = some a :=
  Option.ite_none_left_eq_some.mp h

theorem update_eq_some {β : Type} [DecidableEq α] {f : α → Option β} {a' : α} {b b' : β}
    (h : Function.update f a (some b) a' = some b') : a' = a ∧ b' = b ∨ a' ≠ a ∧ f a' = some b' := by
  rw [Function.update_apply] at h
  split at h
  · next ha => exact .inl ⟨ha, (Option.some.inj h).symm⟩
  · next ha => exact .inr ⟨ha, h⟩

end Machine
