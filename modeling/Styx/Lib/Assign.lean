/-
A finite map made by assignments: what a key holds after a list of them.
-/
import Mathlib.Data.Finmap
import Mathlib.Data.Finset.Sort

namespace Assign

variable {α β : Type} [DecidableEq α] {m : Finmap fun _ : α => β} {l : List (α × β)} {x : α} {v : β} {ks : List α}
  {f : α → β}

/-- The assignments of `l`, in order; a later one overwrites an earlier one. -/
def insertAll (m : Finmap fun _ : α => β) (l : List (α × β)) : Finmap fun _ : α => β :=
  l.foldl (fun m p => m.insert p.1 p.2) m

@[simp] theorem insertAll_nil : insertAll m [] = m := rfl

@[simp] theorem insertAll_cons {p : α × β} : insertAll m (p :: l) = insertAll (m.insert p.1 p.2) l := rfl

theorem lookup_insertAll (h : (insertAll m l).lookup x = some v) : m.lookup x = some v ∨ (x, v) ∈ l := by
  induction l generalizing m with
  | nil => exact .inl h
  | cons p l ih =>
    rcases ih h with hm | hl
    · by_cases hx : x = p.1
      · subst hx
        rw [Finmap.lookup_insert] at hm
        cases hm
        exact .inr (by simp)
      · rw [Finmap.lookup_insert_of_ne _ hx] at hm
        exact .inl hm
    · exact .inr (by simp [hl])

theorem lookup_insertAll_map :
    (insertAll m (ks.map fun k => (k, f k))).lookup x = if x ∈ ks then some (f x) else m.lookup x := by
  induction ks generalizing m with
  | nil => simp
  | cons k ks ih =>
    rw [List.map_cons, insertAll_cons, ih]
    by_cases hks : x ∈ ks
    · simp [hks]
    · by_cases hx : x = k
      · subst hx
        simp [hks]
      · simp [hks, hx, Finmap.lookup_insert_of_ne]

/-- A key left alone where it is held, and assigned otherwise. -/
def insertNew (m : Finmap fun _ : α => β) (ks : List α) (v : β) : Finmap fun _ : α => β :=
  ks.foldl (fun m k => if k ∈ m then m else m.insert k v) m

theorem lookup_insertNew : (insertNew m ks v).lookup x = if x ∈ m then m.lookup x else if x ∈ ks then some v else none := by
  induction ks generalizing m with
  | nil =>
    by_cases hx : x ∈ m
    · simp [insertNew, hx]
    · simp [insertNew, hx, Finmap.lookup_eq_none.mpr hx]
  | cons k ks ih =>
    unfold insertNew at ih ⊢
    rw [List.foldl_cons, ih]
    by_cases hk : k ∈ m
    · by_cases hx : x ∈ m
      · simp [hk, hx]
      · have hne : x ≠ k := fun h => hx (h ▸ hk)
        simp [hk, hx, hne]
    · by_cases hx : x = k
      · subst hx
        simp [hk]
      · simp [hk, hx, Finmap.lookup_insert_of_ne]

theorem insertAll_entries (hks : ∀ k, k ∈ ks ↔ k ∈ m)
    (hf : ∀ k ∈ ks, m.lookup k = some (f k)) : insertAll ∅ (ks.map fun k => (k, f k)) = m := by
  refine Finmap.ext_lookup fun x => ?_
  rw [lookup_insertAll_map]
  split
  · next hx => exact (hf x hx).symm
  · next hx => rw [Finmap.lookup_empty, Finmap.lookup_eq_none.mpr fun h => hx ((hks x).mpr h)]

end Assign
