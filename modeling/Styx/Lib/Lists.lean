/-
Facts about lists that Mathlib does not state: reading a list through a partial
function, and taking out the one element with a given image.
-/
import Mathlib.Data.List.Nodup

namespace Lists

variable {α β γ : Type}

/-- Where a list's images are distinct, an image tells its place. -/
theorem filterMap_inj {f : α → Option β} {g : β → γ} : ∀ {l : List α}, ((l.filterMap f).map g).Nodup →
    ∀ {x y : α} {b c : β}, x ∈ l → y ∈ l → f x = some b → f y = some c → g b = g c → x = y
  | [], _, _, _, _, _, hx, _, _, _, _ => by cases hx
  | z :: l, hn, x, y, b, c, hx, hy, hb, hc, he => by
    cases hz : f z with
    | none =>
      rw [List.filterMap_cons_none hz] at hn
      have hx' := (List.mem_cons.mp hx).resolve_left (by rintro rfl; rw [hb] at hz; cases hz)
      have hy' := (List.mem_cons.mp hy).resolve_left (by rintro rfl; rw [hc] at hz; cases hz)
      exact filterMap_inj hn hx' hy' hb hc he
    | some d =>
      rw [List.filterMap_cons_some hz, List.map_cons, List.nodup_cons] at hn
      rcases List.mem_cons.mp hx with rfl | hx' <;> rcases List.mem_cons.mp hy with rfl | hy'
      · rfl
      · obtain rfl := Option.some.inj (hz.symm.trans hb)
        exact absurd (List.mem_map.mpr ⟨c, List.mem_filterMap.mpr ⟨y, hy', hc⟩, he.symm⟩) hn.1
      · obtain rfl := Option.some.inj (hz.symm.trans hc)
        exact absurd (List.mem_map.mpr ⟨b, List.mem_filterMap.mpr ⟨x, hx', hb⟩, he⟩) hn.1
      · exact filterMap_inj hn.2 hx' hy' hb hc he

/-- Where images are distinct, dropping an element's image drops that element. -/
theorem perm_cons_filter [DecidableEq β] {g : α → β} {l : List α} {x : α} (hn : (l.map g).Nodup) (hx : x ∈ l) :
    l.Perm (x :: l.filter fun y => decide (g y ≠ g x)) := by
  induction l with
  | nil => cases hx
  | cons z l ih =>
    rw [List.map_cons, List.nodup_cons] at hn
    rcases List.mem_cons.mp hx with rfl | hx
    · have hkeep : (l.filter fun y => decide (g y ≠ g x)) = l := by
        refine List.filter_eq_self.mpr fun y hy => ?_
        simp only [ne_eq, decide_not, Bool.not_eq_eq_eq_not, Bool.not_true, decide_eq_false_iff_not]
        exact fun he => hn.1 (he ▸ List.mem_map_of_mem hy)
      rw [List.filter_cons_of_neg (by simp), hkeep]
    · have hne : g z ≠ g x := fun he => hn.1 (he ▸ List.mem_map_of_mem hx)
      rw [List.filter_cons_of_pos (by simpa using hne)]
      exact ((ih hn.2 hx).cons z).trans (.swap x z _)

end Lists
