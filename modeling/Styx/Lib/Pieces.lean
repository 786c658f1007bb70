/-
A list cut into pieces of one length, the last with what remains.

`split` is the cut. A list of pieces is `Canonical` if all but the last have the length
and the last has between one element and the length; those are exactly the cuts
(`eq_split_of_canonical`), so a receiver that accepts only canonical pieces accepts only
what a cutter made.
-/
import Mathlib.Data.List.Basic

namespace Pieces

variable {α : Type} {n k len : Nat} {xs ys : List α} {t : List (List α)}

/-- How many pieces of length `n` make up `len` elements. -/
def count (n len : Nat) : Nat := (len + n - 1) / n

def piece (n : Nat) (xs : List α) (i : Nat) : List α := (xs.drop (i * n)).take n

def split (n : Nat) (xs : List α) : List (List α) := (List.range (count n xs.length)).map (piece n xs)

/-! ## How many -/

theorem count_le_iff (hn : 0 < n) : count n len ≤ k ↔ len ≤ k * n := by
  unfold count
  rw [← Nat.lt_succ_iff, Nat.div_lt_iff_lt_mul hn, Nat.succ_mul]
  omega

theorem lt_count_iff (hn : 0 < n) : k < count n len ↔ k * n < len := by
  have hle : count n len ≤ k ↔ len ≤ k * n := count_le_iff hn
  omega

theorem count_of_le (hn : 0 < n) (h0 : 0 < len) (hle : len ≤ n) : count n len = 1 := by
  have h1 : count n len ≤ 1 := (count_le_iff hn).mpr (by omega)
  have h2 : 0 < count n len := (lt_count_iff hn).mpr (by omega)
  omega

theorem count_add (hn : 0 < n) (len : Nat) : count n (n + len) = count n len + 1 := by
  unfold count
  rw [show n + len + n - 1 = len + n - 1 + n by omega, Nat.add_div_right _ hn]

/-! ## Each -/

theorem length_piece (hn : 0 < n) {i : Nat} (hi : i + 1 < count n xs.length) : (piece n xs i).length = n := by
  have h := (lt_count_iff hn).mp hi
  rw [Nat.succ_mul] at h
  simp only [piece, List.length_take, List.length_drop]
  omega

/-! ## Together -/

/-- Every piece but the last is full, and the last is not empty. -/
def Canonical (n : Nat) (t : List (List α)) : Prop :=
  ∃ init last, t = init ++ [last] ∧ (∀ c ∈ init, c.length = n) ∧ 0 < last.length ∧ last.length ≤ n

theorem split_append {c : List α} (hn : 0 < n) (hc : c.length = n) : split n (c ++ ys) = c :: split n ys := by
  unfold split
  rw [List.length_append, hc, count_add hn, List.range_succ_eq_map, List.map_cons, List.map_map]
  congr 1
  · simp [piece, ← hc]
  · refine List.map_congr_left fun i _ => ?_
    show ((c ++ ys).drop ((i + 1) * n)).take n = (ys.drop (i * n)).take n
    rw [Nat.succ_mul, Nat.add_comm, ← List.drop_drop, ← hc, List.drop_left]

theorem split_single {last : List α} (hn : 0 < n) (h0 : 0 < last.length) (hle : last.length ≤ n) :
    split n last = [last] := by
  simp [split, count_of_le hn h0 hle, piece, List.take_of_length_le hle]

/-- **Canonical pieces are a cut** of what they make up. -/
theorem eq_split_of_canonical (hn : 0 < n) (h : Canonical n t) : t = split n t.flatten := by
  obtain ⟨init, last, rfl, hinit, h0, hle⟩ := h
  induction init with
  | nil => simp [split_single hn h0 hle]
  | cons c init ih =>
    rw [List.cons_append, List.flatten_cons, split_append hn (hinit c (by simp)),
      ← ih fun d hd => hinit d (by simp [hd])]

end Pieces
