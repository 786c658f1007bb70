/-
Sequence numbers that wrap: windows of 64-bit words and the slots a power-of-two buffer
gives them.

A producer and a consumer count in `UInt64` and compare by subtraction, so the window
`[lo, hi)` is the words whose distance from `lo` is below that of `hi`, whatever the two
words are. Two words less than a capacity apart never share a slot (`slot_inj`), also
across the wrap.
-/
import Mathlib.Data.List.Nodup
import Mathlib.Data.Nat.ModEq

namespace Sequence

/-- `q` lies in the window `[lo, hi)`. -/
def Mem (lo hi q : UInt64) : Prop := q - lo < hi - lo

instance {lo hi q : UInt64} : Decidable (Mem lo hi q) := inferInstanceAs (Decidable (_ < _))

/-- The number of sequences in `[lo, hi)`. -/
def span (lo hi : UInt64) : Nat := (hi - lo).toNat

/-- The `n` sequences from `lo` on, in order. -/
def seqs : UInt64 → Nat → List UInt64
  | _, 0 => []
  | lo, n + 1 => lo :: seqs (lo + 1) n

variable {lo q hi q' mid capacity : UInt64} {n k : Nat}

@[simp] theorem seqs_zero : seqs lo 0 = [] := rfl

theorem seqs_succ : seqs lo (n + 1) = lo :: seqs (lo + 1) n := rfl

@[simp] theorem length_seqs : ∀ {lo : UInt64}, (seqs lo n).length = n := by
  induction n with
  | zero => intro lo; rfl
  | succ n ih => intro lo; simp [seqs_succ, ih]

/-! ## Distances -/

@[simp] theorem span_self : span lo lo = 0 := by simp [span]

theorem span_lt (lo hi : UInt64) : span lo hi < 2 ^ 64 := (hi - lo).toNat_lt

theorem eq_of_span_eq (h : span lo q = span lo q') : q = q' := by
  have h' : q - lo = q' - lo := UInt64.toNat_inj.mp h
  calc q = (q - lo) + lo := by rw [UInt64.sub_add_cancel]
    _ = (q' - lo) + lo := by rw [h']
    _ = q' := by rw [UInt64.sub_add_cancel]

theorem span_eq_zero : span lo hi = 0 ↔ lo = hi := by
  constructor
  · intro h
    have h' : span lo lo = span lo hi := by rw [h, span_self]
    exact eq_of_span_eq h'
  · rintro rfl
    exact span_self

theorem span_toNat : span lo hi = (2 ^ 64 - lo.toNat + hi.toNat) % 2 ^ 64 := by
  simp [span, UInt64.toNat_sub]

theorem span_succ (h : span lo hi < 2 ^ 64 - 1) : span lo (hi + 1) = span lo hi + 1 := by
  have h1 := lo.toNat_lt
  have h2 := hi.toNat_lt
  rw [span_toNat] at h ⊢
  rw [span_toNat, UInt64.toNat_add]
  simp only [UInt64.reduceToNat] at *
  omega

/-- A window that is not empty after its back moved has grown by one. -/
theorem span_succ_of_ne (h : lo ≠ hi + 1) : span lo (hi + 1) = span lo hi + 1 := by
  have h1 := lo.toNat_lt
  have h2 := hi.toNat_lt
  have hne : lo.toNat ≠ (hi + 1).toNat := fun he => h (UInt64.toNat_inj.mp he)
  rw [UInt64.toNat_add] at hne
  rw [span_toNat, span_toNat, UInt64.toNat_add]
  simp only [UInt64.reduceToNat] at *
  omega

theorem span_front (h : lo ≠ hi) : span lo hi = span (lo + 1) hi + 1 := by
  have h1 := lo.toNat_lt
  have h2 := hi.toNat_lt
  have hne : lo.toNat ≠ hi.toNat := fun he => h (UInt64.toNat_inj.mp he)
  rw [span_toNat, span_toNat, UInt64.toNat_add]
  simp only [UInt64.reduceToNat] at *
  omega

theorem span_add (h : span lo mid ≤ span lo hi) : span lo hi = span lo mid + span mid hi := by
  have h1 := lo.toNat_lt
  have h2 := hi.toNat_lt
  have h3 := mid.toNat_lt
  rw [span_toNat, span_toNat] at h
  rw [span_toNat, span_toNat, span_toNat]
  omega

/-- A sequence of the later half of a window is in the window. -/
theorem span_lt_of_mid (h : span lo mid ≤ span lo hi) (hq : span mid q < span mid hi) :
    span lo q < span lo hi ∧ span lo mid ≤ span lo q := by
  have h1 := lo.toNat_lt
  have h2 := hi.toNat_lt
  have h3 := mid.toNat_lt
  have h4 := q.toNat_lt
  rw [span_toNat, span_toNat] at h hq
  rw [span_toNat, span_toNat, span_toNat]
  omega

theorem mem_iff_span : Mem lo hi q ↔ span lo q < span lo hi := UInt64.lt_iff_toNat_lt

theorem mem_seqs (hn : n ≤ 2 ^ 64) : ∀ {lo q : UInt64}, q ∈ seqs lo n ↔ span lo q < n := by
  induction n with
  | zero => intro lo q; simp
  | succ n ih =>
    intro lo q
    rw [seqs_succ, List.mem_cons, ih (by omega)]
    by_cases hq : lo = q
    · subst hq; simp
    · rw [span_front hq]
      constructor
      · rintro (rfl | h)
        · exact absurd rfl hq
        · omega
      · intro h; right; omega

theorem mem_seqs_span : q ∈ seqs lo (span lo hi) ↔ Mem lo hi q := by
  rw [mem_iff_span, mem_seqs (Nat.le_of_lt (span_lt lo hi))]

theorem seqs_back : ∀ {lo hi : UInt64}, span lo hi = n → seqs lo (n + 1) = seqs lo n ++ [hi] := by
  induction n with
  | zero =>
    intro lo hi h
    rw [span_eq_zero] at h
    subst h
    rfl
  | succ n ih =>
    intro lo hi h
    have hne : lo ≠ hi := by
      rintro rfl
      simp at h
    have hs : span (lo + 1) hi = n := by
      have := span_front hne
      omega
    rw [seqs_succ, ih hs, seqs_succ, List.cons_append]

theorem nodup_seqs (hn : n ≤ 2 ^ 64) : ∀ {lo : UInt64}, (seqs lo n).Nodup := by
  induction n with
  | zero => intro lo; simp
  | succ n ih =>
    intro lo
    rw [seqs_succ, List.nodup_cons, mem_seqs (by omega)]
    refine ⟨?_, ih (by omega)⟩
    have : span (lo + 1) lo = 2 ^ 64 - 1 := by
      have h1 := lo.toNat_lt
      rw [span_toNat, UInt64.toNat_add]
      simp only [UInt64.reduceToNat]
      omega
    omega

/-! ## Slots -/

/-- The slot of a sequence in a buffer of `capacity` slots, a power of two. -/
def slot (capacity q : UInt64) : UInt64 := q &&& (capacity - 1)

theorem slot_toNat (hc : capacity.toNat = 2 ^ k) : (slot capacity q).toNat = q.toNat % 2 ^ k := by
  have h1 : (1 : UInt64) ≤ capacity := by
    rw [UInt64.le_iff_toNat_le, hc]
    exact Nat.one_le_two_pow
  rw [slot, UInt64.toNat_and, UInt64.toNat_sub_of_le _ _ h1, hc]
  exact Nat.and_two_pow_sub_one_eq_mod _ _

theorem toNat_of_span (lo q : UInt64) : q.toNat = (lo.toNat + span lo q) % 2 ^ 64 := by
  have h1 := lo.toNat_lt
  have h2 := q.toNat_lt
  rw [span_toNat]
  omega

/-- **Slots are distinct within a capacity**: two sequences of a window no
longer than the capacity that share a slot are the same sequence. -/
theorem slot_inj (hc : capacity.toNat = 2 ^ k) (lo : UInt64)
    (hq : span lo q < 2 ^ k) (hq' : span lo q' < 2 ^ k) (h : slot capacity q = slot capacity q') : q = q' := by
  have hk : 2 ^ k ∣ 2 ^ 64 := by
    refine Nat.pow_dvd_pow 2 ?_
    have : (2 : Nat) ^ k < 2 ^ 64 := hc ▸ capacity.toNat_lt
    exact Nat.le_of_lt ((Nat.pow_lt_pow_iff_right (by decide)).mp this)
  have hmod : q.toNat % 2 ^ k = q'.toNat % 2 ^ k := by
    rw [← slot_toNat hc, ← slot_toNat hc, h]
  rw [toNat_of_span lo q, toNat_of_span lo q', Nat.mod_mod_of_dvd _ hk,
    Nat.mod_mod_of_dvd _ hk] at hmod
  have heq : span lo q % 2 ^ k = span lo q' % 2 ^ k := Nat.ModEq.add_left_cancel' lo.toNat hmod
  rw [Nat.mod_eq_of_lt hq, Nat.mod_eq_of_lt hq'] at heq
  exact eq_of_span_eq heq

end Sequence
