/-
Words in a byte memory, least significant byte first: reading a word of `n`
bytes at an offset, writing one, and writing a list of fields one after the other.

`getLE_putLE` and `getLE_putAll` are the two results callers use: a word reads
back as it was written, and a field of a list of disjoint fields reads back as
the list has it. What no field covers keeps its byte (`putAll_of_outside`).
-/
import Mathlib.Tactic.Ring

namespace ByteMem

/-- The word of `n` bytes at `off`. -/
def getLE (m : Nat → UInt8) (off : Nat) : Nat → Nat
  | 0 => 0
  | n + 1 => (m off).toNat + 256 * getLE m (off + 1) n

/-- The memory with the low `n` bytes of `v` written at `off`. -/
def putLE (m : Nat → UInt8) (off n v : Nat) : Nat → UInt8 :=
  fun x => if off ≤ x ∧ x < off + n then UInt8.ofNat (v / 256 ^ (x - off)) else m x

variable {m m' : Nat → UInt8} {off off' n n' v x : Nat}

theorem getLE_congr (h : ∀ x, off ≤ x → x < off + n → m x = m' x) : getLE m off n = getLE m' off n := by
  induction n generalizing off with
  | zero => rfl
  | succ n ih =>
    simp only [getLE]
    rw [h off (by omega) (by omega), ih fun x h1 h2 => h x (by omega) (by omega)]

theorem eq_zero_of_getLE (h : getLE m off n = 0) (h1 : off ≤ x) (h2 : x < off + n) : m x = 0 := by
  induction n generalizing off with
  | zero => omega
  | succ n ih =>
    simp only [getLE] at h
    by_cases hx : x = off
    · subst hx
      exact UInt8.toNat_inj.mp (by simp; omega)
    · have htail : getLE m (off + 1) n = 0 := by omega
      exact ih htail (by omega) (by omega)

theorem putLE_of_outside (h : x < off ∨ off + n ≤ x) : putLE m off n v x = m x := by
  simp only [putLE]
  rw [if_neg (by omega)]

theorem getLE_putLE (hv : v < 256 ^ n) : getLE (putLE m off n v) off n = v := by
  induction n generalizing m off v with
  | zero => simp only [getLE]; simp at hv; omega
  | succ n ih =>
    -- past its first byte the word is the word of `v / 256`, one byte further on
    have htail : getLE (putLE m off (n + 1) v) (off + 1) n = v / 256 := by
      have hword : getLE (putLE m (off + 1) n (v / 256)) (off + 1) n = v / 256 :=
        ih (by rw [Nat.pow_succ] at hv; omega)
      refine Eq.trans (getLE_congr fun x h1 h2 => ?_) hword
      simp only [putLE]
      rw [if_pos (by omega), if_pos (by omega), Nat.div_div_eq_div_mul]
      congr 2
      rw [← Nat.pow_succ']
      congr 1
      omega
    have hhead : (putLE m off (n + 1) v off).toNat = v % 256 := by
      simp [putLE]
    simp only [getLE]
    rw [htail, hhead]
    omega

/-! ## A list of fields -/

/-- A field: where it is, how many bytes it takes, and its value. -/
structure Field where
  off : Nat
  size : Nat
  value : Nat

/-- The fields written in order. -/
def putAll (m : Nat → UInt8) (fs : List Field) : Nat → UInt8 :=
  fs.foldl (fun m f => putLE m f.off f.size f.value) m

/-- Two fields share no byte. -/
def Field.Disjoint (f g : Field) : Prop := f.off + f.size ≤ g.off ∨ g.off + g.size ≤ f.off

theorem putAll_of_outside {fs : List Field} (h : ∀ f ∈ fs, x < f.off ∨ f.off + f.size ≤ x) :
    putAll m fs x = m x := by
  induction fs generalizing m with
  | nil => rfl
  | cons f fs ih =>
    simp only [putAll, List.foldl_cons]
    have hrest := ih (m := putLE m f.off f.size f.value) (fun g hg => h g (by simp [hg]))
    simp only [putAll] at hrest
    rw [hrest]
    exact putLE_of_outside (h f (by simp))

/-- **A field of a disjoint list reads back as the list has it.** -/
theorem getLE_putAll {fs : List Field} (hd : fs.Pairwise Field.Disjoint) {f : Field} (hf : f ∈ fs)
    (hv : f.value < 256 ^ f.size) : getLE (putAll m fs) f.off f.size = f.value := by
  induction fs generalizing m with
  | nil => simp at hf
  | cons g fs ih =>
    obtain ⟨hg, hd⟩ := List.pairwise_cons.mp hd
    rcases List.mem_cons.mp hf with rfl | hf
    · -- no later field touches this one
      have hkeep : getLE (putAll m (f :: fs)) f.off f.size = getLE (putLE m f.off f.size f.value) f.off f.size := by
        refine getLE_congr fun x h1 h2 => ?_
        simp only [putAll, List.foldl_cons]
        refine putAll_of_outside fun k hk => ?_
        have := hg k hk
        simp only [Field.Disjoint] at this
        omega
      rw [hkeep, getLE_putLE hv]
    · exact ih (m := putLE m g.off g.size g.value) hd hf

end ByteMem
