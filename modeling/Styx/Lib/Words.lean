/-
Words as lists of bytes, most significant first and least significant first.
-/
import Mathlib.Tactic.Ring

namespace Words

/-- The low `n` bytes of `v`, most significant first. -/
def putBE : Nat → Nat → List UInt8
  | 0, _ => []
  | n + 1, v => UInt8.ofNat (v / 256 ^ n) :: putBE n v

def getBE (b : List UInt8) : Nat := b.foldl (fun n x => n * 256 + x.toNat) 0

/-- Least significant first. -/
def putLE (n v : Nat) : List UInt8 := (putBE n v).reverse

def getLE (b : List UInt8) : Nat := getBE b.reverse

variable {n v : Nat}

@[simp] theorem length_putBE : (putBE n v).length = n := by
  induction n with
  | zero => rfl
  | succ n ih => simp [putBE, ih]

@[simp] theorem length_putLE : (putLE n v).length = n := by
  simp [putLE]

theorem foldl_putBE (a : Nat) :
    (putBE n v).foldl (fun n x => n * 256 + x.toNat) a = a * 256 ^ n + v % 256 ^ n := by
  induction n generalizing a with
  | zero => simp [putBE, Nat.mod_one]
  | succ n ih =>
    have hmod : v % 256 ^ (n + 1) = v / 256 ^ n % 256 * 256 ^ n + v % 256 ^ n := by
      rw [Nat.pow_succ, Nat.mod_mul]
      ring
    simp only [putBE, List.foldl_cons, ih, UInt8.toNat_ofNat']
    rw [hmod]
    ring

theorem getBE_putBE (h : v < 256 ^ n) : getBE (putBE n v) = v := by
  rw [getBE, foldl_putBE, Nat.mod_eq_of_lt h]
  simp

theorem getLE_putLE (h : v < 256 ^ n) : getLE (putLE n v) = v := by
  rw [getLE, putLE, List.reverse_reverse, getBE_putBE h]

end Words
