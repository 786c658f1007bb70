/-
The descriptor ring of `internal/ring`: one producer, one consumer, two 64-bit
words in shared memory and a power-of-two slot table.

The capacity carries the constructor's own check as a field, so a ring of any
other size cannot be built. Words wrap; every comparison is a subtraction.
-/
import Styx.Lib.Sequence
import Styx.Transport.Frame

namespace Styx

open Sequence

/-- `ring.FrameKind`, the byte a descriptor stores. -/
inductive RingKind
  | unaryReq | unaryResp | cancel | streamOpen | streamMsg | streamAck | streamClose | streamErr
  | unaryErr | streamChunk
  deriving DecidableEq

/-- A descriptor's eleven fields, at their wire widths. -/
structure Descriptor where
  callID : UInt64
  serviceID : UInt64
  methodID : UInt64
  payloadOffset : UInt32
  payloadLength : UInt32
  allocSeq : UInt64
  budgetNS : Int
  kind : RingKind
  flags : UInt16
  generation : UInt32
  reserved : UInt64
  deriving DecidableEq

def Descriptor.zero : Descriptor := ⟨0, 0, 0, 0, 0, 0, 0, .unaryReq, 0, 0, 0⟩

structure Ring where
  slots : UInt64 → Descriptor
  head : UInt64
  tail : UInt64
  capacity : UInt64
  /-- A power of two in `[minCapacity, maxCapacity]`. -/
  valid : ∃ k, 6 ≤ k ∧ k ≤ 20 ∧ capacity.toNat = 2 ^ k

inductive PushErr
  | full
  | corrupt
  deriving DecidableEq

namespace Ring

def len (r : Ring) : UInt64 := r.tail - r.head

def write (r : Ring) (q : UInt64) (d : Descriptor) : Ring :=
  { r with slots := Function.update r.slots (slot r.capacity q) d }

def push (r : Ring) (d : Descriptor) : Except PushErr Ring :=
  let depth := r.tail - r.head
  if depth > r.capacity then .error .corrupt
  else if depth = r.capacity then .error .full
  else .ok { r.write r.tail d with tail := r.tail + 1 }

def advance (r : Ring) : Ring := { r with head := r.head + 1 }

def desc (r : Ring) (q : UInt64) : Descriptor := r.slots (slot r.capacity q)

/-- The descriptors of `[head, tail)`, oldest first: pushed and not yet consumed. -/
def outstanding (r : Ring) : List Descriptor := (seqs r.head (span r.head r.tail)).map r.desc

def Bounded (r : Ring) : Prop := span r.head r.tail ≤ r.capacity.toNat

theorem capacity_lt (r : Ring) : r.capacity.toNat ≤ 2 ^ 20 := by
  obtain ⟨k, _, hk, hc⟩ := r.valid
  rw [hc]
  exact Nat.pow_le_pow_right (by decide) hk

theorem capacity_pos (r : Ring) : 0 < r.capacity.toNat := by
  obtain ⟨k, _, _, hc⟩ := r.valid
  rw [hc]
  exact Nat.two_pow_pos k

theorem slot_inj (r : Ring) (lo : UInt64) {q q' : UInt64} (hq : span lo q < r.capacity.toNat)
    (hq' : span lo q' < r.capacity.toNat) (h : slot r.capacity q = slot r.capacity q') : q = q' := by
  obtain ⟨k, _, _, hc⟩ := r.valid
  rw [hc] at hq hq'
  exact Sequence.slot_inj hc lo hq hq' h

/-! ## What a push does -/

variable {d : Descriptor} {r r' : Ring}

theorem push_ok (h : r.push d = .ok r') :
    span r.head r.tail < r.capacity.toNat ∧ r' = { r.write r.tail d with tail := r.tail + 1 } := by
  simp only [push] at h
  split at h
  · cases h
  · next hgt =>
    split at h
    · cases h
    · next hne =>
      refine ⟨?_, (Except.ok.inj h).symm⟩
      have hle : (r.tail - r.head).toNat ≤ r.capacity.toNat := by
        rw [gt_iff_lt, UInt64.lt_iff_toNat_lt] at hgt
        omega
      have hne' : (r.tail - r.head).toNat ≠ r.capacity.toNat := fun he => hne (UInt64.toNat_inj.mp he)
      simp only [span]
      omega

theorem push_error {e : PushErr} (hb : r.Bounded) (h : r.push d = .error e) :
    e = .full ∧ span r.head r.tail = r.capacity.toNat := by
  simp only [push] at h
  split at h
  · next hgt =>
    rw [gt_iff_lt, UInt64.lt_iff_toNat_lt] at hgt
    exact absurd hb (by simp only [Bounded, span]; omega)
  · split at h
    · next heq =>
      refine ⟨(Except.error.inj h).symm, ?_⟩
      rw [span, heq]
    · cases h

theorem push_of_lt (h : span r.head r.tail < r.capacity.toNat) :
    r.push d = .ok { r.write r.tail d with tail := r.tail + 1 } := by
  have hgt : ¬ r.tail - r.head > r.capacity := by
    rw [gt_iff_lt, UInt64.lt_iff_toNat_lt]
    simp only [span] at h
    omega
  have hne : r.tail - r.head ≠ r.capacity := by
    intro he
    simp only [span, he] at h
    omega
  simp only [push, hgt, hne, if_false]

theorem outstanding_push (h : r.push d = .ok r') : r'.outstanding = r.outstanding ++ [d] := by
  obtain ⟨hlt, rfl⟩ := push_ok h
  have hcap := r.capacity_lt
  have hs : span r.head (r.tail + 1) = span r.head r.tail + 1 := span_succ (by omega)
  simp only [outstanding, write, hs]
  rw [seqs_back rfl, List.map_append, List.map_singleton]
  congr 1
  · refine List.map_congr_left fun q hq => ?_
    have hq' : span r.head q < span r.head r.tail := (mem_seqs (by omega)).mp hq
    have hne : slot r.capacity q ≠ slot r.capacity r.tail := by
      intro he
      rw [r.slot_inj r.head (by omega) hlt he] at hq'
      omega
    simp [Ring.desc, Function.update_of_ne hne]
  · simp [Ring.desc]

theorem outstanding_advance (h : r.head ≠ r.tail) :
    r.outstanding = r.desc r.head :: r.advance.outstanding := by
  simp only [outstanding, advance]
  rw [span_front h, seqs_succ]
  rfl

theorem length_outstanding : r.outstanding.length = span r.head r.tail := by
  simp [outstanding]

end Ring

end Styx
