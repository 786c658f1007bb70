/-
The 64 bytes of a ring slot (`internal/ring/descriptor.go`): what the accessors write and
read, field by field, least significant byte first.

`RawDescriptor` is a slot as the accessors read it, whatever is in the bytes; the kind is
a 16-bit word there and the budget a word that is read as signed. `Descriptor` is a slot a
producer of this side fills.
-/
import Styx.Lib.Bytes
import Styx.Shm.Ring

namespace Styx

open ByteMem

namespace RingKind

/-- The wire value of a kind. -/
def code : RingKind → UInt8
  | .unaryReq => 0
  | .unaryResp => 1
  | .cancel => 2
  | .streamOpen => 3
  | .streamMsg => 4
  | .streamAck => 5
  | .streamClose => 6
  | .streamErr => 7
  | .unaryErr => 8
  | .streamChunk => 9

def assigned : List RingKind :=
  [.unaryReq, .unaryResp, .cancel, .streamOpen, .streamMsg, .streamAck, .streamClose, .streamErr, .unaryErr,
    .streamChunk]

/-- The kind of a wire value, `none` for an unassigned one. -/
def ofCode (b : UInt8) : Option RingKind := assigned.find? fun k => k.code == b

theorem ofCode_code {k : RingKind} : ofCode k.code = some k := by
  cases k <;> decide

end RingKind

/-! ## Signed words -/

/-- `uint64(v)` of an `int64`. -/
def uint64OfInt (v : Int) : UInt64 := UInt64.ofNat (v % 2 ^ 64).toNat

/-- `int64(u)` of a `uint64`. -/
def intOfUint64 (u : UInt64) : Int := if u.toNat < 2 ^ 63 then u.toNat else u.toNat - 2 ^ 64

/-- An `int64`'s range. -/
def IsInt64 (v : Int) : Prop := -2 ^ 63 ≤ v ∧ v < 2 ^ 63

theorem isInt64_zero : IsInt64 0 := ⟨by omega, by omega⟩

theorem intOfUint64_ofInt {v : Int} (h : IsInt64 v) : intOfUint64 (uint64OfInt v) = v := by
  obtain ⟨h1, h2⟩ := h
  have hu : (uint64OfInt v).toNat = (v % 2 ^ 64).toNat := UInt64.toNat_ofNat_of_lt' (by change _ < 2 ^ 64; omega)
  simp only [intOfUint64, hu]
  split <;> omega

/-! ## The slot -/

/-- A slot as its accessors read it. -/
structure RawDescriptor where
  callID : UInt64
  serviceID : UInt64
  methodID : UInt64
  payloadOffset : UInt32
  payloadLength : UInt32
  allocSeq : UInt64
  budget : UInt64
  kindWord : UInt16
  flags : UInt16
  generation : UInt32
  reserved : UInt64
  deriving DecidableEq

namespace RawDescriptor

def budgetNS (d : RawDescriptor) : Int := intOfUint64 d.budget

def kind (d : RawDescriptor) : UInt8 := d.kindWord.toUInt8

/-- The eleven fields at their offsets. -/
def fields (d : RawDescriptor) : List Field :=
  [⟨0, 8, d.callID.toNat⟩, ⟨8, 8, d.serviceID.toNat⟩, ⟨16, 8, d.methodID.toNat⟩, ⟨24, 4, d.payloadOffset.toNat⟩,
    ⟨28, 4, d.payloadLength.toNat⟩, ⟨32, 8, d.allocSeq.toNat⟩, ⟨40, 8, d.budget.toNat⟩, ⟨48, 2, d.kindWord.toNat⟩,
    ⟨50, 2, d.flags.toNat⟩, ⟨52, 4, d.generation.toNat⟩, ⟨56, 8, d.reserved.toNat⟩]

/-- The slot's bytes after every setter has run. -/
def store (raw : Nat → UInt8) (d : RawDescriptor) : Nat → UInt8 := putAll raw d.fields

/-- The slot as every getter reads it. -/
def load (raw : Nat → UInt8) : RawDescriptor where
  callID := UInt64.ofNat (getLE raw 0 8)
  serviceID := UInt64.ofNat (getLE raw 8 8)
  methodID := UInt64.ofNat (getLE raw 16 8)
  payloadOffset := UInt32.ofNat (getLE raw 24 4)
  payloadLength := UInt32.ofNat (getLE raw 28 4)
  allocSeq := UInt64.ofNat (getLE raw 32 8)
  budget := UInt64.ofNat (getLE raw 40 8)
  kindWord := UInt16.ofNat (getLE raw 48 2)
  flags := UInt16.ofNat (getLE raw 50 2)
  generation := UInt32.ofNat (getLE raw 52 4)
  reserved := UInt64.ofNat (getLE raw 56 8)

variable {d : RawDescriptor} {raw : Nat → UInt8}

theorem fields_disjoint : d.fields.Pairwise Field.Disjoint := by
  simp [fields, Field.Disjoint]

theorem getLE_store {off size v : Nat} (hf : ⟨off, size, v⟩ ∈ d.fields)
    (hv : v < 256 ^ size) : getLE (store raw d) off size = v := getLE_putAll fields_disjoint hf hv

/-- **A slot reads back as it was written**, whatever was in it before. -/
theorem load_store : load (store raw d) = d := by
  have h8 : ∀ {off : Nat} {v : UInt64}, ⟨off, 8, v.toNat⟩ ∈ d.fields → UInt64.ofNat (getLE (store raw d) off 8) = v := by
    intro off v hf
    rw [getLE_store hf v.toNat_lt]
    simp
  have h4 : ∀ {off : Nat} {v : UInt32}, ⟨off, 4, v.toNat⟩ ∈ d.fields → UInt32.ofNat (getLE (store raw d) off 4) = v := by
    intro off v hf
    rw [getLE_store hf v.toNat_lt]
    simp
  have h2 : ∀ {off : Nat} {v : UInt16}, ⟨off, 2, v.toNat⟩ ∈ d.fields → UInt16.ofNat (getLE (store raw d) off 2) = v := by
    intro off v hf
    rw [getLE_store hf v.toNat_lt]
    simp
  simp only [load]
  rw [h8 (v := d.callID) (by simp [fields]), h8 (v := d.serviceID) (by simp [fields]),
    h8 (v := d.methodID) (by simp [fields]), h4 (v := d.payloadOffset) (by simp [fields]),
    h4 (v := d.payloadLength) (by simp [fields]), h8 (v := d.allocSeq) (by simp [fields]),
    h8 (v := d.budget) (by simp [fields]), h2 (v := d.kindWord) (by simp [fields]),
    h2 (v := d.flags) (by simp [fields]), h4 (v := d.generation) (by simp [fields]),
    h8 (v := d.reserved) (by simp [fields])]

/-- The descriptor a slot holds, `none` where the kind word names no kind. -/
def descriptor? (d : RawDescriptor) : Option Descriptor :=
  if d.kindWord >>> 8 ≠ 0 then none
  else
    (RingKind.ofCode d.kind).map fun k =>
      { callID := d.callID, serviceID := d.serviceID, methodID := d.methodID, payloadOffset := d.payloadOffset,
        payloadLength := d.payloadLength, allocSeq := d.allocSeq, budgetNS := d.budgetNS, kind := k, flags := d.flags,
        generation := d.generation, reserved := d.reserved }

end RawDescriptor

/-- A descriptor as the setters leave it in the slot. -/
def Descriptor.raw (d : Descriptor) : RawDescriptor where
  callID := d.callID
  serviceID := d.serviceID
  methodID := d.methodID
  payloadOffset := d.payloadOffset
  payloadLength := d.payloadLength
  allocSeq := d.allocSeq
  budget := uint64OfInt d.budgetNS
  kindWord := d.kind.code.toUInt16
  flags := d.flags
  generation := d.generation
  reserved := d.reserved

theorem RingKind.code_word {k : RingKind} : k.code.toUInt16 >>> 8 = 0 ∧ k.code.toUInt16.toUInt8 = k.code := by
  cases k <;> decide

variable {d : Descriptor}

theorem Descriptor.descriptor?_raw :
    d.raw.descriptor? = some { d with budgetNS := intOfUint64 (uint64OfInt d.budgetNS) } := by
  obtain ⟨h1, h2⟩ := RingKind.code_word (k := d.kind)
  have hk : RingKind.ofCode d.raw.kind = some d.kind := by
    rw [RawDescriptor.kind, Descriptor.raw, h2]
    exact RingKind.ofCode_code
  simp only [RawDescriptor.descriptor?, hk, Option.map_some]
  rw [if_neg (by simpa [Descriptor.raw] using h1)]
  rfl

theorem Descriptor.descriptor?_raw_eq (h : IsInt64 d.budgetNS) : d.raw.descriptor? = some d := by
  rw [Descriptor.descriptor?_raw, intOfUint64_ofInt h]

end Styx
