/-
The receive side of one shared-memory direction: what `consumeDescriptor` makes of a
slot's words (`internal/transport/shm/transport.go`).

Nothing here trusts the slot: the offset is held against the class the stored length must
have come from, by the allocator's own selection. A payload is in hand either as a copy or
as a view of the slab; a view is read where it is used, so `Held.frame` takes the memory
of that moment.
-/
import Styx.Shm.Inbound
import Styx.Shm.Slot
import Styx.Transport.Status

namespace Styx

open ByteMem

/-- A conformance fault of the peer. -/
inductive Fault
  | badFrame
  /-- A certified status body that does not decode, as a bad frame. -/
  | badStatus (e : StatusErr)
  | checksum
  | ringCorrupt
  deriving DecidableEq

/-- `faultToPoisonCause`. -/
def Fault.cause : Fault → PoisonCause
  | .badFrame | .badStatus _ => .badFrame
  | .checksum => .checksum
  | .ringCorrupt => .ringCorrupt

/-! ## Bytes -/

/-- The bytes `[off, off + n)`. -/
def readBytes (mem : Nat → UInt8) (off n : Nat) : Bytes := (List.range n).map fun k => mem (off + k)

@[simp] theorem length_readBytes {mem : Nat → UInt8} {off n : Nat} : (readBytes mem off n).length = n := by
  simp [readBytes]

variable {off : Nat} {classes : List SizeClass}

theorem readBytes_congr {mem mem' : Nat → UInt8} {n : Nat} (h : ∀ x, off ≤ x → x < off + n → mem x = mem' x) :
    readBytes mem off n = readBytes mem' off n :=
  List.map_congr_left fun k hk => h _ (by omega) (by have := List.mem_range.mp hk; omega)

/-! ## Slabs of a class -/

/-- The class a stored length must have come from. -/
def servingClass (classes : List SizeClass) (storedLen : Nat) : Option Nat :=
  if storedLen > 2 ^ 32 - 1 then none else selectClass classes storedLen

/-- The offset names a whole slab of the serving class, and not the reserved one. -/
def slabInClass (classes : List SizeClass) (off storedLen : Nat) : Bool :=
  match servingClass classes storedLen with
  | none => false
  | some ci =>
    match classes[ci]? with
    | none => false
    | some c =>
      if off < c.classBaseOffset then false
      else
        let rel := off - c.classBaseOffset
        if rel % c.slabSize ≠ 0 then false
        else
          let idx := rel / c.slabSize
          if idx ≥ c.slabCount then false else !(ci == 0 && idx == 0)

theorem selectClass_fits {size ci : Nat} {c : SizeClass}
    (h : selectClass classes size = some ci) (hc : classes[ci]? = some c) : size ≤ c.slabSize := by
  obtain ⟨hlt, hp, -⟩ := List.findIdx?_eq_some_iff_getElem.mp h
  rw [List.getElem?_eq_getElem hlt] at hc
  cases hc
  simpa using hp

/-- The slab an offset names, as the consumer computes it. -/
structure SlabAt (classes : List SizeClass) (off storedLen ci idx : Nat) (c : SizeClass) : Prop where
  serving : selectClass classes storedLen = some ci
  entry : classes[ci]? = some c
  index : idx < c.slabCount
  offset : off = c.classBaseOffset + idx * c.slabSize
  present : ci ≠ 0 ∨ idx ≠ 0

theorem slabInClass_iff {storedLen : Nat} (hpos : ∀ c ∈ classes, 0 < c.slabSize) : slabInClass classes off storedLen = true ↔
      storedLen < 2 ^ 32 ∧ ∃ ci idx c, SlabAt classes off storedLen ci idx c := by
  constructor
  · intro h
    simp only [slabInClass] at h
    split at h
    · cases h
    next ci hci =>
    simp only [servingClass] at hci
    split at hci
    · cases hci
    split at h
    · cases h
    next c hc =>
    split at h
    · cases h
    next hbase =>
    split at h
    · cases h
    next hrem =>
    split at h
    · cases h
    next hidx =>
    have hdvd := Nat.div_mul_cancel (Nat.dvd_of_mod_eq_zero (not_not.mp hrem))
    exact ⟨by omega, ci, (off - c.classBaseOffset) / c.slabSize, c, hci, hc, by omega, by omega, by simpa using h⟩
  · rintro ⟨hlen, ci, idx, c, hs⟩
    have hserve : servingClass classes storedLen = selectClass classes storedLen := if_neg (by omega)
    have hc := hpos c (List.mem_of_getElem? hs.entry)
    have hrel : off - c.classBaseOffset = idx * c.slabSize := by
      have := hs.offset
      omega
    have hidx : (off - c.classBaseOffset) / c.slabSize = idx := by rw [hrel, Nat.mul_div_cancel _ hc]
    have hrem : (off - c.classBaseOffset) % c.slabSize = 0 := by rw [hrel, Nat.mul_mod_left]
    have hbase : ¬ off < c.classBaseOffset := by
      have := hs.offset
      omega
    have hlt := hs.index
    simp only [slabInClass, hserve, hs.serving, hs.entry, hbase, hrem, hidx, if_false, ne_eq, not_true_eq_false]
    rw [if_neg (by omega)]
    simpa using hs.present

/-! ## From a slot to a frame -/

namespace Descriptor

def hasCRC (d : Descriptor) : Bool := d.flags &&& flagCRC32CPresent != 0

/-- The bytes a slab holds for this descriptor: its message and the trailer. -/
def storedLen (d : Descriptor) : Nat := d.payloadLength.toNat + if d.hasCRC then crc32TrailerLen else 0

end Descriptor

/-- What a receiving side knows of its direction. -/
structure Inlet where
  classes : List SizeClass
  /-- The live generation, truncated as a slot carries it. -/
  gen : UInt32
  checksum : Bool
  chunkingActive : Bool
  maxRecvPayload : UInt32

/-- A payload: a private copy, or the slab itself until the head moves. -/
inductive Body
  | copied (bytes : Bytes)
  | view (off len : Nat)

def Body.bytes (mem : Nat → UInt8) : Body → Bytes
  | .copied bytes => bytes
  | .view off len => readBytes mem off len

/-- A validated descriptor with its payload in hand. -/
structure Held where
  d : Descriptor
  kind : FrameKind
  descriptorOnly : Bool
  span : Body

def descriptorOnlyFrame (d : Descriptor) (tk : FrameKind) : Frame :=
  { callID := d.callID, kind := tk, service := 0, method := 0, budget := 0, payload := [], status := none,
    control := d.reserved }

/-- `decodedFrame` whole: an error kind's body is its status. -/
def decodeFrame (d : Descriptor) (tk : FrameKind) (payload : Bytes) : Except StatusErr Frame :=
  if carriesStatusBody tk then
    match decodeStatus payload with
    | .ok status => .ok { decodedFrame d tk [] with status := some status }
    | .error e => .error e
  else .ok (decodedFrame d tk payload)

/-- The frame `protectedConsume` builds, from the memory it is built in. -/
def Held.frame (mem : Nat → UInt8) (h : Held) : Except Fault Frame :=
  if h.descriptorOnly then .ok (descriptorOnlyFrame h.d h.kind)
  else
    match decodeFrame h.d h.kind (h.span.bytes mem) with
    | .ok f => .ok f
    | .error e => .error (.badStatus e)

namespace Inlet

/-- The checks `payloadBytes` makes before it reads: where the payload is, `none` without a slab. -/
def slab (c : Inlet) (d : Descriptor) : Except Fault (Option Nat) :=
  if d.storedLen = 0 then
    if d.payloadOffset ≠ 0 ∨ d.allocSeq ≠ 0 then .error .badFrame else .ok none
  else if d.payloadOffset = 0 ∨ d.allocSeq = 0 then .error .badFrame
  else if d.payloadLength > c.maxRecvPayload then .error .badFrame
  else if slabInClass c.classes d.payloadOffset.toNat d.storedLen then .ok (some d.payloadOffset.toNat)
  else .error .badFrame

def payloadBytes (c : Inlet) (mem : Nat → UInt8) (d : Descriptor) (viewWanted : Bool) : Except Fault Body :=
  match c.slab d with
  | .error e => .error e
  | .ok none => .ok (.copied [])
  | .ok (some off) =>
    let plen := d.payloadLength.toNat
    if d.hasCRC then
      -- The bytes checked are the bytes delivered.
      let payload := readBytes mem off plen
      if crc32c payload ≠ UInt32.ofNat (getLE mem (off + plen) crc32TrailerLen) then .error .checksum
      else .ok (.copied payload)
    else if viewWanted then .ok (.view off plen)
    else .ok (.copied (readBytes mem off plen))

/-- `consumeDescriptor` on a live slot, up to its final gate. -/
def take (c : Inlet) (mem : Nat → UInt8) (r : RawDescriptor) (viewWanted : Bool) : Except Fault Held :=
  match r.descriptor? with
  | none => .error .badFrame
  | some d =>
    match classify c.checksum c.chunkingActive d with
    | .error _ => .error .badFrame
    | .ok (tk, true) => .ok ⟨d, tk, true, .copied []⟩
    | .ok (tk, false) =>
      match c.payloadBytes mem d viewWanted with
      | .error e => .error e
      | .ok span => .ok ⟨d, tk, false, span⟩

/-- A live slot's frame, when nothing moves in between. -/
def receive (c : Inlet) (mem : Nat → UInt8) (r : RawDescriptor) (viewWanted : Bool) : Except Fault Frame :=
  match c.take mem r viewWanted with
  | .ok h => h.frame mem
  | .error e => .error e

/-- The slot makes the consumer read this byte of the arena. -/
def Reads (c : Inlet) (r : RawDescriptor) (x : Nat) : Prop :=
  ∃ d off, r.descriptor? = some d ∧ c.slab d = .ok (some off) ∧ off ≤ x ∧ x < off + d.storedLen

variable {c : Inlet} {mem mem' : Nat → UInt8} {r : RawDescriptor} {d : Descriptor} {view : Bool} {off : Nat} {tk : FrameKind}

theorem slab_some_iff : c.slab d = .ok (some off) ↔
    off = d.payloadOffset.toNat ∧ d.storedLen ≠ 0 ∧ d.payloadOffset ≠ 0 ∧ d.allocSeq ≠ 0 ∧
      d.payloadLength ≤ c.maxRecvPayload ∧ slabInClass c.classes off d.storedLen = true := by
  unfold slab
  constructor
  · intro h
    split at h
    · split at h <;> cases h
    next hlen =>
    split at h
    · cases h
    next hne =>
    obtain ⟨hoff, hseq⟩ := not_or.mp hne
    split at h
    · cases h
    next hmax =>
    split at h
    · next hin =>
      cases h
      exact ⟨rfl, hlen, hoff, hseq, UInt32.not_lt.mp hmax, hin⟩
    · cases h
  · rintro ⟨rfl, hlen, hoff, hseq, hmax, hin⟩
    rw [if_neg hlen, if_neg (not_or.mpr ⟨hoff, hseq⟩), if_neg (UInt32.not_lt.mpr hmax), if_pos hin]

theorem slab_some (h : c.slab d = .ok (some off)) :
    off = d.payloadOffset.toNat ∧ d.allocSeq ≠ 0 ∧ slabInClass c.classes off d.storedLen = true := by
  obtain ⟨hoff, -, -, hseq, -, hin⟩ := slab_some_iff.mp h
  exact ⟨hoff, hseq, hin⟩

theorem receive_bare (hd : r.descriptor? = some d) (hc : classify c.checksum c.chunkingActive d = .ok (tk, true)) :
    c.receive mem r view = .ok (descriptorOnlyFrame d tk) := by
  simp [receive, take, hd, hc, Held.frame]

theorem receive_payload {span : Body} {f : Frame} (hd : r.descriptor? = some d)
    (hc : classify c.checksum c.chunkingActive d = .ok (tk, false)) (hp : c.payloadBytes mem d view = .ok span)
    (hf : decodeFrame d tk (span.bytes mem) = .ok f) : c.receive mem r view = .ok f := by
  simp [receive, take, hd, hc, hp, Held.frame, hf]

theorem payloadBytes_congr (h : ∀ off, c.slab d = .ok (some off) →
    ∀ x, off ≤ x → x < off + d.storedLen → mem x = mem' x) :
    c.payloadBytes mem d view = c.payloadBytes mem' d view := by
  simp only [payloadBytes]
  split
  · rfl
  · rfl
  next off hs =>
  have hmem := h off hs
  have hread : readBytes mem off d.payloadLength.toNat = readBytes mem' off d.payloadLength.toNat :=
    readBytes_congr fun x h1 h2 => hmem x h1 (by simp only [Descriptor.storedLen]; omega)
  by_cases hcrc : d.hasCRC = true
  · have hword : getLE mem (off + d.payloadLength.toNat) crc32TrailerLen =
        getLE mem' (off + d.payloadLength.toNat) crc32TrailerLen :=
      getLE_congr fun x h1 h2 => hmem x (by omega) (by simp only [Descriptor.storedLen, hcrc, if_true]; omega)
    simp only [hcrc, if_true, hread, hword]
  · simp only [hcrc, Bool.false_eq_true, if_false, hread]

theorem payloadBytes_view {len : Nat} (h : c.payloadBytes mem d view = .ok (.view off len)) :
    c.slab d = .ok (some off) ∧ len = d.payloadLength.toNat := by
  simp only [payloadBytes] at h
  split at h
  · cases h
  · cases h
  next off' hs =>
  split at h
  · split at h <;> cases h
  split at h
  · cases h
    exact ⟨hs, rfl⟩
  · cases h

theorem take_congr (h : ∀ x, c.Reads r x → mem x = mem' x) : c.take mem r view = c.take mem' r view := by
  simp only [take]
  split
  · rfl
  next d hd =>
  split
  · rfl
  · rfl
  · rw [payloadBytes_congr fun off hs x h1 h2 => h x ⟨d, off, hd, hs, h1, h2⟩]

theorem frame_congr {g : Held} (ht : c.take mem r view = .ok g)
    (h : ∀ x, c.Reads r x → mem x = mem' x) : g.frame mem = g.frame mem' := by
  have hspan : g.descriptorOnly = false → g.span.bytes mem = g.span.bytes mem' := by
    intro hdo
    simp only [take] at ht
    split at ht
    · cases ht
    next d hd =>
    split at ht
    · cases ht
    · cases ht
      cases hdo
    next tk hcl =>
    split at ht
    · cases ht
    next span hp =>
    cases ht
    cases span with
    | copied bytes => rfl
    | view off len =>
      obtain ⟨hs, rfl⟩ := payloadBytes_view hp
      exact readBytes_congr fun x h1 h2 => h x ⟨d, off, hd, hs, h1, by simp only [Descriptor.storedLen]; omega⟩
  simp only [Held.frame]
  split
  · rfl
  next hdo => rw [hspan (by simpa using hdo)]

/-- **Only the bytes a slot names matter to it.** -/
theorem receive_congr (h : ∀ x, c.Reads r x → mem x = mem' x) : c.receive mem r view = c.receive mem' r view := by
  simp only [receive, ← take_congr h]
  split
  · next g hg => exact frame_congr hg h
  · rfl

end Inlet

end Styx
