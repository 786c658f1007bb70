/-
The writer of one shared-memory direction (`internal/transport/shm/writer.go`):
the goroutine that turns intents into descriptors, takes slabs for their
payloads, pushes them and frees the slabs once the consumer has passed them.

The functions are the source's, cut where the peer can move. `place` and
`emitLifecycle` read the consumer's head at three places: the reclaim before an
allocation, the push, and the reclaim in `published`. Each piece below reads it
once, so a consumer that advances inside a piece is one that advances right
after it, and `Sys` lets it advance between any two pieces. Metrics, the retry
timer and the wakeup are left out; the queues are the freedom to choose the next
intent.

Two fields are ghosts: `reports`, what callers were told, and `frees`, every
`Free` called, with the descriptors outstanding at that moment.
-/
import Styx.Lib.Machine
import Styx.Shm.Arena
import Styx.Shm.Ring

namespace Styx

open Sequence

/-! ## CRC-32C -/

/-- One byte of a reflected CRC with the Castagnoli polynomial. -/
def crc32cByte (crc : UInt32) (b : UInt8) : UInt32 :=
  (List.range 8).foldl (fun c _ => if c &&& 1 = 1 then (c >>> 1) ^^^ 0x82F63B78 else c >>> 1)
    (crc ^^^ b.toUInt32)

def crc32c (bytes : Bytes) : UInt32 := (bytes.foldl crc32cByte 0xFFFFFFFF) ^^^ 0xFFFFFFFF

def putUint32LE (n : UInt32) : Bytes :=
  [n.toUInt8, (n >>> 8).toUInt8, (n >>> 16).toUInt8, (n >>> 24).toUInt8]

def crc32TrailerLen : Nat := 4

/-- Descriptor flag bit 2: the slab carries a CRC-32C trailer. -/
def flagCRC32CPresent : UInt16 := 0x0004

/-! ## Intents -/

inductive FillState
  | pending
  | filling
  | abandoned
  deriving DecidableEq

/-- How a fill callback ends. -/
inductive FillResult
  | ok
  | err (text : Bytes)
  | panics (text : Bytes)
  deriving DecidableEq

/-- A payload the writer has to ask for: its size, the callback (what it writes
into a window of that size, and how it ends) and the hand-off word. -/
structure PayloadFill where
  size : Int
  fn : Nat → Bytes × FillResult
  state : FillState

namespace PayloadFill

def claim (f : PayloadFill) : Option PayloadFill :=
  if f.state = .pending then some { f with state := .filling } else none

def abandon (f : PayloadFill) : PayloadFill :=
  if f.state = .pending then { f with state := .abandoned } else f

def isAbandoned (f : PayloadFill) : Bool := f.state == .abandoned

end PayloadFill

inductive Lane
  | data
  | lifecycle
  | unknown (l : UInt8)
  deriving DecidableEq

/-- The lane `Send` puts a kind on. -/
def laneOf (k : FrameKind) : Lane := if k = .cancel ∨ k = .streamAck then .lifecycle else .data

/-- One submission; `id` stands for the caller's completion channel. -/
structure Intent where
  id : Nat
  frame : Frame
  lane : Lane
  wire : Option Bytes
  fill : Option PayloadFill

/-- Nobody has given up on the intent's fill. -/
def Intent.Live (i : Intent) (late : Bool) : Prop := ∀ p ∈ i.fill, late = false ∧ p.state = .pending

/-- The descriptor of a frame without a payload, and the fields a payload kind adds. -/
def Intent.bare (i : Intent) (gen : UInt32) (kind : RingKind) : Descriptor :=
  { Descriptor.zero with kind, callID := i.frame.callID, generation := gen, reserved := i.frame.control }

def Intent.head (i : Intent) (gen : UInt32) (kind : RingKind) : Descriptor :=
  { i.bare gen kind with serviceID := i.frame.service, methodID := i.frame.method, budgetNS := i.frame.budget }

/-- The ring kind of a frame kind, and whether it travels without a payload. -/
def mapKind (k : FrameKind) (chunkingActive : Bool) : Option (RingKind × Bool) :=
  match k with
  | .unaryReq => some (.unaryReq, false)
  | .unaryResp => some (.unaryResp, false)
  | .unaryErr => some (.unaryErr, false)
  | .cancel => some (.cancel, true)
  | .streamOpen => some (.streamOpen, false)
  | .streamMsg => some (.streamMsg, false)
  | .streamAck => some (.streamAck, true)
  | .streamClose => some (.streamClose, false)
  | .streamErr => some (.streamErr, false)
  | .streamChunk => if chunkingActive then some (.streamChunk, false) else none
  | .unassigned _ => none

inductive PoisonCause
  | generic | badGeometry | badFrame | ringCorrupt | checksum | peerCrash | badSync
  deriving DecidableEq

/-- What a caller is told when its frame is not published. -/
inductive SendErr
  | unknownLane
  | unsupportedKind
  | laneKindMismatch
  | fillOnDescriptorOnlyKind
  | sendAbandoned
  | payloadTooLarge
  | zeroLength
  | generationMismatch
  | payloadFillFailed (how : FillResult)
  | poisoned (cause : PoisonCause)
  | closed
  | ringFull
  | ringCorrupt
  deriving DecidableEq

/-- The bytes and the length of an intent's message. -/
def payloadOf (i : Intent) : Bytes × Int :=
  match i.fill with
  | some f => ([], f.size)
  | none =>
    let wire := i.wire.getD (wirePayload i.frame)
    (wire, wire.length)

/-! ## The writer -/

/-- A `Free` the writer called. -/
structure FreeCall where
  h : SlabHandle
  err : Option FreeErr
  outstanding : List Descriptor

structure Writer where
  ring : Ring
  arena : Arena
  gen : UInt32
  checksum : Bool
  chunkingActive : Bool
  maxStored : UInt32
  /-- The slab published at a sequence, by the sequence's slot. -/
  handleTable : UInt64 → Option SlabHandle
  lastReclaimed : UInt64
  pendingSlab : Option SlabHandle
  poison : Option PoisonCause
  shutdown : Bool
  reports : List (Nat × Option SendErr)
  frees : List FreeCall

namespace Writer

def report (w : Writer) (i : Intent) (err : Option SendErr) : Writer :=
  { w with reports := w.reports ++ [(i.id, err)] }

def freeSlab (w : Writer) (h : SlabHandle) : Writer :=
  match w.arena.free h with
  | .ok a => { w with arena := a, frees := w.frees ++ [⟨h, none, w.ring.outstanding⟩] }
  | .error e => { w with frees := w.frees ++ [⟨h, some e, w.ring.outstanding⟩] }

def freeSlab? (w : Writer) : Option SlabHandle → Writer
  | some h => w.freeSlab h
  | none => w

/-- The first cause stays; the shutdown word is set either way. -/
def setPoison (w : Writer) (cause : PoisonCause) : Writer :=
  { w with poison := w.poison <|> some cause, shutdown := true }

/-- The teardown the sync page reports: poison first, then shutdown. -/
def prePublishFault (w : Writer) : Option SendErr :=
  match w.poison with
  | some cause => some (.poisoned cause)
  | none => if w.shutdown then some .closed else none

/-! ### Reclaim -/

def setSlot (w : Writer) (q : UInt64) (ref : Option SlabHandle) : Writer :=
  { w with handleTable := Function.update w.handleTable (slot w.ring.capacity q) ref }

def handleAt (w : Writer) (q : UInt64) : Option SlabHandle := w.handleTable (slot w.ring.capacity q)

/-- One turn of the reclaim loop: free the slab at `lastReclaimed`, if there is one. -/
def reclaimOne (w : Writer) : Writer :=
  match w.handleAt w.lastReclaimed with
  | some h => { (w.freeSlab h).setSlot w.lastReclaimed none with lastReclaimed := w.lastReclaimed + 1 }
  | none => { w with lastReclaimed := w.lastReclaimed + 1 }

def reclaimLoop : Nat → Writer → Writer
  | 0, w => w
  | n + 1, w => reclaimLoop n w.reclaimOne

/-- Free every slab below the consumer's head. Both bounds distrust the peer's
word: past either, the region is poisoned and nothing is freed. -/
def reclaim (w : Writer) (maxReconcile : UInt64) : Writer :=
  let tail := w.ring.tail
  let depth := w.ring.len
  if depth > w.ring.capacity then w.setPoison .ringCorrupt
  else
    let head := tail - depth
    let steps := head - w.lastReclaimed
    if steps > maxReconcile then w.setPoison .ringCorrupt
    else reclaimLoop steps.toNat w

/-- Record a pushed descriptor's slab, or free it if the consumer is already past it. -/
def published (w : Writer) (seq : UInt64) (ref : Option SlabHandle) : Writer :=
  let w := (w.reclaim (w.ring.capacity + 1)).setSlot seq ref
  match ref with
  | some h => if w.lastReclaimed = seq + 1 then (w.freeSlab h).setSlot seq none else w
  | none => w

/-! ### Build -/

inductive BuildResult
  | failed
  | stuck
  | ok (i : Intent) (d : Descriptor)

/-- Run the callback over the window `[off, off + n)`. An empty window has
nothing to ask for. `late` is a caller that gives up before the claim. -/
def fillSlab (w : Writer) (i : Intent) (f : PayloadFill) (h : SlabHandle) (n : Nat) (late : Bool) :
    Writer × Option Intent :=
  match (if late then f.abandon else f).claim with
  | none => ((w.freeSlab h).report i (some .sendAbandoned), none)
  | some f =>
    if n = 0 then (w, some { i with fill := some f })
    else
      let r := f.fn n
      let w := { w with arena := w.arena.store h.offset (r.1.take n) }
      match r.2 with
      | .ok => (w, some { i with fill := some f })
      | how => ((w.freeSlab h).report i (some (.payloadFillFailed how)), none)

/-- Put the message into its slab: the callback's bytes, or a copy of the wire's. -/
def writePayload (w : Writer) (i : Intent) (h : SlabHandle) (wire : Bytes) (n : Nat) (late : Bool) :
    Writer × Option Intent :=
  match i.fill with
  | some f => w.fillSlab i f h n late
  | none => ({ w with arena := w.arena.store h.offset wire }, some i)

/-- Stamp a descriptor with the slab that now holds its payload. -/
def stamped (w : Writer) (d : Descriptor) (h : SlabHandle) (msgLen : Nat) : Descriptor :=
  { d with
    flags := if w.checksum then d.flags ||| flagCRC32CPresent else d.flags
    payloadOffset := UInt32.ofNat h.offset
    payloadLength := UInt32.ofNat msgLen
    generation := h.generation
    allocSeq := h.sequence }

/-- Append the checksum trailer to the slab's message. -/
def sealSlab (w : Writer) (h : SlabHandle) (msgLen : Nat) : Writer :=
  if w.checksum then
    let msg := (List.range msgLen).map fun k => w.arena.mem (h.offset + k)
    { w with arena := w.arena.store (h.offset + msgLen) (putUint32LE (crc32c msg)) }
  else w

def crcTrailer (w : Writer) : Nat := if w.checksum then crc32TrailerLen else 0

/-- The longest message the largest slab holds; `maxStored` is `0` only without a region. -/
def maxMsg (w : Writer) : Int := if w.maxStored ≠ 0 then w.maxStored.toNat - w.crcTrailer else maxFrameSize

def stampPayload (w : Writer) (i : Intent) (d : Descriptor) (wire : Bytes) (msgLen : Int) (late : Bool) :
    Writer × BuildResult :=
  if msgLen < 0 ∨ msgLen > w.maxMsg then (w.report i (some .payloadTooLarge), .failed)
  else
    let storedLen := msgLen.toNat + w.crcTrailer
    let w := w.reclaim w.ring.capacity
    match w.arena.alloc storedLen with
    | .error .exhausted => (w, .stuck)
    | .error .tooLarge => (w.report i (some .payloadTooLarge), .failed)
    | .error .zeroLength => (w.report i (some .zeroLength), .failed)
    | .ok (h, a) =>
      let w : Writer := { w with arena := a }
      if w.gen ≠ 0 ∧ h.generation ≠ w.gen then
        ((w.freeSlab h).report i (some .generationMismatch), .failed)
      else
        match w.writePayload i h wire msgLen.toNat late with
        | (w, none) => (w, .failed)
        | (w, some i) =>
          ({ w.sealSlab h msgLen.toNat with pendingSlab := some h }, .ok i (w.stamped d h msgLen.toNat))

/-- Build an intent's descriptor, taking a slab where its payload needs one. -/
def build (w : Writer) (i : Intent) (late : Bool) : Writer × BuildResult :=
  let w := { w with pendingSlab := none }
  match i.lane with
  | .unknown _ => (w.report i (some .unknownLane), .failed)
  | lane =>
    match mapKind i.frame.kind w.chunkingActive with
    | none => (w.report i (some .unsupportedKind), .failed)
    | some (rk, descriptorOnly) =>
      if descriptorOnly ≠ (lane == .lifecycle) then (w.report i (some .laneKindMismatch), .failed)
      else
        let d : Descriptor :=
          { Descriptor.zero with
            kind := rk, callID := i.frame.callID, generation := w.gen, reserved := i.frame.control }
        if descriptorOnly then
          if i.fill.isSome then (w.report i (some .fillOnDescriptorOnlyKind), .failed) else (w, .ok i d)
        else
          let d :=
            { d with serviceID := i.frame.service, methodID := i.frame.method, budgetNS := i.frame.budget }
          let (wire, msgLen) := payloadOf i
          if msgLen = 0 ∧ w.checksum = false then
            match i.fill with
            | none => (w, .ok i d)
            | some f =>
              match (if late then f.abandon else f).claim with
              | none => (w.report i (some .sendAbandoned), .failed)
              | some f => (w, .ok { i with fill := some f } d)
          else w.stampPayload i d wire msgLen late

/-! ### What a build can be -/

/-- A property kept by a free and by poisoning, and blind to what no frame depends on. -/
structure Freed (P : Writer → Prop) : Prop where
  free : ∀ {w : Writer} (h : SlabHandle), P w → P (w.freeSlab h)
  poison : ∀ {w : Writer} (cause : PoisonCause), P w → P (w.setPoison cause)
  blind : ∀ {w : Writer} (handleTable : UInt64 → Option SlabHandle) (lastReclaimed : UInt64) (pendingSlab : Option SlabHandle)
    (reports : List (Nat × Option SendErr)) (shutdown : Bool), P w →
    P { w with handleTable, lastReclaimed, pendingSlab, reports, shutdown }

namespace Freed

variable {P : Writer → Prop} {w : Writer}

theorem freeSlab? (hP : Freed P) (h : P w) (c : Option SlabHandle) : P (w.freeSlab? c) := by
  cases c with
  | none => exact h
  | some g => exact hP.free g h

theorem reclaimLoop (hP : Freed P) {n : Nat} : ∀ {w : Writer}, P w → P (Writer.reclaimLoop n w) := by
  induction n with
  | zero => exact id
  | succ n ih =>
    intro w h
    refine ih ?_
    unfold reclaimOne
    split
    · next g _ =>
      have hs : P ((w.freeSlab g).setSlot w.lastReclaimed none) := hP.blind _ _ _ _ _ (hP.free g h)
      exact hP.blind _ _ _ _ _ hs
    · exact hP.blind _ _ _ _ _ h

theorem reclaim (hP : Freed P) (h : P w) (m : UInt64) : P (w.reclaim m) := by
  simp only [Writer.reclaim]
  split
  · exact hP.poison _ h
  split
  · exact hP.poison _ h
  · exact hP.reclaimLoop h

theorem report (hP : Freed P) (h : P w) (i : Intent) (e : Option SendErr) : P (w.report i e) := hP.blind _ _ _ _ _ h

theorem published (hP : Freed P) (h : P w) (seq : UInt64) (ref : Option SlabHandle) : P (w.published seq ref) := by
  have hr : P ((w.reclaim (w.ring.capacity + 1)).setSlot seq ref) := hP.blind _ _ _ _ _ (hP.reclaim h _)
  cases ref with
  | none => exact hr
  | some g =>
    simp only [Writer.published]
    split
    · exact hP.blind _ _ _ _ _ (hP.free g hr)
    · exact hr

end Freed

variable {w w' : Writer} {i : Intent} {late : Bool} {h : SlabHandle} {n : Nat} {wire : Bytes} {r : BuildResult}

theorem claim_eq_some {p q : PayloadFill} (h : (if late then p.abandon else p).claim = some q) :
    late = false ∧ p.state = .pending := by
  by_cases hp : p.state = .pending
  · cases late with
    | true => simp [PayloadFill.claim, PayloadFill.abandon, hp] at h
    | false => exact ⟨rfl, hp⟩
  · cases late <;> simp [PayloadFill.claim, PayloadFill.abandon, hp] at h

theorem writePayload_cases {r : Option Intent} (hwire : i.fill = none → wire.length ≤ n)
    (he : w.writePayload i h wire n late = (w', r)) : ∃ bytes : Bytes, bytes.length ≤ n ∧
      (r = none ∧ (∃ e, w' = (freeSlab { w with arena := w.arena.store h.offset bytes } h).report i (some e)) ∨
      (∃ fill, r = some { i with fill }) ∧ i.Live late ∧ w' = { w with arena := w.arena.store h.offset bytes }) := by
  simp only [writePayload] at he
  split at he
  · next f hf =>
    simp only [fillSlab] at he
    split at he
    · cases he
      exact ⟨[], Nat.zero_le n, .inl ⟨rfl, .sendAbandoned, by rw [Arena.store_nil]⟩⟩
    next f' hclaim =>
    have hlive : i.Live late := fun p hp => by
      cases hf.symm.trans hp
      exact claim_eq_some hclaim
    split at he
    · cases he
      exact ⟨[], Nat.zero_le n, .inr ⟨⟨_, rfl⟩, hlive, by rw [Arena.store_nil]⟩⟩
    refine ⟨(f'.fn n).1.take n, List.length_take_le n _, ?_⟩
    split at he
    · cases he
      exact .inr ⟨⟨_, rfl⟩, hlive, rfl⟩
    · cases he
      exact .inl ⟨rfl, _, rfl⟩
  · next hf =>
    cases he
    exact ⟨wire, hwire hf, .inr ⟨⟨i.fill, rfl⟩, by simp [Intent.Live, hf], rfl⟩⟩

/-- Everything a build can be, from no slab in hand. -/
inductive Builds (w : Writer) (i : Intent) (late : Bool) : Writer → BuildResult → Prop
  | refused (e : SendErr) : Builds w i late (w.report i (some e)) .failed
  | bare {rk : RingKind} : i.lane = .lifecycle → mapKind i.frame.kind w.chunkingActive = some (rk, true) → i.Live late →
      Builds w i late w (.ok i (i.bare w.gen rk))
  | empty {rk : RingKind} (fill : Option PayloadFill) : i.lane ≠ .lifecycle →
      mapKind i.frame.kind w.chunkingActive = some (rk, false) → i.Live late →
      Builds w i late w (.ok { i with fill } (i.head w.gen rk))
  | stuck : i.lane ≠ .lifecycle → Builds w i late (w.reclaim w.ring.capacity) .stuck
  | unserved (e : SendErr) : i.lane ≠ .lifecycle →
      Builds w i late ((w.reclaim w.ring.capacity).report i (some e)) .failed
  | freed {h : SlabHandle} {a : Arena} {n : Nat} (bytes : Bytes) (e : SendErr) : i.lane ≠ .lifecycle →
      (w.reclaim w.ring.capacity).arena.alloc n = .ok (h, a) → bytes.length ≤ n →
      Builds w i late ((freeSlab { w.reclaim w.ring.capacity with arena := a.store h.offset bytes } h).report i (some e)) .failed
  | stamped {rk : RingKind} {h : SlabHandle} {a : Arena} {n : Nat} (fill : Option PayloadFill) (bytes : Bytes) :
      i.lane ≠ .lifecycle → mapKind i.frame.kind w.chunkingActive = some (rk, false) → i.Live late → n ≤ w.maxMsg →
      (w.reclaim w.ring.capacity).arena.alloc (n + w.crcTrailer) = .ok (h, a) → bytes.length ≤ n →
      Builds w i late
        { sealSlab { w.reclaim w.ring.capacity with arena := a.store h.offset bytes } h n with pendingSlab := some h }
        (.ok { i with fill } ((w.reclaim w.ring.capacity).stamped (i.head w.gen rk) h n))

theorem stampPayload_cases {rk : RingKind} {n : Int} (hl : i.lane ≠ .lifecycle)
    (hk : mapKind i.frame.kind w.chunkingActive = some (rk, false)) (hwire : i.fill = none → wire.length ≤ n.toNat)
    (he : w.stampPayload i (i.head w.gen rk) wire n late = (w', r)) : Builds w i late w' r := by
  simp only [stampPayload] at he
  split at he
  · cases he
    exact .refused _
  next hn =>
  split at he
  · cases he
    exact .stuck hl
  · cases he
    exact .unserved _ hl
  · cases he
    exact .unserved _ hl
  next h a ha =>
  split at he
  · cases he
    rw [← Arena.store_nil (a := a)]
    exact .freed [] _ hl ha (Nat.zero_le _)
  split at he
  · next hx =>
    cases he
    obtain ⟨bytes, hlen, ⟨-, e, rfl⟩ | ⟨⟨_, h⟩, -⟩⟩ := writePayload_cases hwire hx
    · exact .freed bytes e hl ha (by omega)
    · cases h
  · next hx =>
    cases he
    obtain ⟨bytes, hlen, ⟨h, -⟩ | ⟨⟨fill, h⟩, hlive, rfl⟩⟩ := writePayload_cases hwire hx
    · cases h
    · cases h
      exact .stamped fill bytes hl hk hlive (by omega) ha hlen

theorem build_cases (he : w.build i late = (w', r)) : Builds { w with pendingSlab := none } i late w' r := by
  have hwire : i.fill = none → (payloadOf i).1.length ≤ (payloadOf i).2.toNat := fun hf => by simp [payloadOf, hf]
  simp only [build] at he
  split at he
  · cases he
    exact .refused _
  split at he
  · cases he
    exact .refused _
  next rk b hk =>
  split at he
  · cases he
    exact .refused _
  next hlane =>
  split at he
  · next hb =>
    have hl : i.lane = .lifecycle := by simpa [hb] using hlane
    split at he
    · cases he
      exact .refused _
    · next hf =>
      cases he
      exact .bare hl (hb ▸ hk) fun p hp => absurd (by simp [Option.mem_def.mp hp]) hf
  next hb =>
  have hl : i.lane ≠ .lifecycle := by simpa [hb] using hlane
  rw [Bool.not_eq_true] at hb
  rw [hb] at hk
  split at he
  · split at he
    · next hf =>
      cases he
      exact .empty i.fill hl hk (by simp [Intent.Live, hf])
    next f hf =>
    split at he
    · cases he
      exact .refused _
    · next hclaim =>
      cases he
      refine .empty _ hl hk fun p hp => ?_
      cases hf.symm.trans hp
      exact claim_eq_some hclaim
  · exact stampPayload_cases hl hk hwire he

end Writer

/-! ## Placing a frame -/

/-- A data frame under way: what `place` keeps across attempts. -/
structure Carry where
  i : Intent
  /-- The built descriptor, cached while the ring is full. -/
  d : Option Descriptor
  slab : Option SlabHandle

/-- Where the writer goroutine stands. -/
inductive Pc
  | idle
  /-- A data frame is built and its push is next. -/
  | ready (c : Carry) (d : Descriptor)
  /-- A lifecycle frame is built and its push is next. -/
  | readyLifecycle (i : Intent) (d : Descriptor)
  /-- The tail has moved past `seq`; `published` is next. -/
  | pushed (seq : UInt64) (ref : Option SlabHandle) (i : Intent)
  | stopped

/-- One writer, its ring and arena, and the honest consumer at the other end. -/
structure Sys where
  w : Writer
  /-- The set-aside frame, while it is not being placed. -/
  stuck : Option Carry
  pc : Pc

namespace Sys

/-- The first part of `place`, up to its pre-publish check. -/
def place (s : Sys) (c : Carry) (late : Bool) : Sys :=
  if c.i.fill.any (·.isAbandoned) then
    { s with w := (s.w.freeSlab? c.slab).report c.i (some .sendAbandoned), stuck := none }
  else
    match c.d with
    | some d => { s with stuck := none, pc := .ready c d }
    | none =>
      match s.w.build c.i late with
      | (w, .failed) => { s with w, stuck := none }
      | (w, .stuck) => { s with w, stuck := some c }
      | (w, .ok i d) => { w, stuck := none, pc := .ready ⟨i, some d, w.pendingSlab⟩ d }

/-- The rest of `place`, up to `published`: the pre-publish check and the push. -/
def pushData (s : Sys) (c : Carry) (d : Descriptor) : Sys :=
  match s.w.prePublishFault with
  | some err => { s with w := (s.w.freeSlab? c.slab).report c.i (some err), pc := .idle }
  | none =>
    match s.w.ring.push d with
    | .ok r => { s with w := { s.w with ring := r }, pc := .pushed s.w.ring.tail c.slab c.i }
    | .error .full => { s with stuck := some c, pc := .idle }
    | .error .corrupt =>
      { s with
        w := ((s.w.setPoison .ringCorrupt).freeSlab? c.slab).report c.i (some .ringCorrupt), pc := .idle }

/-- `emitLifecycle` after its build: a full ring is reported, not waited for. -/
def pushLifecycle (s : Sys) (i : Intent) (d : Descriptor) : Sys :=
  match s.w.prePublishFault with
  | some err => { s with w := s.w.report i (some err), pc := .idle }
  | none =>
    match s.w.ring.push d with
    | .ok r => { s with w := { s.w with ring := r }, pc := .pushed s.w.ring.tail none i }
    | .error .full => { s with w := s.w.report i (some .ringFull), pc := .idle }
    | .error .corrupt =>
      { s with w := (s.w.setPoison .ringCorrupt).report i (some .ringCorrupt), pc := .idle }

/-- Free what the set-aside frame holds and tell its caller; the queues' intents
hold nothing. -/
def drainAndStop (s : Sys) : Sys :=
  match s.stuck with
  | some c => { w := (s.w.freeSlab? c.slab).report c.i (some .closed), stuck := none, pc := .stopped }
  | none => { s with pc := .stopped }

/-- Who moves, with the choices the outside makes. -/
inductive Act
  /-- `emitLifecycle` of the next lifecycle intent. -/
  | lifecycle (i : Intent)
  /-- `emit` of the next data intent: its first attempt. -/
  | data (i : Intent) (late : Bool)
  /-- `place` of the set-aside frame. -/
  | retry (late : Bool)
  | push
  | publish
  | stop
  /-- The consumer moves its head past one descriptor. -/
  | advance
  /-- The caller of the set-aside frame gives up. -/
  | abandon
  /-- The region is poisoned, or shut down, by anyone. -/
  | poison (cause : PoisonCause)
  | shutdown

/-- One step; `none` where the action is not enabled. -/
def step (s : Sys) : Act → Option Sys
  | .lifecycle i =>
    match s.pc with
    | .idle =>
      -- The queue of an intent is chosen by its lane.
      if i.lane = .lifecycle then
        match s.w.build i false with
        | (w, .ok i d) => some { s with w, pc := .readyLifecycle i d }
        | (w, _) => some { s with w }
      else none
    | _ => none
  | .data i late =>
    match s.pc, s.stuck with
    | .idle, none => if i.lane ≠ .lifecycle then some (s.place ⟨i, none, none⟩ late) else none
    | _, _ => none
  | .retry late =>
    match s.pc, s.stuck with
    | .idle, some c => some (s.place c late)
    | _, _ => none
  | .push =>
    match s.pc with
    | .ready c d => some (s.pushData c d)
    | .readyLifecycle i d => some (s.pushLifecycle i d)
    | _ => none
  | .publish =>
    match s.pc with
    | .pushed seq ref i => some { s with w := (s.w.published seq ref).report i none, pc := .idle }
    | _ => none
  | .stop =>
    match s.pc with
    | .idle => some s.drainAndStop
    | _ => none
  | .advance =>
    if s.w.ring.head ≠ s.w.ring.tail then some { s with w := { s.w with ring := s.w.ring.advance } } else none
  | .abandon =>
    match s.stuck with
    | some c => some { s with stuck := some { c with i := { c.i with fill := c.i.fill.map (·.abandon) } } }
    | none => none
  | .poison cause => some { s with w := s.w.setPoison cause }
  | .shutdown => some { s with w := { s.w with shutdown := true } }

/-- The frame an action places: the next data intent's first attempt, or the set-aside frame's next. -/
inductive Places (s : Sys) : Act → Carry → Bool → Prop
  | data {i : Intent} {late : Bool} : s.stuck = none → i.lane ≠ .lifecycle → Places s (.data i late) ⟨i, none, none⟩ late
  | retry {c : Carry} {late : Bool} : s.stuck = some c → Places s (.retry late) c late

/-- A refusal leaves the region as it is, or poisons one that was up. -/
def Marked (w w' : Writer) : Prop := w' = w ∨ w.prePublishFault = none ∧ w' = w.setPoison .ringCorrupt

/-- Everything a step can be. -/
inductive Moves (s : Sys) : Act → Sys → Prop
  | lifecycle {i i' : Intent} {w : Writer} {d : Descriptor} : s.pc = .idle → i.lane = .lifecycle →
      s.w.build i false = (w, .ok i' d) → Moves s (.lifecycle i) { s with w, pc := .readyLifecycle i' d }
  | lifecycleFailed {i : Intent} {w : Writer} {r : Writer.BuildResult} : s.pc = .idle → i.lane = .lifecycle →
      s.w.build i false = (w, r) → Moves s (.lifecycle i) { s with w, pc := .idle }
  | abandoned {a : Act} {c : Carry} {late : Bool} : s.pc = .idle → s.Places a c late →
      Moves s a ⟨(s.w.freeSlab? c.slab).report c.i (some .sendAbandoned), none, .idle⟩
  | resumed {a : Act} {c : Carry} {late : Bool} {d : Descriptor} : s.pc = .idle → s.Places a c late → c.d = some d →
      Moves s a ⟨s.w, none, .ready c d⟩
  | failed {a : Act} {c : Carry} {late : Bool} {w : Writer} : s.pc = .idle → s.Places a c late → c.d = none →
      s.w.build c.i late = (w, .failed) → Moves s a ⟨w, none, .idle⟩
  | waits {a : Act} {c : Carry} {late : Bool} {w : Writer} : s.pc = .idle → s.Places a c late → c.d = none →
      s.w.build c.i late = (w, .stuck) → Moves s a ⟨w, some c, .idle⟩
  | built {a : Act} {c : Carry} {late : Bool} {w : Writer} {i : Intent} {d : Descriptor} : s.pc = .idle →
      s.Places a c late → c.d = none → s.w.build c.i late = (w, .ok i d) →
      Moves s a ⟨w, none, .ready ⟨i, some d, w.pendingSlab⟩ d⟩
  | refused {c : Carry} {d : Descriptor} {w : Writer} (e : SendErr) : s.pc = .ready c d → Marked s.w w →
      Moves s .push { s with w := (w.freeSlab? c.slab).report c.i (some e), pc := .idle }
  | full {c : Carry} {d : Descriptor} : s.pc = .ready c d → Moves s .push { s with stuck := some c, pc := .idle }
  | pushed {c : Carry} {d : Descriptor} {r : Ring} : s.pc = .ready c d → s.w.prePublishFault = none →
      s.w.ring.push d = .ok r →
      Moves s .push { s with w := { s.w with ring := r }, pc := .pushed s.w.ring.tail c.slab c.i }
  | refusedLifecycle {i : Intent} {d : Descriptor} {w : Writer} (e : SendErr) : s.pc = .readyLifecycle i d →
      Marked s.w w → Moves s .push { s with w := w.report i (some e), pc := .idle }
  | pushedLifecycle {i : Intent} {d : Descriptor} {r : Ring} : s.pc = .readyLifecycle i d → s.w.prePublishFault = none →
      s.w.ring.push d = .ok r →
      Moves s .push { s with w := { s.w with ring := r }, pc := .pushed s.w.ring.tail none i }
  | publish {seq : UInt64} {ref : Option SlabHandle} {i : Intent} : s.pc = .pushed seq ref i →
      Moves s .publish { s with w := (s.w.published seq ref).report i none, pc := .idle }
  | drained {c : Carry} : s.pc = .idle → s.stuck = some c →
      Moves s .stop ⟨(s.w.freeSlab? c.slab).report c.i (some .closed), none, .stopped⟩
  | stop : s.pc = .idle → s.stuck = none → Moves s .stop { s with pc := .stopped }
  | advance : s.w.ring.head ≠ s.w.ring.tail → Moves s .advance { s with w := { s.w with ring := s.w.ring.advance } }
  | abandon {c : Carry} : s.stuck = some c →
      Moves s .abandon { s with stuck := some { c with i := { c.i with fill := c.i.fill.map (·.abandon) } } }
  | poison (cause : PoisonCause) : Moves s (.poison cause) { s with w := s.w.setPoison cause }
  | shutdown : Moves s .shutdown { s with w := { s.w with shutdown := true } }

variable {s t : Sys} {a : Act} {c : Carry} {d : Descriptor}

theorem place_moves {late : Bool} (hpc : s.pc = .idle) (hp : s.Places a c late) : Moves s a (s.place c late) := by
  obtain ⟨w, stuck, pc⟩ := s
  cases hpc
  simp only [place]
  split
  · exact .abandoned rfl hp
  split
  · next hd => exact .resumed rfl hp hd
  next hd =>
  split
  · next hb => exact .failed rfl hp hd hb
  · next hb => exact .waits rfl hp hd hb
  · next hb => exact .built rfl hp hd hb

theorem pushData_moves (hpc : s.pc = .ready c d) : Moves s .push (s.pushData c d) := by
  simp only [pushData]
  split
  · exact .refused _ hpc (.inl rfl)
  next hup =>
  split
  · next hr => exact .pushed hpc hup hr
  · exact .full hpc
  · exact .refused _ hpc (.inr ⟨hup, rfl⟩)

theorem pushLifecycle_moves {i : Intent} (hpc : s.pc = .readyLifecycle i d) : Moves s .push (s.pushLifecycle i d) := by
  simp only [pushLifecycle]
  split
  · exact .refusedLifecycle _ hpc (.inl rfl)
  next hup =>
  split
  · next hr => exact .pushedLifecycle hpc hup hr
  · exact .refusedLifecycle _ hpc (.inl rfl)
  · exact .refusedLifecycle _ hpc (.inr ⟨hup, rfl⟩)

theorem step_moves (h : s.step a = some t) : Moves s a t := by
  cases a <;> simp only [step] at h
  case lifecycle i =>
    split at h
    · next hpc =>
      split at h
      · next hl =>
        split at h
        · next hb => cases h; exact .lifecycle hpc hl hb
        · next hb =>
          cases h
          have hm := Moves.lifecycleFailed hpc hl hb
          rwa [← hpc] at hm
      · cases h
    · cases h
  case data i late =>
    split at h
    · next hpc hst =>
      obtain ⟨hl, ⟨⟩⟩ := Machine.guard_some h
      exact place_moves hpc (.data hst hl)
    · cases h
  case retry late =>
    split at h
    · next hpc hst => cases h; exact place_moves hpc (.retry hst)
    · cases h
  case push =>
    split at h
    · next hpc => cases h; exact pushData_moves hpc
    · next hpc => cases h; exact pushLifecycle_moves hpc
    · cases h
  case publish =>
    split at h
    · next hpc => cases h; exact .publish hpc
    · cases h
  case stop =>
    split at h
    · next hpc =>
      cases h
      unfold drainAndStop
      split
      · next hst => exact .drained hpc hst
      · next hst => exact .stop hpc hst
    · cases h
  case advance =>
    obtain ⟨hne, ⟨⟩⟩ := Machine.guard_some h
    exact .advance hne
  case abandon =>
    split at h
    · next hc => cases h; exact .abandon hc
    · cases h
  case poison cause => cases h; exact .poison cause
  case shutdown => cases h; exact .shutdown

end Sys

end Styx
