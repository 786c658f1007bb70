/-
The socket transport (`internal/transport/uds.go`): frames on a byte stream.

A frame is a header of fixed length, which declares how long the body is, and the body.
Both sides of a transfer loop over `read(2)` and `write(2)`, which may move fewer bytes
than they are asked for, be interrupted, or find nothing to do; a step here is one turn of
such a loop. A transfer that stops within a frame has lost the frame boundary, so the
transport is closed with it (`abortFrame`); one that stops before its first byte has not.

`Send` holds the write lock for its whole frame, so one frame is written at a time.
-/
import Styx.Lib.Words
import Styx.Lib.Machine
import Styx.Shm.Slot
import Styx.Transport.Status

namespace Styx

open Machine Words

/-! ## Header -/

def headerSize : Nat := 4 + 8 + 1 + 8 + 8 + 8

def controlWordSize : Nat := 8

structure UDSConfig where
  /-- The header shape: with the control word or without. -/
  streaming : Bool
  maxFrame : UInt32
  deriving DecidableEq

def UDSConfig.headerLen (c : UDSConfig) : Nat := if c.streaming then headerSize + controlWordSize else headerSize

namespace FrameKind

def code : FrameKind → UInt8
  | .unaryReq => 0
  | .unaryResp => 1
  | .cancel => 2
  | .streamOpen => 3
  | .streamMsg => 4
  | .streamAck => 5
  | .streamClose => 6
  | .streamErr => 7
  | .unaryErr => 8
  | .streamChunk => 9
  | .unassigned k => k

def named : List FrameKind :=
  [.unaryReq, .unaryResp, .cancel, .streamOpen, .streamMsg, .streamAck, .streamClose, .streamErr, .unaryErr, .streamChunk]

def ofCode (b : UInt8) : FrameKind := (named.find? fun k => k.code == b).getD (.unassigned b)

def implemented : FrameKind → Bool
  | .streamChunk | .unassigned _ => false
  | _ => true

theorem ofCode_code {k : FrameKind} (h : k.implemented = true) : ofCode k.code = k := by
  cases k <;> first | decide | cases h

end FrameKind

/-- The bytes that follow a frame's header. -/
def frameBody (f : Frame) : Bytes := if carriesStatusBody f.kind then encodeStatus f.status else f.payload

/-- Most significant byte first, but for the control word. -/
def encodeHeader (f : Frame) (payloadLen : Nat) (streaming : Bool) : Bytes :=
  putBE 4 payloadLen ++ putBE 8 f.callID.toNat ++ [f.kind.code] ++ putBE 8 f.service.toNat ++ putBE 8 f.method.toNat ++
    putBE 8 (uint64OfInt f.budget).toNat ++ (if streaming then putLE 8 f.control.toNat else [])

def bytesAt (buf : Bytes) (off n : Nat) : Bytes := (buf.drop off).take n

/-- The frame without its body, and the body's declared length. -/
def decodeHeader (buf : Bytes) (streaming : Bool) : Frame × Nat :=
  ({ callID := UInt64.ofNat (getBE (bytesAt buf 4 8))
     kind := .ofCode (UInt8.ofNat (getBE (bytesAt buf 12 1)))
     service := UInt64.ofNat (getBE (bytesAt buf 13 8))
     method := UInt64.ofNat (getBE (bytesAt buf 21 8))
     budget := intOfUint64 (UInt64.ofNat (getBE (bytesAt buf 29 8)))
     payload := []
     status := none
     control := if streaming then UInt64.ofNat (getLE (bytesAt buf headerSize controlWordSize)) else 0 },
   getBE (bytesAt buf 0 4))

/-! ## Transfers -/

/-- What stops a transfer from outside. -/
inductive IOErr
  | ctx (deadline : Bool)
  | receiveBudgetExpired
  | setsockopt
  | errno
  | eof
  deriving DecidableEq

/-- Why a transfer stopped; the last two are the frame's own. -/
inductive UDSErr
  | io (e : IOErr)
  | payloadTooLarge
  | streamChunkOnUDS
  deriving DecidableEq

/-- What `abortFrame` makes of it: `ErrClosed`, the cause with `ErrPoisoned`, or the cause. -/
inductive Abort
  | closed
  | poisoned (e : UDSErr)
  | failed (e : UDSErr)
  deriving DecidableEq

inductive SendResult
  | ok
  | unimplemented
  | tooLarge
  | aborted (a : Abort)
  deriving DecidableEq

def SendResult.ctx : SendResult → Bool
  | .aborted (.poisoned (.io (.ctx _))) | .aborted (.failed (.io (.ctx _))) => true
  | _ => false

inductive RecvResult
  | frame (f : Frame)
  | unimplemented (k : FrameKind)
  | malformedStatus (e : StatusErr)
  | aborted (a : Abort)
  deriving DecidableEq

/-- The frame in `writeFrame`, under the write lock. -/
structure Writing where
  frame : Frame
  /-- What is left of the header or of the body, and the body behind the header. -/
  buf : Bytes
  body : Bytes
  started : Bool
  /-- In `write(2)`. -/
  calling : Bool
  /-- Ghost: the bytes that have reached the socket. -/
  moved : Bytes
  deriving DecidableEq

/-- The receive under way. -/
inductive ReadPc
  | idle
  | header (got : Bytes)
  /-- A rejected kind's body, read and dropped. -/
  | drain (kind : FrameKind) (left : Nat)
  | body (f : Frame) (payloadLen : Nat) (got : Bytes)
  deriving DecidableEq

structure SendEntry where
  frame : Frame
  moved : Bytes
  result : SendResult
  deriving DecidableEq

structure RecvEntry where
  consumed : Bytes
  result : RecvResult
  deriving DecidableEq

structure UDSTransport where
  closed : Bool
  writing : Option Writing
  /-- Bytes the kernel holds for this end. -/
  inbox : Bytes
  reader : ReadPc
  readStarted : Bool
  /-- In `read(2)`. -/
  reading : Bool
  /-- Ghost: the bytes of the receive under way, what each call came to, and the buffers made. -/
  consumed : Bytes
  sends : List SendEntry
  receives : List RecvEntry
  allocated : List Nat
  deriving DecidableEq

namespace UDSTransport

def fresh : UDSTransport := ⟨false, none, [], .idle, false, false, [], [], [], []⟩

inductive Act
  | send (f : Frame)
  /-- The checks before `write(2)` pass, or one of them ends the write. -/
  | tryWrite
  | writeFails (e : IOErr)
  | wrote (n : Nat)
  /-- Interrupted, or no room within the poll interval. -/
  | writeAgain
  | writeErrno
  | recv
  /-- The context has ended, or the wait for readiness has failed. -/
  | recvRefused (e : IOErr)
  | tryRead
  | readFails (e : IOErr)
  | read (n : Nat)
  | readAgain
  | readErrno
  | readEOF
  | close
  | arrive (bytes : Bytes)
  deriving DecidableEq

def Act.writes : Act → Bool
  | .send _ | .tryWrite | .writeFails _ | .wrote _ | .writeAgain | .writeErrno => true
  | _ => false

def abort (x : UDSTransport) (e : UDSErr) (started : Bool) : Abort :=
  if x.closed then .closed else if started then .poisoned e else .failed e

def abortFrame (x : UDSTransport) (started : Bool) : UDSTransport := { x with closed := x.closed || started }

/-! ### Writing -/

def endSend (x : UDSTransport) (f : Frame) (moved : Bytes) (r : SendResult) : UDSTransport :=
  { x with writing := none, sends := x.sends ++ [⟨f, moved, r⟩] }

def abortSend (x : UDSTransport) (w : Writing) (e : UDSErr) : UDSTransport :=
  (x.abortFrame w.started).endSend w.frame w.moved (.aborted (x.abort e w.started))

def send (c : UDSConfig) (x : UDSTransport) (f : Frame) : UDSTransport :=
  if ¬ f.kind.implemented then x.endSend f [] .unimplemented
  else if c.maxFrame.toNat < (frameBody f).length then x.endSend f [] .tooLarge
  else { x with writing := some ⟨f, encodeHeader f (frameBody f).length c.streaming, frameBody f, false, false, []⟩ }

/-- `n` bytes are written; a header that is out is followed by its body. -/
def wrote (x : UDSTransport) (w : Writing) (n : Nat) : UDSTransport :=
  let moved := w.moved ++ w.buf.take n
  if w.buf.length ≤ n then
    if w.body = [] then x.endSend w.frame moved .ok
    else { x with writing := some { w with buf := w.body, body := [], started := true, calling := false, moved } }
  else { x with writing := some { w with buf := w.buf.drop n, started := true, calling := false, moved } }

/-! ### Reading -/

def endRecv (x : UDSTransport) (r : RecvResult) : UDSTransport :=
  { x with reader := .idle, readStarted := false, reading := false, consumed := [], receives := x.receives ++ [⟨x.consumed, r⟩] }

def abortRecv (x : UDSTransport) (e : UDSErr) : UDSTransport :=
  (x.abortFrame x.readStarted).endRecv (.aborted (x.abort e x.readStarted))

/-- What a body makes of its frame. -/
def bodyResult (f : Frame) (body : Bytes) : RecvResult :=
  if carriesStatusBody f.kind then
    match decodeStatus body with
    | .ok status => .frame { f with status := some status }
    | .error e => .malformedStatus e
  else .frame { f with payload := body }

def headerDone (c : UDSConfig) (x : UDSTransport) (header : Bytes) : UDSTransport :=
  let (f, payloadLen) := decodeHeader header c.streaming
  if c.maxFrame.toNat < payloadLen then x.abortRecv .payloadTooLarge
  else if f.kind = .streamChunk then x.abortRecv .streamChunkOnUDS
  else if ¬ f.kind.implemented then
    if payloadLen = 0 then x.endRecv (.unimplemented f.kind) else { x with reader := .drain f.kind payloadLen }
  else if payloadLen = 0 then x.endRecv (bodyResult f [])
  else { x with reader := .body f payloadLen [], allocated := x.allocated ++ [payloadLen] }

/-- The bytes the read asks for. -/
def want (c : UDSConfig) (x : UDSTransport) : Nat :=
  match x.reader with
  | .idle => 0
  | .header got => c.headerLen - got.length
  | .drain _ left => left
  | .body _ payloadLen got => payloadLen - got.length

/-- The bytes `read(2)` returned, in the stage they are read for. -/
def take (c : UDSConfig) (x : UDSTransport) (bytes : Bytes) : UDSTransport :=
  match x.reader with
  | .idle => x
  | .header got =>
    if got.length + bytes.length = c.headerLen then x.headerDone c (got ++ bytes)
    else { x with reader := .header (got ++ bytes) }
  | .drain kind left =>
    if bytes.length = left then x.endRecv (.unimplemented kind) else { x with reader := .drain kind (left - bytes.length) }
  | .body f payloadLen got =>
    if got.length + bytes.length = payloadLen then x.endRecv (bodyResult f (got ++ bytes))
    else { x with reader := .body f payloadLen (got ++ bytes) }

/-- `n` bytes leave the kernel for the receive. -/
def read (c : UDSConfig) (x : UDSTransport) (n : Nat) : UDSTransport :=
  let bytes := x.inbox.take n
  { x with inbox := x.inbox.drop n, consumed := x.consumed ++ bytes, readStarted := true, reading := false }.take c bytes

/-- One turn, and the bytes it puts on the socket. -/
def step (c : UDSConfig) (x : UDSTransport) : Act → Option (UDSTransport × Bytes)
  | .send f => if x.writing = none then some (x.send c f, []) else none
  | .tryWrite =>
    match x.writing with
    | some w =>
      if w.calling then none
      else if x.closed then some (x.abortSend w (.io .errno), [])
      else some ({ x with writing := some { w with calling := true } }, [])
    | none => none
  | .writeFails e =>
    match x.writing with
    | some w => if w.calling then none else some (x.abortSend w (.io e), [])
    | none => none
  | .wrote n =>
    match x.writing with
    | some w => if w.calling ∧ 0 < n ∧ n ≤ w.buf.length then some (x.wrote w n, w.buf.take n) else none
    | none => none
  | .writeAgain =>
    match x.writing with
    | some w => if w.calling then some ({ x with writing := some { w with calling := false } }, []) else none
    | none => none
  | .writeErrno =>
    match x.writing with
    | some w => if w.calling then some (x.abortSend w (.io .errno), []) else none
    | none => none
  | .recv =>
    if x.reader = .idle then
      if x.closed then some (x.endRecv (.aborted .closed), [])
      else some ({ x with reader := .header [], allocated := x.allocated ++ [c.headerLen] }, [])
    else none
  | .recvRefused e => if x.reader = .idle then some (x.endRecv (.aborted (.failed (.io e))), []) else none
  | .tryRead =>
    if x.reader ≠ .idle ∧ ¬ x.reading then
      if x.closed then some (x.abortRecv (.io .errno), []) else some ({ x with reading := true }, [])
    else none
  | .readFails e => if x.reader ≠ .idle ∧ ¬ x.reading then some (x.abortRecv (.io e), []) else none
  | .read n => if x.reading ∧ 0 < n ∧ n ≤ x.want c ∧ n ≤ x.inbox.length then some (x.read c n, []) else none
  | .readAgain => if x.reading then some ({ x with reading := false }, []) else none
  | .readErrno => if x.reading then some (x.abortRecv (.io .errno), []) else none
  | .readEOF => if x.reading ∧ x.inbox = [] then some (x.abortRecv (.io .eof), []) else none
  | .close => some ({ x with closed := true }, [])
  | .arrive bytes => some ({ x with inbox := x.inbox ++ bytes }, [])

/-- One transport against a peer that sends what it likes. -/
def alone (c : UDSConfig) (x : UDSTransport) (a : Act) : Option UDSTransport := (x.step c a).map Prod.fst

/-! ## One frame at a time -/

/-- A frame as it is on the wire. -/
def encodeFrame (c : UDSConfig) (f : Frame) : Bytes := encodeHeader f (frameBody f).length c.streaming ++ frameBody f

/-- What a whole frame is received as. -/
def frameResult (c : UDSConfig) (header body : Bytes) : RecvResult :=
  if (decodeHeader header c.streaming).1.kind.implemented then bodyResult (decodeHeader header c.streaming).1 body
  else .unimplemented (decodeHeader header c.streaming).1.kind

/-- All that has arrived, by the receive that consumed it. -/
def arrived (x : UDSTransport) : Bytes := x.receives.flatMap RecvEntry.consumed ++ x.consumed ++ x.inbox

/-- All that has been written, by the send that wrote it. -/
def written (x : UDSTransport) : Bytes := x.sends.flatMap SendEntry.moved ++ (x.writing.map Writing.moved).getD []

def inbound : Act → Bytes
  | .arrive bytes => bytes
  | _ => []

section Alone

variable {c : UDSConfig} {x y : UDSTransport} {a : Act} {out bytes : Bytes} {f : Frame} {e : UDSErr} {r : RecvResult} {n : Nat}
  {w : Writing}

theorem headerLen_pos : 0 < c.headerLen := by
  unfold UDSConfig.headerLen
  split <;> decide

/-- A header that is accepted, with the frame it begins. -/
structure Declared (c : UDSConfig) (header : Bytes) (f : Frame) (len : Nat) : Prop where
  length : header.length = c.headerLen
  decode : decodeHeader header c.streaming = (f, len)
  limit : len ≤ c.maxFrame.toNat
  kind : f.kind ≠ .streamChunk

/-- **Where a receive can be**: what it has consumed is what its stage has, and `started` tells whether that is anything. -/
inductive Stage (c : UDSConfig) (x : UDSTransport) : Prop
  | idle : x.reader = .idle → x.consumed = [] → x.reading = false → x.readStarted = false → Stage c x
  | header (got : Bytes) : x.reader = .header got → x.consumed = got → got.length < c.headerLen →
    (x.readStarted = true ↔ got ≠ []) → Stage c x
  | drain (header rest : Bytes) (f : Frame) (left : Nat) : x.reader = .drain f.kind left → x.consumed = header ++ rest →
    Declared c header f (rest.length + left) → f.kind.implemented = false → 0 < left → x.readStarted = true → Stage c x
  | body (header got : Bytes) (f : Frame) (len : Nat) : x.reader = .body f len got → x.consumed = header ++ got →
    Declared c header f len → f.kind.implemented = true → got.length < len → x.readStarted = true → Stage c x

theorem Stage.congr (h : Stage c x) (hr : y.reader = x.reader) (hc : y.consumed = x.consumed) (hrd : y.reading = x.reading)
    (hst : y.readStarted = x.readStarted) : Stage c y := by
  cases h with
  | idle h1 h2 h3 h4 => exact .idle (hr.trans h1) (hc.trans h2) (hrd.trans h3) (hst.trans h4)
  | header got h1 h2 h3 h4 => exact .header got (hr.trans h1) (hc.trans h2) h3 (by rw [hst]; exact h4)
  | drain hd rest f left h1 h2 h3 h4 h5 h6 => exact .drain hd rest f left (hr.trans h1) (hc.trans h2) h3 h4 h5 (hst.trans h6)
  | body hd got f len h1 h2 h3 h4 h5 h6 => exact .body hd got f len (hr.trans h1) (hc.trans h2) h3 h4 h5 (hst.trans h6)

theorem Declared.ne_nil {header rest : Bytes} {len : Nat} (h : Declared c header f len) : header ++ rest ≠ [] := by
  intro he
  have hpos := headerLen_pos (c := c)
  have hlen := h.length
  rw [(List.append_eq_nil_iff.mp he).1] at hlen
  simp only [List.length_nil] at hlen
  omega

theorem Stage.started (h : Stage c x) : x.readStarted = true ↔ x.consumed ≠ [] := by
  cases h with
  | idle _ hc _ hst => simp [hc, hst]
  | header got _ hc _ hst => rw [hc, hst]
  | drain _ _ _ _ _ hc hdec _ _ hst | body _ _ _ _ _ hc hdec _ _ hst => simp only [hc, hst, true_iff]; exact hdec.ne_nil

theorem Stage.want_pos (h : Stage c x) (hr : x.reader ≠ .idle) : 0 < x.want c := by
  unfold want
  cases h with
  | idle h1 => exact absurd h1 hr
  | header got h1 _ h3 | body hd got f len h1 _ _ _ h5 => rw [h1]; dsimp only; omega
  | drain hd rest f left h1 _ _ _ h5 => rw [h1]; exact h5

/-- How a transfer that moved `moved` may stop. -/
inductive Aborted (x y : UDSTransport) (moved : Bytes) (a : Abort) : Prop
  | poisoned (e : UDSErr) : moved ≠ [] → a = .poisoned e → x.closed = false → y.closed = true → Aborted x y moved a
  | closed : a = .closed → x.closed = true → y.closed = true → Aborted x y moved a
  | failed (e : UDSErr) : moved = [] → a = .failed e → y.closed = x.closed → Aborted x y moved a

theorem aborted_abort {moved : Bytes} {started : Bool} (hst : started = true ↔ moved ≠ [])
    (hy : y.closed = (x.closed || started)) : Aborted x y moved (x.abort e started) := by
  unfold abort
  cases hx : x.closed with
  | true => exact .closed rfl hx (by simp [hy, hx])
  | false =>
    cases started with
    | true => exact .poisoned e (hst.mp rfl) rfl hx (by simp [hy])
    | false =>
      refine .failed e ?_ rfl (by simp [hy, hx])
      by_contra hne
      exact absurd (hst.mpr hne) (by simp)

/-- A header that ends its connection: it declares a body above the limit, or a kind that never rides a socket. -/
def Refused (c : UDSConfig) (header : Bytes) : Prop :=
  header.length = c.headerLen ∧
    (c.maxFrame.toNat < (decodeHeader header c.streaming).2 ∨ (decodeHeader header c.streaming).1.kind = .streamChunk)

/-- **What a receive may come to.** It has taken one whole frame and left the transport as it was, or it was stopped. -/
inductive RecvFate (c : UDSConfig) (x y : UDSTransport) (e : RecvEntry) : Prop
  | whole (header body : Bytes) : e.consumed = header ++ body → header.length = c.headerLen →
    body.length = (decodeHeader header c.streaming).2 → body.length ≤ c.maxFrame.toNat →
    e.result = frameResult c header body → y.closed = x.closed → RecvFate c x y e
  | aborted (a : Abort) : e.result = .aborted a → Aborted x y e.consumed a →
    (∀ err, a = .poisoned err ∨ a = .failed err → (∃ io, err = .io io) ∨ Refused c e.consumed) → RecvFate c x y e

/-- What a step does to the receives. -/
structure RecvStep (c : UDSConfig) (x y : UDSTransport) : Prop where
  stage : Stage c y
  fate : y.receives = x.receives ∨ ∃ e, y.receives = x.receives ++ [e] ∧ y.reader = .idle ∧ RecvFate c x y e
  allocated : ∀ n ∈ y.allocated, n ∈ x.allocated ∨ n = c.headerLen ∨ n ≤ c.maxFrame.toNat

theorem RecvStep.same (h : Stage c x) (hr : y.reader = x.reader) (hc : y.consumed = x.consumed) (hrd : y.reading = x.reading)
    (hst : y.readStarted = x.readStarted) (hre : y.receives = x.receives) (hal : y.allocated = x.allocated) : RecvStep c x y :=
  ⟨h.congr hr hc hrd hst, .inl hre, fun _ hn => .inl (hal ▸ hn)⟩

/-- The transport within a step, before the receive goes on or ends. -/
structure Before (x z : UDSTransport) : Prop where
  closed : z.closed = x.closed
  receives : z.receives = x.receives
  allocated : z.allocated = x.allocated

variable {z : UDSTransport}

theorem Before.abort (h : Before x z) (hst : z.readStarted = true ↔ z.consumed ≠ [])
    (he : (∃ io, e = .io io) ∨ Refused c z.consumed) : RecvStep c x (z.abortRecv e) := by
  have habort : z.abort e z.readStarted = x.abort e z.readStarted := by simp only [UDSTransport.abort, h.closed]
  refine ⟨.idle rfl rfl rfl rfl, .inr ⟨⟨z.consumed, .aborted (z.abort e z.readStarted)⟩, ?_, rfl, .aborted _ rfl ?_ ?_⟩, fun _ hn => .inl ?_⟩
  · simp [abortRecv, endRecv, abortFrame, h.receives]
  · rw [habort]
    exact aborted_abort hst (by simp [abortRecv, endRecv, abortFrame, h.closed])
  · intro err herr
    have hsame : e = err := by
      unfold UDSTransport.abort at herr
      split at herr
      · simp at herr
      split at herr <;> simpa using herr
    rw [← hsame]
    exact he
  · simpa [abortRecv, endRecv, abortFrame, h.allocated] using hn

theorem Before.whole (h : Before x z) (header body : Bytes) (hc : z.consumed = header ++ body)
    (hlen : header.length = c.headerLen) (hbody : body.length = (decodeHeader header c.streaming).2)
    (hmax : body.length ≤ c.maxFrame.toNat) (hr : r = frameResult c header body) : RecvStep c x (z.endRecv r) := by
  refine ⟨.idle rfl rfl rfl rfl, .inr ⟨⟨z.consumed, r⟩, ?_, rfl, .whole header body hc hlen hbody hmax hr h.closed⟩, fun _ hn => .inl ?_⟩
  · simp [endRecv, h.receives]
  · simpa [endRecv, h.allocated] using hn

theorem Before.header {header : Bytes} (h : Before x z) (hc : z.consumed = header) (hlen : header.length = c.headerLen)
    (hst : z.readStarted = true) : RecvStep c x (z.headerDone c header) := by
  have hne : z.consumed ≠ [] := by
    intro he
    have hpos := headerLen_pos (c := c)
    rw [hc] at he
    simp [he] at hlen
    omega
  have hstarted : z.readStarted = true ↔ z.consumed ≠ [] := by simp [hst, hne]
  obtain ⟨f, len, hdec⟩ : ∃ f len, decodeHeader header c.streaming = (f, len) := ⟨_, _, rfl⟩
  simp only [headerDone, hdec]
  split
  · next hmax => exact h.abort hstarted (.inr ⟨by rw [hc]; exact hlen, .inl (by rw [hc, hdec]; exact hmax)⟩)
  next hmax =>
  split
  · next hkind => exact h.abort hstarted (.inr ⟨by rw [hc]; exact hlen, .inr (by rw [hc, hdec]; exact hkind)⟩)
  next hkind =>
  have hdecl : Declared c header f len := ⟨hlen, hdec, by omega, hkind⟩
  split
  · next himpl =>
    rw [Bool.not_eq_true] at himpl
    split
    · next hzero =>
      refine h.whole header [] (by simp [hc]) hlen (by simp [hdec, hzero]) (by simp) ?_
      simp [frameResult, hdec, himpl]
    · next hzero =>
      exact ⟨.drain header [] f len rfl (by simp [hc]) (by simpa using hdecl) himpl (by omega) hst, .inl h.receives,
        fun n hn => .inl (h.allocated ▸ hn)⟩
  next himpl =>
  rw [not_not] at himpl
  split
  · next hzero =>
    refine h.whole header [] (by simp [hc]) hlen (by simp [hdec, hzero]) (by simp) ?_
    simp [frameResult, hdec, himpl]
  · next hzero =>
    refine ⟨.body header [] f len rfl (by simp [hc]) hdecl himpl (by simpa using Nat.pos_of_ne_zero hzero) hst, .inl h.receives, ?_⟩
    intro n hn
    rcases List.mem_append.mp hn with hn | hn
    · exact .inl (h.allocated ▸ hn)
    · rw [List.mem_singleton] at hn
      exact .inr (.inr (hn ▸ hdecl.limit))

theorem Stage.read (h : Stage c x) (hn : 0 < n) (hwant : n ≤ x.want c) (hinbox : n ≤ x.inbox.length) :
    RecvStep c x (x.read c n) := by
  have hbytes : (x.inbox.take n).length = n := by simp; omega
  unfold want at hwant
  cases h with
  | idle h1 => rw [h1] at hwant; dsimp only at hwant; omega
  | header got h1 h2 h3 h4 =>
    rw [h1] at hwant
    dsimp only at hwant
    have hgot : (got ++ x.inbox.take n).length = got.length + n := by rw [List.length_append, hbytes]
    simp only [UDSTransport.read, UDSTransport.take, h1, hbytes]
    split
    · next hfull => exact Before.header ⟨rfl, rfl, rfl⟩ (by simp [h2]) (by omega) rfl
    · next hpart =>
      refine ⟨.header _ rfl (by simp [h2]) (by omega) ?_, .inl rfl, fun n hn => .inl hn⟩
      simp only [true_iff]
      intro he
      simp [he] at hgot
      omega
  | drain hd rest f left h1 h2 h3 h4 h5 h6 =>
    rw [h1] at hwant
    simp only [UDSTransport.read, UDSTransport.take, h1, hbytes]
    split
    · next hfull =>
      refine Before.whole ⟨rfl, rfl, rfl⟩ hd (rest ++ x.inbox.take n) (by simp [h2]) h3.length ?_ ?_ ?_
      · rw [h3.decode, List.length_append, hbytes, hfull]
      · rw [List.length_append, hbytes, hfull]
        exact h3.limit
      · simp [frameResult, h3.decode, h4]
    · next hpart =>
      dsimp only at hwant
      refine ⟨.drain hd (rest ++ x.inbox.take n) f (left - n) rfl (by simp [h2]) ?_ h4 (by omega) rfl, .inl rfl, fun n hn => .inl hn⟩
      have hsum : (rest ++ x.inbox.take n).length + (left - n) = rest.length + left := by
        rw [List.length_append, hbytes]
        omega
      rw [hsum]
      exact h3
  | body hd got f len h1 h2 h3 h4 h5 h6 =>
    rw [h1] at hwant
    dsimp only at hwant
    have hgot : (got ++ x.inbox.take n).length = got.length + n := by rw [List.length_append, hbytes]
    simp only [UDSTransport.read, UDSTransport.take, h1, hbytes]
    split
    · next hfull =>
      refine Before.whole ⟨rfl, rfl, rfl⟩ hd (got ++ x.inbox.take n) (by simp [h2]) h3.length ?_ ?_ ?_
      · rw [h3.decode, hgot, hfull]
      · rw [hgot, hfull]
        exact h3.limit
      · simp [frameResult, h3.decode, h4]
    · next hpart =>
      exact ⟨.body hd (got ++ x.inbox.take n) f len rfl (by simp [h2]) h3 h4 (by omega) rfl, .inl rfl, fun n hn => .inl hn⟩

theorem recvStep_abort {e : IOErr} (h : Stage c x) : RecvStep c x (x.abortRecv (.io e)) :=
  Before.abort ⟨rfl, rfl, rfl⟩ h.started (.inl ⟨e, rfl⟩)

/-- What a step that writes can be. -/
inductive Writes (c : UDSConfig) (x : UDSTransport) : Act → UDSTransport → Bytes → Prop
  | sends {f : Frame} : x.writing = none → Writes c x (.send f) (x.send c f) []
  | aborts {a : Act} {w : Writing} {e : UDSErr} : x.writing = some w → (∀ f, a ≠ .send f) →
    (∀ deadline, e = .io (.ctx deadline) → a = .writeFails (.ctx deadline)) → Writes c x a (x.abortSend w e) []
  | turns {a : Act} {w : Writing} {calling : Bool} : x.writing = some w → (∀ f, a ≠ .send f) →
    (calling = true → x.closed = false) → Writes c x a { x with writing := some { w with calling } } []
  | wrote {w : Writing} {n : Nat} : x.writing = some w → w.calling = true → 0 < n →
    Writes c x (.wrote n) (x.wrote w n) (w.buf.take n)

theorem step_writes (hs : x.step c a = some (y, out)) (ha : a.writes = true) : Writes c x a y out := by
  cases hw : x.writing with
  | none =>
    cases a with
    | send f =>
      obtain ⟨-, ⟨⟩⟩ := guard_some hs
      exact .sends hw
    | tryWrite | writeFails | wrote | writeAgain | writeErrno => simp [UDSTransport.step, hw] at hs
    | _ => cases ha
  | some w =>
    simp only [UDSTransport.step, hw] at hs
    cases a with
    | send f => cases hs
    | tryWrite =>
      obtain ⟨-, hs⟩ := unless_some hs
      split at hs <;> cases hs
      · exact .aborts hw (by simp) (by simp)
      · next hopen => exact .turns hw (by simp) fun _ => by simpa using hopen
    | writeFails e =>
      obtain ⟨-, ⟨⟩⟩ := unless_some hs
      exact .aborts hw (by simp) (by simp)
    | wrote n =>
      obtain ⟨hcond, ⟨⟩⟩ := guard_some hs
      exact .wrote hw hcond.1 hcond.2.1
    | writeAgain =>
      obtain ⟨-, ⟨⟩⟩ := guard_some hs
      exact .turns hw (by simp) (by simp)
    | writeErrno =>
      obtain ⟨-, ⟨⟩⟩ := guard_some hs
      exact .aborts hw (by simp) (by simp)
    | _ => cases ha

theorem Writes.frame (h : Writes c x a y out) :
    ∃ closed writing sends, y = { x with closed, writing, sends } ∧ (x.closed = true → closed = true) := by
  cases h with
  | sends =>
    unfold send
    split
    · exact ⟨_, _, _, rfl, id⟩
    split <;> exact ⟨_, _, _, rfl, id⟩
  | @aborts _ w => exact ⟨x.closed || w.started, _, _, rfl, fun h => by simp [h]⟩
  | turns => exact ⟨_, _, _, rfl, id⟩
  | wrote =>
    unfold UDSTransport.wrote
    dsimp only
    split
    · split <;> exact ⟨_, _, _, rfl, id⟩
    · exact ⟨_, _, _, rfl, id⟩

theorem Stage.of_idle (h : Stage c x) (hidle : x.reader = .idle) : x.consumed = [] ∧ x.readStarted = false := by
  cases h with
  | idle _ h2 _ h4 => exact ⟨h2, h4⟩
  | header got h1 | drain hd rest f left h1 | body hd got f len h1 => rw [hidle] at h1; cases h1

theorem Stage.reading (h : Stage c x) (hr : x.reader ≠ .idle) (reading : Bool) : Stage c { x with reading } := by
  cases h with
  | idle h1 => exact absurd h1 hr
  | header got h1 h2 h3 h4 => exact .header got h1 h2 h3 h4
  | drain hd rest f left h1 h2 h3 h4 h5 h6 => exact .drain hd rest f left h1 h2 h3 h4 h5 h6
  | body hd got f len h1 h2 h3 h4 h5 h6 => exact .body hd got f len h1 h2 h3 h4 h5 h6

theorem Stage.idle_of_reading (h : Stage c x) (hr : x.reading = true) : x.reader ≠ .idle := by
  intro hidle
  cases h with
  | idle _ _ h3 => rw [h3] at hr; cases hr
  | header _ h1 | drain _ _ _ _ h1 | body _ _ _ _ h1 => rw [hidle] at h1; cases h1

theorem Stage.step (h : Stage c x) (hs : x.step c a = some (y, out)) : RecvStep c x y := by
  by_cases hw : a.writes = true
  · obtain ⟨_, _, _, rfl, -⟩ := (step_writes hs hw).frame
    exact .same h rfl rfl rfl rfl rfl rfl
  cases a with
  | send | tryWrite | writeFails | wrote | writeAgain | writeErrno => exact absurd rfl hw
  | recv =>
    simp only [UDSTransport.step] at hs
    split at hs
    swap
    · cases hs
    split at hs
    · next hcl =>
      cases hs
      exact ⟨.idle rfl rfl rfl rfl, .inr ⟨_, rfl, rfl, .aborted _ rfl (.closed rfl hcl hcl) (by simp)⟩, fun _ hn => .inl hn⟩
    · next hidle _ =>
      cases hs
      obtain ⟨hc, hst⟩ := h.of_idle hidle
      refine ⟨.header [] rfl hc headerLen_pos (by simp [hst]), .inl rfl, fun n hn => ?_⟩
      rcases List.mem_append.mp hn with hn | hn
      · exact .inl hn
      · exact .inr (.inl (List.mem_singleton.mp hn))
  | recvRefused e =>
    obtain ⟨hidle, ⟨⟩⟩ := guard_some hs
    refine ⟨.idle rfl rfl rfl rfl, .inr ⟨_, rfl, rfl, .aborted _ rfl (.failed _ (h.of_idle hidle).1 rfl rfl) ?_⟩, fun _ hn => .inl hn⟩
    intro err herr
    exact .inl ⟨e, by simpa [eq_comm] using herr⟩
  | tryRead =>
    obtain ⟨hcond, hs⟩ := guard_some hs
    split at hs <;> cases hs
    · exact recvStep_abort h
    · exact ⟨h.reading hcond.1 true, .inl rfl, fun _ hn => .inl hn⟩
  | readFails e | readErrno | readEOF =>
    obtain ⟨-, ⟨⟩⟩ := guard_some hs
    exact recvStep_abort h
  | read n =>
    obtain ⟨hcond, ⟨⟩⟩ := guard_some hs
    exact h.read hcond.2.1 hcond.2.2.1 hcond.2.2.2
  | readAgain =>
    obtain ⟨hr, ⟨⟩⟩ := guard_some hs
    exact ⟨h.reading (h.idle_of_reading hr) false, .inl rfl, fun _ hn => .inl hn⟩
  | close | arrive =>
    cases hs
    exact .same h rfl rfl rfl rfl rfl rfl

/-! ### Sends -/

/-- A frame under way: what is out and what is left make the frame, and something is left. -/
structure WriteOk (c : UDSConfig) (w : Writing) : Prop where
  whole : w.moved ++ (w.buf ++ w.body) = encodeFrame c w.frame
  left : w.buf ≠ []
  started : w.started = true ↔ w.moved ≠ []
  kind : w.frame.kind.implemented = true
  limit : (frameBody w.frame).length ≤ c.maxFrame.toNat

/-- **What a send may come to.** -/
inductive SendFate (c : UDSConfig) (x y : UDSTransport) (e : SendEntry) : Prop
  | ok : e.result = .ok → e.moved = encodeFrame c e.frame → e.frame.kind.implemented = true →
    (frameBody e.frame).length ≤ c.maxFrame.toNat → y.closed = x.closed → SendFate c x y e
  | refused : e.result = .unimplemented ∨ e.result = .tooLarge → e.moved = [] → y.closed = x.closed → SendFate c x y e
  | aborted (a : Abort) : e.result = .aborted a → Aborted x y e.moved a → SendFate c x y e

/-- What a step does to the sends. -/
structure SendStep (c : UDSConfig) (x y : UDSTransport) (out : Bytes) : Prop where
  ok : ∀ w ∈ y.writing, WriteOk c w
  fate : y.sends = x.sends ∨ ∃ e, y.sends = x.sends ++ [e] ∧ SendFate c x y e
  written : y.written = x.written ++ out

theorem sendStep_abort (hw : WriteOk c w) (hx : x.writing = some w) : SendStep c x (x.abortSend w e) [] := by
  refine ⟨by simp [abortSend, endSend], .inr ⟨_, rfl, .aborted _ rfl (aborted_abort hw.started rfl)⟩, ?_⟩
  simp [written, abortSend, endSend, abortFrame, hx]

theorem encodeHeader_ne_nil {b : Bool} : encodeHeader f n b ≠ [] := by
  intro h
  have := congrArg List.length h
  simp [encodeHeader] at this

theorem wrote_cases : (x.wrote w n = x.endSend w.frame (w.moved ++ w.buf.take n) .ok ∧ w.buf.take n = w.buf ++ w.body) ∨
    ∃ w', x.wrote w n = { x with writing := some w' } ∧ w'.frame = w.frame ∧ w'.moved = w.moved ++ w.buf.take n ∧
      w'.started = true ∧ w'.buf ≠ [] ∧ w.buf.take n ++ (w'.buf ++ w'.body) = w.buf ++ w.body := by
  unfold wrote
  dsimp only
  split
  · next hall =>
    have hbuf : w.buf.take n = w.buf := List.take_of_length_le hall
    split
    · next hbody => exact .inl ⟨rfl, by rw [hbuf, hbody, List.append_nil]⟩
    · next hbody => exact .inr ⟨_, rfl, rfl, rfl, rfl, hbody, by simp [hbuf]⟩
  · next hpart =>
    refine .inr ⟨_, rfl, rfl, rfl, rfl, ?_, ?_⟩
    · rw [Ne, List.drop_eq_nil_iff]
      exact hpart
    · rw [← List.append_assoc, List.take_append_drop]

theorem WriteOk.take_ne_nil (hw : WriteOk c w) (hn : 0 < n) : w.buf.take n ≠ [] := by
  rw [Ne, List.take_eq_nil_iff]
  rintro (h | h)
  · omega
  · exact hw.left h

theorem WriteOk.wrote (hw : WriteOk c w) (hx : x.writing = some w) (hn : 0 < n) :
    SendStep c x (x.wrote w n) (w.buf.take n) := by
  have hmoved : w.moved ++ w.buf.take n ≠ [] := by simp [hw.take_ne_nil hn]
  have hwritten : x.written ++ w.buf.take n = x.sends.flatMap SendEntry.moved ++ (w.moved ++ w.buf.take n) := by
    simp [written, hx]
  rcases wrote_cases (x := x) (w := w) (n := n) with ⟨hy, hall⟩ | ⟨w', hy, hframe, hmoved', hstarted, hleft, hrest⟩
  · have hwhole : w.moved ++ w.buf.take n = encodeFrame c w.frame := by rw [hall, hw.whole]
    rw [hy]
    refine ⟨by simp [endSend], .inr ⟨_, rfl, .ok rfl hwhole hw.kind hw.limit rfl⟩, ?_⟩
    rw [hwritten]
    simp [written, endSend]
  · rw [hy]
    refine ⟨?_, .inl rfl, by rw [hwritten]; simp [written, hmoved']⟩
    intro w'' hw''
    cases hw''
    refine ⟨?_, hleft, ?_, hframe ▸ hw.kind, hframe ▸ hw.limit⟩
    · rw [hmoved', List.append_assoc, hrest, hw.whole, hframe]
    · rw [hmoved']
      simp only [hstarted, true_iff]
      exact hmoved

/-- What a receive does leaves the sends alone, and reopens nothing. -/
structure SendsKept (x y : UDSTransport) : Prop where
  writing : y.writing = x.writing
  sends : y.sends = x.sends
  closed : x.closed = true → y.closed = true

theorem SendsKept.abort : SendsKept x (x.abortRecv e) :=
  ⟨rfl, rfl, fun h => by simp [abortRecv, endRecv, abortFrame, h]⟩

theorem SendsKept.headerDone {header : Bytes} : SendsKept x (x.headerDone c header) := by
  unfold UDSTransport.headerDone
  dsimp only
  split
  · exact .abort
  split
  · exact .abort
  split
  · split <;> exact ⟨rfl, rfl, id⟩
  · split <;> exact ⟨rfl, rfl, id⟩

theorem SendsKept.take : SendsKept x (x.take c bytes) := by
  unfold UDSTransport.take
  split
  · exact ⟨rfl, rfl, id⟩
  · split
    · exact .headerDone
    · exact ⟨rfl, rfl, id⟩
  · split <;> exact ⟨rfl, rfl, id⟩
  · split <;> exact ⟨rfl, rfl, id⟩

theorem step_reads (hs : x.step c a = some (y, out)) (ha : a.writes = false) : SendsKept x y ∧ out = [] := by
  cases a with
  | send | tryWrite | writeFails | wrote | writeAgain | writeErrno => cases ha
  | recv =>
    obtain ⟨-, hs⟩ := guard_some hs
    split at hs <;> cases hs <;> exact ⟨⟨rfl, rfl, id⟩, rfl⟩
  | tryRead =>
    obtain ⟨-, hs⟩ := guard_some hs
    split at hs <;> cases hs
    · exact ⟨.abort, rfl⟩
    · exact ⟨⟨rfl, rfl, id⟩, rfl⟩
  | recvRefused | readAgain =>
    obtain ⟨-, ⟨⟩⟩ := guard_some hs
    exact ⟨⟨rfl, rfl, id⟩, rfl⟩
  | readFails | readErrno | readEOF =>
    obtain ⟨-, ⟨⟩⟩ := guard_some hs
    exact ⟨.abort, rfl⟩
  | read n =>
    obtain ⟨-, ⟨⟩⟩ := guard_some hs
    obtain ⟨hw, hsends, hclosed⟩ : SendsKept _ (x.read c n) := SendsKept.take
    exact ⟨⟨hw, hsends, hclosed⟩, rfl⟩
  | close =>
    cases hs
    exact ⟨⟨rfl, rfl, fun _ => rfl⟩, rfl⟩
  | arrive =>
    cases hs
    exact ⟨⟨rfl, rfl, id⟩, rfl⟩

theorem closed_step (hs : x.step c a = some (y, out)) (hc : x.closed = true) : y.closed = true := by
  cases hw : a.writes with
  | true =>
    obtain ⟨_, _, _, rfl, hclosed⟩ := (step_writes hs hw).frame
    exact hclosed hc
  | false => exact (step_reads hs hw).1.closed hc

theorem sendStep_step (h : ∀ w ∈ x.writing, WriteOk c w) (hs : x.step c a = some (y, out)) : SendStep c x y out := by
  cases hwr : a.writes with
  | false =>
    obtain ⟨hk, rfl⟩ := step_reads hs hwr
    exact ⟨hk.writing ▸ h, .inl hk.sends, by simp [written, hk.writing, hk.sends]⟩
  | true =>
  cases step_writes hs hwr with
  | sends hnone =>
    unfold send
    split
    · exact ⟨by simp [endSend], .inr ⟨_, rfl, .refused (.inl rfl) rfl rfl⟩, by simp [written, endSend, hnone]⟩
    next hkind =>
    split
    · exact ⟨by simp [endSend], .inr ⟨_, rfl, .refused (.inr rfl) rfl rfl⟩, by simp [written, endSend, hnone]⟩
    next hlimit =>
    refine ⟨?_, .inl rfl, by simp [written, hnone]⟩
    intro w hw
    cases hw
    exact ⟨rfl, encodeHeader_ne_nil, by simp, not_not.mp hkind, Nat.not_lt.mp hlimit⟩
  | aborts hw => exact sendStep_abort (h _ hw) hw
  | turns hw =>
    refine ⟨?_, .inl rfl, by simp [written, hw]⟩
    intro w' hw'
    cases hw'
    obtain ⟨h1, h2, h3, h4, h5⟩ := h _ hw
    exact ⟨h1, h2, h3, h4, h5⟩
  | wrote hw _ hn => exact (h _ hw).wrote hw hn

/-- What a step does to the frame under way and to the log of sends. -/
inductive SendMove (x y : UDSTransport) (a : Act) : Prop
  | kept : (∀ f, a ≠ .send f) → y.sends = x.sends → y.writing.map Writing.frame = x.writing.map Writing.frame → SendMove x y a
  | begun (f : Frame) : a = .send f → x.writing = none → y.sends = x.sends → y.writing.map Writing.frame = some f →
    SendMove x y a
  | refused (f : Frame) (r : SendResult) : a = .send f → x.writing = none → r.ctx = false → r ≠ .ok → y.writing = none →
    y.sends = x.sends ++ [⟨f, [], r⟩] → SendMove x y a
  | ended (e : SendEntry) : (∀ f, a ≠ .send f) → x.writing.map Writing.frame = some e.frame → y.writing = none →
    y.sends = x.sends ++ [e] → (e.result.ctx = true → ∃ deadline, a = .writeFails (.ctx deadline)) → SendMove x y a

theorem abort_ctx {started : Bool} (h : (SendResult.aborted (x.abort e started)).ctx = true) :
    ∃ deadline, e = .io (.ctx deadline) := by
  unfold abort SendResult.ctx at h
  grind

theorem sendMove_abort (hw : x.writing = some w) (ha : ∀ f, a ≠ .send f)
    (he : ∀ deadline, e = .io (.ctx deadline) → a = .writeFails (.ctx deadline)) : SendMove x (x.abortSend w e) a := by
  refine .ended ⟨w.frame, w.moved, .aborted (x.abort e w.started)⟩ ha (by simp [hw]) rfl rfl fun h => ?_
  obtain ⟨deadline, hctx⟩ := abort_ctx h
  exact ⟨deadline, he deadline hctx⟩

theorem sendMove_step (hs : x.step c a = some (y, out)) : SendMove x y a := by
  cases hwr : a.writes with
  | false =>
    obtain ⟨hk, -⟩ := step_reads hs hwr
    exact .kept (fun f h => by rw [h] at hwr; cases hwr) hk.sends (by rw [hk.writing])
  | true =>
  cases step_writes hs hwr with
  | sends hnone =>
    unfold send
    split
    · exact .refused _ _ rfl hnone rfl (by simp) rfl rfl
    split
    · exact .refused _ _ rfl hnone rfl (by simp) rfl rfl
    · exact .begun _ rfl hnone rfl rfl
  | aborts hw ha he => exact sendMove_abort hw ha he
  | turns hw ha => exact .kept ha rfl (by simp [hw])
  | @wrote w n hw =>
    rcases wrote_cases (x := x) (w := w) (n := n) with ⟨hy, -⟩ | ⟨w', hy, hframe, -⟩
    · rw [hy]
      exact .ended ⟨w.frame, _, .ok⟩ (by simp) (by simp [hw]) rfl rfl nofun
    · rw [hy]
      exact .kept (by simp) rfl (by simp [hw, hframe])

/-! ### Bytes in -/

theorem arrived_endRecv : (x.endRecv r).arrived = x.arrived := by
  simp [arrived, endRecv]

theorem arrived_abortRecv : (x.abortRecv e).arrived = x.arrived := by
  rw [abortRecv, arrived_endRecv]
  rfl

theorem arrived_headerDone {header : Bytes} : (x.headerDone c header).arrived = x.arrived := by
  unfold headerDone
  dsimp only
  split
  · exact arrived_abortRecv
  split
  · exact arrived_abortRecv
  split
  · split
    · exact arrived_endRecv
    · rfl
  · split
    · exact arrived_endRecv
    · rfl

theorem arrived_take : (x.take c bytes).arrived = x.arrived := by
  unfold UDSTransport.take
  split
  · rfl
  · split
    · exact arrived_headerDone
    · rfl
  · split
    · exact arrived_endRecv
    · rfl
  · split
    · exact arrived_endRecv
    · rfl

theorem arrived_step (hs : x.step c a = some (y, out)) : y.arrived = x.arrived ++ inbound a := by
  by_cases hw : a.writes = true
  · obtain ⟨_, _, _, rfl, -⟩ := (step_writes hs hw).frame
    have hin : inbound a = [] := by cases a <;> first | rfl | cases hw
    simp [hin, arrived]
  cases a with
  | send | tryWrite | writeFails | wrote | writeAgain | writeErrno => exact absurd rfl hw
  | recv =>
    obtain ⟨-, hs⟩ := guard_some hs
    split at hs <;> cases hs
    · simp [inbound, arrived_endRecv]
    · simp [inbound, arrived]
  | tryRead =>
    obtain ⟨-, hs⟩ := guard_some hs
    split at hs <;> cases hs
    · simp [inbound, arrived_abortRecv]
    · simp [inbound, arrived]
  | recvRefused =>
    obtain ⟨-, ⟨⟩⟩ := guard_some hs
    simp [inbound, arrived_endRecv]
  | readFails | readErrno | readEOF =>
    obtain ⟨-, ⟨⟩⟩ := guard_some hs
    simp [inbound, arrived_abortRecv]
  | read n =>
    obtain ⟨-, ⟨⟩⟩ := guard_some hs
    rw [UDSTransport.read, arrived_take]
    simp [inbound, arrived]
  | readAgain =>
    obtain ⟨-, ⟨⟩⟩ := guard_some hs
    simp [inbound, arrived]
  | close | arrive =>
    cases hs
    simp [inbound, arrived]

/-- What every reachable transport has, whoever its peer is. -/
structure Inv (c : UDSConfig) (x : UDSTransport) : Prop where
  stage : Stage c x
  write : ∀ w ∈ x.writing, WriteOk c w
  allocated : ∀ n ∈ x.allocated, n = c.headerLen ∨ n ≤ c.maxFrame.toNat

theorem Inv.fresh : Inv c fresh := ⟨.idle rfl rfl rfl rfl, by simp [UDSTransport.fresh], by simp [UDSTransport.fresh]⟩

theorem Inv.step (h : Inv c x) (hs : x.step c a = some (y, out)) : Inv c y := by
  have hr := h.stage.step hs
  refine ⟨hr.stage, (sendStep_step h.write hs).ok, fun n hn => ?_⟩
  rcases hr.allocated n hn with hn | hn
  · exact h.allocated n hn
  · exact hn

theorem Inv.alone (h : Inv c x) (hs : x.alone c a = some y) : Inv c y := by
  obtain ⟨⟨y', out⟩, hstep, rfl⟩ := Option.map_eq_some_iff.mp hs
  exact h.step hstep

theorem reach_inv (h : Reach (alone c) Any fresh x) : Inv c x :=
  h.invariant Inv.fresh fun hi _ hs => hi.alone hs

end Alone

end UDSTransport

end Styx
