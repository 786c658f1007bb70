/-
One side of one stream: the words and counters of `rpcruntime.Stream`, and what
each function of the engine does to them.

A stream is worked on by several goroutines at once: the one that opens it, the
direction's one sender, the receivers, the connection's reader, the ack dispatcher,
the winner of the terminal transition and the deadline watcher. Each has a position
(a `…Pc` field), and a step moves one of them over one atomic act of the source: a
compare-and-swap, a critical section, a `Send` that is answered. Two acts are one
step only where no other goroutine reads what stands between them.

Sequence numbers and cumulative counts are `Nat`: the source keeps them in 64 bits
and requires that they never wrap.
-/
import Styx.Transport.Frame

namespace Styx

/-! ## Frames -/

/-- A stream's frame on a lane, by kind; the number is its control word. -/
inductive StreamFrame
  | streamOpen (credits : Nat) (payload : Bytes)
  | streamMsg (seq : Nat) (payload : Bytes)
  | streamChunk (seq : Nat) (payload : Bytes)
  | streamAck (cumulative : Nat)
  | streamClose (finalSeq : Nat) (payload : Bytes)
  | streamErr (status : FrameStatus)
  | cancel (code : UInt32)
  deriving DecidableEq

def statusCodeStreamCanceled : UInt32 := 0xFFFFFF04
def statusCodeStreamDeadlineExceeded : UInt32 := 0xFFFFFF05
def statusCodeStreamIncompatible : UInt32 := 0xFFFFFF06
def statusCodeStreamBackpressure : UInt32 := 0xFFFFFF07

/-! ## Credit -/

/-- One direction's credit on one side: the first three count sends, the last three
deliveries. -/
structure CreditCounter where
  granted : Nat
  sent : Nat
  acked : Nat
  consumed : Nat
  ackedOut : Nat
  ackThresh : Nat
  deriving DecidableEq

/-- A `uint32` in the source, whose `n + 1` wraps at `2 ^ 32 - 1` alone; `Open` refuses a credit above 16. -/
def ceilHalf (n : Nat) : Nat := if (n + 1) / 2 = 0 then 1 else (n + 1) / 2

def newCreditCounter (initial : Nat) : CreditCounter := ⟨initial, 0, 0, 0, 0, ceilHalf initial⟩

/-- One send admitted, unless `granted - (sent - acked)` is zero. -/
def CreditCounter.reserve (c : CreditCounter) : Option CreditCounter :=
  if c.sent = c.acked + c.granted then none else some { c with sent := c.sent + 1 }

def CreditCounter.release (c : CreditCounter) : CreditCounter := { c with sent := c.sent - 1 }

def CreditCounter.replenishStrict (c : CreditCounter) (v : Nat) : Option CreditCounter :=
  if v ≤ c.acked then none else some { c with acked := v }

/-- One delivery recorded, and whether the count trigger fires. -/
def CreditCounter.consume (c : CreditCounter) : CreditCounter × Bool :=
  ({ c with consumed := c.consumed + 1 }, c.ackThresh ≤ c.consumed + 1 - c.ackedOut)

def CreditCounter.pending (c : CreditCounter) : Bool := c.ackedOut < c.consumed

def CreditCounter.advanceAckedOut (c : CreditCounter) (v : Nat) : CreditCounter :=
  if c.ackedOut < v then { c with ackedOut := v } else c

/-! ## The stream -/

inductive StreamSide
  | client
  | server
  deriving DecidableEq

inductive StreamShape
  | clientStreaming
  | serverStreaming
  | bidiStreaming
  deriving DecidableEq

inductive StreamOutcomeCode
  | completed
  | canceled
  | deadlineExceeded
  | peerError
  | crashed
  deriving DecidableEq

/-- The phase word; a terminal value is its outcome. -/
inductive StreamPhase
  | submitted
  | published
  | term (code : StreamOutcomeCode)
  deriving DecidableEq

/-- The lifecycle token. -/
inductive LifecycleToken
  | idle
  | ackOutstanding
  | cancelOwed
  | terminal
  deriving DecidableEq

inductive SendCloseState
  | idle
  | publishing
  | closed
  deriving DecidableEq

/-- A queued delivery; only a `STREAM_MSG` has taken a credit unit. -/
structure RecvItem where
  payload : Bytes
  credited : Bool
  deriving DecidableEq

structure StreamConfig where
  credits : Nat
  shape : StreamShape
  openPayload : Bytes
  deriving DecidableEq

structure ChunkPolicy where
  active : Bool
  ceiling : Nat
  sendInline : Nat
  recvInline : Nat
  deriving DecidableEq

/-! ## Positions -/

/-- `openStreamByID`, from admission on. -/
inductive OpenPc
  | publish
  | send
  | confirm
  | ambiguous (deadline : Bool)
  | discard
  | resolve
  /-- The application holds the stream. -/
  | opened
  | failed
  deriving DecidableEq

/-- The direction's one sender, in `SendMsg` or `CloseSend`. -/
inductive SendPc
  | idle
  | admitting (payload : Bytes)
  /-- Credit and number taken, the frame not yet answered for. -/
  | sending (payload : Bytes)
  /-- The same for the fragment at `off`, those before it accepted. -/
  | fragment (payload : Bytes) (off : Nat)
  /-- A context error after admission, the terminal transition still to make. -/
  | failing (deadline : Bool)
  | closing (payload : Bytes) (finalSeq : Nat)
  /-- The `STREAM_CLOSE` is accepted; then its half-close is committed; then its
  obligation is closed. -/
  | committing
  | discharging
  | completing
  deriving DecidableEq

/-- The ack dispatcher, on this stream. -/
inductive AckPc
  | idle
  | popped
  | checked
  | holding
  | built (cum : Nat)
  | published (cum : Nat)
  | refused
  | releasing (success : Bool)
  /-- The teardown `CANCEL` was left to it; then it is sent. -/
  | owing
  | discharging
  deriving DecidableEq

/-- The winner of the terminal transition, in `finishTerminal`. -/
inductive FinishPc
  | none
  | claim (locallyInitiated presend : Bool)
  | cancel
  | emit (locallyInitiated toAck : Bool)
  | settle (deferred : Bool)
  | signal
  | remove
  | finished
  deriving DecidableEq

/-- The detached sender of `EmitOwedOpenTeardown`. -/
inductive OwedPc
  | none
  | claim
  | cancel
  | emit
  | finished
  deriving DecidableEq

structure Stream where
  side : StreamSide
  shape : StreamShape
  openPayload : Bytes
  phase : StreamPhase
  closeLocal : Bool
  closeRemote : Bool
  token : LifecycleToken
  teardownCode : UInt32
  watcherStarted : Bool
  openSendPending : Bool
  sendCredit : CreditCounter
  sendSeq : Nat
  sendClosed : Bool
  sendCloseState : SendCloseState
  recvCredit : CreditCounter
  /-- The bound of the receive queue. -/
  recvCap : Nat
  recvCh : List RecvItem
  expectedSeq : Nat
  recvAccum : Bytes
  recvClosed : Bool
  armed : Bool
  deferred : Bool
  handlerErrStatus : Option FrameStatus
  done : Bool
  opener : OpenPc
  sender : SendPc
  /-- Receivers between taking a credited item and recording it, and between
  recording it and `arm`. -/
  delivering : Nat
  arming : Nat
  acker : AckPc
  /-- Back-off timers that have not fired. -/
  reArms : Nat
  finisher : FinishPc
  owed : OwedPc
  /-- Ghost: the payloads handed over, complete on the lane; those `RecvMsg` has
  returned, and whether it has returned `io.EOF`. -/
  handed : List Bytes
  delivered : List Bytes
  eof : Bool
  deriving DecidableEq

def defaultStreamCredit : Nat := 16

def StreamConfig.grant (cfg : StreamConfig) : Nat := if cfg.credits = 0 then defaultStreamCredit else cfg.credits

/-- A stream as admission leaves it. For a server-streaming method the opener's send
half is closed from the start, and the accepter has its one request and a closed
remote half. -/
def newStream (side : StreamSide) (cfg : StreamConfig) : Stream :=
  let opens := cfg.shape = .serverStreaming ∧ side = .client
  let accepts := cfg.shape = .serverStreaming ∧ side = .server
  { side, shape := cfg.shape, openPayload := cfg.openPayload
    phase := .submitted
    closeLocal := opens, closeRemote := accepts
    token := .idle, teardownCode := 0
    watcherStarted := side = .client, openSendPending := side = .client
    sendCredit := newCreditCounter cfg.grant, sendSeq := 0
    sendClosed := opens
    sendCloseState := if opens then .closed else .idle
    recvCredit := newCreditCounter cfg.grant
    recvCap := cfg.grant + 1
    recvCh := if accepts then [⟨cfg.openPayload, false⟩] else []
    expectedSeq := 1, recvAccum := [], recvClosed := accepts
    armed := false, deferred := false, handlerErrStatus := none, done := false
    opener := if side = .client then .publish else .opened
    sender := .idle, delivering := 0, arming := 0, acker := .idle, reArms := 0, finisher := .none, owed := .none
    handed := [], delivered := [], eof := false }

namespace Stream

def isLive (s : Stream) : Bool :=
  match s.phase with
  | .submitted | .published => true
  | .term _ => false

/-- The stream has ended with a recorded error; a completion records none. -/
def terminalErr (s : Stream) : Bool :=
  match s.phase with
  | .submitted | .published | .term .completed => false
  | .term _ => true

def bothClosed (s : Stream) : Bool := s.closeLocal && s.closeRemote

/-! ## The terminal transition -/

/-- `terminate` and `terminateLocked`: the first to leave a live phase wins and has
the teardown to do, the others change nothing. -/
def terminate (s : Stream) (code : StreamOutcomeCode) (teardownCode : UInt32) (locallyInitiated : Bool) : Stream :=
  if s.isLive then
    { s with
      phase := .term code, teardownCode, recvAccum := []
      finisher := .claim locallyInitiated s.openSendPending }
  else s

@[simp] theorem terminate_isLive {s : Stream} {code : StreamOutcomeCode} {teardownCode : UInt32} {l : Bool} :
    (s.terminate code teardownCode l).isLive = false := by
  unfold terminate
  split
  · rfl
  · next h => simpa using h

def mapDeadlineToTerminal (s : Stream) : Stream :=
  s.terminate .deadlineExceeded statusCodeStreamDeadlineExceeded true

def mapCancelToTerminal (s : Stream) : Stream := s.terminate .canceled statusCodeStreamCanceled true

/-- A context's end, by which it was. -/
def mapCtxToTerminal (s : Stream) (deadline : Bool) : Stream :=
  if deadline then s.mapDeadlineToTerminal else s.mapCancelToTerminal

def terminateHandlerError (s : Stream) (status : FrameStatus) : Stream :=
  if s.isLive then { s.terminate .peerError 0 false with handlerErrStatus := some status } else s

def discardUnaccepted (s : Stream) : Stream := s.terminate .crashed 0 false

/-! ## Inbound frames

Each handler runs with the stream live and its lock held. `false` is
`ErrStreamConformance`, with whatever had been changed by then. -/

def accumFits (accum fragment ceiling : Nat) : Bool := accum + fragment ≤ ceiling

def completeRecvAccum (p : ChunkPolicy) (accum final : Bytes) : Option Bytes :=
  if final.length = 0 ∨ p.recvInline < final.length then none
  else if accumFits accum.length final.length p.ceiling then some (accum ++ final)
  else none

/-- The message a `STREAM_MSG` completes: the pending train with it, or itself. -/
def message (p : ChunkPolicy) (accum payload : Bytes) : Option Bytes :=
  if accum = [] then some payload else completeRecvAccum p accum payload

def onStreamMsg (s : Stream) (p : ChunkPolicy) (seq : Nat) (payload : Bytes) : Stream × Bool :=
  if s.closeRemote then (s, false)
  else if seq ≠ s.expectedSeq then (s, false)
  else
    match message p s.recvAccum payload with
    | none => (s, false)
    | some msg =>
      let s : Stream := { s with recvAccum := [], expectedSeq := s.expectedSeq + 1 }
      if s.recvCh.length < s.recvCap then ({ s with recvCh := s.recvCh ++ [⟨msg, true⟩] }, true) else (s, false)

def onStreamChunk (s : Stream) (p : ChunkPolicy) (seq : Nat) (payload : Bytes) : Stream × Bool :=
  if s.closeRemote then (s, false)
  else if seq ≠ s.expectedSeq then (s, false)
  else if payload.length = 0 ∨ payload.length ≠ p.recvInline then (s, false)
  else if accumFits s.recvAccum.length payload.length p.ceiling then
    ({ s with expectedSeq := s.expectedSeq + 1, recvAccum := s.recvAccum ++ payload }, true)
  else (s, false)

def onStreamAck (s : Stream) (v : Nat) : Stream × Bool :=
  if v = 0 then (s, false)
  else if s.sendCredit.sent < v then (s, false)
  else
    match s.sendCredit.replenishStrict v with
    | none => (s, false)
    | some c => ({ s with sendCredit := c }, true)

/-- Remote end-of-stream is signalled; the stream completes if both halves are closed. -/
def remoteEOF (s : Stream) : Stream :=
  let s : Stream := { s with recvClosed := true }
  if s.bothClosed then s.terminate .completed 0 false else s

/-- A payload rides the frame if it has any bytes. -/
def onStreamClose (s : Stream) (finalSeq : Nat) (payload : Bytes) : Stream × Bool :=
  if s.recvAccum ≠ [] then (s, false)
  else if s.closeRemote then (s, false)
  else
    let s : Stream := { s with closeRemote := true }
    if finalSeq ≠ s.expectedSeq - 1 then (s, false)
    else if payload.length > 0 then
      if s.recvCh.length < s.recvCap then
        (remoteEOF { s with recvCh := s.recvCh ++ [⟨payload, false⟩] }, true)
      else (s, false)
    else (remoteEOF s, true)

def onStreamErr (s : Stream) (status : FrameStatus) : Stream :=
  if status.code = statusCodeStreamCanceled then s.terminate .canceled 0 false
  else if status.code = statusCodeStreamDeadlineExceeded then s.terminate .deadlineExceeded 0 false
  else s.terminate .peerError 0 false

def onTeardownCancel (s : Stream) (code : UInt32) : Stream × Bool :=
  if code = statusCodeStreamCanceled then (s.terminate .canceled 0 false, true)
  else if code = statusCodeStreamDeadlineExceeded then (s.terminate .deadlineExceeded 0 false, true)
  else (s, false)

/-- `Dispatch` and `DispatchTeardownCancel`, on a stream of the table. -/
def dispatch (s : Stream) (p : ChunkPolicy) (f : StreamFrame) : Stream × Bool :=
  if s.isLive then
    match f with
    | .streamMsg seq payload => s.onStreamMsg p seq payload
    | .streamChunk seq payload => s.onStreamChunk p seq payload
    | .streamAck v => s.onStreamAck v
    | .streamClose finalSeq payload => s.onStreamClose finalSeq payload
    | .streamErr status => (s.onStreamErr status, true)
    | .cancel code => s.onTeardownCancel code
    | .streamOpen _ _ => (s, false)
  else (s, true)

end Stream

end Styx
