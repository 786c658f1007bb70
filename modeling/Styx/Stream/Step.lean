/-
The goroutines that work on one stream, an act at a time.

What a step does outside the stream's own record is its list of effects: frames
published on the connection's two outbound lanes, and calls on the table. What it
asks of the outside is in its action (how the transport answers a `Send`) or in
`Env` (whether the emitter's queue has room, whether the reader has drained).

A transport answers a data-lane `Send` in four ways. `ctxErr` is the ambiguous one:
the frame may or may not be published.
-/
import Styx.Stream.Engine

namespace Styx

inductive SendAnswer
  | accepted
  /-- `transport.NeverPublished`; set apart, backpressure. -/
  | neverPublished (backpressure : Bool)
  | ctxErr (published deadline : Bool)
  /-- Closed or poisoned. -/
  | connErr
  deriving DecidableEq

structure EmitJob where
  callID : UInt64
  status : FrameStatus
  reject : Bool
  keepObligation : Bool
  deriving DecidableEq

inductive Effect
  | data (f : StreamFrame)
  | life (f : StreamFrame)
  | appendArm
  | closeObligation
  /-- Admitted to the emitter's queue. -/
  | emit (status : FrameStatus) (keepObligation : Bool)
  | failConn
  | remove
  deriving DecidableEq

structure Env where
  policy : ChunkPolicy
  room : Bool
  drained : Bool

namespace Stream

/-! ## The opener -/

inductive OpenAct
  | publish
  /-- `unknown`: the transport cannot tell whether a refused frame was accepted. -/
  | send (a : SendAnswer) (unknown : Bool)
  | confirm
  | ambiguous
  | discard
  /-- `tearing`: the table is closing, so the owed pair is skipped. -/
  | resolve (tearing : Bool)
  deriving DecidableEq

def openFrame (s : Stream) : StreamFrame :=
  .streamOpen s.sendCredit.granted (if s.shape = .serverStreaming then s.openPayload else [])

/-- What is handed over with the `STREAM_OPEN`. -/
def openHanded (s : Stream) : List Bytes := if s.shape = .serverStreaming then [s.openPayload] else []

def publishOpen (s : Stream) : Stream := { s with handed := s.handed ++ s.openHanded }

def openerStep (s : Stream) : OpenAct → Option (Stream × List Effect)
  | .publish =>
    if s.opener = .publish then
      if s.phase = .submitted then some ({ s with phase := .published, opener := .send }, [])
      else some ({ s with opener := .failed }, [])
    else none
  | .send a unknown =>
    if s.opener = .send then
      match a with
      | .accepted => some ({ s.publishOpen with opener := .confirm }, [.data s.openFrame])
      | .neverPublished _ | .connErr => some ({ s with opener := .discard }, [])
      | .ctxErr true deadline => some ({ s.publishOpen with opener := .ambiguous deadline }, [.data s.openFrame])
      | .ctxErr false deadline =>
        some ({ s with opener := if unknown then .ambiguous deadline else .discard }, [])
    else none
  | .confirm =>
    if s.opener = .confirm then
      if s.phase = .published then some ({ s with openSendPending := false, opener := .opened }, [])
      else some ({ s with opener := .resolve }, [])
    else none
  | .ambiguous =>
    match s.opener with
    | .ambiguous deadline => some ({ s.mapCtxToTerminal deadline with opener := .resolve }, [])
    | _ => none
  | .discard => if s.opener = .discard then some ({ s.discardUnaccepted with opener := .failed }, []) else none
  | .resolve tearing =>
    if s.opener = .resolve ∧ s.done then
      some ({ s with
        opener := if s.phase = .term .completed then .opened else .failed
        owed := if s.teardownCode = 0 ∨ tearing then s.owed else .claim }, [])
    else none

/-! ## The sender -/

inductive SendAct
  | sendMsg (payload : Bytes)
  | reserve
  /-- The wait for credit ends without any. -/
  | abandon
  | transmit (a : SendAnswer)
  | fail
  | closeSend (payload : Bytes)
  | commit
  | discharge
  | complete
  deriving DecidableEq

def chunked (p : ChunkPolicy) (payload : Bytes) : Bool := p.active && p.sendInline < payload.length

/-- The newest reservation, credit unit and number, rolled back. -/
def rollback (s : Stream) : Stream :=
  { s with sendCredit := s.sendCredit.release, sendSeq := s.sendSeq - 1, sender := .idle }

/-- The answer to a message's one frame. -/
def msgAnswered (s : Stream) (payload : Bytes) : SendAnswer → Stream × List Effect
  | .accepted =>
    ({ s with sender := .idle, handed := s.handed ++ [payload] }, [.data (.streamMsg s.sendSeq payload)])
  | .neverPublished _ => (s.rollback, [])
  | .ctxErr true deadline =>
    ({ s with sender := .failing deadline, handed := s.handed ++ [payload] },
      [.data (.streamMsg s.sendSeq payload)])
  | .ctxErr false deadline => ({ s with sender := .failing deadline }, [])
  | .connErr => ({ s with sender := .idle }, [])

def lastFragment (p : ChunkPolicy) (payload : Bytes) (off : Nat) : Bool := payload.length ≤ off + p.sendInline

/-- The last fragment is an ordinary `STREAM_MSG` and completes the message. -/
def fragmentFrame (p : ChunkPolicy) (payload : Bytes) (off seq : Nat) : StreamFrame :=
  if lastFragment p payload off then .streamMsg seq (payload.drop off)
  else .streamChunk seq ((payload.drop off).take p.sendInline)

/-- The message, if this fragment completes it. -/
def fragmentHanded (p : ChunkPolicy) (payload : Bytes) (off : Nat) : List Bytes :=
  if lastFragment p payload off then [payload] else []

/-- The answer to one fragment. Before the first is accepted the train is invisible
and rolls back; after that a refused fragment is retried or ends the stream. -/
def fragmentAnswered (s : Stream) (p : ChunkPolicy) (payload : Bytes) (off : Nat) :
    SendAnswer → Stream × List Effect
  | .accepted =>
    let s' : Stream := { s with handed := s.handed ++ fragmentHanded p payload off }
    (if lastFragment p payload off then { s' with sender := .idle }
      else { s' with sender := .fragment payload (off + p.sendInline), sendSeq := s.sendSeq + 1 },
      [.data (fragmentFrame p payload off s.sendSeq)])
  | .neverPublished backpressure =>
    if off = 0 then (s.rollback, [])
    else if backpressure then (s, [])
    else ({ s with sender := .failing false }, [])
  | .ctxErr true deadline =>
    ({ s with sender := .failing deadline, handed := s.handed ++ fragmentHanded p payload off },
      [.data (fragmentFrame p payload off s.sendSeq)])
  | .ctxErr false deadline => ({ s with sender := .failing deadline }, [])
  | .connErr => ({ s with sender := .idle }, [])

/-- A client-streaming method's one response rides the server's `STREAM_CLOSE`. -/
def responds (s : Stream) : Bool := s.side = .server && s.shape = .clientStreaming

/-- What is handed over with a `STREAM_CLOSE`: the response where the shape has one,
whatever its length, and otherwise a trailer with any bytes. -/
def closeHanded (s : Stream) (payload : Bytes) : List Bytes :=
  if s.responds ∨ payload ≠ [] then [payload] else []

/-- The answer to a `STREAM_CLOSE`. -/
def closeAnswered (s : Stream) (payload : Bytes) (finalSeq : Nat) : SendAnswer → Stream × List Effect
  | .accepted =>
    ({ s with sender := .committing, handed := s.handed ++ s.closeHanded payload },
      [.data (.streamClose finalSeq payload)])
  | .neverPublished _ => ({ s with sender := .idle, sendCloseState := .idle }, [])
  | .ctxErr true deadline =>
    ({ s with
      sender := .failing deadline, sendCloseState := .closed, handed := s.handed ++ s.closeHanded payload },
      [.data (.streamClose finalSeq payload)])
  | .ctxErr false deadline => ({ s with sender := .failing deadline, sendCloseState := .closed }, [])
  | .connErr => ({ s with sender := .idle, sendCloseState := .closed }, [])

/-- One unit of credit and one number; a message above the ceiling gives both back. -/
def admitted (s : Stream) (p : ChunkPolicy) (payload : Bytes) (c : CreditCounter) : Stream :=
  let s : Stream := { s with sendCredit := c, sendSeq := s.sendSeq + 1 }
  if chunked p payload then
    if p.ceiling < payload.length then s.rollback else { s with sender := .fragment payload 0 }
  else { s with sender := .sending payload }

def senderStep (e : Env) (s : Stream) : SendAct → Option (Stream × List Effect)
  | .sendMsg payload =>
    if s.opener = .opened ∧ s.sender = .idle ∧ ¬ s.terminalErr ∧ ¬ s.sendClosed ∧
        ¬ (chunked e.policy payload ∧ e.policy.sendInline = 0) then
      some ({ s with sender := .admitting payload }, [])
    else none
  | .reserve =>
    match s.sender, s.sendCredit.reserve with
    | .admitting payload, some c => some (s.admitted e.policy payload c, [])
    | _, _ => none
  | .abandon =>
    match s.sender with
    | .admitting _ => some ({ s with sender := .idle }, [])
    | _ => none
  | .transmit a =>
    match s.sender with
    | .sending payload => some (s.msgAnswered payload a)
    | .fragment payload off => some (s.fragmentAnswered e.policy payload off a)
    | .closing payload finalSeq => some (s.closeAnswered payload finalSeq a)
    | _ => none
  | .fail =>
    match s.sender with
    | .failing deadline => some ({ s.mapCtxToTerminal deadline with sender := .idle }, [])
    | _ => none
  | .closeSend payload =>
    if s.opener = .opened ∧ s.sender = .idle ∧ ¬ s.terminalErr ∧ s.sendCloseState = .idle then
      some ({ s with sender := .closing payload s.sendSeq, sendCloseState := .publishing }, [])
    else none
  | .commit =>
    if s.sender = .committing then
      some ({ s with sender := .discharging, sendCloseState := .closed, closeLocal := true, sendClosed := true }, [])
    else none
  | .discharge =>
    if s.sender = .discharging then some ({ s with sender := .completing }, [.closeObligation]) else none
  | .complete =>
    if s.sender = .completing then
      some ({ (if s.bothClosed then s.terminate .completed 0 false else s) with sender := .idle }, [])
    else none

/-! ## Receivers -/

inductive RecvAct
  | pop
  | deliver
  | arm
  | eof
  deriving DecidableEq

/-- Sets the arming flag and queues the stream, unless back-off holds it off. -/
def arm (s : Stream) : Stream × List Effect :=
  if s.deferred ∨ s.armed then (s, []) else ({ s with armed := true }, [.appendArm])

/-- No delivery counts once the peer's half-close is seen. -/
def consumeIfOpen (s : Stream) : Stream × Bool :=
  if s.closeRemote then (s, false)
  else ({ s with recvCredit := s.recvCredit.consume.1 }, s.recvCredit.consume.2)

/-- `onDelivered` for a credited item: the count trigger, or the drain trigger. -/
def onDelivered (s : Stream) (drained : Bool) : Stream :=
  let (s, due) := s.consumeIfOpen
  if due ∨ (drained ∧ s.isLive ∧ s.recvCredit.pending) then { s with arming := s.arming + 1 } else s

/-- `RecvMsg`: a queued item comes before any end; with the queue empty, `io.EOF` is
the peer's half-close or a completion. -/
def receiverStep (e : Env) (s : Stream) : RecvAct → Option (Stream × List Effect)
  | .pop =>
    match s.recvCh with
    | [] => none
    | it :: rest =>
      if s.opener = .opened then
        some ({ s with
          recvCh := rest
          delivered := s.delivered ++ [it.payload]
          delivering := if it.credited then s.delivering + 1 else s.delivering }, [])
      else none
  | .deliver =>
    if s.delivering = 0 then none
    else some ({ s with delivering := s.delivering - 1 }.onDelivered e.drained, [])
  | .arm => if s.arming = 0 then none else some { s with arming := s.arming - 1 }.arm
  | .eof =>
    if s.opener = .opened ∧ s.recvCh = [] ∧ (s.recvClosed ∨ (s.done ∧ s.phase = .term .completed)) then
      some ({ s with eof := true }, [])
    else none

/-! ## The ack dispatcher -/

inductive AckAct
  /-- Taken from the head of the arming queue. -/
  | pop
  | check
  | token
  | build
  | send (ok : Bool)
  | settle
  | release
  | cancel (ok : Bool)
  | discharge
  /-- A back-off timer fires. -/
  | reArm
  deriving DecidableEq

/-- `sendTeardownCancel`: the recorded code, or the connection's failure. -/
def teardownCancel (s : Stream) (ok : Bool) : List Effect :=
  [if ok then .life (.cancel s.teardownCode) else .failConn]

def ackStep (s : Stream) : AckAct → Option (Stream × List Effect)
  | .pop => if s.acker = .idle then some ({ s with armed := false, acker := .popped }, []) else none
  | .check =>
    if s.acker = .popped then
      if s.isLive ∧ s.recvCredit.pending ∧ ¬ s.deferred then some ({ s with acker := .checked }, [])
      else some ({ s with acker := .idle }, [])
    else none
  | .token =>
    if s.acker = .checked then
      if s.token = .idle then some ({ s with token := .ackOutstanding, acker := .holding }, [])
      else some ({ s with acker := .idle }, [])
    else none
  | .build => if s.acker = .holding then some ({ s with acker := .built s.recvCredit.consumed }, []) else none
  | .send ok =>
    match s.acker with
    | .built cum =>
      if ok then some ({ s with acker := .published cum }, [.life (.streamAck cum)])
      else some ({ s with acker := .refused }, [])
    | _ => none
  | .settle =>
    match s.acker with
    | .published cum =>
      some ({ s with recvCredit := s.recvCredit.advanceAckedOut cum, acker := .releasing true }, [])
    | .refused => some ({ s with deferred := true, reArms := s.reArms + 1, acker := .releasing false }, [])
    | _ => none
  | .release =>
    match s.acker with
    | .releasing success =>
      match s.token with
      | .ackOutstanding =>
        let s : Stream := { s with token := .idle, acker := .idle }
        some (if success ∧ s.recvCredit.pending then s.arm else (s, []))
      | .cancelOwed => some ({ s with token := .terminal, acker := .owing }, [])
      | _ => some ({ s with acker := .idle }, [])
    | _ => none
  | .cancel ok =>
    if s.acker = .owing then some ({ s with acker := .discharging }, s.teardownCancel ok) else none
  | .discharge => if s.acker = .discharging then some ({ s with acker := .idle }, [.closeObligation]) else none
  | .reArm =>
    if s.reArms = 0 then none
    else
      let s : Stream := { s with reArms := s.reArms - 1, deferred := false }
      if s.isLive ∧ s.recvCredit.pending ∧ ¬ s.armed then some ({ s with armed := true }, [.appendArm])
      else some (s, [])

/-! ## The terminal winner -/

inductive FinishAct
  | claim
  | cancel (ok : Bool)
  | emit
  | settle
  | signal
  | remove
  | owedClaim
  | owedCancel (ok : Bool)
  | owedEmit
  deriving DecidableEq

/-- `claimTerminalToken(needCancel)`: the token after it, and whether the caller is to
send the `CANCEL`; it spins where the token is already claimed. -/
def claimTerminalToken (t : LifecycleToken) (needCancel : Bool) : Option (LifecycleToken × Bool) :=
  match t with
  | .idle => some (.terminal, needCancel)
  | .ackOutstanding => some (if needCancel then .cancelOwed else .terminal, false)
  | _ => none

def teardownStatus (s : Stream) : FrameStatus := ⟨s.teardownCode, [], []⟩

/-- The data-lane `STREAM_ERR` of a teardown or of a handler's error, if there is room
in the emitter's queue; the flag is whether the obligation is left to another. -/
def emitTerminal (s : Stream) (room locallyInitiated toAck : Bool) : Stream × List Effect :=
  if locallyInitiated then
    ({ s with finisher := .settle toAck }, if room then [.emit s.teardownStatus toAck] else [])
  else
    match s.handlerErrStatus with
    | some status =>
      ({ s with finisher := .settle room }, if room then [.emit status false] else [])
    | none => ({ s with finisher := .settle false }, [])

def finishStep (e : Env) (s : Stream) : FinishAct → Option (Stream × List Effect)
  | .claim =>
    match s.finisher with
    | .claim locallyInitiated presend =>
      if presend then some ({ s with finisher := .settle false }, [])
      else
        match claimTerminalToken s.token locallyInitiated with
        | none => none
        | some (token, true) => some ({ s with token, finisher := .cancel }, [])
        -- Without the `CANCEL` to send, a local end has left it to the ack holder.
        | some (token, false) => some ({ s with token, finisher := .emit locallyInitiated locallyInitiated }, [])
    | _ => none
  | .cancel ok =>
    if s.finisher = .cancel then some ({ s with finisher := .emit true false }, s.teardownCancel ok) else none
  | .emit =>
    match s.finisher with
    | .emit locallyInitiated toAck => some (s.emitTerminal e.room locallyInitiated toAck)
    | _ => none
  | .settle =>
    match s.finisher with
    | .settle deferred => some ({ s with finisher := .signal }, if deferred then [] else [.closeObligation])
    | _ => none
  | .signal => if s.finisher = .signal then some ({ s with finisher := .remove, done := true }, []) else none
  | .remove => if s.finisher = .remove then some ({ s with finisher := .finished }, [.remove]) else none
  | .owedClaim =>
    if s.owed = .claim then
      match claimTerminalToken s.token true with
      | none => none
      | some (token, submitNow) => some ({ s with token, owed := if submitNow then .cancel else .emit }, [])
    else none
  | .owedCancel ok => if s.owed = .cancel then some ({ s with owed := .emit }, s.teardownCancel ok) else none
  | .owedEmit =>
    if s.owed = .emit then
      some ({ s with owed := .finished }, [if e.room then .emit s.teardownStatus false else .failConn])
    else none

/-! ## Ends -/

/-- Ends that come from outside the operations above. -/
inductive EndAct
  /-- The deadline watcher, or on the opener's side a cancelled caller. -/
  | ctx (deadline : Bool)
  | handlerError (status : FrameStatus)
  /-- The connection's fan-out. -/
  | failAll
  deriving DecidableEq

def endStep (s : Stream) : EndAct → Option (Stream × List Effect)
  | .ctx deadline =>
    if s.watcherStarted ∧ (deadline ∨ s.side = .client) then some (s.mapCtxToTerminal deadline, []) else none
  | .handlerError status => if s.side = .server then some (s.terminateHandlerError status, []) else none
  | .failAll => some (s.discardUnaccepted, [])

inductive Act
  | opener (a : OpenAct)
  | sender (a : SendAct)
  | receiver (a : RecvAct)
  | acker (a : AckAct)
  | finisher (a : FinishAct)
  | ending (a : EndAct)
  deriving DecidableEq

def step (e : Env) (s : Stream) : Act → Option (Stream × List Effect)
  | .opener a => s.openerStep a
  | .sender a => s.senderStep e a
  | .receiver a => s.receiverStep e a
  | .acker a => s.ackStep a
  | .finisher a => s.finishStep e a
  | .ending a => s.endStep a

end Stream

end Styx
