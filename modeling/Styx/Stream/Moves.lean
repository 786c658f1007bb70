/-
What the steps of a stream leave alone.

A goroutine of the engine writes few of the stream's words, and an invariant reads few of
them. Each group of steps has one equation here: the stream after it is the stream before
it, ended or not (`Ends`), with the group's own words replaced.
-/
import Styx.Lib.Machine
import Styx.Stream.Step

namespace Styx

/-- A code the peer accepts in a teardown `CANCEL`. -/
def TeardownCode (code : UInt32) : Prop :=
  code = statusCodeStreamCanceled ∨ code = statusCodeStreamDeadlineExceeded

def StreamFrame.isMsg : StreamFrame → Bool
  | .streamMsg _ _ => true
  | _ => false

def Effect.dataFrame : Effect → Option StreamFrame
  | .data f => some f
  | _ => none

def Effect.lifeFrame : Effect → Option StreamFrame
  | .life f => some f
  | _ => none

namespace Stream

open Machine

variable {e : Env} {s s' : Stream} {effects : List Effect} {p : ChunkPolicy} {a : SendAct}

/-! ## Ends -/

/-- An attempt to end the stream: it changes nothing, or takes a live stream to an
outcome that is a completion only with both halves closed, with a code for the peer
if it is this side's doing. -/
inductive Ends (s : Stream) : Stream → Prop
  | same : Ends s s
  | ended (code : StreamOutcomeCode) (teardownCode : UInt32) (locallyInitiated : Bool) (status : Option FrameStatus) :
    s.isLive = true → (code = .completed → s.bothClosed = true) →
    (if locallyInitiated then TeardownCode teardownCode else teardownCode = 0) →
    Ends s { s with
      phase := .term code, teardownCode, recvAccum := []
      finisher := .claim locallyInitiated s.openSendPending, handlerErrStatus := status }

theorem ends_terminate (code : StreamOutcomeCode) (hcode : code = .completed → s.bothClosed = true) :
    Ends s (s.terminate code 0 false) := by
  unfold terminate
  split
  · next hl => exact .ended code 0 false s.handlerErrStatus hl hcode rfl
  · exact .same

theorem ends_mapCtx (deadline : Bool) : Ends s (s.mapCtxToTerminal deadline) := by
  unfold mapCtxToTerminal mapDeadlineToTerminal mapCancelToTerminal terminate
  split
  · split
    · next hl => exact .ended _ _ true s.handlerErrStatus hl nofun (.inr rfl)
    · exact .same
  · split
    · next hl => exact .ended _ _ true s.handlerErrStatus hl nofun (.inl rfl)
    · exact .same

theorem ends_handlerError (status : FrameStatus) : Ends s (s.terminateHandlerError status) := by
  unfold terminateHandlerError terminate
  split
  · next hl => exact .ended .peerError 0 false (some status) hl nofun rfl
  · exact .same

theorem ends_completed : Ends s (if s.bothClosed then s.terminate .completed 0 false else s) := by
  split
  · next hb => exact ends_terminate .completed fun _ => hb
  · exact .same

theorem Ends.frame (h : Ends s s') : ∃ phase teardownCode recvAccum finisher handlerErrStatus,
    s' = { s with phase, teardownCode, recvAccum, finisher, handlerErrStatus } := by
  cases h with
  | same | ended => exact ⟨_, _, _, _, _, rfl⟩

theorem Ends.eq_of_ended (h : Ends s s') (hl : s.isLive = false) : s' = s := by
  cases h with
  | same => rfl
  | ended _ _ _ _ hlive => simp [hl] at hlive

theorem Ends.terminalErr (h : Ends s s') (ht : s.terminalErr = true) : s'.terminalErr = true := by
  have hl : s.isLive = false := by
    unfold Stream.terminalErr at ht
    unfold isLive
    split <;> simp_all
  rw [h.eq_of_ended hl]
  exact ht

/-! ## What a step can do -/

/-- What a step of the opener can do. -/
inductive OpenMove (s : Stream) : OpenAct → Stream → List Effect → Prop
  | publish : s.opener = .publish → s.phase = .submitted →
    OpenMove s .publish { s with phase := .published, opener := .send } []
  | late : s.opener = .publish → s.phase ≠ .submitted → OpenMove s .publish { s with opener := .failed } []
  | sent {unknown : Bool} : s.opener = .send →
    OpenMove s (.send .accepted unknown) { s.publishOpen with opener := .confirm } [.data s.openFrame]
  | sentCtx {deadline unknown : Bool} : s.opener = .send →
    OpenMove s (.send (.ctxErr true deadline) unknown) { s.publishOpen with opener := .ambiguous deadline } [.data s.openFrame]
  | unknown {deadline : Bool} : s.opener = .send →
    OpenMove s (.send (.ctxErr false deadline) true) { s with opener := .ambiguous deadline } []
  | unsent {a : SendAnswer} {unknown : Bool} : s.opener = .send →
    (∃ backpressure, a = .neverPublished backpressure) ∨ a = .connErr ∨ (∃ deadline, a = .ctxErr false deadline) ∧ unknown = false →
    OpenMove s (.send a unknown) { s with opener := .discard } []
  | confirm : s.opener = .confirm → s.phase = .published →
    OpenMove s .confirm { s with openSendPending := false, opener := .opened } []
  | ended : s.opener = .confirm → s.phase ≠ .published → OpenMove s .confirm { s with opener := .resolve } []
  | ambiguous {deadline : Bool} : s.opener = .ambiguous deadline →
    OpenMove s .ambiguous { s.mapCtxToTerminal deadline with opener := .resolve } []
  | discard : s.opener = .discard → OpenMove s .discard { s.discardUnaccepted with opener := .failed } []
  | resolve {tearing : Bool} : s.opener = .resolve → s.done = true →
    OpenMove s (.resolve tearing) { s with
      opener := if s.phase = .term .completed then .opened else .failed
      owed := if s.teardownCode = 0 ∨ tearing then s.owed else .claim } []

theorem openerStep_move {a : OpenAct} (hs : s.openerStep a = some (s', effects)) : OpenMove s a s' effects := by
  cases a with
  | publish =>
    obtain ⟨hpc, hs⟩ := guard_some hs
    split at hs <;> cases hs
    · next hph => exact .publish hpc hph
    · next hph => exact .late hpc hph
  | send a unknown =>
    obtain ⟨hpc, hs⟩ := guard_some hs
    split at hs <;> cases hs
    · exact .sent hpc
    · exact .unsent hpc (.inl ⟨_, rfl⟩)
    · exact .unsent hpc (.inr (.inl rfl))
    · exact .sentCtx hpc
    · cases unknown
      · exact .unsent hpc (.inr (.inr ⟨⟨_, rfl⟩, rfl⟩))
      · exact .unknown hpc
  | confirm =>
    obtain ⟨hpc, hs⟩ := guard_some hs
    split at hs <;> cases hs
    · next hph => exact .confirm hpc hph
    · next hph => exact .ended hpc hph
  | ambiguous =>
    simp only [openerStep] at hs
    split at hs <;> cases hs
    next hpc => exact .ambiguous hpc
  | discard =>
    obtain ⟨hpc, ⟨⟩⟩ := guard_some hs
    exact .discard hpc
  | resolve tearing =>
    obtain ⟨hpc, ⟨⟩⟩ := guard_some hs
    exact .resolve hpc.1 hpc.2

/-- The frame is on the lane: the transport took it, or the wait for its answer ended after that. -/
inductive OnLane : SendAnswer → SendPc → Prop
  | accepted : OnLane .accepted .idle
  | ctxErr {deadline : Bool} : OnLane (.ctxErr true deadline) (.failing deadline)

/-- What a step of the sender can do. -/
inductive SenderMove (e : Env) (s : Stream) : SendAct → Stream → List Effect → Prop
  | sendMsg {payload : Bytes} : s.opener = .opened → s.sender = .idle → s.terminalErr = false → s.sendClosed = false →
    (chunked e.policy payload = true → e.policy.sendInline ≠ 0) →
    SenderMove e s (.sendMsg payload) { s with sender := .admitting payload } []
  | tooLong {payload : Bytes} : s.sender = .admitting payload → SenderMove e s .reserve { s with sender := .idle } []
  | admitted {payload : Bytes} {pc : SendPc} : s.sender = .admitting payload →
    s.sendCredit.sent ≠ s.sendCredit.acked + s.sendCredit.granted →
    pc = .sending payload ∨ pc = .fragment payload 0 ∧ chunked e.policy payload = true ∧ payload.length ≤ e.policy.ceiling →
    SenderMove e s .reserve { s with
      sendCredit := { s.sendCredit with sent := s.sendCredit.sent + 1 }, sendSeq := s.sendSeq + 1, sender := pc } []
  | abandon {payload : Bytes} : s.sender = .admitting payload → SenderMove e s .abandon { s with sender := .idle } []
  | sent {payload : Bytes} {a : SendAnswer} {pc : SendPc} : s.sender = .sending payload → OnLane a pc →
    SenderMove e s (.transmit a) { s with sender := pc, handed := s.handed ++ [payload] } [.data (.streamMsg s.sendSeq payload)]
  | fragment {payload : Bytes} {off : Nat} : s.sender = .fragment payload off → lastFragment e.policy payload off = false →
    SenderMove e s (.transmit .accepted) { s with
      sender := .fragment payload (off + e.policy.sendInline), sendSeq := s.sendSeq + 1 }
      [.data (fragmentFrame e.policy payload off s.sendSeq)]
  | fragmentEnd {payload : Bytes} {off : Nat} {a : SendAnswer} {pc : SendPc} : s.sender = .fragment payload off → OnLane a pc →
    (a = .accepted → lastFragment e.policy payload off = true) →
    SenderMove e s (.transmit a) { s with sender := pc, handed := s.handed ++ fragmentHanded e.policy payload off }
      [.data (fragmentFrame e.policy payload off s.sendSeq)]
  | rollback {payload : Bytes} {a : SendAnswer} : s.sender = .sending payload ∨ s.sender = .fragment payload 0 →
    SenderMove e s (.transmit a) s.rollback []
  | retry {payload : Bytes} {off : Nat} {a : SendAnswer} : s.sender = .fragment payload off → SenderMove e s (.transmit a) s []
  | unsent {payload : Bytes} {a : SendAnswer} {pc : SendPc} : s.sender = .sending payload ∨ (∃ off, s.sender = .fragment payload off) →
    a = .connErr ∧ pc = .idle ∨ (∃ deadline, pc = .failing deadline) → SenderMove e s (.transmit a) { s with sender := pc } []
  | closeSent {payload : Bytes} {finalSeq : Nat} : s.sender = .closing payload finalSeq →
    SenderMove e s (.transmit .accepted) { s with sender := .committing, handed := s.handed ++ s.closeHanded payload }
      [.data (.streamClose finalSeq payload)]
  | closeCtx {payload : Bytes} {finalSeq : Nat} {deadline : Bool} : s.sender = .closing payload finalSeq →
    SenderMove e s (.transmit (.ctxErr true deadline))
      { s with sender := .failing deadline, sendCloseState := .closed, handed := s.handed ++ s.closeHanded payload }
      [.data (.streamClose finalSeq payload)]
  | closeUnsent {payload : Bytes} {finalSeq : Nat} {a : SendAnswer} {pc : SendPc} {st : SendCloseState} :
    s.sender = .closing payload finalSeq →
    pc = .idle ∧ st = .idle ∨ (∃ deadline, pc = .failing deadline) ∧ st = .closed ∨ a = .connErr ∧ pc = .idle ∧ st = .closed →
    SenderMove e s (.transmit a) { s with sender := pc, sendCloseState := st } []
  | fail {deadline : Bool} : s.sender = .failing deadline →
    SenderMove e s .fail { s.mapCtxToTerminal deadline with sender := .idle } []
  | closeSend {payload : Bytes} : s.opener = .opened → s.sender = .idle → s.terminalErr = false → s.sendCloseState = .idle →
    SenderMove e s (.closeSend payload) { s with sender := .closing payload s.sendSeq, sendCloseState := .publishing } []
  | commit : s.sender = .committing →
    SenderMove e s .commit
      { s with sender := .discharging, sendCloseState := .closed, closeLocal := true, sendClosed := true } []
  | discharge : s.sender = .discharging → SenderMove e s .discharge { s with sender := .completing } [.closeObligation]
  | complete : s.sender = .completing →
    SenderMove e s .complete { (if s.bothClosed then s.terminate .completed 0 false else s) with sender := .idle } []

theorem senderStep_answered {a : SendAnswer} (hs : s.senderStep e (.transmit a) = some (s', effects)) :
    SenderMove e s (.transmit a) s' effects := by
  simp only [senderStep] at hs
  split at hs
  · next payload hpc =>
    simp only [msgAnswered] at hs
    split at hs <;> cases hs
    · exact .sent hpc .accepted
    · exact .rollback (.inl hpc)
    · exact .sent hpc .ctxErr
    · exact .unsent (.inl hpc) (.inr ⟨_, rfl⟩)
    · exact .unsent (.inl hpc) (.inl ⟨rfl, rfl⟩)
  · next payload off hpc =>
    simp only [fragmentAnswered] at hs
    split at hs
    · cases hs
      cases hlast : lastFragment e.policy payload off with
      | true => exact .fragmentEnd hpc .accepted fun _ => hlast
      | false =>
        simp only [fragmentHanded, hlast, Bool.false_eq_true, if_false, List.append_nil]
        exact .fragment hpc hlast
    · repeat' split at hs
      all_goals cases hs
      · next h0 => exact .rollback (.inr (h0 ▸ hpc))
      · exact .retry hpc
      · exact .unsent (.inr ⟨off, hpc⟩) (.inr ⟨_, rfl⟩)
    all_goals cases hs
    · exact .fragmentEnd hpc .ctxErr nofun
    · exact .unsent (.inr ⟨off, hpc⟩) (.inr ⟨_, rfl⟩)
    · exact .unsent (.inr ⟨off, hpc⟩) (.inl ⟨rfl, rfl⟩)
  · next payload finalSeq hpc =>
    simp only [closeAnswered] at hs
    split at hs <;> cases hs
    · exact .closeSent hpc
    · exact .closeUnsent hpc (.inl ⟨rfl, rfl⟩)
    · exact .closeCtx hpc
    · exact .closeUnsent hpc (.inr (.inl ⟨⟨_, rfl⟩, rfl⟩))
    · exact .closeUnsent hpc (.inr (.inr ⟨rfl, rfl, rfl⟩))
  · cases hs

theorem senderStep_move (hs : s.senderStep e a = some (s', effects)) : SenderMove e s a s' effects := by
  cases a with
  | sendMsg payload =>
    obtain ⟨⟨hop, hpc, hterm, hopen, hchunk⟩, ⟨⟩⟩ := guard_some hs
    exact .sendMsg hop hpc (by simpa using hterm) (by simpa using hopen) fun hc h0 => hchunk ⟨hc, h0⟩
  | reserve =>
    simp only [senderStep, CreditCounter.reserve] at hs
    split at hs
    swap
    · cases hs
    next payload c hpc hc =>
    obtain ⟨hroom, ⟨⟩⟩ := unless_some hc
    cases hs
    unfold Stream.admitted
    dsimp only
    split
    · next hch =>
      split
      · exact .tooLong hpc
      · next hceil => exact .admitted hpc hroom (.inr ⟨rfl, hch, Nat.not_lt.mp hceil⟩)
    · exact .admitted hpc hroom (.inl rfl)
  | abandon =>
    simp only [senderStep] at hs
    split at hs <;> cases hs
    next hpc => exact .abandon hpc
  | transmit a => exact senderStep_answered hs
  | fail =>
    simp only [senderStep] at hs
    split at hs <;> cases hs
    next hpc => exact .fail hpc
  | closeSend payload =>
    obtain ⟨⟨hop, hpc, hterm, hst⟩, ⟨⟩⟩ := guard_some hs
    exact .closeSend hop hpc (by simpa using hterm) hst
  | commit | discharge | complete =>
    obtain ⟨hpc, ⟨⟩⟩ := guard_some hs
    constructor
    exact hpc

/-- What a step of the ack dispatcher can do. -/
inductive AckMove (s : Stream) : AckAct → Stream → List Effect → Prop
  | pop : s.acker = .idle → AckMove s .pop { s with armed := false, acker := .popped } []
  | check : s.acker = .popped → s.isLive = true → s.recvCredit.ackedOut < s.recvCredit.consumed →
    AckMove s .check { s with acker := .checked } []
  | quit : s.acker = .popped → AckMove s .check { s with acker := .idle } []
  | lose : s.acker = .checked → s.token ≠ .idle → AckMove s .token { s with acker := .idle } []
  | token : s.acker = .checked → s.token = .idle → AckMove s .token { s with token := .ackOutstanding, acker := .holding } []
  | build : s.acker = .holding → AckMove s .build { s with acker := .built s.recvCredit.consumed } []
  | sent {cum : Nat} : s.acker = .built cum → AckMove s (.send true) { s with acker := .published cum } [.life (.streamAck cum)]
  | refused {cum : Nat} : s.acker = .built cum → AckMove s (.send false) { s with acker := .refused } []
  | settle {cum : Nat} : s.acker = .published cum →
    AckMove s .settle { s with recvCredit := s.recvCredit.advanceAckedOut cum, acker := .releasing true } []
  | backOff : s.acker = .refused →
    AckMove s .settle { s with deferred := true, reArms := s.reArms + 1, acker := .releasing false } []
  | release {success armed : Bool} {effects : List Effect} : s.acker = .releasing success → s.token = .ackOutstanding → (∀ x ∈ effects, x = .appendArm) →
    AckMove s .release { s with token := .idle, acker := .idle, armed } effects
  | owe {success : Bool} : s.acker = .releasing success → s.token = .cancelOwed →
    AckMove s .release { s with token := .terminal, acker := .owing } []
  | ended {success : Bool} : s.acker = .releasing success → s.token ≠ .ackOutstanding → s.token ≠ .cancelOwed →
    AckMove s .release { s with acker := .idle } []
  | cancel {ok : Bool} : s.acker = .owing → AckMove s (.cancel ok) { s with acker := .discharging } (s.teardownCancel ok)
  | discharge : s.acker = .discharging → AckMove s .discharge { s with acker := .idle } [.closeObligation]
  | reArm {armed : Bool} {effects : List Effect} : s.reArms ≠ 0 → (∀ x ∈ effects, x = .appendArm) →
    AckMove s .reArm { s with reArms := s.reArms - 1, deferred := false, armed } effects

theorem arm_frame (hs : s.arm = (s', effects)) :
    (∃ armed, s' = { s with armed }) ∧ ∀ x ∈ effects, x = .appendArm := by
  unfold arm at hs
  split at hs
  · cases hs
    exact ⟨⟨s.armed, rfl⟩, by simp⟩
  · cases hs
    exact ⟨⟨true, rfl⟩, by simp⟩

theorem ackStep_move {a : AckAct} (hs : s.ackStep a = some (s', effects)) : AckMove s a s' effects := by
  cases a with
  | pop | build | cancel | discharge =>
    obtain ⟨hpc, ⟨⟩⟩ := guard_some hs
    constructor
    exact hpc
  | check =>
    obtain ⟨hpc, hs⟩ := guard_some hs
    split at hs <;> cases hs
    · next hc => exact .check hpc hc.1 (of_decide_eq_true hc.2.1)
    · exact .quit hpc
  | token =>
    obtain ⟨hpc, hs⟩ := guard_some hs
    split at hs <;> cases hs
    · next ht => exact .token hpc ht
    · next ht => exact .lose hpc ht
  | send ok =>
    simp only [ackStep] at hs
    split at hs
    · next hpc =>
      cases ok <;> cases hs
      · exact .refused hpc
      · exact .sent hpc
    · cases hs
  | settle =>
    simp only [ackStep] at hs
    split at hs <;> cases hs
    · next hpc => exact .settle hpc
    · next hpc => exact .backOff hpc
  | release =>
    simp only [ackStep] at hs
    split at hs
    swap
    · cases hs
    next hpc =>
    split at hs
    · next ht =>
      split at hs
      · obtain ⟨⟨armed, rfl⟩, heff⟩ := arm_frame (Option.some.inj hs)
        exact .release hpc ht heff
      · cases hs
        exact .release hpc ht (by simp)
    · next ht =>
      cases hs
      exact .owe hpc ht
    · next hout howed =>
      cases hs
      exact .ended hpc hout howed
  | reArm =>
    obtain ⟨hn, hs⟩ := unless_some hs
    split at hs <;> cases hs
    · exact .reArm hn (by simp)
    · exact .reArm hn (by simp)

/-- What a step of the terminal winner, or of the opener's detached sender, can do. -/
inductive FinishMove (e : Env) (s : Stream) : FinishAct → Stream → List Effect → Prop
  | presend {l : Bool} : s.finisher = .claim l true → FinishMove e s .claim { s with finisher := .settle false } []
  | claim {l submitNow : Bool} {token : LifecycleToken} : s.finisher = .claim l false →
    claimTerminalToken s.token l = some (token, submitNow) →
    FinishMove e s .claim { s with token, finisher := if submitNow then .cancel else .emit l l } []
  | cancel {ok : Bool} : s.finisher = .cancel →
    FinishMove e s (.cancel ok) { s with finisher := .emit true false } (s.teardownCancel ok)
  | emit {toAck : Bool} : s.finisher = .emit true toAck →
    FinishMove e s .emit { s with finisher := .settle toAck } (if e.room then [.emit s.teardownStatus toAck] else [])
  | emitStatus {toAck : Bool} {status : FrameStatus} : s.finisher = .emit false toAck → s.handlerErrStatus = some status →
    FinishMove e s .emit { s with finisher := .settle e.room } (if e.room then [.emit status false] else [])
  | emitNone {toAck : Bool} : s.finisher = .emit false toAck → s.handlerErrStatus = none →
    FinishMove e s .emit { s with finisher := .settle false } []
  | settle {deferred : Bool} : s.finisher = .settle deferred →
    FinishMove e s .settle { s with finisher := .signal } (if deferred then [] else [.closeObligation])
  | signal : s.finisher = .signal → FinishMove e s .signal { s with finisher := .remove, done := true } []
  | remove : s.finisher = .remove → FinishMove e s .remove { s with finisher := .finished } [.remove]
  | owedClaim {submitNow : Bool} {token : LifecycleToken} : s.owed = .claim → claimTerminalToken s.token true = some (token, submitNow) →
    FinishMove e s .owedClaim { s with token, owed := if submitNow then .cancel else .emit } []
  | owedCancel {ok : Bool} : s.owed = .cancel → FinishMove e s (.owedCancel ok) { s with owed := .emit } (s.teardownCancel ok)
  | owedEmit : s.owed = .emit →
    FinishMove e s .owedEmit { s with owed := .finished } [if e.room then .emit s.teardownStatus false else .failConn]

theorem finishStep_move {a : FinishAct} (hs : s.finishStep e a = some (s', effects)) : FinishMove e s a s' effects := by
  cases a with
  | claim =>
    simp only [finishStep] at hs
    split at hs
    swap
    · cases hs
    next l presend hpc =>
    cases presend with
    | true =>
      cases hs
      exact .presend hpc
    | false =>
      simp only [Bool.false_eq_true, if_false] at hs
      split at hs <;> cases hs
      · next ht => exact .claim hpc ht
      · next ht => exact .claim hpc ht
  | emit =>
    simp only [finishStep, emitTerminal] at hs
    split at hs
    swap
    · cases hs
    next l toAck hpc =>
    cases l with
    | true =>
      cases hs
      exact .emit hpc
    | false =>
      simp only [Bool.false_eq_true, if_false] at hs
      split at hs <;> cases hs
      · next hst => exact .emitStatus hpc hst
      · next hst => exact .emitNone hpc hst
  | settle =>
    simp only [finishStep] at hs
    split at hs <;> cases hs
    next hpc => exact .settle hpc
  | owedClaim =>
    obtain ⟨hpc, hs⟩ := guard_some hs
    split at hs <;> cases hs
    next ht => exact .owedClaim hpc ht
  | cancel | signal | remove | owedCancel | owedEmit =>
    obtain ⟨hpc, ⟨⟩⟩ := guard_some hs
    constructor
    exact hpc

/-! ## The groups of steps -/

theorem endStep_ends {a : EndAct} (hs : s.endStep a = some (s', effects)) : Ends s s' ∧ effects = [] := by
  cases a with
  | ctx deadline =>
    obtain ⟨-, ⟨⟩⟩ := guard_some hs
    exact ⟨ends_mapCtx deadline, rfl⟩
  | handlerError status =>
    obtain ⟨-, ⟨⟩⟩ := guard_some hs
    exact ⟨ends_handlerError status, rfl⟩
  | failAll =>
    cases hs
    exact ⟨ends_terminate .crashed nofun, rfl⟩

/-- What a step of the receiver can do. -/
inductive ReceiverMove (s : Stream) : RecvAct → Stream → List Effect → Prop
  | pop {it : RecvItem} {rest : List RecvItem} : s.recvCh = it :: rest → ReceiverMove s .pop { s with
      recvCh := rest
      delivered := s.delivered ++ [it.payload]
      delivering := if it.credited then s.delivering + 1 else s.delivering } []
  | deliver {consumed arming : Nat} : s.delivering ≠ 0 → s.recvCredit.consumed ≤ consumed →
    consumed ≤ s.recvCredit.consumed + 1 → ReceiverMove s .deliver { s with
      delivering := s.delivering - 1, recvCredit := { s.recvCredit with consumed }, arming } []
  | arm {arming : Nat} {armed : Bool} {effects : List Effect} : (∀ x ∈ effects, x = .appendArm) →
    ReceiverMove s .arm { s with arming, armed } effects
  | eof : s.recvCh = [] → s.recvClosed = true ∨ s.phase = .term .completed → ReceiverMove s .eof { s with eof := true } []

theorem receiverStep_move {a : RecvAct} (hs : s.receiverStep e a = some (s', effects)) : ReceiverMove s a s' effects := by
  cases a with
  | pop =>
    simp only [receiverStep] at hs
    split at hs
    · cases hs
    next hq =>
    obtain ⟨-, ⟨⟩⟩ := guard_some hs
    exact .pop hq
  | deliver =>
    obtain ⟨hpos, ⟨⟩⟩ := unless_some hs
    simp only [onDelivered, consumeIfOpen, CreditCounter.consume]
    split <;> split <;> exact .deliver hpos (by simp) (by simp)
  | arm =>
    obtain ⟨-, hs⟩ := unless_some hs
    obtain ⟨⟨armed, rfl⟩, heff⟩ := arm_frame (Option.some.inj hs)
    exact .arm heff
  | eof =>
    obtain ⟨⟨-, hq, hend⟩, ⟨⟩⟩ := guard_some hs
    exact .eof hq (hend.imp_right And.right)

theorem receiverStep_frame {a : RecvAct} (hs : s.receiverStep e a = some (s', effects)) :
    (∃ recvCh delivered delivering consumed arming armed eof,
      s' = { s with recvCh, delivered, delivering, recvCredit := { s.recvCredit with consumed }, arming, armed, eof }) ∧
    ∀ x ∈ effects, x = .appendArm := by
  cases receiverStep_move hs with
  | arm heff => exact ⟨⟨_, _, _, _, _, _, _, rfl⟩, heff⟩
  | _ => exact ⟨⟨_, _, _, _, _, _, _, rfl⟩, by simp⟩

theorem ackStep_frame {a : AckAct} (hs : s.ackStep a = some (s', effects)) :
    ∃ token ackedOut acker armed deferred reArms,
      s' = { s with token, recvCredit := { s.recvCredit with ackedOut }, acker, armed, deferred, reArms } := by
  cases ackStep_move hs with
  | settle hpc =>
    unfold CreditCounter.advanceAckedOut
    split <;> exact ⟨_, _, _, _, _, _, rfl⟩
  | _ => exact ⟨_, _, _, _, _, _, rfl⟩

theorem finishStep_frame {a : FinishAct} (hs : s.finishStep e a = some (s', effects)) :
    ∃ token finisher done owed, s' = { s with token, finisher, done, owed } := by
  cases finishStep_move hs <;> exact ⟨_, _, _, _, rfl⟩

theorem openerStep_frame {a : OpenAct} (hs : s.openerStep a = some (s', effects)) :
    ∃ s₁ phase handed opener openSendPending owed, Ends s s₁ ∧
      (phase = s₁.phase ∨ s₁.phase = .submitted ∧ phase = .published) ∧
      (owed = s₁.owed ∨ owed = .claim ∧ s₁.teardownCode ≠ 0) ∧
      s' = { s₁ with phase, handed, opener, openSendPending, owed } := by
  cases openerStep_move hs with
  | publish _ hph => exact ⟨s, _, _, _, _, _, .same, .inr ⟨hph, rfl⟩, .inl rfl, rfl⟩
  | ambiguous => exact ⟨_, _, _, _, _, _, ends_mapCtx _, .inl rfl, .inl rfl, rfl⟩
  | discard => exact ⟨_, _, _, _, _, _, ends_terminate .crashed nofun, .inl rfl, .inl rfl, rfl⟩
  | resolve =>
    refine ⟨s, _, _, _, _, _, .same, .inl rfl, ?_, rfl⟩
    split
    · exact .inl rfl
    · next hcode => exact .inr ⟨rfl, (not_or.mp hcode).1⟩
  | _ => exact ⟨s, _, _, _, _, _, .same, .inl rfl, .inl rfl, rfl⟩

theorem openerStep_effects {a : OpenAct} (hs : s.openerStep a = some (s', effects)) :
    (effects = [] ∨ s.opener = .send ∧ effects = [.data s.openFrame]) ∧
    s'.opener ≠ .publish ∧ (s'.opener = .send → s.opener = .publish) := by
  cases openerStep_move hs with
  | publish hpc => exact ⟨.inl rfl, by simp, by simp [hpc]⟩
  | sent hpc | sentCtx hpc => exact ⟨.inr ⟨hpc, rfl⟩, by simp, by simp⟩
  | resolve => refine ⟨.inl rfl, ?_, ?_⟩ <;> dsimp only <;> split <;> simp
  | _ => exact ⟨.inl rfl, by simp, by simp⟩

theorem senderStep_frame (hs : s.senderStep e a = some (s', effects)) :
    ∃ s₁ sendCredit sendSeq sender sendCloseState handed closeLocal sendClosed, Ends s s₁ ∧
      s' = { s₁ with sendCredit, sendSeq, sender, sendCloseState, handed, closeLocal, sendClosed } := by
  cases senderStep_move hs with
  | fail => exact ⟨_, _, _, _, _, _, _, _, ends_mapCtx _, rfl⟩
  | complete => exact ⟨_, _, _, _, _, _, _, _, ends_completed, rfl⟩
  | _ => exact ⟨s, _, _, _, _, _, _, _, .same, rfl⟩

/-! ## What is published

Only the opener and the sender publish on the data lane, and the lifecycle lane has
acknowledgements and the `CANCEL`s of a teardown. -/

theorem arm_effects (h : ∀ x ∈ effects, x = .appendArm) :
    ∀ x ∈ effects, x.dataFrame = none ∧ x.lifeFrame = none ∧ x ≠ .remove := by
  intro x hx
  rw [h x hx]
  exact ⟨rfl, rfl, by simp⟩

theorem ackStep_effects {a : AckAct} (hs : s.ackStep a = some (s', effects)) :
    ∀ x ∈ effects, x.dataFrame = none ∧ x ≠ .remove ∧ ∀ f, x.lifeFrame = some f →
      (∃ cum, f = .streamAck cum) ∨ s.acker = .owing ∧ f = .cancel s.teardownCode := by
  cases ackStep_move hs with
  | @cancel ok hpc => cases ok <;> simp [teardownCancel, Effect.dataFrame, Effect.lifeFrame, hpc]
  | release _ _ heff | reArm _ heff =>
    intro x hx
    obtain ⟨hd, hlf, hr⟩ := arm_effects heff x hx
    exact ⟨hd, hr, by simp [hlf]⟩
  | _ => simp [Effect.dataFrame, Effect.lifeFrame]

theorem finishStep_effects {a : FinishAct} (hs : s.finishStep e a = some (s', effects)) :
    ∀ x ∈ effects, x.dataFrame = none ∧ (x = .remove → s.finisher = .remove) ∧ ∀ f, x.lifeFrame = some f →
      (s.finisher = .cancel ∨ s.owed = .cancel) ∧ f = .cancel s.teardownCode := by
  cases finishStep_move hs with
  | emit | emitStatus | owedEmit => cases e.room <;> simp [Effect.dataFrame, Effect.lifeFrame]
  | @settle deferred => cases deferred <;> simp [Effect.dataFrame, Effect.lifeFrame]
  | @cancel ok hpc | @owedCancel ok hpc => cases ok <;> simp [teardownCancel, Effect.dataFrame, Effect.lifeFrame, hpc]
  | remove hpc => simp [Effect.dataFrame, Effect.lifeFrame, hpc]
  | _ => simp

theorem fragmentFrame_ne_open {payload : Bytes} {off seq credits : Nat} {opening : Bytes} :
    fragmentFrame p payload off seq ≠ .streamOpen credits opening := by
  unfold fragmentFrame
  split <;> simp

theorem senderStep_effects (hs : s.senderStep e a = some (s', effects)) :
    ∀ x ∈ effects, x.lifeFrame = none ∧ x ≠ .remove ∧ ∀ credits payload, x ≠ .data (.streamOpen credits payload) := by
  cases senderStep_move hs with
  | fragment | fragmentEnd => simp [Effect.lifeFrame, fragmentFrame_ne_open]
  | _ => simp [Effect.lifeFrame]

/-! ## The reader -/

/-- What the connection's reader writes: the receive side, and the acknowledged count. -/
structure Read (s : Stream) (f : StreamFrame) (recvAccum : Bytes) (recvCh : List RecvItem) (closeRemote : Bool)
    (acked : Nat) : Prop where
  accum : closeRemote = true → recvAccum = [] ∨ s.closeRemote = true ∧ recvAccum = s.recvAccum
  queue : recvCh = s.recvCh ∨ s.recvCh.length < s.recvCap ∧ ∃ payload,
    f.isMsg = true ∧ recvCh = s.recvCh ++ [⟨payload, true⟩] ∨
      closeRemote = true ∧ recvCh = s.recvCh ++ [⟨payload, false⟩]
  closes : s.closeRemote = true → closeRemote = true
  acked : acked = s.sendCredit.acked ∨ f = .streamAck acked ∧ s.sendCredit.acked < acked

theorem Read.same (s : Stream) (f : StreamFrame) : Read s f s.recvAccum s.recvCh s.closeRemote s.sendCredit.acked :=
  ⟨fun h => .inr ⟨h, rfl⟩, .inl rfl, id, .inl rfl⟩

theorem dispatch_frame (s : Stream) (p : ChunkPolicy) (f : StreamFrame) :
    ∃ expectedSeq recvAccum recvCh closeRemote recvClosed acked, Read s f recvAccum recvCh closeRemote acked ∧
      Ends { s with
        expectedSeq, recvAccum, recvCh, closeRemote, recvClosed, sendCredit := { s.sendCredit with acked } }
        (s.dispatch p f).1 := by
  have hsame := Read.same s f
  unfold dispatch
  split
  swap
  · exact ⟨_, _, _, _, _, _, hsame, .same⟩
  cases f with
  | streamMsg seq payload =>
    simp only [onStreamMsg]
    iterate 3
      split
      · exact ⟨_, _, _, _, _, _, hsame, .same⟩
    split
    · next hroom =>
      exact ⟨_, [], _, _, _, _,
        ⟨fun _ => .inl rfl, .inr ⟨hroom, _, .inl ⟨rfl, rfl⟩⟩, id, .inl rfl⟩, .same⟩
    · exact ⟨_, [], _, _, _, _, ⟨fun _ => .inl rfl, .inl rfl, id, .inl rfl⟩, .same⟩
  | streamChunk seq payload =>
    simp only [onStreamChunk]
    split
    · exact ⟨_, _, _, _, _, _, hsame, .same⟩
    next hclose =>
    iterate 2
      split
      · exact ⟨_, _, _, _, _, _, hsame, .same⟩
    split
    · exact ⟨_, _, _, _, _, _, ⟨fun h => absurd h hclose, .inl rfl, id, .inl rfl⟩, .same⟩
    · exact ⟨_, _, _, _, _, _, hsame, .same⟩
  | streamAck v =>
    simp only [onStreamAck, CreditCounter.replenishStrict]
    iterate 3
      split
      · exact ⟨_, _, _, _, _, _, hsame, .same⟩
    · next c hc =>
      obtain ⟨hlt, ⟨⟩⟩ := unless_some hc
      exact ⟨_, _, _, _, _, v, ⟨hsame.accum, hsame.queue, hsame.closes, .inr ⟨rfl, by omega⟩⟩, .same⟩
  | streamClose finalSeq payload =>
    simp only [onStreamClose]
    split
    · exact ⟨_, _, _, _, _, _, hsame, .same⟩
    next hacc =>
    have hacc : s.recvAccum = [] := by simpa using hacc
    have hclose : Read s (.streamClose finalSeq payload) s.recvAccum s.recvCh true s.sendCredit.acked :=
      ⟨fun _ => .inl hacc, .inl rfl, fun _ => rfl, .inl rfl⟩
    split
    · exact ⟨_, _, _, _, _, _, hsame, .same⟩
    split
    · exact ⟨_, _, _, _, _, _, hclose, .same⟩
    split
    · split
      · next hroom =>
        exact ⟨_, _, _, _, _, _,
          ⟨hclose.accum, .inr ⟨hroom, payload, .inr ⟨rfl, rfl⟩⟩, hclose.closes, .inl rfl⟩, ends_completed⟩
      · exact ⟨_, _, _, _, _, _, hclose, .same⟩
    · exact ⟨_, _, _, _, _, _, hclose, ends_completed⟩
  | streamErr status =>
    simp only [onStreamErr]
    split
    · exact ⟨_, _, _, _, _, _, hsame, ends_terminate _ nofun⟩
    split <;> exact ⟨_, _, _, _, _, _, hsame, ends_terminate _ nofun⟩
  | cancel code =>
    simp only [onTeardownCancel]
    split
    · exact ⟨_, _, _, _, _, _, hsame, ends_terminate _ nofun⟩
    split
    · exact ⟨_, _, _, _, _, _, hsame, ends_terminate _ nofun⟩
    · exact ⟨_, _, _, _, _, _, hsame, .same⟩
  | streamOpen credits payload => exact ⟨_, _, _, _, _, _, hsame, .same⟩

/-! ## Whole steps -/

theorem isLive_of_phase (h : s'.phase = s.phase) : s'.isLive = s.isLive := by
  unfold isLive
  rw [h]

def inbox (s : Stream) : List RecvItem × List Bytes × Nat × Bool × Bool :=
  (s.recvCh, s.delivered, s.expectedSeq, s.closeRemote, s.recvClosed)

theorem Ends.inbox (h : Ends s s') : s'.inbox = s.inbox := by
  cases h <;> rfl

theorem step_inbox {a : Act} (hs : s.step e a = some (s', effects)) (hne : a ≠ .receiver .pop) : s'.inbox = s.inbox := by
  cases a with
  | opener a =>
    obtain ⟨s₁, _, _, _, _, _, he, -, -, rfl⟩ := openerStep_frame hs
    exact he.inbox
  | sender a =>
    obtain ⟨s₁, _, _, _, _, _, _, _, he, rfl⟩ := senderStep_frame hs
    exact he.inbox
  | receiver a =>
    cases receiverStep_move hs with
    | pop => exact absurd rfl hne
    | _ => rfl
  | acker a =>
    obtain ⟨_, _, _, _, _, _, rfl⟩ := ackStep_frame hs
    rfl
  | finisher a =>
    obtain ⟨_, _, _, _, rfl⟩ := finishStep_frame hs
    rfl
  | ending a => exact (endStep_ends hs).1.inbox

theorem step_phase_dead {a : Act} (hs : s.step e a = some (s', effects)) (hl : s.isLive = false) : s'.phase = s.phase := by
  cases a with
  | opener a =>
    obtain ⟨s₁, phase, _, _, _, _, he, hph, -, rfl⟩ := openerStep_frame hs
    rw [he.eq_of_ended hl] at hph
    rcases hph with rfl | ⟨hsub, -⟩
    · rfl
    · simp [isLive, hsub] at hl
  | sender a =>
    obtain ⟨s₁, _, _, _, _, _, _, _, he, rfl⟩ := senderStep_frame hs
    rw [he.eq_of_ended hl]
  | receiver a =>
    obtain ⟨⟨_, _, _, _, _, _, _, rfl⟩, -⟩ := receiverStep_frame hs
    rfl
  | acker a =>
    obtain ⟨_, _, _, _, _, _, rfl⟩ := ackStep_frame hs
    rfl
  | finisher a =>
    obtain ⟨_, _, _, _, rfl⟩ := finishStep_frame hs
    rfl
  | ending a => rw [(endStep_ends hs).1.eq_of_ended hl]

end Stream

end Styx
