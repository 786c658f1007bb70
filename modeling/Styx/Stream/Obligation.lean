/-
The response obligation of an accepted stream, and the terminal frame it stands for.

The obligation is closed at four places: by `CloseSend` once its `STREAM_CLOSE` is
accepted, by the terminal winner, by the ack dispatcher that was left a `CANCEL`, and by
the emitter. A handler's error has no `CANCEL`: its `STREAM_ERR` is all there is, and it
is dropped where the emitter's queue is full, and forgotten where the emitter's `Send` is
refused, with the obligation closed either way (`status_lost`). Where neither happens no
terminal is lost (`terminal_kept`).
-/
import Styx.Stream.Moves
import Styx.Stream.Table

namespace Styx

open Machine

/-- A terminal frame of this side other than a handler's error. -/
def Effect.terminal : Effect → Bool
  | .data (.streamClose _ _) | .life (.cancel _) => true
  | _ => false

namespace Stream

/-! ## One stream -/

/-- What has become of a stream: `ended`, a terminal frame of this side has been
accepted or the peer ended the stream; `posted`, a handler's status is with the
emitter or accepted. -/
structure Fate where
  ended : Prop
  posted : FrameStatus → Prop

structure Fate.Le (w w' : Fate) : Prop where
  ended : w.ended → w'.ended
  posted : ∀ status, w.posted status → w'.posted status

/-- What a step publishes and queues counts from then on. -/
def Fate.after (w : Fate) (effects : List Effect) : Fate :=
  ⟨w.ended ∨ effects.any Effect.terminal, fun status => w.posted status ∨ Effect.emit status false ∈ effects⟩

theorem Fate.le_refl (w : Fate) : w.Le w := ⟨id, fun _ => id⟩

theorem Fate.le_after (w : Fate) (effects : List Effect) : w.Le (w.after effects) := ⟨.inl, fun _ => .inl⟩

def Posted (w : Fate) (s : Stream) : Prop := ∀ status, s.handlerErrStatus = some status → w.posted status

/-- What the terminal winner can rely on where it stands. -/
def FinishKept (w : Fate) (s : Stream) : Prop :=
  match s.finisher with
  | .none => s.handlerErrStatus = none
  | .claim true presend => presend = false ∧ s.handlerErrStatus = none
  | .claim false presend => presend = false ∧ (w.ended ∨ s.handlerErrStatus.isSome)
  | .cancel => s.handlerErrStatus = none
  | .emit true toAck => s.handlerErrStatus = none ∧ (toAck = false → w.ended)
  | .emit false toAck => toAck = false ∧ (w.ended ∨ s.handlerErrStatus.isSome)
  | .settle deferred => (deferred = false → w.ended) ∧ s.Posted w
  | .signal | .remove | .finished => s.Posted w

structure Kept (w : Fate) (s : Stream) : Prop where
  server : s.side = .server
  confirmed : s.openSendPending = false
  held : s.opener = .opened
  owed : s.owed = .none
  fresh : s.isLive = true → s.handlerErrStatus = none
  closed : s.closeLocal = true ∨ s.sender = .committing ∨ s.sender = .discharging ∨ s.sender = .completing → w.ended
  finish : s.FinishKept w
  ack : s.acker = .discharging → w.ended

variable {e : Env} {s s' : Stream} {effects : List Effect} {w w' : Fate}

theorem Posted.mono (h : s.Posted w) (hle : w.Le w') : s.Posted w' := fun status hst => hle.posted _ (h status hst)

theorem FinishKept.imp (h : s.FinishKept w) (he : w.ended → w'.ended) (hp : s.Posted w → s.Posted w') :
    s.FinishKept w' := by
  unfold FinishKept at *
  split at h
  · exact h
  · exact h
  · exact ⟨h.1, h.2.imp he id⟩
  · exact h
  · exact ⟨h.1, fun ht => he (h.2 ht)⟩
  · exact ⟨h.1, h.2.imp he id⟩
  · exact ⟨fun hd => he (h.1 hd), hp h.2⟩
  all_goals exact hp h

theorem Kept.imp (h : Kept w s) (he : w.ended → w'.ended) (hp : s.Posted w → s.Posted w') : Kept w' s :=
  ⟨h.server, h.confirmed, h.held, h.owed, h.fresh, fun hc => he (h.closed hc), h.finish.imp he hp,
    fun ha => he (h.ack ha)⟩

theorem FinishKept.mono (h : s.FinishKept w) (hle : w.Le w') : s.FinishKept w' := h.imp hle.ended fun hp => hp.mono hle

theorem Kept.mono (h : Kept w s) (hle : w.Le w') : Kept w' s := h.imp hle.ended fun hp => hp.mono hle

theorem Kept.terminate (h : Kept w s) (code : StreamOutcomeCode) (he : s.isLive = true → w.ended) :
    Kept w (s.terminate code 0 false) := by
  unfold Stream.terminate
  split
  · next hl =>
    exact ⟨h.server, h.confirmed, h.held, h.owed, by simp [isLive], h.closed, ⟨h.confirmed, .inl (he hl)⟩, h.ack⟩
  · exact h

theorem Kept.terminateLocal (h : Kept w s) (deadline : Bool) : Kept w (s.mapCtxToTerminal deadline) := by
  unfold mapCtxToTerminal mapDeadlineToTerminal mapCancelToTerminal Stream.terminate
  split
  all_goals
    split
    · next hl => exact ⟨h.server, h.confirmed, h.held, h.owed, by simp [isLive], h.closed,
        ⟨h.confirmed, h.fresh hl⟩, h.ack⟩
    · exact h

theorem Kept.terminateHandlerError (h : Kept w s) (status : FrameStatus) :
    Kept w (s.terminateHandlerError status) := by
  unfold Stream.terminateHandlerError Stream.terminate
  split
  · exact ⟨h.server, h.confirmed, h.held, h.owed, by simp [isLive], h.closed, ⟨h.confirmed, .inr rfl⟩, h.ack⟩
  · exact h

def Persists (s s' : Stream) : Prop := ∀ status, s.handlerErrStatus = some status → s'.handlerErrStatus = some status

theorem Persists.refl (s : Stream) : s.Persists s := fun _ => id

theorem persists_terminate {code : StreamOutcomeCode} {teardownCode : UInt32} {l : Bool} :
    s.Persists (s.terminate code teardownCode l) := by
  unfold Stream.terminate
  split <;> exact fun _ => id

theorem persists_mapCtx {deadline : Bool} : s.Persists (s.mapCtxToTerminal deadline) := by
  unfold mapCtxToTerminal mapDeadlineToTerminal mapCancelToTerminal
  split <;> exact persists_terminate

/-- What a step owes: the invariant, and `ended` wherever it closes the obligation or
queues a frame that will. -/
structure Keeps (w : Fate) (s s' : Stream) (effects : List Effect) : Prop where
  kept : Kept (w.after effects) s'
  persists : s.Persists s'
  closes : Effect.closeObligation ∈ effects → (w.after effects).ended
  emits : ∀ status keep, Effect.emit status keep ∈ effects →
    keep = true ∨ (w.after effects).ended ∨ s'.handlerErrStatus = some status

theorem Keeps.silent (h : Kept w s') (hp : s.Persists s') : Keeps w s s' [] :=
  ⟨h.mono (w.le_after _), hp, by simp, by simp⟩

variable {f : StreamFrame} {c : CreditCounter} {t : LifecycleToken} {p : ChunkPolicy}

theorem Keeps.data (h : Kept (w.after [.data f]) s') (hp : s.Persists s') :
    Keeps w s s' [.data f] :=
  ⟨h, hp, by simp, by simp⟩

theorem Kept.sent (h : Kept w s) (hle : w.Le w') {seq : Nat} {pc : SendPc} {cs : SendCloseState} {hd : List Bytes}
    (hpc : pc = .committing ∨ pc = .discharging ∨ pc = .completing → w'.ended) :
    Kept w' { s with sendCredit := c, sendSeq := seq, sender := pc, sendCloseState := cs, handed := hd } :=
  ⟨h.server, h.confirmed, h.held, h.owed, h.fresh,
    fun hc => hc.elim (fun hc => hle.ended (h.closed (.inl hc))) hpc, h.finish.mono hle, fun ha => hle.ended (h.ack ha)⟩

theorem Kept.senderStep {a : SendAct} (h : Kept w s) (hs : s.senderStep e a = some (s', effects)) :
    Keeps w s s' effects := by
  cases senderStep_move hs with
  | admitted _ _ hpc => rcases hpc with rfl | ⟨rfl, -⟩ <;> exact .silent (h.sent w.le_refl (by simp)) fun _ => id
  | sent _ hlane | fragmentEnd _ hlane => cases hlane <;> exact .data (h.sent (w.le_after _) (by simp)) fun _ => id
  | fragment | closeCtx => exact .data (h.sent (w.le_after _) (by simp)) fun _ => id
  | closeSent => exact .data (h.sent (w.le_after _) fun _ => .inr (by simp [Effect.terminal])) fun _ => id
  | retry => exact .silent h fun _ => id
  | unsent _ ha =>
    rcases ha with ⟨-, rfl⟩ | ⟨deadline, rfl⟩ <;> exact .silent (h.sent w.le_refl (by simp)) fun _ => id
  | closeUnsent _ ha =>
    rcases ha with ⟨rfl, -⟩ | ⟨⟨deadline, rfl⟩, -⟩ | ⟨-, rfl, -⟩ <;> exact .silent (h.sent w.le_refl (by simp)) fun _ => id
  | @fail deadline => exact .silent ((h.terminateLocal deadline).sent w.le_refl (by simp)) persists_mapCtx
  | commit hpc =>
    have hend : w.ended := h.closed (.inr (.inl hpc))
    exact .silent ⟨h.server, h.confirmed, h.held, h.owed, h.fresh, fun _ => hend, h.finish, h.ack⟩ fun _ => id
  | discharge hpc =>
    have hend : w.ended := h.closed (.inr (.inr (.inl hpc)))
    exact ⟨h.sent (w.le_after _) fun _ => .inl hend, fun _ => id, fun _ => .inl hend, by simp⟩
  | complete hpc =>
    have hend : w.ended := h.closed (.inr (.inr (.inr hpc)))
    split
    · exact .silent ((h.terminate .completed fun _ => hend).sent w.le_refl (by simp)) persists_terminate
    · exact .silent (h.sent w.le_refl (by simp)) fun _ => id
  | _ => exact .silent (h.sent w.le_refl (by simp)) fun _ => id

theorem Keeps.queued (h : Kept w s') (hp : s.Persists s') (heff : ∀ x ∈ effects, x = .appendArm) : Keeps w s s' effects :=
  ⟨h.mono (w.le_after _), hp, (fun hx => by cases heff _ hx), (fun _ _ hx => by cases heff _ hx)⟩

theorem Kept.armStep (h : Kept w s) (hs : s.arm = (s', effects)) : Keeps w s s' effects := by
  obtain ⟨⟨_, rfl⟩, heff⟩ := arm_frame hs
  exact .queued ⟨h.server, h.confirmed, h.held, h.owed, h.fresh, h.closed, h.finish, h.ack⟩ (fun _ => id) heff

theorem Kept.receiverStep {a : RecvAct} (h : Kept w s) (hs : s.receiverStep e a = some (s', effects)) :
    Keeps w s s' effects := by
  obtain ⟨⟨_, _, _, _, _, _, _, rfl⟩, heff⟩ := receiverStep_frame hs
  exact .queued ⟨h.server, h.confirmed, h.held, h.owed, h.fresh, h.closed, h.finish, h.ack⟩ (fun _ => id) heff

theorem Kept.acked (h : Kept w s) (hle : w.Le w') {pc : AckPc}
    {armed deferred : Bool} {n : Nat} (hpc : pc = .discharging → w'.ended) :
    Kept w' { s with token := t, recvCredit := c, acker := pc, armed, deferred, reArms := n } :=
  ⟨h.server, h.confirmed, h.held, h.owed, h.fresh, fun hc => hle.ended (h.closed hc), h.finish.mono hle, hpc⟩

theorem ended_teardownCancel {ok : Bool} (hf : Effect.failConn ∉ s.teardownCancel ok) :
    (w.after (s.teardownCancel ok)).ended := by
  cases ok with
  | true => exact .inr rfl
  | false => simp [teardownCancel] at hf

section

variable (h : Kept w s)
include h

theorem Kept.ackStep {a : AckAct} (hs : s.ackStep a = some (s', effects))
    (hf : Effect.failConn ∉ effects) : Keeps w s s' effects := by
  cases ackStep_move hs with
  | sent => exact ⟨h.acked (w.le_after _) (by simp), fun _ => id, by simp, by simp⟩
  | release _ _ heff => exact .queued (h.acked w.le_refl (by simp)) (fun _ => id) heff
  | @cancel ok =>
    refine ⟨h.acked (w.le_after _) fun _ => ended_teardownCancel hf, fun _ => id, ?_, ?_⟩
    · cases ok <;> simp [teardownCancel]
    · cases ok <;> simp [teardownCancel]
  | discharge hpc => exact ⟨h.acked (w.le_after _) (by simp), fun _ => id, fun _ => .inl (h.ack hpc), by simp⟩
  | reArm _ heff => exact .queued (h.acked w.le_refl h.ack) (fun _ => id) heff
  | _ => exact .silent (h.acked w.le_refl (by simp)) fun _ => id

theorem Kept.finishes (hle : w.Le w') (pc : FinishPc) {done : Bool}
    (hpc : FinishKept w' { s with finisher := pc }) :
    Kept w' { s with token := t, finisher := pc, done } :=
  ⟨h.server, h.confirmed, h.held, h.owed, h.fresh, fun hc => hle.ended (h.closed hc), hpc, fun ha => hle.ended (h.ack ha)⟩

theorem Kept.finishStep {a : FinishAct} (hs : s.finishStep e a = some (s', effects))
    (hroom : a = .emit → ∀ toAck, s.finisher = .emit false toAck → s.handlerErrStatus.isSome → e.room = true)
    (hf : Effect.failConn ∉ effects) : Keeps w s s' effects := by
  have hfin := h.finish
  unfold FinishKept at hfin
  cases finishStep_move hs with
  | @presend l hpc =>
    rw [hpc] at hfin
    cases l <;> cases hfin.1
  | @claim l submitNow _ hpc htok =>
    rw [hpc] at hfin
    cases l with
    | true =>
      cases submitNow with
      | true => exact .silent (h.finishes w.le_refl .cancel hfin.2) fun _ => id
      | false => exact .silent (h.finishes w.le_refl (.emit true true) ⟨hfin.2, by simp⟩) fun _ => id
    | false =>
      obtain rfl : submitNow = false := by cases htk : s.token <;> simp_all [claimTerminalToken]
      exact .silent (h.finishes w.le_refl (.emit false false) ⟨rfl, hfin.2⟩) fun _ => id
  | @cancel ok hpc =>
    rw [hpc] at hfin
    refine ⟨h.finishes (w.le_after _) (.emit true false) ⟨hfin, fun _ => ended_teardownCancel hf⟩, fun _ => id, ?_, ?_⟩
    · cases ok <;> simp [teardownCancel]
    · cases ok <;> simp [teardownCancel]
  | @emit toAck hpc =>
    rw [hpc] at hfin
    obtain ⟨hst, hack⟩ := hfin
    refine ⟨h.finishes (w.le_after _) (.settle toAck) ⟨fun ht => .inl (hack ht), by simp [Posted, hst]⟩, fun _ => id, ?_, ?_⟩
    · split <;> simp
    · intro status keep hmem
      split at hmem
      · obtain ⟨rfl, rfl⟩ : status = s.teardownStatus ∧ keep = toAck := by simpa using hmem
        cases keep with
        | true => exact .inl rfl
        | false => exact .inr (.inl (.inl (hack rfl)))
      · simp at hmem
  | @emitStatus toAck status hpc hst =>
    have hr : e.room = true := hroom rfl toAck hpc (by simp [hst])
    rw [hr]
    have hpost : s.Posted (w.after [.emit status false]) := fun st hst' =>
      .inr (by simp [Option.some.inj (hst.symm.trans hst')])
    refine ⟨h.finishes (w.le_after _) (.settle true) ⟨by simp, hpost⟩, fun _ => id, by simp, ?_⟩
    intro st keep hmem
    obtain ⟨rfl, -⟩ : st = status ∧ keep = false := by simpa using hmem
    exact .inr (.inr hst)
  | emitNone hpc hst =>
    rw [hpc] at hfin
    have hend : w.ended := by simpa [hst] using hfin.2
    exact .silent (h.finishes w.le_refl (.settle false) ⟨fun _ => hend, by simp [Posted, hst]⟩) fun _ => id
  | @settle deferred hpc =>
    rw [hpc] at hfin
    cases deferred with
    | true => exact .silent (h.finishes w.le_refl .signal hfin.2) fun _ => id
    | false =>
      have hend : w.ended := hfin.1 rfl
      exact ⟨h.finishes (w.le_after _) .signal (hfin.2.mono (w.le_after _)), fun _ => id, fun _ => .inl hend, by simp⟩
  | signal hpc =>
    rw [hpc] at hfin
    exact .silent (h.finishes w.le_refl .remove hfin) fun _ => id
  | remove hpc =>
    rw [hpc] at hfin
    exact ⟨h.finishes (w.le_after _) .finished (Posted.mono hfin (w.le_after _)), fun _ => id, by simp, by simp⟩
  | owedClaim hpc | owedCancel hpc | owedEmit hpc => simp [h.owed] at hpc

theorem Kept.openerStep {a : OpenAct} : s.openerStep a = none := by
  cases a <;> simp [Stream.openerStep, h.held]

theorem Kept.endStep {a : EndAct} (hs : s.endStep a = some (s', effects)) (ha : a ≠ .failAll) :
    Keeps w s s' effects := by
  cases a with
  | ctx deadline =>
    obtain ⟨-, ⟨⟩⟩ := guard_some hs
    exact .silent (h.terminateLocal deadline) persists_mapCtx
  | handlerError status =>
    obtain ⟨-, ⟨⟩⟩ := guard_some hs
    refine .silent (h.terminateHandlerError status) ?_
    unfold Stream.terminateHandlerError
    split
    · next hl => exact fun st hst => by simp [h.fresh hl] at hst
    · exact fun _ => id
  | failAll => exact absurd rfl ha

/-- **One step of any goroutine of the stream.** -/
theorem Kept.step {a : Act} (hs : s.step e a = some (s', effects)) (ha : a ≠ .ending .failAll)
    (hroom : a = .finisher .emit → ∀ toAck, s.finisher = .emit false toAck → s.handlerErrStatus.isSome →
      e.room = true)
    (hf : Effect.failConn ∉ effects) : Keeps w s s' effects := by
  cases a with
  | opener a => rw [Stream.step, h.openerStep] at hs; cases hs
  | sender a => exact h.senderStep hs
  | receiver a => exact h.receiverStep hs
  | acker a => exact h.ackStep hs hf
  | finisher a => exact h.finishStep hs (fun ha => hroom (ha ▸ rfl)) hf
  | ending a => exact h.endStep hs fun hfa => ha (hfa ▸ rfl)

theorem Kept.remoteEOF (hpeer : s.remoteEOF.isLive = false → w.ended) : Kept w s.remoteEOF := by
  have h' : Kept w { s with recvClosed := true } :=
    ⟨h.server, h.confirmed, h.held, h.owed, h.fresh, h.closed, h.finish, h.ack⟩
  unfold Stream.remoteEOF at *
  dsimp only at *
  revert hpeer
  split
  · exact fun hpeer => h'.terminate _ fun _ => hpeer terminate_isLive
  · exact fun _ => h'

/-- **An inbound frame**: an end it makes is the peer's. -/
theorem Kept.dispatch (hle : w.Le w')
    (hpeer : s.isLive = true → (s.dispatch p f).1.isLive = false → w'.ended) : Kept w' (s.dispatch p f).1 := by
  have h' := h.mono hle
  unfold Stream.dispatch at *
  split
  · next hl =>
    simp only [hl, if_true, true_implies] at hpeer
    cases f with
    | streamMsg seq payload =>
      simp only [onStreamMsg]
      split
      · exact h'
      split
      · exact h'
      split
      · exact h'
      split <;> exact ⟨h'.server, h'.confirmed, h'.held, h'.owed, h'.fresh, h'.closed, h'.finish, h'.ack⟩
    | streamChunk seq payload =>
      simp only [onStreamChunk]
      split
      · exact h'
      split
      · exact h'
      split
      · exact h'
      split
      · exact ⟨h'.server, h'.confirmed, h'.held, h'.owed, h'.fresh, h'.closed, h'.finish, h'.ack⟩
      · exact h'
    | streamAck v =>
      simp only [onStreamAck]
      split
      · exact h'
      split
      · exact h'
      split
      · exact h'
      · exact ⟨h'.server, h'.confirmed, h'.held, h'.owed, h'.fresh, h'.closed, h'.finish, h'.ack⟩
    | streamClose finalSeq payload =>
      have hset : ∀ ch, Kept w' { s with closeRemote := true, recvCh := ch } := fun ch =>
        ⟨h'.server, h'.confirmed, h'.held, h'.owed, h'.fresh, h'.closed, h'.finish, h'.ack⟩
      simp only [onStreamClose] at hpeer ⊢
      revert hpeer
      split
      · exact fun _ => h'
      split
      · exact fun _ => h'
      split
      · exact fun _ => hset s.recvCh
      split
      · split
        · exact (hset _).remoteEOF
        · exact fun _ => hset s.recvCh
      · exact (hset s.recvCh).remoteEOF
    | streamErr status =>
      simp only [onStreamErr] at hpeer ⊢
      revert hpeer
      split
      · exact fun hpeer => h'.terminate _ fun _ => hpeer terminate_isLive
      split <;> exact fun hpeer => h'.terminate _ fun _ => hpeer terminate_isLive
    | cancel code =>
      simp only [onTeardownCancel] at hpeer ⊢
      revert hpeer
      split
      · exact fun hpeer => h'.terminate _ fun _ => hpeer terminate_isLive
      split
      · exact fun hpeer => h'.terminate _ fun _ => hpeer terminate_isLive
      · exact fun _ => h'
    | streamOpen credits payload => exact h'
  · exact h'

end

theorem dispatch_handlerErrStatus : (s.dispatch p f).1.handlerErrStatus = s.handlerErrStatus := by
  have hterm : ∀ (s : Stream) code, (s.terminate code 0 false).handlerErrStatus = s.handlerErrStatus := by
    intro s code
    unfold Stream.terminate
    split <;> rfl
  have heof : ∀ s : Stream, s.remoteEOF.handlerErrStatus = s.handlerErrStatus := by
    intro s
    unfold Stream.remoteEOF
    dsimp only
    split
    · exact hterm _ _
    · rfl
  unfold Stream.dispatch
  split
  · cases f with
    | streamMsg seq payload => simp only [onStreamMsg]; repeat' (first | rfl | split)
    | streamChunk seq payload => simp only [onStreamChunk]; repeat' (first | rfl | split)
    | streamAck v => simp only [onStreamAck]; repeat' (first | rfl | split)
    | streamClose finalSeq payload => simp only [onStreamClose]; repeat' (first | rfl | exact heof _ | split)
    | streamErr status => simp only [onStreamErr]; repeat' (first | exact hterm _ _ | split)
    | cancel code => simp only [onTeardownCancel]; repeat' (first | rfl | exact hterm _ _ | split)
    | streamOpen credits payload => rfl
  · rfl

end Stream

/-! ## The accepting side -/

/-- An accepting side, with what it has published and which streams the peer ended. -/
structure Accepting where
  tbl : Table
  sent : List Sent
  peerEnded : Finset UInt64

namespace Accepting

def start : Accepting := ⟨.empty, [], ∅⟩

/-- The stream an act ends by the peer's doing. -/
def peerEnds (cfg : TableConfig) (t : Table) : Table.Act → Finset UInt64
  | .inbound id f => if t.hasLiveStream id ∧ ¬ (t.dispatch cfg id f).1.hasLiveStream id then {id} else ∅
  | _ => ∅

def step (cfg : TableConfig) (s : Accepting) (a : Table.Act) : Option Accepting :=
  match s.tbl.step cfg a with
  | none => none
  | some (t, out) => some ⟨t, s.sent ++ out, s.peerEnded ∪ peerEnds cfg s.tbl a⟩

/-- A terminal frame of this side is accepted: its `STREAM_CLOSE`, its teardown
`CANCEL`, or the `STREAM_ERR` with the handler's status. -/
def TerminalSent (s : Accepting) (id : UInt64) : Prop :=
  ∃ x ∈ s.sent, x.callID = id ∧
    match x.frame with
    | .streamClose _ _ | .cancel _ => True
    | .streamErr status => ∃ st, s.tbl.streams id = some st ∧ st.handlerErrStatus = some status
    | _ => False

def Ended (s : Accepting) (id : UInt64) : Prop := s.TerminalSent id ∨ id ∈ s.peerEnded

def Emitting (s : Accepting) (id : UInt64) (status : FrameStatus) : Prop :=
  ⟨id, status, false, false⟩ ∈ s.tbl.emitCh ∨ s.tbl.emitter = some (⟨id, status, false, false⟩, false)

def Accepted (s : Accepting) (id : UInt64) (status : FrameStatus) : Prop :=
  ⟨.data, id, .streamErr status⟩ ∈ s.sent

/-- The winner of a handler's error is still on its way to the emitter. -/
def Finishing (st : Stream) : Prop :=
  match st.finisher with
  | .claim false _ | .emit false _ => True
  | _ => False

/-- On a connection neither closing nor failed an obligation is closed only after a
terminal frame or by the peer's end, and a handler's error that ended its stream is
accepted or on its way. -/
def NotLost (s : Accepting) : Prop :=
  s.tbl.closed = false → s.tbl.fatal = false → ∀ id st, s.tbl.streams id = some st →
    (id ∉ s.tbl.obligations → s.Ended id) ∧
    ∀ status, st.handlerErrStatus = some status → Finishing st ∨ s.Emitting id status ∨ s.Accepted id status

/-- **The condition**: the emitter's queue has room when a handler's status comes to it,
and its `Send` of one is accepted. -/
def Taken (cfg : TableConfig) (s : Accepting) : Table.Act → Prop
  | .stream id (.finisher .emit) =>
    ∀ st ∈ s.tbl.streams id, st.handlerErrStatus.isSome → s.tbl.emitCh.length < cfg.emitCap
  | .emitSend ok =>
    ∀ job ∈ s.tbl.emitter, ∀ st ∈ s.tbl.streams job.1.callID, st.handlerErrStatus = some job.1.status → ok = true
  | _ => True

variable {cfg : TableConfig} {s s' : Accepting} {id : UInt64} {job : EmitJob} {st st' : Stream} {effects : List Effect}
  {ok : Bool} {t' : Table}

def fate (s : Accepting) (id : UInt64) : Stream.Fate :=
  ⟨s.Ended id, fun status => s.Emitting id status ∨ s.Accepted id status⟩

/-- A job that closes an obligation has its terminal, or is it. -/
def JobKept (s : Accepting) (job : EmitJob) : Prop :=
  job.callID ∈ s.tbl.used ∧ (job.keepObligation = false → ∀ st, s.tbl.streams job.callID = some st →
    s.Ended job.callID ∨ st.handlerErrStatus = some job.status)

/-- The same of a job whose `Send` has returned. -/
def Answered (s : Accepting) (job : EmitJob) : Prop :=
  job.callID ∈ s.tbl.used ∧
    (job.keepObligation = false → ∀ st, s.tbl.streams job.callID = some st → s.Ended job.callID)

structure Held (s : Accepting) : Prop where
  stream : ∀ id st, s.tbl.streams id = some st → st.Kept (s.fate id)
  obligation : ∀ id st, s.tbl.streams id = some st → id ∉ s.tbl.obligations → s.Ended id
  queued : ∀ job ∈ s.tbl.emitCh, s.JobKept job
  taken : ∀ job, s.tbl.emitter = some (job, false) → s.JobKept job
  answered : ∀ job, s.tbl.emitter = some (job, true) → s.Answered job
  used : ∀ id st, s.tbl.streams id = some st → id ∈ s.tbl.used

theorem Held.notLost (h : s.Held) : s.NotLost := by
  intro _ _ id st hst
  refine ⟨h.obligation id st hst, fun status hstatus => ?_⟩
  have hfin := (h.stream id st hst).finish
  unfold Stream.FinishKept at hfin
  unfold Finishing
  split at hfin
  all_goals next hpc => simp_all [Stream.Posted, fate]

/-- What every step leaves: published frames, ended streams, used call IDs, and the
streams themselves with their recorded statuses. -/
structure Later (s s' : Accepting) : Prop where
  sent : s.sent ⊆ s'.sent
  peerEnded : s.peerEnded ⊆ s'.peerEnded
  used : s.tbl.used ⊆ s'.tbl.used
  ahead : ∀ id st, s.tbl.streams id = some st → ∃ st', s'.tbl.streams id = some st' ∧ st.Persists st'
  back : ∀ id ∈ s.tbl.used, ∀ st', s'.tbl.streams id = some st' → ∃ st, s.tbl.streams id = some st ∧ st.Persists st'

theorem Later.ended (h : Later s s') (he : s.Ended id) : s'.Ended id := by
  rcases he with ⟨x, hx, hid, hframe⟩ | hp
  · refine .inl ⟨x, h.sent hx, hid, ?_⟩
    split at hframe
    · trivial
    · trivial
    · obtain ⟨st, hst, hstatus⟩ := hframe
      obtain ⟨st', hst', hpers⟩ := h.ahead id st hst
      exact ⟨st', hst', hpers _ hstatus⟩
    · exact hframe.elim
  · exact .inr (h.peerEnded hp)

theorem Later.jobKept (h : Later s s') (hj : s.JobKept job) : s'.JobKept job := by
  refine ⟨h.used hj.1, fun hk st' hst' => ?_⟩
  obtain ⟨st, hst, hpers⟩ := h.back _ hj.1 st' hst'
  exact (hj.2 hk st hst).imp h.ended (hpers _)

theorem Later.answered (h : Later s s') (hj : s.Answered job) : s'.Answered job := by
  refine ⟨h.used hj.1, fun hk st' hst' => ?_⟩
  obtain ⟨st, hst, -⟩ := h.back _ hj.1 st' hst'
  exact h.ended (hj.2 hk st hst)

theorem Later.accepted (h : Later s s') {status : FrameStatus} (ha : s.Accepted id status) : s'.Accepted id status :=
  h.sent ha

variable {ended : Finset UInt64} {sent out : List Sent} {t : Table}

theorem later_of_streams (hst : t.streams = s.tbl.streams)
    (hu : s.tbl.used ⊆ t.used) : Later s ⟨t, s.sent ++ sent, s.peerEnded ∪ ended⟩ :=
  ⟨by simp, by simp, hu, fun id st h => ⟨st, by rw [hst]; exact h, Stream.Persists.refl _⟩,
    fun id _ st' h => ⟨st', by rw [← hst]; exact h, Stream.Persists.refl _⟩⟩

theorem later_of_update (hst : s.tbl.streams id = some st) (ht : t.streams = Function.update s.tbl.streams id (some st'))
    (hu : t.used = s.tbl.used) (hp : st.Persists st') : Later s ⟨t, s.sent ++ sent, s.peerEnded ∪ ended⟩ := by
  refine ⟨by simp, by simp, by simp [hu], fun id' x hx => ?_, fun id' _ x hx => ?_⟩
  · rw [ht]
    by_cases hid : id' = id
    · subst hid
      exact ⟨st', by simp, by rw [hst] at hx; cases hx; exact hp⟩
    · exact ⟨x, by simp [Function.update_of_ne hid, hx], Stream.Persists.refl _⟩
  · rcases update_eq_some (ht ▸ hx) with ⟨rfl, rfl⟩ | ⟨-, hx⟩
    · exact ⟨st, hst, hp⟩
    · exact ⟨x, hx, Stream.Persists.refl _⟩

theorem fate_le (hl : Later s s') (hq : ∀ job ∈ s.tbl.emitCh, job ∈ s'.tbl.emitCh)
    (ht : s'.tbl.emitter = s.tbl.emitter) : (s.fate id).Le (s'.fate id) := by
  refine ⟨hl.ended, fun status hp => ?_⟩
  rcases hp with (hmem | hjob) | ha
  · exact .inl (.inl (hq _ hmem))
  · exact .inl (.inr (ht.trans hjob))
  · exact .inr (hl.accepted ha)

theorem Held.next (h : s.Held) (hl : Later s s')
    (hstream : ∀ id st', s'.tbl.streams id = some st' →
      s.tbl.streams id = some st' ∧ (st'.Posted (s.fate id) → st'.Posted (s'.fate id)) ∨ st'.Kept (s'.fate id))
    (hob : ∀ id st', s'.tbl.streams id = some st' → id ∉ s'.tbl.obligations →
      id ∈ s.tbl.used ∧ id ∉ s.tbl.obligations ∨ s'.Ended id)
    (hqueued : ∀ job ∈ s'.tbl.emitCh, job ∈ s.tbl.emitCh ∨ s'.JobKept job)
    (htaken : ∀ job, s'.tbl.emitter = some (job, false) → s.tbl.emitter = some (job, false) ∨ s'.JobKept job)
    (hans : ∀ job, s'.tbl.emitter = some (job, true) → s.tbl.emitter = some (job, true) ∨ s'.Answered job)
    (hused : ∀ id st', s'.tbl.streams id = some st' → id ∈ s.tbl.used ∨ id ∈ s'.tbl.used) : s'.Held := by
  refine ⟨fun id st' hst' => ?_, fun id st' hst' hnot => ?_, fun job hjob => ?_, fun job hjob => ?_,
    fun job hjob => ?_, fun id st' hst' => ?_⟩
  · rcases hstream id st' hst' with ⟨hold, hpost⟩ | hnew
    · exact (h.stream id st' hold).imp hl.ended hpost
    · exact hnew
  · rcases hob id st' hst' hnot with ⟨hmem, hno⟩ | he
    · obtain ⟨st, hst, -⟩ := hl.back id hmem st' hst'
      exact hl.ended (h.obligation id st hst hno)
    · exact he
  · rcases hqueued job hjob with hold | hnew
    · exact hl.jobKept (h.queued job hold)
    · exact hnew
  · rcases htaken job hjob with hold | hnew
    · exact hl.jobKept (h.taken job hold)
    · exact hnew
  · rcases hans job hjob with hold | hnew
    · exact hl.answered (h.answered job hold)
    · exact hnew
  · rcases hused id st' hst' with hold | hnew
    · exact hl.used hold
    · exact hnew

theorem Held.update (h : s.Held)
    (hst : s.tbl.streams id = some st) (ht : t.streams = Function.update s.tbl.streams id (some st'))
    (hu : t.used = s.tbl.used) (hp : st.Persists st') (hs' : s' = ⟨t, s.sent ++ sent, s.peerEnded ∪ ended⟩)
    (hem : t.emitter = s.tbl.emitter) (hq : ∀ job ∈ s.tbl.emitCh, job ∈ t.emitCh)
    (hkept : (s.fate id).Le (s'.fate id) → st'.Kept (s'.fate id))
    (hjobs : ∀ job ∈ t.emitCh, job ∈ s.tbl.emitCh ∨ s'.JobKept job)
    (hob : id ∉ t.obligations → id ∉ s.tbl.obligations ∨ s'.Ended id)
    (hothers : ∀ id', id' ≠ id → id' ∉ t.obligations → id' ∉ s.tbl.obligations) : s'.Held := by
  have hl : Later s s' := hs' ▸ later_of_update hst ht hu hp
  subst hs'
  have hmem := h.used id st hst
  have hle : ∀ id', (s.fate id').Le (fate _ id') := fun id' => fate_le hl hq hem
  have hcase : ∀ id' x, t.streams id' = some x → id' = id ∧ x = st' ∨ id' ≠ id ∧ s.tbl.streams id' = some x :=
    fun id' x hx => update_eq_some (ht ▸ hx)
  refine h.next hl (fun id' x hx => ?_) (fun id' x hx hnot => ?_) hjobs (fun job hjob => ?_) (fun job hjob => ?_)
    (fun id' x hx => ?_)
  · rcases hcase id' x hx with ⟨rfl, rfl⟩ | ⟨-, hx⟩
    · exact .inr (hkept (hle id'))
    · exact .inl ⟨hx, fun hp => hp.mono (hle id')⟩
  · rcases hcase id' x hx with ⟨rfl, rfl⟩ | ⟨hid, hx⟩
    · exact (hob hnot).imp_left fun hno => ⟨hmem, hno⟩
    · exact .inl ⟨h.used id' x hx, hothers id' hid hnot⟩
  · exact .inl (hem.symm.trans hjob)
  · exact .inl (hem.symm.trans hjob)
  · rcases hcase id' x hx with ⟨rfl, rfl⟩ | ⟨-, hx⟩
    · exact .inl hmem
    · exact .inl (h.used id' x hx)

theorem after_le (hs' : s' = ⟨t, s.sent ++ effects.filterMap (Table.sentOf id), s.peerEnded ∪ ended⟩)
    (hq : t.emitCh = s.tbl.emitCh ++ effects.filterMap (Table.jobOf id))
    (hle : (s.fate id).Le (s'.fate id)) : ((s.fate id).after effects).Le (s'.fate id) := by
  refine ⟨fun he => ?_, fun status hp => ?_⟩
  · rcases he with he | hany
    · exact hle.ended he
    · obtain ⟨x, hx, hterm⟩ := List.any_eq_true.mp hany
      have hsent : ∀ y, Table.sentOf id x = some y → y ∈ s'.sent := fun y hy => by
        rw [hs']
        exact List.mem_append_right _ (List.mem_filterMap.mpr ⟨x, hx, hy⟩)
      unfold Effect.terminal at hterm
      split at hterm
      · exact .inl ⟨_, hsent _ rfl, rfl, trivial⟩
      · exact .inl ⟨_, hsent _ rfl, rfl, trivial⟩
      · cases hterm
  · rcases hp with hp | hmem
    · exact hle.posted status hp
    · refine .inl (.inl ?_)
      rw [hs']
      show _ ∈ t.emitCh
      rw [hq]
      exact List.mem_append_right _ (List.mem_filterMap.mpr ⟨_, hmem, rfl⟩)

/-- **A step of one of its streams.** -/
theorem Held.streamStep (h : s.Held) (hs : s.tbl.Wrote id t out st st' effects)
    (hkeeps : st.Keeps (s.fate id) st' effects) : Held ⟨t, s.sent ++ out, s.peerEnded ∪ ∅⟩ := by
  obtain rfl := hs.out
  have hafter : _ → ((s.fate id).after effects).Le
      (fate ⟨t, s.sent ++ effects.filterMap (Table.sentOf id), s.peerEnded ∪ ∅⟩ id) := after_le rfl hs.emitCh
  have hq : ∀ job ∈ s.tbl.emitCh, job ∈ t.emitCh := by
    rw [hs.emitCh]
    exact fun _ => List.mem_append_left _
  have hle := hafter (fate_le (later_of_update hs.stream hs.streams hs.used hkeeps.persists) hq hs.emitter)
  refine h.update hs.stream hs.streams hs.used hkeeps.persists rfl hs.emitter hq
    (fun _ => hkeeps.kept.mono hle) (fun job hjob => ?_) (fun hnot => ?_) (fun id' hid hnot => ?_)
  · rw [hs.emitCh] at hjob
    refine (List.mem_append.mp hjob).imp_right fun hnew => ?_
    obtain ⟨x, hx, hjobOf⟩ := List.mem_filterMap.mp hnew
    unfold Table.jobOf at hjobOf
    split at hjobOf
    · next status keep =>
      cases hjobOf
      refine ⟨hs.used ▸ h.used id st hs.stream, fun hk y hy => ?_⟩
      have hy' : y = st' := by
        have : t.streams id = some y := hy
        rw [hs.streams, Function.update_self] at this
        exact (Option.some.inj this).symm
      subst hy'
      rcases hkeeps.emits status keep hx with hkeep | hend | hst
      · exact absurd (hkeep.symm.trans hk) (by simp)
      · exact .inl (hle.ended hend)
      · exact .inr hst
    · cases hjobOf
  · rw [hs.obligations] at hnot
    split at hnot
    · next hclose => exact .inr (hle.ended (hkeeps.closes hclose))
    · exact .inl hnot
  · rw [hs.obligations] at hnot
    split at hnot
    · exact fun hmem => hnot (Finset.mem_erase.mpr ⟨hid, hmem⟩)
    · exact hnot

theorem Held.unmoved (h : s.Held)
    (hst : t.streams = s.tbl.streams) (hu : t.used = s.tbl.used) (hem : t.emitter = s.tbl.emitter)
    (hq : t.emitCh = s.tbl.emitCh) (hob : t.obligations = s.tbl.obligations) :
    Held ⟨t, s.sent ++ out, s.peerEnded ∪ ended⟩ := by
  have hl : Later s ⟨t, s.sent ++ out, s.peerEnded ∪ ended⟩ := later_of_streams hst hu.symm.subset
  refine h.next hl (fun id x hx => .inl ⟨hst ▸ hx, fun hp => hp.mono (fate_le hl (by simp [hq]) hem)⟩)
    (fun id x hx hnot => .inl ⟨h.used id x (hst ▸ hx), hob ▸ hnot⟩) (fun job hjob => .inl (hq ▸ hjob))
    (fun job hjob => .inl (hem ▸ hjob)) (fun job hjob => .inl (hem ▸ hjob)) fun id x hx => .inl (h.used id x (hst ▸ hx))

/-- **An inbound frame**: an end it makes is counted as the peer's. -/
theorem Held.inbound (h : s.Held) (f : StreamFrame) :
    Held ⟨(s.tbl.dispatch cfg id f).1, s.sent ++ [], s.peerEnded ∪ peerEnds cfg s.tbl (.inbound id f)⟩ := by
  rcases Table.dispatch_cases cfg s.tbl id f with heq | ⟨st, hlive, hst, heq⟩
  · exact h.unmoved (by rw [heq]) (by rw [heq]) (by rw [heq]) (by rw [heq]) (by rw [heq])
  · refine h.update hst (by rw [heq]; rfl) (by rw [heq]; rfl) ?_ rfl (by rw [heq]; rfl) (by rw [heq]; exact fun _ h => h)
      (fun hle => (h.stream id st hst).dispatch hle fun hl hend => ?_) (by rw [heq]; exact fun _ h => .inl h)
      (by rw [heq]; exact .inl) (by rw [heq]; exact fun _ _ h => h)
    · exact fun status hstatus => Stream.dispatch_handlerErrStatus.trans hstatus
    · refine .inr (Finset.mem_union_right _ ?_)
      simp [peerEnds, heq, Table.hasLiveStream, Table.setStream, hlive, hst, hl, hend]

theorem Held.refused (h : s.Held) (hnew : id ∉ s.tbl.used) {jobs : List EmitJob} (hjobs : ∀ job ∈ jobs, job.callID = id) :
    Held ⟨{ s.tbl with emitCh := s.tbl.emitCh ++ jobs, used := insert id s.tbl.used }, s.sent ++ [], s.peerEnded ∪ ∅⟩ := by
  have hl : Later s ⟨{ s.tbl with emitCh := s.tbl.emitCh ++ jobs, used := insert id s.tbl.used }, s.sent ++ [],
      s.peerEnded ∪ ∅⟩ := later_of_streams rfl (Finset.subset_insert _ _)
  refine h.next hl (fun _ _ hx => .inl ⟨hx, fun hp => hp.mono (fate_le hl (fun _ => List.mem_append_left _) rfl)⟩)
    (fun id' x hx hnot => .inl ⟨h.used id' x hx, hnot⟩) (fun job hjob => ?_) (fun _ hjob => .inl hjob)
    (fun _ hjob => .inl hjob) fun id' x hx => .inl (h.used id' x hx)
  refine (List.mem_append.mp hjob).imp_right fun hmem => ?_
  have hid := hjobs job hmem
  refine ⟨by simp [hid], fun _ st hst => absurd (h.used _ st hst) (hid ▸ hnew)⟩

theorem Held.admitted (h : s.Held) (hside : cfg.side = .server) (hnew : id ∉ s.tbl.used) {credits : Nat}
    {shape : StreamShape} {payload : Bytes} :
    Held ⟨s.tbl.admitStream cfg id (Table.acceptedStream credits shape payload), s.sent ++ [], s.peerEnded ∪ ∅⟩ := by
  have hne : ∀ id' ∈ s.tbl.used, id' ≠ id := fun id' hmem heq => hnew (heq ▸ hmem)
  have hcase : ∀ id' x, (s.tbl.admitStream cfg id (Table.acceptedStream credits shape payload)).streams id' = some x →
      id' = id ∧ x = Table.acceptedStream credits shape payload ∨ id' ≠ id ∧ s.tbl.streams id' = some x :=
    fun id' x hx => update_eq_some hx
  have hkeep : ∀ id' ∈ s.tbl.used,
      (s.tbl.admitStream cfg id (Table.acceptedStream credits shape payload)).streams id' = s.tbl.streams id' :=
    fun id' hmem => by simp [Table.admitStream, Table.setStream, Function.update_of_ne (hne id' hmem)]
  have hl : Later s ⟨s.tbl.admitStream cfg id (Table.acceptedStream credits shape payload), s.sent ++ [],
      s.peerEnded ∪ ∅⟩ :=
    ⟨by simp, by simp, Finset.subset_insert _ _,
      fun id' x hx => ⟨x, (hkeep id' (h.used id' x hx)).trans hx, .refl x⟩,
      fun id' hmem x hx => ⟨x, (hkeep id' hmem).symm.trans hx, .refl x⟩⟩
  refine h.next hl (fun id' x hx => ?_) (fun id' x hx hnot => ?_)
    (fun _ hjob => .inl hjob) (fun _ hjob => .inl hjob) (fun _ hjob => .inl hjob) (fun id' x hx => ?_)
  · rcases hcase id' x hx with ⟨rfl, rfl⟩ | ⟨-, hx⟩
    · refine .inr ⟨rfl, rfl, rfl, rfl, fun _ => rfl, ?_, rfl, by simp [Table.acceptedStream, newStream]⟩
      simp [Table.acceptedStream, newStream]
    · exact .inl ⟨hx, fun hp => hp.mono (fate_le hl (fun _ hjob => hjob) rfl)⟩
  · rcases hcase id' x hx with ⟨rfl, rfl⟩ | ⟨hid, hx⟩
    · exact absurd (by simp [Table.admitStream, hside]) hnot
    · refine .inl ⟨h.used id' x hx, fun hmem => hnot ?_⟩
      simp [Table.admitStream, hside, hmem]
  · rcases hcase id' x hx with ⟨rfl, rfl⟩ | ⟨-, hx⟩
    · exact .inr (Finset.mem_insert_self _ _)
    · exact .inl (h.used id' x hx)

/-! The emitter takes a job, has it answered, and settles it. -/

theorem Held.emitTake (h : s.Held) (ht : s.tbl.emitTake = some t) :
    Held ⟨t, s.sent ++ [], s.peerEnded ∪ ∅⟩ := by
  unfold Table.emitTake at ht
  split at ht
  · next job rest hq hem =>
    cases ht
    have hl : Later s ⟨{ s.tbl with emitCh := rest, emitter := some (job, false) }, s.sent ++ [], s.peerEnded ∪ ∅⟩ :=
      later_of_streams rfl subset_rfl
    refine h.next hl (fun id x hx => .inl ⟨hx, fun hp status hstatus => ?_⟩)
      (fun id' x hx hnot => .inl ⟨h.used id' x hx, hnot⟩) (fun job' hjob => .inl (by rw [hq]; exact .tail _ hjob))
      (fun job' hjob => ?_) (fun job' hjob => by simp at hjob) fun id' x hx => .inl (h.used id' x hx)
    · rcases hp status hstatus with (hmem | hjob) | ha
      · rw [hq] at hmem
        rcases List.mem_cons.mp hmem with heq | htail
        · exact .inl (.inr (by rw [heq]))
        · exact .inl (.inl htail)
      · rw [hem] at hjob
        cases hjob
      · exact .inr (hl.accepted ha)
    · obtain rfl : job = job' := by simpa using hjob
      exact .inr (hl.jobKept (h.queued job (by simp [hq])))
  · cases ht

theorem Held.emitSend (h : s.Held) (ht : s.tbl.emitSend ok = some (t, out)) (hok : s.Taken cfg (.emitSend ok)) :
    Held ⟨t, s.sent ++ out, s.peerEnded ∪ ∅⟩ := by
  unfold Table.emitSend at ht
  split at ht
  · next job hem =>
    cases ht
    have hl : Later s ⟨{ s.tbl with emitter := some (job, true) },
        s.sent ++ (if ok then [⟨.data, job.callID, .streamErr job.status⟩] else []), s.peerEnded ∪ ∅⟩ :=
      later_of_streams rfl subset_rfl
    -- A status of this stream's handler is accepted where it leaves the emitter's hands.
    have hacc : ∀ st, s.tbl.streams job.callID = some st → st.handlerErrStatus = some job.status → ok = true :=
      fun st hst hstatus => hok (job, false) hem st hst hstatus
    have hjob := h.taken job hem
    refine h.next hl (fun id x hx => .inl ⟨hx, fun hp status hstatus => ?_⟩)
      (fun id' x hx hnot => .inl ⟨h.used id' x hx, hnot⟩) (fun _ hjob => .inl hjob) (fun job' hjob => by simp at hjob)
      (fun job' hjob' => ?_) fun id' x hx => .inl (h.used id' x hx)
    · rcases hp status hstatus with (hmem | hjob) | ha
      · exact .inl (.inl hmem)
      · obtain rfl : job = ⟨id, status, false, false⟩ := by simpa [hem] using hjob
        obtain rfl := hacc x hx hstatus
        exact .inr (by simp [Accepted])
      · exact .inr (hl.accepted ha)
    · obtain rfl : job = job' := by simpa using hjob'
      refine .inr ⟨hjob.1, fun hk st hst => ?_⟩
      rcases hjob.2 hk st hst with hend | hstatus
      · exact hl.ended hend
      · obtain rfl := hacc st hst hstatus
        exact .inl ⟨⟨.data, job.callID, .streamErr job.status⟩, by simp, rfl, st, hst, hstatus⟩
  · cases ht

theorem Held.emitSettle (h : s.Held) (ht : s.tbl.emitSettle = some t) :
    Held ⟨t, s.sent ++ [], s.peerEnded ∪ ∅⟩ := by
  unfold Table.emitSettle at ht
  split at ht
  · next job hem =>
    have hans := h.answered job hem
    have hpost : ∀ id status, s.Emitting id status → ⟨id, status, false, false⟩ ∈ s.tbl.emitCh := by
      rintro id status (hmem | hjob)
      · exact hmem
      · simp [hem] at hjob
    cases ht
    have hl : ∀ ob, Later s ⟨{ s.tbl with emitter := none, obligations := ob }, s.sent ++ [], s.peerEnded ∪ ∅⟩ :=
      fun ob => later_of_streams rfl subset_rfl
    have hnext : ∀ ob, (∀ id' x, s.tbl.streams id' = some x → id' ∉ ob → id' ∉ s.tbl.obligations ∨ s.Ended id') →
        Held ⟨{ s.tbl with emitter := none, obligations := ob }, s.sent ++ [], s.peerEnded ∪ ∅⟩ := by
      intro ob hob
      refine h.next (hl ob) (fun id x hx => .inl ⟨hx, fun hp status hstatus => ?_⟩)
        (fun id' x hx hnot => ?_) (fun _ hjob => .inl hjob) (fun job' hjob => by simp at hjob)
        (fun job' hjob' => by simp at hjob') fun id' x hx => .inl (h.used id' x hx)
      · exact (hp status hstatus).imp (fun hemit => .inl (hpost id status hemit)) (hl ob).accepted
      · exact (hob id' x hx hnot).imp (fun hno => ⟨h.used id' x hx, hno⟩) (hl ob).ended
    split
    · exact hnext s.tbl.obligations fun id' x hx hnot => .inl hnot
    · next hk =>
      refine hnext (s.tbl.obligations.erase job.callID) fun id' x hx hnot => ?_
      by_cases hid : id' = job.callID
      · subst hid
        exact .inr (hans.2 (by simpa using hk) x hx)
      · exact .inl fun hmem => hnot (Finset.mem_erase.mpr ⟨hid, hmem⟩)
  · cases ht

/-- On a connection neither closing nor failed. -/
def Inv (s : Accepting) : Prop := s.tbl.closed = false → s.tbl.fatal = false → s.Held

theorem emitSend_frame (h : t.emitSend ok = some (t', out)) : t'.closed = t.closed ∧ t'.fatal = t.fatal := by
  unfold Table.emitSend at h
  split at h
  · cases h
    exact ⟨rfl, rfl⟩
  · cases h

theorem emitTake_frame (h : t.emitTake = some t') : t'.closed = t.closed ∧ t'.fatal = t.fatal := by
  unfold Table.emitTake at h
  split at h
  · cases h
    exact ⟨rfl, rfl⟩
  · cases h

theorem emitSettle_frame (h : t.emitSettle = some t') : t'.closed = t.closed ∧ t'.fatal = t.fatal := by
  unfold Table.emitSettle at h
  split at h
  · cases h
    split <;> exact ⟨rfl, rfl⟩
  · cases h

/-- **One step of the accepting side.** A table once closing or failed stays so. -/
theorem Inv.step (hside : cfg.side = .server) {a : Table.Act} (h : s.Inv) (hg : s.Taken cfg a)
    (hs : s.step cfg a = some s') : s'.Inv := by
  unfold Accepting.step at hs
  split at hs
  · cases hs
  next t out ht =>
  cases hs
  intro hclosed hfatal
  dsimp only at hclosed hfatal
  cases a with
  | openClient id scfg budget => simp [Table.step, hside] at ht
  | onStreamOpen id reg control budget payload =>
    simp only [Table.step, hside, true_and] at ht
    split at ht
    · next hnew =>
      cases ht
      rcases Table.onStreamOpen_cases cfg s.tbl id reg control budget payload with ⟨-, heq⟩ | ⟨jobs, hjobs, heq⟩ |
        ⟨shape, -, heq⟩
      all_goals rw [heq] at hclosed hfatal ⊢
      · exact (h hclosed hfatal).unmoved rfl rfl rfl rfl rfl
      · exact (h hclosed hfatal).refused hnew hjobs
      · exact (h hclosed hfatal).admitted hside hnew
    · cases ht
  | inbound id f =>
    cases ht
    refine (h ?_ ?_).inbound f
    · rcases Table.dispatch_cases cfg s.tbl id f with heq | ⟨st, -, -, heq⟩ <;> rw [heq] at hclosed <;> exact hclosed
    · rcases Table.dispatch_cases cfg s.tbl id f with heq | ⟨st, -, -, heq⟩ <;> rw [heq] at hfatal <;> exact hfatal
  | stream id a =>
    obtain ⟨st, st', effects, hen, hstep, hw⟩ := Table.streamStep_some ht
    have hc : s.tbl.closed = false := hw.closed.symm.trans hclosed
    obtain ⟨hf, hconn⟩ := hw.fatal hc hfatal
    have hheld := h hc hf
    refine hheld.streamStep hw ((hheld.stream id st hw.stream).step hstep ?_ ?_ hconn)
    · rintro rfl
      simp [Table.enabled, hc] at hen
    · rintro rfl toAck _ hstatus
      simpa [Table.room] using hg st hw.stream hstatus
  | readerDrained =>
    cases ht
    exact (h hclosed hfatal).unmoved rfl rfl rfl rfl rfl
  | sweep id =>
    obtain ⟨st, -, hw⟩ := Table.sweepStep_some ht
    have hc : s.tbl.closed = false := hw.closed.symm.trans hclosed
    have hheld := h hc (hw.fatal hc hfatal).1
    exact hheld.streamStep hw ((hheld.stream id st hw.stream).armStep rfl)
  | emitTake =>
    obtain ⟨t', ht', rfl, rfl⟩ : ∃ t', s.tbl.emitTake = some t' ∧ t' = t ∧ [] = out := by
      simpa [Table.step] using ht
    obtain ⟨hc, hf⟩ := emitTake_frame ht'
    exact (h (hc ▸ hclosed) (hf ▸ hfatal)).emitTake ht'
  | emitSend ok =>
    obtain ⟨hc, hf⟩ := emitSend_frame ht
    exact (h (hc ▸ hclosed) (hf ▸ hfatal)).emitSend ht hg
  | emitSettle =>
    obtain ⟨t', ht', rfl, rfl⟩ : ∃ t', s.tbl.emitSettle = some t' ∧ t' = t ∧ [] = out := by
      simpa [Table.step] using ht
    obtain ⟨hc, hf⟩ := emitSettle_frame ht'
    exact (h (hc ▸ hclosed) (hf ▸ hfatal)).emitSettle ht'
  | markClosing =>
    cases ht
    cases hclosed

theorem inv_start : start.Inv := by
  intro _ _
  refine ⟨?_, ?_, ?_, ?_, ?_, ?_⟩ <;> simp [start, Table.empty]

/-- **No accepted stream's terminal is lost** in any run in which the emitter finds room
for every handler's status and the transport takes it. -/
theorem terminal_kept (cfg : TableConfig) (hside : cfg.side = .server)
    (h : Reach (step cfg) (fun s a => s.Taken cfg a) start s) : s.NotLost := by
  have hinv : s.Inv := h.invariant inv_start fun hi hg hs => hi.step hside hg hs
  exact fun hc hf => (hinv hc hf).notLost hc hf

/-! ### A refused status -/

def sampleConfig : TableConfig := ⟨.server, 1, ⟨false, 64, 16, 16⟩⟩

def sampleStatus : FrameStatus := ⟨13, [115, 111, 114, 114, 121], []⟩

/-- One bidi stream whose handler fails: its status is queued, taken and sent. -/
def failing (ok : Bool) : List Table.Act :=
  [.onStreamOpen 7 (some .bidiStreaming) 2 1000 [],
    .stream 7 (.ending (.handlerError sampleStatus)),
    .stream 7 (.finisher .claim), .stream 7 (.finisher .emit), .stream 7 (.finisher .settle),
    .emitTake, .emitSend ok, .emitSettle]

/-- **A handler's status whose `Send` is refused is gone, and its obligation with it**:
the connection is open and healthy, and nothing has been published for the call. -/
theorem status_lost :
    ∃ s st, Reach (step sampleConfig) Any start s ∧ s.tbl.closed = false ∧ s.tbl.fatal = false ∧
      s.tbl.streams 7 = some st ∧ st.handlerErrStatus = some sampleStatus ∧ 7 ∉ s.tbl.obligations ∧
      s.sent = [] ∧ s.peerEnded = ∅ ∧ ¬ s.NotLost := by
  let s := (run (step sampleConfig) start (failing false)).get (by decide)
  have hreach : Reach (step sampleConfig) Any start s := Reach.of_run (Option.some_get _).symm
  have hsent : s.sent = [] := by decide
  have hpeer : s.peerEnded = ∅ := by decide
  have hclosed : s.tbl.closed = false := by decide
  have hfatal : s.tbl.fatal = false := by decide
  have hob : 7 ∉ s.tbl.obligations := by decide
  let st := (s.tbl.streams 7).get (by decide)
  have hst : s.tbl.streams 7 = some st := (Option.some_get _).symm
  refine ⟨s, st, hreach, hclosed, hfatal, hst, by decide, hob, hsent, hpeer, fun hnot => ?_⟩
  rcases (hnot hclosed hfatal 7 st hst).1 hob with ⟨x, hx, -⟩ | hmem
  · rw [hsent] at hx
    cases hx
  · rw [hpeer] at hmem
    cases hmem

instance (cfg : TableConfig) (s : Accepting) (a : Table.Act) : Decidable (s.Taken cfg a) := by
  unfold Taken
  split <;> infer_instance

/-- The same run with its `Send` accepted. -/
theorem terminal_kept_failing :
    sampleConfig.side = .server ∧
    Reach (step sampleConfig) (fun s a => s.Taken sampleConfig a) start
      ((run (guarded (step sampleConfig) fun s a => s.Taken sampleConfig a) start (failing true)).get (by decide)) ∧
    NotLost ((run (guarded (step sampleConfig) fun s a => s.Taken sampleConfig a) start (failing true)).get
      (by decide)) :=
  have hreach : Reach (step sampleConfig) (fun s a => s.Taken sampleConfig a) start _ :=
    Reach.of_guarded (Option.some_get _).symm
  ⟨rfl, hreach, terminal_kept sampleConfig rfl hreach⟩

end Accepting

end Styx
