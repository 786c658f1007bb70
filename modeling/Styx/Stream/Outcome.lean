/-
A stream's one outcome, and those who read it.

The terminal transition is a compare-and-swap on the phase word and then a store of the
outcome, code and error, both under the stream's lock. The phase is read without the lock:
`SendMsg` and `CloseSend` look at it first, and `Outcome` takes the lock only if it finds
it terminal and the teardown not finished. `RecvMsg` does not look at it; it waits for the
queue, for the finished teardown, for the peer's half-close or for its caller.

Here a stream runs with its outcome word, with the winner between its two writes, and with
any number of callers, each a read at a time.
-/
import Styx.Stream.Solo

namespace Styx

open Machine

/-- The errors an outcome records and an operation returns. -/
inductive StreamError
  | canceledLocally
  | deadlineExceeded
  /-- `StreamStatusError`. -/
  | status (st : FrameStatus)
  /-- A connection's failure, or a send's, by the error that tells of it. -/
  | cause (n : Nat)
  | sendClosed
  | eof
  deriving DecidableEq

structure StreamOutcome where
  code : StreamOutcomeCode
  err : Option StreamError
  deriving DecidableEq

/-- The errors handed in with an end: the fan-out's two, and a failed train's. -/
structure Causes where
  dispatched : Nat
  notDispatched : Nat
  send : Option Nat
  deriving DecidableEq

namespace Stream

def ctxOutcome (deadline : Bool) : StreamOutcome :=
  if deadline then ⟨.deadlineExceeded, some .deadlineExceeded⟩ else ⟨.canceled, some .canceledLocally⟩

/-- The outcome an act attempts to record. -/
def attempt (s : Stream) (c : Causes) : Act → Option StreamOutcome
  | .opener .ambiguous =>
    match s.opener with
    | .ambiguous deadline => some (ctxOutcome deadline)
    | _ => none
  | .opener .discard => some ⟨.crashed, some (.cause c.notDispatched)⟩
  | .sender .fail =>
    match s.sender, c.send with
    -- A visible train's failure is recorded as cancelled, with what failed it.
    | .failing false, some n => some ⟨.canceled, some (.cause n)⟩
    | .failing deadline, _ => some (ctxOutcome deadline)
    | _, _ => none
  | .sender .complete => some ⟨.completed, none⟩
  | .ending (.ctx deadline) => some (ctxOutcome deadline)
  | .ending (.handlerError status) => some ⟨.peerError, some (.status status)⟩
  | .ending .failAll => some ⟨.crashed, some (.cause (if s.phase = .submitted then c.notDispatched else c.dispatched))⟩
  | _ => none

def statusOutcome (status : FrameStatus) : StreamOutcome :=
  if status.code = statusCodeStreamCanceled then ⟨.canceled, some .canceledLocally⟩
  else if status.code = statusCodeStreamDeadlineExceeded then ⟨.deadlineExceeded, some .deadlineExceeded⟩
  else ⟨.peerError, some (.status status)⟩

/-- The outcome a frame attempts to record. -/
def frameAttempt : StreamFrame → StreamOutcome
  | .streamErr status => statusOutcome status
  | .cancel code =>
    if code = statusCodeStreamCanceled then ⟨.canceled, some .canceledLocally⟩
    else ⟨.deadlineExceeded, some .deadlineExceeded⟩
  | _ => ⟨.completed, none⟩

/-- Acts under the stream's lock, or the winner's own after it. -/
def locks : Act → Bool
  | .opener .confirm | .opener .ambiguous | .opener .discard => true
  | .sender .fail | .sender .complete => true
  | .receiver .deliver => true
  | .ending _ => true
  | .finisher .owedClaim | .finisher (.owedCancel _) | .finisher .owedEmit => false
  | .finisher _ => true
  | _ => false

end Stream

namespace Recorded

/-- Operations that answer from the record: `Outcome`, `SendMsg` and `CloseSend` as they start, a send
or close whose own attempt to end the stream is over, and a `SendMsg` waiting for credit. -/
inductive Op
  | outcome
  | sendMsg
  | closeSend
  | failed
  | blocked
  deriving DecidableEq

/-- What a caller reads next. -/
inductive CallerPc
  | idle
  | phase (op : Op)
  | done (op : Op)
  | load (op : Op)
  | lock (op : Op)
  /-- No error is recorded: the send half is looked at. -/
  | closed (op : Op)
  /-- `RecvMsg`: its select, and its second look at the queue. -/
  | select
  | redrain (viaDone : Bool)
  deriving DecidableEq

inductive Answer
  | live (op : Op)
  /-- The record as the operation read it. -/
  | record (op : Op) (oc : Option StreamOutcome)
  | refused (op : Op) (e : StreamError)
  | msg (payload : Bytes)
  /-- `RecvMsg` after the teardown, by the record; after the peer's half-close; for its caller. -/
  | ended (oc : Option StreamOutcome)
  | eof
  | ctx
  deriving DecidableEq

inductive Pick
  | item
  | done
  | recvClosed
  | ctx
  deriving DecidableEq

end Recorded

structure Recorded where
  s : Stream
  outcome : Option StreamOutcome
  /-- The winner holds the lock, with its outcome still to store. -/
  storing : Option StreamOutcome
  present : Bool
  discarded : Nat
  /-- The reader's frame, found to have a stream. -/
  found : Option StreamFrame
  callers : Nat → Recorded.CallerPc
  /-- Ghost: the outcomes whose compare-and-swap won; what callers were answered; the messages queued,
  each with the sequence number it came at. -/
  wins : List StreamOutcome
  answers : List Recorded.Answer
  buffered : List (Nat × Bytes)

namespace Recorded

def new (s : Stream) : Recorded :=
  ⟨s, none, none, true, 0, none, fun _ => .idle, [], [], s.recvCh.map fun it => (0, it.payload)⟩

/-- The stream after an act, and the winner's second write if the act has ended it. -/
def advance (x : Recorded) (s' : Stream) (oc : Option StreamOutcome) : Recorded :=
  if x.s.isLive ∧ ¬ s'.isLive then { x with s := s', storing := oc, wins := x.wins ++ oc.toList } else { x with s := s' }

def arrived (s s' : Stream) : List (Nat × Bytes) :=
  (s'.recvCh.drop s.recvCh.length).map fun it => (s.expectedSeq, it.payload)

inductive Act
  | act (e : Env) (a : Stream.Act) (c : Causes)
  | store
  | lookup (f : StreamFrame)
  | handle (p : ChunkPolicy)
  | call (n : Nat) (op : Op)
  | recv (n : Nat)
  | pick (n : Nat) (k : Pick)
  | next (n : Nat)

def moveTo (x : Recorded) (n : Nat) (pc : CallerPc) : Recorded := { x with callers := Function.update x.callers n pc }

def answer (x : Recorded) (n : Nat) (a : Answer) : Recorded :=
  { x with callers := Function.update x.callers n .idle, answers := x.answers ++ [a] }

def take (x : Recorded) (n : Nat) : Option Recorded :=
  match x.s.recvCh with
  | [] => none
  | it :: rest =>
    if x.s.opener = .opened then
      some ({ x with
        s := { x.s with
          recvCh := rest
          delivered := x.s.delivered ++ [it.payload]
          delivering := if it.credited then x.s.delivering + 1 else x.s.delivering } }.answer n (.msg it.payload))
    else none

/-- The record is read; an operation with no error to return goes on. -/
def read (x : Recorded) (n : Nat) (op : Op) : Recorded :=
  let y := x.answer n (.record op x.outcome)
  match op, x.outcome.bind StreamOutcome.err with
  | .sendMsg, none | .closeSend, none => y.moveTo n (.closed op)
  | _, _ => y

/-- `Outcome`, and an operation that is not just starting, look at the teardown first. -/
def start : Op → CallerPc
  | .sendMsg => .phase .sendMsg
  | .closeSend => .phase .closeSend
  | op => .done op

/-- The next read of a caller. -/
def next (x : Recorded) (n : Nat) : Option Recorded :=
  match x.callers n with
  | .phase op => if x.s.isLive then some (x.answer n (.live op)) else some (x.moveTo n (.done op))
  | .done op =>
    if x.s.done then some (x.read n op)
    else if op = .blocked then none
    else some (x.moveTo n (.load op))
  | .load op => if x.s.isLive then some (x.answer n (.live op)) else some (x.moveTo n (.lock op))
  | .lock op => if x.storing = none then some (x.read n op) else none
  | .closed .sendMsg => if x.s.sendClosed then some (x.answer n (.refused .sendMsg .canceledLocally)) else some (x.moveTo n .idle)
  | .closed op =>
    if x.s.sendCloseState = .idle then some (x.moveTo n .idle) else some (x.answer n (.refused op .sendClosed))
  | .redrain viaDone =>
    match x.s.recvCh with
    | [] => some (x.answer n (if viaDone then .ended x.outcome else .eof))
    | _ :: _ => x.take n
  | .idle | .select => none

def step (x : Recorded) : Act → Option Recorded
  | .act e a c =>
    if a = .receiver .pop ∨ a = .receiver .eof ∨ (Stream.locks a = true ∧ x.storing ≠ none) then none
    else
      match x.s.step e a with
      | none => none
      | some (s', effects) =>
        some { x.advance s' (x.s.attempt c a) with present := x.present && !(effects.contains .remove) }
  | .store =>
    match x.storing with
    | none => none
    | some oc => some { x with outcome := some oc, storing := none }
  | .lookup f =>
    if x.found = none then
      if x.present then some { x with found := some f } else some { x with discarded := x.discarded + 1 }
    else none
  | .handle p =>
    match x.found with
    | none => none
    | some f =>
      if x.storing ≠ none then none
      else if x.s.isLive then
        some { x.advance (x.s.dispatch p f).1 (some (Stream.frameAttempt f)) with
          found := none
          buffered := x.buffered ++ arrived x.s (x.s.dispatch p f).1 }
      else some { x with found := none, discarded := x.discarded + 1 }
  | .call n op =>
    if x.callers n = .idle then some (x.moveTo n (start op)) else none
  | .recv n =>
    if x.callers n = .idle then
      match x.s.recvCh with
      | [] => some (x.moveTo n .select)
      | _ :: _ => x.take n
    else none
  | .pick n k =>
    if x.callers n = .select then
      match k with
      | .item => x.take n
      | .done => if x.s.done then some (x.moveTo n (.redrain true)) else none
      | .recvClosed => if x.s.recvClosed then some (x.moveTo n (.redrain false)) else none
      | .ctx => some (x.answer n .ctx)
    else none
  | .next n => x.next n

end Recorded

/-! ## What ends a stream -/

namespace Stream

variable {e : Env} {s s' : Stream} {effects : List Effect} {c : Causes} {a : Act}

/-- A completion is the one outcome without an error. -/
def StreamOutcomeOk (oc : StreamOutcome) : Prop := oc.err = none ↔ oc.code = .completed

theorem ctxOutcome_ok (deadline : Bool) : StreamOutcomeOk (ctxOutcome deadline) := by
  cases deadline <;> simp [StreamOutcomeOk, ctxOutcome]

theorem mapCtx_phase (deadline : Bool) (hl : s.isLive = true) :
    (s.mapCtxToTerminal deadline).phase = .term (ctxOutcome deadline).code := by
  cases deadline <;> simp [mapCtxToTerminal, mapDeadlineToTerminal, mapCancelToTerminal, terminate, hl, ctxOutcome]

theorem terminate_phase {code : StreamOutcomeCode} {teardownCode : UInt32} {l : Bool} (hl : s.isLive = true) :
    (s.terminate code teardownCode l).phase = .term code := by
  simp [terminate, hl]

theorem step_ended (hs : s.step e a = some (s', effects)) (hl : s.isLive = true) (hd : s'.isLive = false) :
    ∃ oc, s.attempt c a = some oc ∧ s'.phase = .term oc.code ∧ StreamOutcomeOk oc ∧ locks a = true := by
  -- An act that keeps the phase does not end the stream.
  have hkeep : s'.phase = s.phase → False := by
    intro hp
    rw [isLive_of_phase hp, hl] at hd
    cases hd
  cases a with
  | opener a =>
    cases openerStep_move hs with
    | publish => cases hd
    | @ambiguous deadline hpc =>
      exact ⟨ctxOutcome deadline, by simp [attempt, hpc], mapCtx_phase deadline hl, ctxOutcome_ok deadline, rfl⟩
    | discard => exact ⟨_, rfl, terminate_phase hl, by simp [StreamOutcomeOk], rfl⟩
    | _ => exact (hkeep rfl).elim
  | sender a =>
    cases senderStep_move hs with
    | @fail deadline hpc =>
      have hph := mapCtx_phase deadline hl
      cases deadline with
      | true => exact ⟨ctxOutcome true, by simp [attempt, hpc], hph, ctxOutcome_ok true, rfl⟩
      | false =>
        cases hsend : c.send with
        | none => exact ⟨ctxOutcome false, by simp [attempt, hpc, hsend], hph, ctxOutcome_ok false, rfl⟩
        | some n => exact ⟨⟨.canceled, some (.cause n)⟩, by simp [attempt, hpc, hsend], hph, by simp [StreamOutcomeOk], rfl⟩
    | complete =>
      refine ⟨_, rfl, ?_, by simp [StreamOutcomeOk], rfl⟩
      dsimp only at hd ⊢
      split
      · exact terminate_phase hl
      · next hb =>
        rw [if_neg hb] at hd
        simp [isLive] at hl hd
        simp_all
    | _ => exact (hkeep rfl).elim
  | receiver a =>
    obtain ⟨⟨_, _, _, _, _, _, _, rfl⟩, -⟩ := receiverStep_frame hs
    exact (hkeep rfl).elim
  | acker a =>
    obtain ⟨_, _, _, _, _, _, rfl⟩ := ackStep_frame hs
    exact (hkeep rfl).elim
  | finisher a =>
    obtain ⟨_, _, _, _, rfl⟩ := finishStep_frame hs
    exact (hkeep rfl).elim
  | ending a =>
    cases a with
    | ctx deadline =>
      obtain ⟨-, ⟨⟩⟩ := guard_some hs
      exact ⟨_, rfl, mapCtx_phase deadline hl, ctxOutcome_ok deadline, rfl⟩
    | handlerError status =>
      obtain ⟨-, ⟨⟩⟩ := guard_some hs
      refine ⟨_, rfl, ?_, by simp [StreamOutcomeOk], rfl⟩
      simp only [terminateHandlerError, hl, if_true]
      exact terminate_phase hl
    | failAll =>
      cases hs
      exact ⟨_, rfl, terminate_phase hl, by simp [StreamOutcomeOk], rfl⟩

theorem Ends.teardown (h : Ends s s') : s'.done = s.done ∧ (s'.isLive = true → s'.finisher = s.finisher) := by
  cases h with
  | same => exact ⟨rfl, fun _ => rfl⟩
  | ended => exact ⟨rfl, fun hl => by simp [isLive] at hl⟩

theorem step_teardown (hs : s.step e a = some (s', effects)) (hf : s.isLive = true → s.finisher = .none) :
    (s'.isLive = true → s'.finisher = .none) ∧ (s'.done = true → s.done = true ∨ s.isLive = false ∧ locks a = true) := by
  have hback : s'.isLive = true → s.isLive = true := by
    intro hl'
    cases hl : s.isLive with
    | true => rfl
    | false =>
      rw [isLive_of_phase (step_phase_dead hs hl), hl] at hl'
      cases hl'
  -- Acts other than the winner's leave both words alone, but for an end.
  have hend : (s'.done = s.done ∧ (s'.isLive = true → s'.finisher = s.finisher)) →
      (s'.isLive = true → s'.finisher = .none) ∧ (s'.done = true → s.done = true ∨ s.isLive = false ∧ locks a = true) := by
    rintro ⟨hd, hfin⟩
    exact ⟨fun hl => (hfin hl).trans (hf (hback hl)), fun h => .inl (hd ▸ h)⟩
  cases a with
  | opener a =>
    obtain ⟨s₁, phase, _, _, _, _, he, hph, -, rfl⟩ := openerStep_frame hs
    refine hend ⟨he.teardown.1, fun hl => ?_⟩
    refine he.teardown.2 ?_
    rcases hph with rfl | ⟨hsub, -⟩
    · exact hl
    · simp [isLive, hsub]
  | sender a =>
    obtain ⟨s₁, _, _, _, _, _, _, _, he, rfl⟩ := senderStep_frame hs
    exact hend he.teardown
  | receiver a =>
    obtain ⟨⟨_, _, _, _, _, _, _, rfl⟩, -⟩ := receiverStep_frame hs
    exact hend ⟨rfl, fun _ => rfl⟩
  | acker a =>
    obtain ⟨_, _, _, _, _, _, rfl⟩ := ackStep_frame hs
    exact hend ⟨rfl, fun _ => rfl⟩
  | ending a => exact hend (endStep_ends hs).1.teardown
  | finisher a =>
    cases a with
    | owedClaim | owedCancel ok | owedEmit =>
      simp only [step, finishStep] at hs
      refine hend ?_
      repeat' split at hs
      all_goals cases hs
      all_goals exact ⟨rfl, fun _ => rfl⟩
    | claim | cancel ok | emit | settle | signal | remove =>
      -- The winner is at work, so the stream has ended.
      have hne : s.finisher ≠ .none := by
        intro hnone
        simp [step, finishStep, hnone] at hs
      have hl : s.isLive = false := by
        cases hl : s.isLive with
        | false => rfl
        | true => exact absurd (hf hl) hne
      exact ⟨fun hl' => absurd (hback hl') (by simp [hl]), fun _ => .inr ⟨hl, rfl⟩⟩

theorem step_done (hs : s.step e a = some (s', effects)) (hd : s.done = true) : s'.done = true := by
  cases a with
  | opener a =>
    obtain ⟨s₁, _, _, _, _, _, he, -, -, rfl⟩ := openerStep_frame hs
    exact he.teardown.1.trans hd
  | sender a =>
    obtain ⟨s₁, _, _, _, _, _, _, _, he, rfl⟩ := senderStep_frame hs
    exact he.teardown.1.trans hd
  | receiver a =>
    obtain ⟨⟨_, _, _, _, _, _, _, rfl⟩, -⟩ := receiverStep_frame hs
    exact hd
  | acker a =>
    obtain ⟨_, _, _, _, _, _, rfl⟩ := ackStep_frame hs
    exact hd
  | ending a => exact (endStep_ends hs).1.teardown.1.trans hd
  | finisher a =>
    cases finishStep_move hs with
    | signal => rfl
    | _ => exact hd

/-! ## The closed half -/

/-- A completed stream's send half is closed, and no close of it is under way. -/
structure Halved (s : Stream) : Prop where
  completed : s.phase = .term .completed → s.closeLocal = true
  closed : s.closeLocal = true → s.sendClosed = true ∧ s.sendCloseState ≠ .idle ∧ ∀ payload n, s.sender ≠ .closing payload n

theorem Halved.ends (h : s.Halved) (he : Ends s s') : s'.Halved := by
  cases he with
  | same => exact h
  | ended code tc l status hl hboth hcode =>
    refine ⟨fun hph => ?_, h.closed⟩
    have hb := hboth (by simpa using hph)
    simp only [bothClosed, Bool.and_eq_true] at hb
    exact hb.1

theorem Halved.moved (h : s.Halved) (hph : s'.phase = s.phase) (hcl : s'.closeLocal = s.closeLocal)
    (hsc : s'.sendClosed = s.sendClosed) (hst : s'.sendCloseState = s.sendCloseState)
    (hpc : s.closeLocal = true → ∀ payload n, s'.sender ≠ .closing payload n) : s'.Halved := by
  refine ⟨by rw [hph, hcl]; exact h.completed, fun hc => ?_⟩
  rw [hcl] at hc
  rw [hsc, hst]
  exact ⟨(h.closed hc).1, (h.closed hc).2.1, hpc hc⟩

theorem Halved.senderStep {a : SendAct} (h : s.Halved) (hs : s.senderStep e a = some (s', effects)) : s'.Halved := by
  -- Once its half is closed the sender does not come to a `STREAM_CLOSE` again.
  have hopen : ∀ {payload : Bytes} {finalSeq : Nat}, s.sender = .closing payload finalSeq → s.closeLocal = false := by
    intro payload finalSeq hpc
    cases hc : s.closeLocal with
    | false => rfl
    | true => exact absurd hpc ((h.closed hc).2.2 payload finalSeq)
  cases senderStep_move hs with
  | admitted _ _ hpc => rcases hpc with rfl | ⟨rfl, -⟩ <;> exact h.moved rfl rfl rfl rfl (by simp)
  | sent _ hlane | fragmentEnd _ hlane => cases hlane <;> exact h.moved rfl rfl rfl rfl (by simp)
  | retry => exact h
  | unsent _ ha => rcases ha with ⟨-, rfl⟩ | ⟨deadline, rfl⟩ <;> exact h.moved rfl rfl rfl rfl (by simp)
  | closeSent hpc | closeCtx hpc | closeUnsent hpc => exact ⟨h.completed, fun hc => by simp [hopen hpc] at hc⟩
  | fail => exact (h.ends (ends_mapCtx _)).moved rfl rfl rfl rfl (by simp)
  | closeSend _ _ _ hst =>
    have hopen : s.closeLocal = false := by
      cases hcl : s.closeLocal with
      | false => rfl
      | true => exact absurd hst (h.closed hcl).2.1
    exact ⟨h.completed, fun hcl => by simp [hopen] at hcl⟩
  | commit => exact ⟨fun _ => rfl, fun _ => ⟨rfl, by simp, by simp⟩⟩
  | complete =>
    have h₁ : (if s.bothClosed then s.terminate .completed 0 false else s).Halved := h.ends ends_completed
    exact h₁.moved rfl rfl rfl rfl (by simp)
  | _ => exact h.moved rfl rfl rfl rfl (by simp [Stream.rollback])

theorem Halved.step (h : s.Halved) (hs : s.step e a = some (s', effects)) : s'.Halved := by
  cases a with
  | opener a =>
    obtain ⟨s₁, phase, _, _, _, _, he, hph, -, rfl⟩ := openerStep_frame hs
    have h₁ := h.ends he
    refine ⟨fun hc => h₁.completed ?_, h₁.closed⟩
    rcases hph with rfl | ⟨-, rfl⟩
    · exact hc
    · cases hc
  | sender a => exact h.senderStep hs
  | receiver a =>
    obtain ⟨⟨_, _, _, _, _, _, _, rfl⟩, -⟩ := receiverStep_frame hs
    exact ⟨h.completed, h.closed⟩
  | acker a =>
    obtain ⟨_, _, _, _, _, _, rfl⟩ := ackStep_frame hs
    exact ⟨h.completed, h.closed⟩
  | finisher a =>
    obtain ⟨_, _, _, _, rfl⟩ := finishStep_frame hs
    exact ⟨h.completed, h.closed⟩
  | ending a => exact h.ends (endStep_ends hs).1

theorem Halved.dispatch (h : s.Halved) (p : ChunkPolicy) (f : StreamFrame) : (s.dispatch p f).1.Halved := by
  obtain ⟨_, _, _, _, _, _, -, hends⟩ := dispatch_frame s p f
  refine Halved.ends ?_ hends
  exact ⟨h.completed, h.closed⟩

/-! ## Frames -/

/-- What a frame does to the receiving side of a live stream. -/
structure Arrives (s s' : Stream) : Prop where
  queue : s'.recvCh = s.recvCh ∨ s.closeRemote = false ∧ ∃ it, s'.recvCh = s.recvCh ++ [it] ∧
    (s.expectedSeq < s'.expectedSeq ∨ s'.closeRemote = true)
  delivered : s'.delivered = s.delivered
  seq : s.expectedSeq ≤ s'.expectedSeq
  closes : s.closeRemote = true → s'.closeRemote = true
  eof : s'.recvClosed = true → s.recvClosed = true ∨ s'.closeRemote = true
  kept : s.recvClosed = true → s'.recvClosed = true
  teardown : s'.done = s.done ∧ (s'.isLive = true → s'.finisher = s.finisher)

theorem Arrives.same (s : Stream) : Arrives s s :=
  ⟨.inl rfl, rfl, Nat.le_refl _, id, .inl, id, rfl, fun _ => rfl⟩

theorem Arrives.ends {s₁ : Stream} (h : Arrives s s₁) (he : Ends s₁ s') : Arrives s s' := by
  obtain ⟨hd, hf⟩ := he.teardown
  cases he with
  | same => exact h
  | ended => exact ⟨h.queue, h.delivered, h.seq, h.closes, h.eof, h.kept, hd.trans h.teardown.1, fun hl => by simp [isLive] at hl⟩

theorem dispatch_arrives (p : ChunkPolicy) (f : StreamFrame) : Arrives s (s.dispatch p f).1 := by
  unfold dispatch
  split
  swap
  · exact .same s
  cases f with
  | streamMsg seq payload =>
    simp only [onStreamMsg]
    split
    · exact .same s
    next hclose =>
    split
    · exact .same s
    split
    · exact .same s
    split
    · exact ⟨.inr ⟨by simpa using hclose, _, rfl, .inl (Nat.lt_succ_self _)⟩, rfl, Nat.le_succ _, id, .inl, id, rfl, fun _ => rfl⟩
    · exact ⟨.inl rfl, rfl, Nat.le_succ _, id, .inl, id, rfl, fun _ => rfl⟩
  | streamChunk seq payload =>
    simp only [onStreamChunk]
    repeat' split
    all_goals first | exact .same s | exact ⟨.inl rfl, rfl, Nat.le_succ _, id, .inl, id, rfl, fun _ => rfl⟩
  | streamAck v =>
    simp only [onStreamAck]
    repeat' split
    all_goals first | exact .same s | exact ⟨.inl rfl, rfl, Nat.le_refl _, id, .inl, id, rfl, fun _ => rfl⟩
  | streamClose finalSeq payload =>
    simp only [onStreamClose]
    split
    · exact .same s
    split
    · exact .same s
    next hclose =>
    split
    · exact ⟨.inl rfl, rfl, Nat.le_refl _, fun _ => rfl, .inl, id, rfl, fun _ => rfl⟩
    split
    · split
      · refine Arrives.ends ?_ ends_completed
        exact ⟨.inr ⟨by simpa using hclose, _, rfl, .inr rfl⟩, rfl, Nat.le_refl _, fun _ => rfl, fun _ => .inr rfl, fun _ => rfl, rfl, fun _ => rfl⟩
      · exact ⟨.inl rfl, rfl, Nat.le_refl _, fun _ => rfl, .inl, id, rfl, fun _ => rfl⟩
    · refine Arrives.ends ?_ ends_completed
      exact ⟨.inl rfl, rfl, Nat.le_refl _, fun _ => rfl, fun _ => .inr rfl, fun _ => rfl, rfl, fun _ => rfl⟩
  | streamErr status =>
    simp only [onStreamErr]
    repeat' split
    all_goals exact (Arrives.same s).ends (ends_terminate _ (by simp))
  | cancel code =>
    simp only [onTeardownCancel]
    repeat' split
    all_goals first | exact (Arrives.same s).ends (ends_terminate _ (by simp)) | exact .same s
  | streamOpen credits payload => exact .same s

theorem dispatch_ended {p : ChunkPolicy} {f : StreamFrame} (hl : s.isLive = true) (hd : (s.dispatch p f).1.isLive = false) :
    (s.dispatch p f).1.phase = .term (frameAttempt f).code ∧ StreamOutcomeOk (frameAttempt f) := by
  simp only [dispatch, hl, if_true] at hd ⊢
  -- A completion, the one end a frame that carries no status makes.
  have hdone : ∀ s₁ : Stream, s₁.isLive = true → s₁.remoteEOF.isLive = false → s₁.remoteEOF.phase = .term .completed := by
    intro s₁ hl₁ hd₁
    unfold remoteEOF at hd₁ ⊢
    dsimp only at hd₁ ⊢
    split
    · exact terminate_phase hl₁
    · next hb =>
      rw [if_neg hb] at hd₁
      have : s₁.isLive = false := hd₁
      rw [hl₁] at this
      cases this
  have hlive : ∀ s₁ : Stream, s₁.phase = s.phase → s₁.isLive = false → False := by
    intro s₁ hp hd₁
    rw [isLive_of_phase hp, hl] at hd₁
    cases hd₁
  cases f with
  | streamMsg seq payload =>
    simp only [onStreamMsg] at hd ⊢
    repeat' split at hd
    all_goals exact (hlive _ rfl hd).elim
  | streamChunk seq payload =>
    simp only [onStreamChunk] at hd ⊢
    repeat' split at hd
    all_goals exact (hlive _ rfl hd).elim
  | streamAck v =>
    simp only [onStreamAck] at hd ⊢
    repeat' split at hd
    all_goals exact (hlive _ rfl hd).elim
  | streamClose finalSeq payload =>
    refine ⟨?_, by simp [StreamOutcomeOk, frameAttempt]⟩
    revert hd
    simp only [onStreamClose]
    repeat' split
    all_goals intro hd
    all_goals first | exact (hlive _ rfl hd).elim | exact hdone _ hl hd
  | streamErr status =>
    simp only [onStreamErr, frameAttempt, statusOutcome]
    repeat' split
    all_goals exact ⟨terminate_phase hl, by simp [StreamOutcomeOk]⟩
  | cancel code =>
    revert hd
    simp only [onTeardownCancel, frameAttempt]
    repeat' split
    all_goals intro hd
    all_goals first | exact (hlive _ rfl hd).elim | exact ⟨terminate_phase hl, by simp [StreamOutcomeOk]⟩
  | streamOpen credits payload => exact (hlive _ rfl hd).elim

end Stream

/-! ## The record -/

namespace Recorded

variable {x y : Recorded} {n : Nat} {pc : CallerPc} {a : Answer} {op : Op} {s' : Stream} {oc : Option StreamOutcome}

/-- The attempt that won, and where its outcome is. -/
structure Won (x : Recorded) (oc : StreamOutcome) : Prop where
  wins : x.wins = [oc]
  phase : x.s.phase = .term oc.code
  ok : Stream.StreamOutcomeOk oc
  stored : x.outcome = some oc ∧ x.storing = none ∨ x.outcome = none ∧ x.storing = some oc

structure Unended (x : Recorded) : Prop where
  live : x.s.isLive = true
  wins : x.wins = []
  outcome : x.outcome = none
  storing : x.storing = none

/-- The phase, the outcome and the teardown. -/
structure RecordOk (x : Recorded) : Prop where
  record : x.Unended ∨ ∃ oc, x.Won oc
  finisher : x.s.isLive = true → x.s.finisher = .none
  done : x.s.done = true → x.s.isLive = false ∧ x.storing = none

/-- The queue: what came, in order, is what was delivered and what waits. -/
structure QueueOk (x : Recorded) : Prop where
  buffered : x.buffered.map Prod.snd = x.s.delivered ++ x.s.recvCh.map RecvItem.payload
  ordered : (x.buffered.map Prod.fst).Pairwise (· < ·)
  below : x.s.closeRemote = false → ∀ m ∈ x.buffered, m.1 < x.s.expectedSeq
  eof : x.s.recvClosed = true → x.s.closeRemote = true

def Drained (x : Recorded) : Prop := x.s.recvCh = [] ∧ (x.s.isLive = false ∨ x.s.closeRemote = true)

def Reads (x : Recorded) (r : Option StreamOutcome) : Prop := ∃ oc, r = some oc ∧ x.wins = [oc]

def Completes (x : Recorded) : Prop := ∃ oc, x.wins = [oc] ∧ oc.code = .completed

def PcOk (x : Recorded) : CallerPc → Prop
  | .lock _ => x.s.isLive = false
  | .closed op => (op = .sendMsg ∨ op = .closeSend) ∧ x.Completes
  | .redrain true => x.s.done = true
  | .redrain false => x.s.recvClosed = true
  | _ => True

def AnswerOk (x : Recorded) : Answer → Prop
  | .record _ r => x.Reads r
  | .refused op e => x.Completes ∧ (op = .sendMsg ∧ e = .canceledLocally ∨ op = .closeSend ∧ e = .sendClosed)
  | .ended r => x.Reads r ∧ x.Drained
  | .eof => x.s.closeRemote = true ∧ x.Drained
  | _ => True

def Answer.payload? : Answer → Option Bytes
  | .msg payload => some payload
  | _ => none

structure Inv (x : Recorded) : Prop where
  half : x.s.Halved
  record : x.RecordOk
  queue : x.QueueOk
  callers : ∀ n, x.PcOk (x.callers n)
  answers : ∀ a ∈ x.answers, x.AnswerOk a
  delivered : x.answers.filterMap Answer.payload? = x.s.delivered

/-- What a step never takes back. -/
structure Grows (x y : Recorded) : Prop where
  dead : x.s.isLive = false → y.s.isLive = false
  wins : ∀ oc, x.wins = [oc] → y.wins = [oc]
  done : x.s.done = true → y.s.done = true
  recvClosed : x.s.recvClosed = true → y.s.recvClosed = true
  closeRemote : x.s.closeRemote = true → y.s.closeRemote = true
  drained : x.Drained → y.s.recvCh = []

theorem Grows.reads {r : Option StreamOutcome} (h : Grows x y) (hr : x.Reads r) : y.Reads r := by
  obtain ⟨oc, rfl, hw⟩ := hr
  exact ⟨oc, rfl, h.wins oc hw⟩

theorem Grows.completes (h : Grows x y) (hc : x.Completes) : y.Completes := by
  obtain ⟨oc, hw, hcode⟩ := hc
  exact ⟨oc, h.wins oc hw, hcode⟩

theorem Grows.drain (h : Grows x y) (hd : x.Drained) : y.Drained :=
  ⟨h.drained hd, hd.2.imp h.dead h.closeRemote⟩

theorem Grows.pcOk (h : Grows x y) (hp : x.PcOk pc) : y.PcOk pc := by
  cases pc with
  | lock op => exact h.dead hp
  | closed op => exact ⟨hp.1, h.completes hp.2⟩
  | redrain viaDone =>
    cases viaDone with
    | true => exact h.done hp
    | false => exact h.recvClosed hp
  | _ => trivial

theorem Grows.answerOk (h : Grows x y) (ha : x.AnswerOk a) : y.AnswerOk a := by
  cases a with
  | record op r => exact h.reads ha
  | refused op e => exact ⟨h.completes ha.1, ha.2⟩
  | ended r => exact ⟨h.reads ha.1, h.drain ha.2⟩
  | eof => exact ⟨h.closeRemote ha.1, h.drain ha.2⟩
  | _ => trivial

theorem Inv.grow (h : x.Inv) (hg : Grows x y) (hh : y.s.Halved) (hr : y.RecordOk) (hq : y.QueueOk) (hc : y.callers = x.callers)
    (ha : y.answers = x.answers) (hd : y.s.delivered = x.s.delivered) : y.Inv := by
  refine ⟨hh, hr, hq, fun n => ?_, fun a hm => ?_, ?_⟩
  · rw [hc]
    exact hg.pcOk (h.callers n)
  · rw [ha] at hm
    exact hg.answerOk (h.answers a hm)
  · rw [ha, hd]
    exact h.delivered

theorem RecordOk.outcome_of_done (h : x.RecordOk) (hd : x.s.done = true) : x.Reads x.outcome := by
  obtain ⟨hdead, hst⟩ := h.done hd
  rcases h.record with hu | ⟨oc, hw⟩
  · rw [hu.live] at hdead
    cases hdead
  · rcases hw.stored with ⟨ho, -⟩ | ⟨-, hs⟩
    · exact ⟨oc, ho, hw.wins⟩
    · rw [hst] at hs
      cases hs

theorem RecordOk.outcome_of_lock (h : x.RecordOk) (hd : x.s.isLive = false) (hst : x.storing = none) : x.Reads x.outcome := by
  rcases h.record with hu | ⟨oc, hw⟩
  · rw [hu.live] at hd
    cases hd
  · rcases hw.stored with ⟨ho, -⟩ | ⟨-, hs⟩
    · exact ⟨oc, ho, hw.wins⟩
    · rw [hst] at hs
      cases hs

/-- The words `RecordOk` is about. -/
def recordWords (x : Recorded) : StreamPhase × FinishPc × Bool × Option StreamOutcome × Option StreamOutcome × List StreamOutcome :=
  (x.s.phase, x.s.finisher, x.s.done, x.outcome, x.storing, x.wins)

theorem RecordOk.same (h : x.RecordOk) (he : y.recordWords = x.recordWords) : y.RecordOk := by
  simp only [recordWords, Prod.mk.injEq] at he
  obtain ⟨hph, hfin, hdone, ho, hst, hw⟩ := he
  have hl : y.s.isLive = x.s.isLive := Stream.isLive_of_phase hph
  refine ⟨?_, ?_, ?_⟩
  · rcases h.record with hu | ⟨oc, hwon⟩
    · exact .inl ⟨hl.trans hu.live, hw.trans hu.wins, ho.trans hu.outcome, hst.trans hu.storing⟩
    · refine .inr ⟨oc, hw.trans hwon.wins, hph.trans hwon.phase, hwon.ok, ?_⟩
      rw [ho, hst]
      exact hwon.stored
  · rw [hl, hfin]
    exact h.finisher
  · rw [hdone, hl, hst]
    exact h.done

theorem QueueOk.same (h : x.QueueOk) (hs : y.s.inbox = x.s.inbox) (hb : y.buffered = x.buffered) : y.QueueOk := by
  simp only [Stream.inbox, Prod.mk.injEq] at hs
  obtain ⟨hch, hdel, hseq, hcr, hrc⟩ := hs
  refine ⟨?_, ?_, ?_, ?_⟩
  · rw [hb, hdel, hch]
    exact h.buffered
  · rw [hb]
    exact h.ordered
  · rw [hb, hcr, hseq]
    exact h.below
  · rw [hrc, hcr]
    exact h.eof

/-! ### Callers -/

theorem Inv.callers_update (h : x.Inv) (hp : x.PcOk pc) (m : Nat) : x.PcOk (Function.update x.callers n pc m) := by
  by_cases hm : m = n
  · subst hm
    simpa using hp
  · simpa [hm] using h.callers m

theorem Inv.moveTo (h : x.Inv) (hp : x.PcOk pc) : (x.moveTo n pc).Inv :=
  ⟨h.half, h.record.same rfl, h.queue.same rfl rfl, h.callers_update hp, h.answers, h.delivered⟩

theorem Inv.answer (h : x.Inv) (ha : x.AnswerOk a) (hm : a.payload? = none) : (x.answer n a).Inv := by
  refine ⟨h.half, h.record.same rfl, h.queue.same rfl rfl, h.callers_update trivial, fun b hb => ?_, ?_⟩
  · rcases List.mem_append.mp hb with hb | hb
    · exact h.answers b hb
    · rw [List.mem_singleton.mp hb]
      exact ha
  · show (x.answers ++ [a]).filterMap Answer.payload? = x.s.delivered
    simp [hm, h.delivered]

theorem Inv.read (h : x.Inv) (hr : x.Reads x.outcome) : (x.read n op).Inv := by
  have ha : (x.answer n (.record op x.outcome)).Inv := h.answer hr rfl
  unfold Recorded.read
  dsimp only
  -- No error is recorded of a completion alone.
  have hc : x.outcome.bind StreamOutcome.err = none → (x.answer n (.record op x.outcome)).Completes := by
    intro he
    obtain ⟨oc, ho, hw⟩ := hr
    refine ⟨oc, hw, ?_⟩
    rw [ho] at he
    rcases h.record.record with hu | ⟨oc', hwon⟩
    · rw [hu.outcome] at ho
      cases ho
    · obtain rfl : oc = oc' := by simpa [hw] using hwon.wins
      exact hwon.ok.mp he
  split
  · next he => exact ha.moveTo ⟨.inl rfl, hc he⟩
  · next he => exact ha.moveTo ⟨.inr rfl, hc he⟩
  · exact ha

/-- **A message is handed out once**, the oldest first. -/
theorem Inv.take (h : x.Inv) (hs : x.take n = some y) : y.Inv := by
  unfold Recorded.take at hs
  split at hs
  · cases hs
  next it rest hch =>
  obtain ⟨-, ⟨⟩⟩ := guard_some hs
  have hg : Grows x ({ x with
      s := { x.s with
        recvCh := rest
        delivered := x.s.delivered ++ [it.payload]
        delivering := if it.credited then x.s.delivering + 1 else x.s.delivering } }.answer n (.msg it.payload)) := by
    refine ⟨id, fun _ h => h, id, id, id, fun hd => ?_⟩
    have hnil := hd.1
    rw [hch] at hnil
    cases hnil
  refine ⟨⟨h.half.completed, h.half.closed⟩, h.record.same rfl, ⟨?_, h.queue.ordered, h.queue.below, h.queue.eof⟩, fun m => ?_, fun b hb => ?_, ?_⟩
  · have hb := h.queue.buffered
    rw [hch] at hb
    simpa [Recorded.answer] using hb
  · exact hg.pcOk (h.callers_update (show x.PcOk .idle from trivial) m)
  · rcases List.mem_append.mp hb with hb | hb
    · exact hg.answerOk (h.answers b hb)
    · rw [List.mem_singleton.mp hb]
      trivial
  · simp [Recorded.answer, Answer.payload?, h.delivered]

theorem Inv.next (h : x.Inv) (hs : x.next n = some y) : y.Inv := by
  have hpc := h.callers n
  unfold Recorded.next at hs
  split at hs
  · split at hs <;> cases hs
    · exact h.answer trivial rfl
    · exact h.moveTo trivial
  · split at hs
    · next hd =>
      cases hs
      exact h.read (h.record.outcome_of_done hd)
    · split at hs <;> cases hs
      exact h.moveTo trivial
  · split at hs <;> cases hs
    · exact h.answer trivial rfl
    · next hl => exact h.moveTo (by simpa [PcOk] using hl)
  · next op heq =>
    rw [heq] at hpc
    obtain ⟨hst, ⟨⟩⟩ := guard_some hs
    exact h.read (h.record.outcome_of_lock hpc hst)
  · next heq =>
    rw [heq] at hpc
    split at hs <;> cases hs
    · exact h.answer ⟨hpc.2, .inl ⟨rfl, rfl⟩⟩ rfl
    · exact h.moveTo trivial
  · next op hne heq =>
    rw [heq] at hpc
    split at hs <;> cases hs
    · exact h.moveTo trivial
    · obtain ⟨hop | hop, hc⟩ := hpc
      · exact absurd hop hne
      · exact h.answer ⟨hc, .inr ⟨hop, rfl⟩⟩ rfl
  · next viaDone heq =>
    rw [heq] at hpc
    split at hs
    · next hch =>
      cases hs
      cases viaDone with
      | true => exact h.answer ⟨h.record.outcome_of_done hpc, hch, .inl (h.record.done hpc).1⟩ rfl
      | false => exact h.answer ⟨h.queue.eof hpc, hch, .inr (h.queue.eof hpc)⟩ rfl
    · exact h.take hs
  · cases hs
  · cases hs

/-! ### The stream and the record -/

theorem RecordOk.advance (h : x.RecordOk)
    (hend : x.s.isLive = true → s'.isLive = false → ∃ o, oc = some o ∧ s'.phase = .term o.code ∧ Stream.StreamOutcomeOk o)
    (hdead : x.s.isLive = false → s'.phase = x.s.phase) (hfin : s'.isLive = true → s'.finisher = .none)
    (hdone : s'.done = true → x.s.isLive = false ∧ x.storing = none) : (x.advance s' oc).RecordOk := by
  unfold Recorded.advance
  split
  · next hc =>
    obtain ⟨hl, hd⟩ := hc
    simp only [Bool.not_eq_true] at hd
    obtain ⟨o, rfl, hph, hok⟩ := hend hl hd
    have hu : x.Unended := by
      rcases h.record with hu | ⟨o', hw⟩
      · exact hu
      · simp [Stream.isLive, hw.phase] at hl
    refine ⟨.inr ⟨o, ⟨by simp [hu.wins], hph, hok, .inr ⟨hu.outcome, rfl⟩⟩⟩, hfin, fun h' => ?_⟩
    rw [(hdone h').1] at hl
    cases hl
  · next hc =>
    have hdead' : x.s.isLive = false → s'.isLive = false := fun hl => (Stream.isLive_of_phase (hdead hl)).trans hl
    refine ⟨?_, hfin, fun h' => ⟨hdead' (hdone h').1, (hdone h').2⟩⟩
    rcases h.record with hu | ⟨o, hw⟩
    · refine .inl ⟨?_, hu.wins, hu.outcome, hu.storing⟩
      simpa [hu.live] using hc
    · have hl : x.s.isLive = false := by simp [Stream.isLive, hw.phase]
      exact .inr ⟨o, ⟨hw.wins, (hdead hl).trans hw.phase, hw.ok, hw.stored⟩⟩

theorem RecordOk.wins_advance (h : x.RecordOk) (o : StreamOutcome) (hw : x.wins = [o]) : (x.advance s' oc).wins = [o] := by
  unfold Recorded.advance
  split
  · next hc =>
    rcases h.record with hu | ⟨o', hwon⟩
    · simp [hu.wins] at hw
    · simp [Stream.isLive, hwon.phase] at hc
  · exact hw

@[simp] theorem advance_s (s' : Stream) (oc : Option StreamOutcome) : (x.advance s' oc).s = s' := by
  unfold advance
  split <;> rfl

@[simp] theorem advance_callers (s' : Stream) (oc : Option StreamOutcome) : (x.advance s' oc).callers = x.callers := by
  unfold advance
  split <;> rfl

@[simp] theorem advance_answers (s' : Stream) (oc : Option StreamOutcome) : (x.advance s' oc).answers = x.answers := by
  unfold advance
  split <;> rfl

@[simp] theorem advance_buffered (s' : Stream) (oc : Option StreamOutcome) : (x.advance s' oc).buffered = x.buffered := by
  unfold advance
  split <;> rfl

theorem Inv.act {e : Env} {a : Stream.Act} {c : Causes} (h : x.Inv) (hs : x.step (.act e a c) = some y) : y.Inv := by
  obtain ⟨hno, hs⟩ := unless_some hs
  split at hs
  · cases hs
  next s' effects hstep =>
  cases hs
  simp only [not_or] at hno
  obtain ⟨hpop, -, hlock⟩ := hno
  have hfree : Stream.locks a = true → x.storing = none := by
    intro hl
    simpa [hl] using hlock
  have hin : s'.inbox = x.s.inbox := Stream.step_inbox hstep hpop
  have hdead : x.s.isLive = false → s'.phase = x.s.phase := Stream.step_phase_dead hstep
  obtain ⟨hfin, hdone⟩ := Stream.step_teardown hstep h.record.finisher
  have hr : (x.advance s' (x.s.attempt c a)).RecordOk := by
    refine h.record.advance (fun hl hd => ?_) hdead hfin fun hd => ?_
    · obtain ⟨oc, hatt, hph, hok, -⟩ := Stream.step_ended hstep hl hd
      exact ⟨oc, hatt, hph, hok⟩
    · rcases hdone hd with hd | ⟨hl, hlk⟩
      · exact h.record.done hd
      · exact ⟨hl, hfree hlk⟩
  have hq : (x.advance s' (x.s.attempt c a)).QueueOk := h.queue.same (by simpa using hin) (by simp)
  simp only [Stream.inbox, Prod.mk.injEq] at hin
  obtain ⟨hch, hdel, -, hcr, hrc⟩ := hin
  refine h.grow ⟨?_, ?_, ?_, ?_, ?_, ?_⟩ (by simpa using h.half.step hstep) (hr.same rfl) (hq.same rfl rfl) (by simp) (by simp) (by simpa using hdel)
  · intro hl
    simpa using (Stream.isLive_of_phase (hdead hl)).trans hl
  · exact fun o hw => h.record.wins_advance o hw
  · intro hd
    simpa using Stream.step_done hstep hd
  · simp [hrc]
  · simp [hcr]
  · intro hd
    simpa [hch] using hd.1

theorem QueueOk.arrive (h : x.QueueOk) (hv : Stream.Arrives x.s s') (hs : y.s = s')
    (hb : y.buffered = x.buffered ++ arrived x.s s') : y.QueueOk := by
  have heof : s'.recvClosed = true → s'.closeRemote = true := fun hc => (hv.eof hc).elim (fun hc => hv.closes (h.eof hc)) id
  have hopen : s'.closeRemote = false → x.s.closeRemote = false := by
    intro hc
    cases hx : x.s.closeRemote with
    | false => rfl
    | true =>
      rw [hv.closes hx] at hc
      cases hc
  subst hs
  rcases hv.queue with hq | ⟨hc, it, hq, hnext⟩
  · have hnil : arrived x.s y.s = [] := by simp [arrived, hq]
    rw [hnil, List.append_nil] at hb
    refine ⟨?_, ?_, fun hc m hm => ?_, heof⟩
    · rw [hb, hv.delivered, hq]
      exact h.buffered
    · rw [hb]
      exact h.ordered
    · rw [hb] at hm
      exact (h.below (hopen hc) m hm).trans_le hv.seq
  · have hone : arrived x.s y.s = [(x.s.expectedSeq, it.payload)] := by simp [arrived, hq]
    rw [hone] at hb
    refine ⟨?_, ?_, fun hc' m hm => ?_, heof⟩
    · rw [hb, hv.delivered, hq, List.map_append, h.buffered]
      simp
    · rw [hb, List.map_append, List.pairwise_append]
      refine ⟨h.ordered, by simp, ?_⟩
      intro a ha b hb
      obtain ⟨m, hm, rfl⟩ := List.mem_map.mp ha
      obtain rfl : b = x.s.expectedSeq := by simpa using hb
      exact h.below hc m hm
    · have hlt : x.s.expectedSeq < y.s.expectedSeq := by
        rcases hnext with hlt | hcr
        · exact hlt
        · rw [hcr] at hc'
          cases hc'
      rw [hb] at hm
      rcases List.mem_append.mp hm with hm | hm
      · exact (h.below hc m hm).trans hlt
      · rw [List.mem_singleton.mp hm]
        exact hlt

theorem Inv.handle {p : ChunkPolicy} (h : x.Inv) (hs : x.step (.handle p) = some y) : y.Inv := by
  simp only [step] at hs
  split at hs
  · cases hs
  next f hf =>
  obtain ⟨hfree, hs⟩ := unless_some hs
  simp only [ne_eq, not_not] at hfree
  split at hs
  swap
  · cases hs
    exact h.grow (.mk id (fun _ h => h) id id id fun h => h.1)
      h.half (h.record.same rfl) (h.queue.same rfl rfl) rfl rfl rfl
  next hl =>
  cases hs
  have hv : Stream.Arrives x.s (x.s.dispatch p f).1 := Stream.dispatch_arrives p f
  have hr : (x.advance (x.s.dispatch p f).1 (some (Stream.frameAttempt f))).RecordOk := by
    refine h.record.advance (fun _ hd => ?_) (fun hd => ?_) (fun hl' => ?_) fun hd => ?_
    · obtain ⟨hph, hok⟩ := Stream.dispatch_ended hl hd
      exact ⟨_, rfl, hph, hok⟩
    · rw [hl] at hd
      cases hd
    · exact (hv.teardown.2 hl').trans (h.record.finisher hl)
    · rw [hv.teardown.1] at hd
      exact h.record.done hd
  refine h.grow ⟨?_, ?_, ?_, ?_, ?_, ?_⟩ (by simpa using h.half.dispatch p f) (hr.same rfl) (h.queue.arrive hv (by simp) (by simp)) (by simp) (by simp)
    (by simpa using hv.delivered)
  · intro hd
    rw [hl] at hd
    cases hd
  · exact fun o hw => h.record.wins_advance o hw
  · intro hd
    simpa [hv.teardown.1] using hd
  · simpa using hv.kept
  · simpa using hv.closes
  · -- What is drained of a live stream is half-closed.
    rintro ⟨hch, hd | hcr⟩
    · rw [hl] at hd
      cases hd
    · rcases hv.queue with hq | ⟨hopen, -⟩
      · simpa [hq] using hch
      · rw [hcr] at hopen
        cases hopen

theorem Inv.step {a : Act} (h : x.Inv) (hs : x.step a = some y) : y.Inv := by
  -- A step that writes none of the words above.
  have hkeep : y.recordWords = x.recordWords → y.s = x.s → y.buffered = x.buffered → y.callers = x.callers →
      y.answers = x.answers → y.Inv := by
    intro hw hss hb hc ha
    have hg : Grows x y := by
      simp only [recordWords, Prod.mk.injEq] at hw
      constructor <;> simp_all [Drained]
    exact h.grow hg (by rw [hss]; exact h.half) (h.record.same hw) (h.queue.same (by rw [hss]) hb) hc ha (by rw [hss])
  cases a with
  | act e a c => exact h.act hs
  | store =>
    simp only [Recorded.step] at hs
    split at hs
    · cases hs
    next oc hst =>
    cases hs
    refine h.grow (.mk id (fun _ h => h) id id id fun h => h.1)
      h.half ⟨?_, h.record.finisher, fun hd => ⟨(h.record.done hd).1, rfl⟩⟩ (h.queue.same rfl rfl) rfl rfl rfl
    rcases h.record.record with hu | ⟨o, hw⟩
    · rw [hu.storing] at hst
      cases hst
    · refine .inr ⟨o, hw.wins, hw.phase, hw.ok, .inl ⟨?_, rfl⟩⟩
      rcases hw.stored with ⟨-, hs⟩ | ⟨-, hs⟩ <;> rw [hst] at hs <;> cases hs
      rfl
  | lookup f =>
    obtain ⟨-, hs⟩ := guard_some hs
    split at hs <;> cases hs <;> exact hkeep rfl rfl rfl rfl rfl
  | handle p => exact h.handle hs
  | call n op =>
    obtain ⟨-, ⟨⟩⟩ := guard_some hs
    cases op <;> exact h.moveTo trivial
  | recv n =>
    obtain ⟨-, hs⟩ := guard_some hs
    split at hs
    · cases hs
      exact h.moveTo trivial
    · exact h.take hs
  | pick n k =>
    obtain ⟨-, hs⟩ := guard_some hs
    cases k with
    | item => exact h.take hs
    | done | recvClosed =>
      dsimp only at hs
      obtain ⟨hd, ⟨⟩⟩ := guard_some hs
      exact h.moveTo hd
    | ctx =>
      cases hs
      exact h.answer trivial rfl
  | next n => exact h.next hs

theorem inv_new {s : Stream} (h : Solo.Admitted s) : (new s).Inv := by
  have hnew : ∀ side cfg, (newStream side cfg).Halved ∧ (newStream side cfg).recvCh.length ≤ 1 := by
    intro side cfg
    refine ⟨⟨by simp [newStream], fun hc => ?_⟩, ?_⟩
    · simp only [newStream, decide_eq_true_eq] at hc
      simp [newStream, hc]
    · simp only [newStream]
      split <;> simp
  -- At most the opening message waits.
  have hq : s.recvCh.length ≤ 1 → s.delivered = [] → s.expectedSeq = 1 → (s.recvClosed = true → s.closeRemote = true) →
      (new s).QueueOk := by
    intro hlen hdel hseq hrc
    refine ⟨?_, ?_, fun _ m hm => ?_, hrc⟩
    · simp [new, hdel, Function.comp_def]
    · match hch : s.recvCh with
      | [] => simp [new, hch]
      | [_] => simp [new, hch]
      | _ :: _ :: _ => simp [hch] at hlen
    · obtain ⟨it, -, rfl⟩ := List.mem_map.mp hm
      simp [new, hseq]
  cases h with
  | opened cfg =>
    obtain ⟨hh, hlen⟩ := hnew .client cfg
    exact ⟨hh, ⟨.inl ⟨rfl, rfl, rfl, rfl⟩, fun _ => rfl, by simp [new, newStream]⟩, hq hlen rfl rfl (by simp [newStream]),
      fun _ => trivial, by simp [new], by simp [new, newStream]⟩
  | accepted credits shape payload =>
    obtain ⟨hh, hlen⟩ := hnew .server ⟨credits, shape, if shape = .serverStreaming then payload else []⟩
    refine ⟨⟨by simp [new, Table.acceptedStream], hh.closed⟩, ⟨.inl ⟨rfl, rfl, rfl, rfl⟩, fun _ => rfl,
      by simp [new, Table.acceptedStream, newStream]⟩, hq hlen rfl rfl (by simp [Table.acceptedStream, newStream]),
      fun _ => trivial, by simp [new], by simp [new, Table.acceptedStream, newStream]⟩

/-! ## First wins -/

/-- The record, its readers, the messages queued before the end, and the frames that come after it. -/
structure FirstWins (x : Recorded) : Prop where
  /-- One attempt won, and the phase and the record are its. -/
  one : x.s.isLive = true ∧ x.wins = [] ∧ x.outcome = none ∨
    ∃ oc, x.wins = [oc] ∧ x.s.phase = .term oc.code ∧ (x.outcome = some oc ∨ x.outcome = none ∧ x.storing = some oc)
  /-- A reader that found the stream ended read the winner's outcome. -/
  read : ∀ op r, .record op r ∈ x.answers → ∃ oc, r = some oc ∧ x.wins = [oc]
  /-- Where no error was recorded, the stream was completed and its send half is closed: the operation is refused. -/
  refused : ∀ op e, .refused op e ∈ x.answers →
    x.Completes ∧ (op = .sendMsg ∧ e = .canceledLocally ∨ op = .closeSend ∧ e = .sendClosed)
  refuses : ∀ n op, x.callers n = .closed op → ∃ e, x.step (.next n) = some (x.answer n (.refused op e))
  /-- `RecvMsg` reports the end once all that was queued is handed out. -/
  ended : ∀ r, .ended r ∈ x.answers → (∃ oc, r = some oc ∧ x.wins = [oc]) ∧ x.s.recvCh = []
  eof : .eof ∈ x.answers → x.s.closeRemote = true ∧ x.s.recvCh = []
  /-- The messages handed out, and those that wait, are those queued, in sequence order. -/
  queued : x.buffered.map Prod.snd = x.answers.filterMap Answer.payload? ++ x.s.recvCh.map RecvItem.payload
  ordered : (x.buffered.map Prod.fst).Pairwise (· < ·)
  /-- Ended or not, a stream hands out what waits. -/
  handed : ∀ n it rest, x.callers n = .idle → x.s.opener = .opened → x.s.recvCh = it :: rest →
    ∃ y, x.step (.recv n) = some y ∧ y.answers = x.answers ++ [.msg it.payload] ∧ y.s.recvCh = rest
  /-- A frame for no stream, or for one that has ended, is counted and nothing else. -/
  unknown : ∀ f, x.present = false → x.found = none → x.step (.lookup f) = some { x with discarded := x.discarded + 1 }
  terminal : ∀ f p, x.s.isLive = false → x.found = some f → x.storing = none → x.s.dispatch p f = (x.s, true) ∧
    x.step (.handle p) = some { x with found := none, discarded := x.discarded + 1 }

theorem Inv.refuses (h : x.Inv) (hc : x.callers n = .closed op) :
    ∃ e, x.step (.next n) = some (x.answer n (.refused op e)) := by
  have hpc := h.callers n
  rw [hc] at hpc
  obtain ⟨hop, oc, hw, hcode⟩ := hpc
  have hcl : x.s.closeLocal = true := by
    refine h.half.completed ?_
    rcases h.record.record with hu | ⟨o, hwon⟩
    · simp [hu.wins] at hw
    · obtain rfl : oc = o := by simpa [hw] using hwon.wins
      rw [hwon.phase, hcode]
  obtain ⟨hsc, hst, -⟩ := h.half.closed hcl
  rcases hop with rfl | rfl
  · refine ⟨.canceledLocally, ?_⟩
    simp [Recorded.step, Recorded.next, hc, hsc]
  · refine ⟨.sendClosed, ?_⟩
    simp [Recorded.step, Recorded.next, hc, hst]

/-- **The first end wins**: one outcome, read by all, after all that was queued. -/
theorem first_wins {s : Stream} (hs : Solo.Admitted s) (h : Reach step Any (new s) x) : x.FirstWins := by
  have hi : x.Inv := h.invariant (inv_new hs) fun hi _ hstep => hi.step hstep
  refine ⟨?_, fun op r hm => hi.answers _ hm, fun op e hm => hi.answers _ hm, fun n op hc => hi.refuses hc,
    fun r hm => ?_, fun hm => ?_, ?_, hi.queue.ordered, ?_, ?_, ?_⟩
  · rcases hi.record.record with hu | ⟨oc, hw⟩
    · exact .inl ⟨hu.live, hu.wins, hu.outcome⟩
    · exact .inr ⟨oc, hw.wins, hw.phase, hw.stored.imp And.left id⟩
  · obtain ⟨hr, hd⟩ := hi.answers _ hm
    exact ⟨hr, hd.1⟩
  · obtain ⟨hc, hd⟩ := hi.answers _ hm
    exact ⟨hc, hd.1⟩
  · rw [hi.delivered]
    exact hi.queue.buffered
  · intro n it rest hidle hopen hch
    have htake : x.step (.recv n) = x.take n := by simp [step, hidle, hch]
    rw [htake]
    simp only [take, hch, if_pos hopen]
    exact ⟨_, rfl, rfl, rfl⟩
  · intro f hp hf
    simp [step, hp, hf]
  · intro f p hl hf hst
    simp [step, Stream.dispatch, hl, hf, hst]

/-! ### Runs -/

def sampleStream : Stream := newStream .client ⟨1, .serverStreaming, []⟩

def sampleEnv : Env := ⟨⟨false, 64, 16, 16⟩, true, true⟩

def openRun : List Act :=
  [.act sampleEnv (.opener .publish) ⟨0, 1, none⟩, .act sampleEnv (.opener (.send .accepted false)) ⟨0, 1, none⟩,
    .act sampleEnv (.opener .confirm) ⟨0, 1, none⟩]

/-- A message comes, then a teardown ends the stream and a second one finds it ended. `Outcome` waits for the store. -/
def endedRun : List Act :=
  openRun ++ [.lookup (.streamMsg 1 [7]), .handle sampleEnv.policy, .lookup (.cancel statusCodeStreamCanceled),
    .handle sampleEnv.policy, .call 0 .outcome, .next 0, .next 0, .store, .next 0, .recv 1,
    .lookup (.cancel statusCodeStreamDeadlineExceeded), .handle sampleEnv.policy]

def endedState : Recorded := (run step (new sampleStream) endedRun).get (by decide +kernel)

theorem first_wins_ended : endedState.FirstWins ∧
    endedState.answers = [.record .outcome (some ⟨.canceled, some .canceledLocally⟩), .msg [7]] ∧ endedState.discarded = 1 :=
  ⟨first_wins (.opened _) (Reach.of_run (Option.some_get _).symm), by decide +kernel, by decide +kernel⟩

/-- The peer's close completes the stream; then a message is sent. -/
def completedRun : List Act :=
  openRun ++ [.lookup (.streamClose 0 []), .handle sampleEnv.policy, .store, .call 0 .sendMsg, .next 0, .next 0, .next 0,
    .next 0, .next 0]

/-- **A completed stream's `SendMsg` does not report the completion**: it answers as after a local cancel. -/
theorem completed_send_refused : ∃ x, Reach step Any (new sampleStream) x ∧ x.wins = [⟨.completed, none⟩] ∧
    .refused .sendMsg .canceledLocally ∈ x.answers :=
  ⟨(run step (new sampleStream) completedRun).get (by decide +kernel), Reach.of_run (Option.some_get _).symm,
    by decide +kernel, by decide +kernel⟩

end Recorded

end Styx
