/-
A fragment train that fails (`sendChunked`, `sendFirstFragment`, `sendFragmentRetrying`,
`failVisibleTrain`).

The train is invisible until its first fragment is answered for, and any answer but a
proof that the fragment never was published makes it visible. An invisible train gives
back the one credit unit and the one number it holds; a visible one gives back nothing,
and the stream ends with it unless the connection is already failing.
-/
import Styx.Stream.Train

namespace Styx

open Machine Styx.Stream

/-- What the transport answers to one fragment. -/
inductive FragmentAnswer
  | accepted
  | backpressure
  /-- Another rejection that proves the fragment never was published. -/
  | rejected
  /-- The send context has ended; the fragment may be published. -/
  | ctx (published deadline : Bool)
  | closed
  | poisoned
  | other (published : Bool)
  deriving DecidableEq

namespace FragmentAnswer

def neverPublished : FragmentAnswer → Bool
  | .backpressure | .rejected => true
  | _ => false

def connFailed : FragmentAnswer → Bool
  | .closed | .poisoned => true
  | _ => false

/-- The answer as the stream's sender takes it: an unknown error ends the stream as a cancellation does. -/
def toSend : FragmentAnswer → SendAnswer
  | .accepted => .accepted
  | .backpressure => .neverPublished true
  | .rejected => .neverPublished false
  | .ctx published deadline => .ctxErr published deadline
  | .closed | .poisoned => .connErr
  | .other published => .ctxErr published false

end FragmentAnswer

/-- What one `SendMsg` has done at the transport. -/
inductive TrainEvent
  | offer (f : StreamFrame) (a : FragmentAnswer)
  /-- `waitChunkRetry` has seen a context end. -/
  | giveUp
  deriving DecidableEq

/-- Whether the train goes on after an event. -/
def TrainEvent.goesOn : TrainEvent → Bool
  | .offer _ a => a = .accepted ∨ a = .backpressure
  | .giveUp => false

def TrainEvent.taken : TrainEvent → Bool
  | .offer _ a => a = .accepted
  | .giveUp => false

/-- One `SendMsg` of a chunked message. -/
structure TrainSend where
  stream : Stream
  /-- Ghost: what it has offered, and whether it has moved the stream's phase. -/
  log : List TrainEvent
  touched : Bool
  /-- Between a fragment refused for want of room and its retry. -/
  waiting : Bool
  /-- Whether it has returned, and without an error. -/
  returned : Option Bool
  deriving DecidableEq

namespace TrainSend

inductive Act
  | reserve
  | abandon
  | answer (a : FragmentAnswer)
  | retry
  | waitEnds (deadline : Bool)
  | fail
  /-- Any goroutine but the sender. -/
  | others (room drained : Bool) (a : Stream.Act)
  | frame (f : StreamFrame)
  | arm
  deriving DecidableEq

/-- The call up to admission; one that is refused has changed nothing. -/
def sendMsg (q : ChunkPolicy) (s : Stream) (payload : Bytes) : TrainSend :=
  match s.senderStep ⟨q, true, true⟩ (.sendMsg payload) with
  | none => ⟨s, [], false, false, some false⟩
  | some (s', _) => ⟨s', [], false, false, none⟩

/-- The sender's own act; it has returned where it is idle again. -/
def sends (q : ChunkPolicy) (x : TrainSend) (a : SendAct) (events : List TrainEvent) (waiting : Bool) : Option TrainSend :=
  match x.stream.senderStep ⟨q, true, true⟩ a with
  | none => none
  | some (s', _) =>
    some { stream := s', log := x.log ++ events, touched := x.touched || decide (s'.phase ≠ x.stream.phase), waiting
           returned := if s'.sender = .idle then some (decide (a = .transmit .accepted)) else none }

def offers (q : ChunkPolicy) (x : TrainSend) : Option StreamFrame :=
  match x.stream.sender with
  | .fragment payload off => some (fragmentFrame q payload off x.stream.sendSeq)
  | _ => none

/-- Whether the sender is to try the fragment again: only one behind a published fragment. -/
def retries (x : TrainSend) (a : FragmentAnswer) : Bool :=
  match x.stream.sender with
  | .fragment _ off => off ≠ 0 ∧ a = .backpressure
  | _ => false

def step (q : ChunkPolicy) (x : TrainSend) : Act → Option TrainSend
  | .reserve => if x.returned = none then x.sends q .reserve [] false else none
  | .abandon => if x.returned = none then x.sends q .abandon [] false else none
  | .answer a =>
    if x.returned = none ∧ ¬ x.waiting then
      match x.offers q with
      | none => none
      | some f => x.sends q (.transmit a.toSend) [.offer f a] (x.retries a)
    else none
  | .retry => if x.returned = none ∧ x.waiting then some { x with waiting := false } else none
  | .waitEnds deadline =>
    if x.returned = none ∧ x.waiting then x.sends q (.transmit (.ctxErr false deadline)) [.giveUp] false else none
  | .fail => if x.returned = none then x.sends q .fail [] false else none
  | .others room drained a =>
    match a with
    | .sender _ => none
    | a =>
      match x.stream.step ⟨q, room, drained⟩ a with
      | none => none
      | some (s', _) => some { x with stream := s' }
  | .frame f => some { x with stream := (x.stream.dispatch q f).1 }
  | .arm => some { x with stream := x.stream.arm.1 }

/-! ## What is offered -/

/-- The frames of a train offered one after the other: the next only when the one before is accepted, the same one again
after a refusal for want of room, and none after any other answer. -/
def InOrder : List StreamFrame → List TrainEvent → Prop
  | _, [] => True
  | [], _ :: _ => False
  | f :: fs, .offer g a :: log =>
    g = f ∧ (if a = .accepted then InOrder fs log else if a = .backpressure then InOrder (f :: fs) log else log = [])
  | _ :: _, .giveUp :: log => log = []

def accepted (log : List TrainEvent) : Nat := log.countP TrainEvent.taken

@[simp] theorem accepted_nil : accepted [] = 0 := rfl

/-- Whether some fragment may have been published. -/
def visible (log : List TrainEvent) : Prop := ∃ f a, .offer f a ∈ log ∧ a.neverPublished = false

section Order

variable {fs rest : List StreamFrame} {log : List TrainEvent} {ev : TrainEvent}

theorem accepted_append : accepted (log ++ [ev]) = accepted log + if ev.taken then 1 else 0 := by
  simp [accepted, List.countP_append, List.countP_singleton]

theorem InOrder.append (h : InOrder fs log) (hgo : ∀ e ∈ log, e.goesOn = true) (hd : fs.drop (accepted log) = rest)
    (hev : InOrder rest [ev]) : InOrder fs (log ++ [ev]) := by
  induction log generalizing fs with
  | nil =>
    subst hd
    exact hev
  | cons e log ih =>
    have hgo' : ∀ e ∈ log, e.goesOn = true := fun e he => hgo e (by simp [he])
    have he := hgo e (by simp)
    cases fs with
    | nil => exact h.elim
    | cons f fs =>
      cases e with
      | giveUp => cases he
      | offer g a =>
        obtain ⟨rfl, h⟩ := h
        refine ⟨rfl, ?_⟩
        simp only [TrainEvent.goesOn, decide_eq_true_eq] at he
        rcases he with rfl | rfl
        · refine ih h hgo' ?_
          rw [← hd, show accepted (.offer g .accepted :: log) = accepted log + 1 from List.countP_cons_of_pos rfl]
          rfl
        · refine ih h hgo' ?_
          rw [← hd, show accepted (.offer g .backpressure :: log) = accepted log from List.countP_cons_of_neg (by simp [TrainEvent.taken])]

theorem visible_of_accepted (h : 0 < accepted log) : visible log := by
  obtain ⟨ev, hmem, htaken⟩ := List.countP_pos_iff.mp h
  cases ev with
  | giveUp => cases htaken
  | offer f a =>
    simp only [TrainEvent.taken, decide_eq_true_eq] at htaken
    subst htaken
    exact ⟨f, .accepted, hmem, rfl⟩

theorem visible_append {f : StreamFrame} {a : FragmentAnswer} (h : a.neverPublished = false) : visible (log ++ [.offer f a]) :=
  ⟨f, a, by simp, h⟩

end Order

/-! ## One `SendMsg` -/

section Run

variable {q : ChunkPolicy} {payload payload' : Bytes} {s₀ : Stream} {x y : TrainSend} {k : Nat} {deadline w : Bool} {ev : TrainEvent}
  {a : FragmentAnswer} {events : List TrainEvent}

/-- The credit and the number are the stream's again, and its phase was left alone. -/
structure Free (s₀ : Stream) (x : TrainSend) : Prop where
  sent : x.stream.sendCredit.sent = s₀.sendCredit.sent
  sendSeq : x.stream.sendSeq = s₀.sendSeq
  touched : x.touched = false

/-- One credit unit is taken, and a number for each fragment up to `k`. -/
structure Holds (q : ChunkPolicy) (payload : Bytes) (s₀ : Stream) (k : Nat) (x : TrainSend) : Prop where
  lt : k < Pieces.count q.sendInline payload.length
  sent : x.stream.sendCredit.sent = s₀.sendCredit.sent + 1
  sendSeq : x.stream.sendSeq = s₀.sendSeq + 1 + k
  accepted : accepted x.log = k
  order : InOrder (train q.sendInline payload (s₀.sendSeq + 1)) x.log

/-- The sender in the train, at the fragment `k`. -/
structure InHand (q : ChunkPolicy) (payload : Bytes) (s₀ : Stream) (k : Nat) (x : TrainSend) : Prop where
  pc : x.stream.sender = .fragment payload (k * q.sendInline)
  holds : Holds q payload s₀ k x
  touched : x.touched = false
  goesOn : ∀ e ∈ x.log, e.goesOn = true
  first : k = 0 → x.log = []

/-- **Where a call can be**, by its position and what it has returned. -/
inductive Status (q : ChunkPolicy) (payload : Bytes) (s₀ : Stream) (x : TrainSend) : Prop
  | admitting : x.stream.sender = .admitting payload → x.returned = none → Free s₀ x → x.log = [] → Status q payload s₀ x
  | fragment (k : Nat) : InHand q payload s₀ k x → x.returned = none → (x.waiting = true → k ≠ 0) → Status q payload s₀ x
  | failing (k : Nat) (deadline : Bool) : x.stream.sender = .failing deadline → x.returned = none →
    Holds q payload s₀ k x → visible x.log → Status q payload s₀ x
  | back : x.stream.sender = .idle → x.returned = some false → Free s₀ x → ¬ visible x.log →
    InOrder (train q.sendInline payload (s₀.sendSeq + 1)) x.log → Status q payload s₀ x
  | sent : x.stream.sender = .idle → x.returned = some true → x.stream.sendCredit.sent = s₀.sendCredit.sent + 1 →
    x.stream.sendSeq = s₀.sendSeq + Pieces.count q.sendInline payload.length →
    accepted x.log = Pieces.count q.sendInline payload.length →
    InOrder (train q.sendInline payload (s₀.sendSeq + 1)) x.log → Status q payload s₀ x
  | broken (k : Nat) : x.stream.sender = .idle → x.returned = some false → Holds q payload s₀ k x → visible x.log →
    (x.stream.isLive = false ∨ ∃ f a, .offer f a ∈ x.log ∧ a.connFailed = true) → Status q payload s₀ x

theorem Status.keeps {s' : Stream} (h : Status q payload s₀ x) (hk : SameTrain x.stream s')
    (hlive : s'.isLive = true → x.stream.isLive = true) : Status q payload s₀ { x with stream := s' } := by
  have hfree : Free s₀ x → Free s₀ { x with stream := s' } := fun h =>
    ⟨hk.sent.trans h.sent, hk.sendSeq.trans h.sendSeq, h.touched⟩
  have hholds : ∀ {k}, Holds q payload s₀ k x → Holds q payload s₀ k { x with stream := s' } := fun h =>
    ⟨h.lt, hk.sent.trans h.sent, hk.sendSeq.trans h.sendSeq, h.accepted, h.order⟩
  cases h with
  | admitting hpc hret hf hlog => exact .admitting (hk.sender.trans hpc) hret (hfree hf) hlog
  | fragment k hh hret hwait =>
    exact .fragment k ⟨hk.sender.trans hh.pc, hholds hh.holds, hh.touched, hh.goesOn, hh.first⟩ hret hwait
  | failing k d hpc hret hh hv => exact .failing k d (hk.sender.trans hpc) hret (hholds hh) hv
  | back hpc hret hf hv hord => exact .back (hk.sender.trans hpc) hret (hfree hf) hv hord
  | sent hpc hret hs hseq hacc hord =>
    exact .sent (hk.sender.trans hpc) hret (hk.sent.trans hs) (hk.sendSeq.trans hseq) hacc hord
  | broken k hpc hret hh hv hend =>
    refine .broken k (hk.sender.trans hpc) hret (hholds hh) hv (hend.imp_left fun hd => ?_)
    cases hl : s'.isLive with
    | false => rfl
    | true => exact absurd (hlive hl) (by simp [hd])

theorem sends_some {a : SendAct} (hs : x.sends q a events w = some y) :
    ∃ s' effects, x.stream.senderStep ⟨q, true, true⟩ a = some (s', effects) ∧ y =
      { stream := s', log := x.log ++ events, touched := x.touched || decide (s'.phase ≠ x.stream.phase), waiting := w
        returned := if s'.sender = .idle then some (decide (a = .transmit .accepted)) else none } := by
  unfold sends at hs
  split at hs
  · cases hs
  · next s' effects h =>
    cases hs
    exact ⟨s', effects, h, rfl⟩

theorem drop_train (hn : 0 < q.sendInline) (hk : k < Pieces.count q.sendInline payload.length) (seq : Nat) :
    (train q.sendInline payload seq).drop k =
      fragmentFrame q payload (k * q.sendInline) (seq + k) :: (train q.sendInline payload seq).drop (k + 1) := by
  have hlen : k < (train q.sendInline payload seq).length := by simpa [train] using hk
  rw [List.drop_eq_getElem_cons hlen]
  simp [train, fragmentFrame_eq hn hk]

section

variable (h : Status q payload s₀ x)
include h

theorem Status.at_admitting (hpc : x.stream.sender = .admitting payload') : payload' = payload ∧ Free s₀ x ∧ x.log = [] := by
  cases h with
  | admitting hpc' _ hf hlog =>
    rw [hpc'] at hpc
    cases hpc
    exact ⟨rfl, hf, hlog⟩
  | fragment _ hh => rw [hh.pc] at hpc; cases hpc
  | failing _ _ hpc' | back hpc' | sent hpc' | broken _ hpc' => rw [hpc'] at hpc; cases hpc

theorem Status.at_fragment {off : Nat}
    (hpc : x.stream.sender = .fragment payload' off) : payload' = payload ∧ ∃ k, off = k * q.sendInline ∧
      InHand q payload s₀ k x ∧ (x.waiting = true → k ≠ 0) := by
  cases h with
  | fragment k hh _ hwait =>
    rw [hh.pc] at hpc
    cases hpc
    exact ⟨rfl, k, rfl, hh, hwait⟩
  | admitting hpc' | failing _ _ hpc' | back hpc' | sent hpc' | broken _ hpc' => rw [hpc'] at hpc; cases hpc

theorem Status.at_failing (hpc : x.stream.sender = .failing deadline) : ∃ k, Holds q payload s₀ k x ∧ visible x.log := by
  cases h with
  | failing k _ _ _ hh hv => exact ⟨k, hh, hv⟩
  | fragment _ hh => rw [hh.pc] at hpc; cases hpc
  | admitting hpc' | back hpc' | sent hpc' | broken _ hpc' => rw [hpc'] at hpc; cases hpc

theorem Status.reserve (hn : 0 < q.sendInline) (hc : chunked q payload = true)
    (hs : x.sends q .reserve [] false = some y) : Status q payload s₀ y := by
  obtain ⟨s', effects, hstep, rfl⟩ := sends_some hs
  simp only [Stream.senderStep] at hstep
  split at hstep
  swap
  · cases hstep
  next payload' c hpc hres =>
  cases hstep
  unfold CreditCounter.reserve at hres
  split at hres <;> cases hres
  obtain ⟨rfl, hf, hlog⟩ := h.at_admitting hpc
  have hlen : 0 < payload'.length := by
    simp only [chunked, Bool.and_eq_true, decide_eq_true_eq] at hc
    omega
  simp only [admitted, hc, if_true]
  by_cases hceil : q.ceiling < payload'.length
  · rw [if_pos hceil]
    refine .back rfl (by simp [rollback]) ⟨?_, ?_, ?_⟩ ?_ ?_
    · simp [rollback, CreditCounter.release, hf.sent]
    · simp [rollback, hf.sendSeq]
    · simp [rollback, hf.touched]
    · simp [hlog, visible]
    · simp [hlog, InOrder]
  · rw [if_neg hceil]
    refine .fragment 0 ⟨by simp, ⟨(Pieces.lt_count_iff hn).mpr (by omega), ?_, ?_, ?_, ?_⟩, ?_, ?_, ?_⟩ (by simp) (by simp)
    · simp [hf.sent]
    · simp [hf.sendSeq]
    · simp [hlog]
    · simp [hlog, InOrder]
    · simp [hf.touched]
    · simp [hlog]
    · simp [hlog]

theorem Status.abandon (hs : x.sends q .abandon [] false = some y) : Status q payload s₀ y := by
  obtain ⟨s', effects, hstep, rfl⟩ := sends_some hs
  simp only [Stream.senderStep] at hstep
  split at hstep
  swap
  · cases hstep
  next payload' hpc =>
  cases hstep
  obtain ⟨-, hf, hlog⟩ := h.at_admitting hpc
  refine .back rfl (by simp) ⟨hf.sent, hf.sendSeq, by simp [hf.touched]⟩ ?_ ?_
  · simp [hlog, visible]
  · simp [hlog, InOrder]

theorem Status.fail (hs : x.sends q .fail [] false = some y) : Status q payload s₀ y := by
  obtain ⟨s', effects, hstep, rfl⟩ := sends_some hs
  simp only [Stream.senderStep] at hstep
  split at hstep
  swap
  · cases hstep
  next deadline hpc =>
  cases hstep
  have hends : SameTrain x.stream (x.stream.mapCtxToTerminal deadline) := sameTrain_ends (ends_mapCtx deadline)
  obtain ⟨k, hh, hv⟩ := h.at_failing hpc
  refine .broken k rfl (by simp) ⟨hh.lt, hends.sent.trans hh.sent, hends.sendSeq.trans hh.sendSeq, ?_, ?_⟩ ?_ (.inl ?_)
  · simpa using hh.accepted
  · simpa using hh.order
  · simpa using hv
  · show (x.stream.mapCtxToTerminal deadline).isLive = false
    cases deadline <;> simp [mapCtxToTerminal, mapDeadlineToTerminal, mapCancelToTerminal]

end

section

variable (h : InHand q payload s₀ k x)
include h

theorem InHand.offered (hn : 0 < q.sendInline)
    (hev : ev = .giveUp ∨ ∃ a, ev = .offer (fragmentFrame q payload (k * q.sendInline) x.stream.sendSeq) a) :
    InOrder (train q.sendInline payload (s₀.sendSeq + 1)) (x.log ++ [ev]) := by
  refine h.holds.order.append h.goesOn (by rw [h.holds.accepted, drop_train hn h.holds.lt]) ?_
  rcases hev with rfl | ⟨a, rfl⟩
  · rfl
  · rw [h.holds.sendSeq]
    refine ⟨rfl, ?_⟩
    split
    · trivial
    · split
      · trivial
      · rfl

theorem InHand.kept (hn : 0 < q.sendInline)
    (hev : ev = .giveUp ∨ ∃ a, a ≠ .accepted ∧ ev = .offer (fragmentFrame q payload (k * q.sendInline) x.stream.sendSeq) a)
    (hlog : y.log = x.log ++ [ev]) (hsent : y.stream.sendCredit.sent = x.stream.sendCredit.sent)
    (hseq : y.stream.sendSeq = x.stream.sendSeq) : Holds q payload s₀ k y := by
  refine ⟨h.holds.lt, hsent.trans h.holds.sent, hseq.trans h.holds.sendSeq, ?_, ?_⟩
  · rw [hlog, accepted_append, h.holds.accepted]
    rcases hev with rfl | ⟨a, ha, rfl⟩
    · rfl
    · simp [TrainEvent.taken, ha]
  · rw [hlog]
    exact h.offered hn (hev.imp_right fun ⟨a, _, he⟩ => ⟨a, he⟩)

theorem InHand.visible (hk : k ≠ 0) (ev : TrainEvent) : visible (x.log ++ [ev]) := by
  refine visible_of_accepted ?_
  rw [accepted_append, h.holds.accepted]
  omega

theorem InHand.accepted (hn : 0 < q.sendInline) (hs : x.sends q (.transmit .accepted)
      [.offer (fragmentFrame q payload (k * q.sendInline) x.stream.sendSeq) .accepted] false = some y) :
    Status q payload s₀ y := by
  obtain ⟨s', effects, hstep, rfl⟩ := sends_some hs
  simp only [Stream.senderStep, h.pc, fragmentAnswered, Option.some.injEq, Prod.mk.injEq] at hstep
  obtain ⟨rfl, rfl⟩ := hstep
  have hord := h.offered hn (.inr ⟨.accepted, rfl⟩)
  have hacc : TrainSend.accepted
      (x.log ++ [.offer (fragmentFrame q payload (k * q.sendInline) x.stream.sendSeq) .accepted]) = k + 1 := by
    simp [accepted_append, h.holds.accepted, TrainEvent.taken]
  by_cases hlast : lastFragment q payload (k * q.sendInline) = true
  · have hk := (lastFragment_iff hn h.holds.lt).mp hlast
    simp only [hlast, if_true]
    refine .sent rfl (by simp) h.holds.sent ?_ (hacc.trans hk) hord
    simp only [h.holds.sendSeq]
    omega
  · have hk : k + 1 ≠ Pieces.count q.sendInline payload.length := fun he => hlast ((lastFragment_iff hn h.holds.lt).mpr he)
    have hlt := h.holds.lt
    simp only [hlast, Bool.false_eq_true, if_false]
    refine .fragment (k + 1) ⟨?_, ⟨by omega, h.holds.sent, ?_, hacc, hord⟩, ?_, ?_, by simp⟩ (by simp) (by simp)
    · simp only [Nat.succ_mul]
    · simp only [h.holds.sendSeq]
      omega
    · simp [h.touched]
    · intro e he
      rcases List.mem_append.mp he with he | he
      · exact h.goesOn e he
      · rw [List.mem_singleton] at he
        subst he
        rfl

theorem InHand.failing (hn : 0 < q.sendInline) {published : Bool}
    (hev : ev = .giveUp ∨ ∃ a, a ≠ .accepted ∧ ev = .offer (fragmentFrame q payload (k * q.sendInline) x.stream.sendSeq) a)
    (hv : TrainSend.visible (x.log ++ [ev])) (hs : x.sends q (.transmit (.ctxErr published deadline)) [ev] false = some y) :
    Status q payload s₀ y := by
  obtain ⟨s', effects, hstep, rfl⟩ := sends_some hs
  simp only [Stream.senderStep, h.pc, fragmentAnswered, Option.some.injEq] at hstep
  cases published <;> cases hstep <;> exact .failing k deadline rfl rfl (h.kept hn hev rfl rfl rfl) hv

theorem InHand.refused (hn : 0 < q.sendInline) (ha : a.neverPublished = true)
    (hs : x.sends q (.transmit a.toSend) [.offer (fragmentFrame q payload (k * q.sendInline) x.stream.sendSeq) a]
      (x.retries a) = some y) : Status q payload s₀ y := by
  have hne : a ≠ .accepted := fun he => by subst he; cases ha
  have hev : TrainEvent.offer (fragmentFrame q payload (k * q.sendInline) x.stream.sendSeq) a = .giveUp ∨ ∃ a', a' ≠ .accepted ∧
      TrainEvent.offer (fragmentFrame q payload (k * q.sendInline) x.stream.sendSeq) a =
        .offer (fragmentFrame q payload (k * q.sendInline) x.stream.sendSeq) a' := .inr ⟨a, hne, rfl⟩
  obtain ⟨s', effects, hstep, rfl⟩ := sends_some hs
  obtain ⟨b, hsend⟩ : ∃ b, a.toSend = .neverPublished b := by
    cases a <;> simp [FragmentAnswer.neverPublished] at ha <;> exact ⟨_, rfl⟩
  simp only [Stream.senderStep, h.pc, hsend, fragmentAnswered, Option.some.injEq] at hstep
  by_cases hk : k = 0
  · subst hk
    rw [if_pos (Nat.zero_mul _)] at hstep
    cases hstep
    refine .back rfl (by simp [rollback, hsend]) ⟨?_, ?_, ?_⟩ ?_ (h.offered hn (.inr ⟨a, rfl⟩))
    · simp [rollback, CreditCounter.release, h.holds.sent]
    · simp [rollback, h.holds.sendSeq]
    · simp [rollback, h.touched]
    · rintro ⟨f, a', hmem, hpub⟩
      simp only [h.first rfl, List.nil_append, List.mem_singleton, TrainEvent.offer.injEq] at hmem
      rw [hmem.2, ha] at hpub
      cases hpub
  · have hoff : k * q.sendInline ≠ 0 := Nat.mul_ne_zero hk (by omega)
    rw [if_neg hoff] at hstep
    cases b with
    | true =>
      obtain rfl : a = .backpressure := by
        cases a <;> simp [FragmentAnswer.toSend] at hsend ⊢
      cases hstep
      refine .fragment k ⟨h.pc, h.kept hn hev rfl rfl rfl, ?_, ?_, fun h0 => absurd h0 hk⟩ (by simp [h.pc]) fun _ => hk
      · simp [h.touched]
      · intro e he
        rcases List.mem_append.mp he with he | he
        · exact h.goesOn e he
        · rw [List.mem_singleton] at he
          subst he
          rfl
    | false =>
      cases hstep
      exact .failing k false rfl rfl (h.kept hn hev rfl rfl rfl) (h.visible hk _)

theorem InHand.connFailed (hn : 0 < q.sendInline) (ha : a.connFailed = true)
    (hs : x.sends q (.transmit a.toSend) [.offer (fragmentFrame q payload (k * q.sendInline) x.stream.sendSeq) a]
      (x.retries a) = some y) : Status q payload s₀ y := by
  obtain ⟨hsend, hne, hpub⟩ : a.toSend = .connErr ∧ a ≠ .accepted ∧ a.neverPublished = false := by
    cases a <;> simp [FragmentAnswer.connFailed] at ha <;> simp [FragmentAnswer.toSend, FragmentAnswer.neverPublished]
  obtain ⟨s', effects, hstep, rfl⟩ := sends_some hs
  simp only [Stream.senderStep, h.pc, hsend, fragmentAnswered, Option.some.injEq] at hstep
  cases hstep
  refine .broken k rfl (by rw [hsend]; rfl) (h.kept hn (.inr ⟨a, hne, rfl⟩) rfl rfl rfl) (visible_append hpub) (.inr ?_)
  exact ⟨_, a, List.mem_append_right _ (List.mem_singleton_self _), ha⟩

end

theorem Status.answer {f : StreamFrame} (h : Status q payload s₀ x) (hn : 0 < q.sendInline)
    (hf : x.offers q = some f) (hs : x.sends q (.transmit a.toSend) [.offer f a] (x.retries a) = some y) :
    Status q payload s₀ y := by
  unfold offers at hf
  split at hf
  swap
  · cases hf
  next payload' off hpc =>
  cases hf
  obtain ⟨rfl, k, rfl, hh, -⟩ := h.at_fragment hpc
  have hretry : a ≠ .backpressure → x.retries a = false := fun hne => by simp [retries, hpc, hne]
  have hev : a ≠ .accepted → (TrainEvent.offer (fragmentFrame q payload' (k * q.sendInline) x.stream.sendSeq) a = .giveUp ∨
      ∃ a', a' ≠ .accepted ∧ TrainEvent.offer (fragmentFrame q payload' (k * q.sendInline) x.stream.sendSeq) a =
        .offer (fragmentFrame q payload' (k * q.sendInline) x.stream.sendSeq) a') := fun hne => .inr ⟨a, hne, rfl⟩
  cases a with
  | accepted =>
    rw [hretry (by simp)] at hs
    exact hh.accepted hn hs
  | backpressure | rejected => exact hh.refused hn rfl hs
  | ctx published deadline | other published =>
    rw [hretry (by simp)] at hs
    exact hh.failing hn (hev (by simp)) (visible_append rfl) hs
  | closed | poisoned => exact hh.connFailed hn rfl hs

theorem Status.retry (h : Status q payload s₀ x) : Status q payload s₀ { x with waiting := false } := by
  have hholds : ∀ {k}, Holds q payload s₀ k x → Holds q payload s₀ k { x with waiting := false } := fun h =>
    ⟨h.lt, h.sent, h.sendSeq, h.accepted, h.order⟩
  cases h with
  | admitting hpc hret hf hlog => exact .admitting hpc hret ⟨hf.sent, hf.sendSeq, hf.touched⟩ hlog
  | fragment k hh hret _ =>
    exact .fragment k ⟨hh.pc, hholds hh.holds, hh.touched, hh.goesOn, hh.first⟩ hret (by simp)
  | failing k d hpc hret hh hv => exact .failing k d hpc hret (hholds hh) hv
  | back hpc hret hf hv hord => exact .back hpc hret ⟨hf.sent, hf.sendSeq, hf.touched⟩ hv hord
  | sent hpc hret hs hseq hacc hord => exact .sent hpc hret hs hseq hacc hord
  | broken k hpc hret hh hv hend => exact .broken k hpc hret (hholds hh) hv hend

theorem Status.waitEnds (h : Status q payload s₀ x) (hn : 0 < q.sendInline) (hw : x.waiting = true)
    (hs : x.sends q (.transmit (.ctxErr false deadline)) [.giveUp] false = some y) : Status q payload s₀ y := by
  cases h with
  | fragment k hh hret hwait => exact hh.failing hn (.inl rfl) (hh.visible (hwait hw) _) hs
  | admitting hpc | failing _ _ hpc | back hpc | sent hpc | broken _ hpc => simp [sends, Stream.senderStep, hpc] at hs

theorem Status.step {a : Act} (h : Status q payload s₀ x) (hopen : x.stream.opener = .opened)
    (hn : x.returned = none → 0 < q.sendInline) (hc : chunked q payload = true) (hs : x.step q a = some y) :
    Status q payload s₀ y := by
  cases a with
  | reserve =>
    obtain ⟨hret, hs⟩ := guard_some hs
    exact h.reserve (hn hret) hc hs
  | abandon =>
    obtain ⟨-, hs⟩ := guard_some hs
    exact h.abandon hs
  | answer a =>
    obtain ⟨hret, hs⟩ := guard_some hs
    split at hs
    · cases hs
    · next f hf => exact h.answer (hn hret.1) hf hs
  | retry =>
    obtain ⟨-, ⟨⟩⟩ := guard_some hs
    exact h.retry
  | waitEnds deadline =>
    obtain ⟨hret, hs⟩ := guard_some hs
    exact h.waitEnds (hn hret.1) hret.2 hs
  | fail =>
    obtain ⟨-, hs⟩ := guard_some hs
    exact h.fail hs
  | others room drained a =>
    simp only [TrainSend.step] at hs
    split at hs
    · cases hs
    next hne =>
    split at hs
    · cases hs
    next s' effects hstep =>
    cases hs
    exact h.keeps (sameTrain_step hstep hopen hne) (isLive_of_step hstep)
  | frame f =>
    cases hs
    exact h.keeps (sameTrain_dispatch _ _ _) isLive_of_dispatch
  | arm =>
    cases hs
    refine h.keeps (sameTrain_arm _) fun hl => ?_
    obtain ⟨⟨_, heq⟩, -⟩ := arm_frame (show x.stream.arm = (x.stream.arm.1, x.stream.arm.2) from rfl)
    rw [heq] at hl
    exact hl

theorem sends_opener {a : SendAct} (hs : x.sends q a events w = some y) : y.stream.opener = x.stream.opener := by
  obtain ⟨s', effects, hstep, rfl⟩ := sends_some hs
  obtain ⟨_, _, _, _, _, _, _, _, hends, rfl⟩ := senderStep_frame hstep
  exact (sameTrain_ends hends).opener

theorem step_opened {a : Act} (hopen : x.stream.opener = .opened) (hs : x.step q a = some y) :
    y.stream.opener = .opened ∧ (y.returned = none → x.returned = none) := by
  have hsends : ∀ {act events w}, x.returned = none → x.sends q act events w = some y →
      y.stream.opener = .opened ∧ (y.returned = none → x.returned = none) := fun hret hs =>
    ⟨(sends_opener hs).trans hopen, fun _ => hret⟩
  cases a with
  | reserve | abandon | fail =>
    obtain ⟨hret, hs⟩ := guard_some hs
    exact hsends hret hs
  | answer a =>
    obtain ⟨hret, hs⟩ := guard_some hs
    split at hs
    · cases hs
    · exact hsends hret.1 hs
  | retry =>
    obtain ⟨-, ⟨⟩⟩ := guard_some hs
    exact ⟨hopen, id⟩
  | waitEnds deadline =>
    obtain ⟨hret, hs⟩ := guard_some hs
    exact hsends hret.1 hs
  | others room drained a =>
    simp only [TrainSend.step] at hs
    split at hs
    · cases hs
    next hne =>
    split at hs
    · cases hs
    next s' effects hstep =>
    cases hs
    exact ⟨(sameTrain_step hstep hopen hne).opener.trans hopen, id⟩
  | frame f =>
    cases hs
    exact ⟨(sameTrain_dispatch _ _ _).opener.trans hopen, id⟩
  | arm =>
    cases hs
    exact ⟨(sameTrain_arm _).opener.trans hopen, id⟩

structure Inv (q : ChunkPolicy) (payload : Bytes) (s₀ : Stream) (x : TrainSend) : Prop where
  status : Status q payload s₀ x
  opened : x.stream.opener = .opened
  limit : x.returned = none → 0 < q.sendInline

theorem Inv.start (hopen : s₀.opener = .opened) (hidle : s₀.sender = .idle) (hc : chunked q payload = true) :
    Inv q payload s₀ (sendMsg q s₀ payload) := by
  unfold sendMsg
  split
  · refine ⟨.back hidle rfl ⟨rfl, rfl, rfl⟩ (by simp [visible]) trivial, hopen, by simp⟩
  · next s' effects hs =>
    obtain ⟨hcond, ⟨⟩⟩ := guard_some hs
    exact ⟨.admitting rfl rfl ⟨rfl, rfl, rfl⟩ rfl, hopen, fun _ => Nat.pos_of_ne_zero fun h0 => hcond.2.2.2.2 ⟨hc, h0⟩⟩

theorem Inv.step {a : Act} (h : Inv q payload s₀ x) (hc : chunked q payload = true) (hs : x.step q a = some y) :
    Inv q payload s₀ y := by
  obtain ⟨hopen, hret⟩ := step_opened h.opened hs
  exact ⟨h.status.step h.opened h.limit hc hs, hopen, fun hn => h.limit (hret hn)⟩

theorem reach_inv (hopen : s₀.opener = .opened) (hidle : s₀.sender = .idle) (hc : chunked q payload = true)
    (h : Reach (step q) Any (sendMsg q s₀ payload) x) : Inv q payload s₀ x :=
  h.invariant (Inv.start hopen hidle hc) fun hi _ hs => hi.step hc hs

/-- **A train fails whole.** An error while no fragment can have been published leaves the stream as the call found it; once
one may have been, nothing is given back, and the call's error finds the stream ended or the connection failing. -/
theorem train_failure {q : ChunkPolicy} {payload : Bytes} {s₀ : Stream} {x : TrainSend} (hopen : s₀.opener = .opened)
    (hidle : s₀.sender = .idle) (hc : chunked q payload = true) (h : Reach (step q) Any (sendMsg q s₀ payload) x) :
    InOrder (train q.sendInline payload (s₀.sendSeq + 1)) x.log ∧
    (x.returned = some false → ¬ visible x.log →
      x.stream.sendCredit.sent = s₀.sendCredit.sent ∧ x.stream.sendSeq = s₀.sendSeq ∧ x.touched = false) ∧
    (visible x.log → x.stream.sendCredit.sent = s₀.sendCredit.sent + 1 ∧
      x.stream.sendSeq = s₀.sendSeq + min (accepted x.log + 1) (Pieces.count q.sendInline payload.length)) ∧
    (x.returned = some false → visible x.log →
      x.stream.isLive = false ∨ ∃ f a, .offer f a ∈ x.log ∧ (a = .closed ∨ a = .poisoned)) ∧
    (x.returned = some true → accepted x.log = Pieces.count q.sendInline payload.length) := by
  have hholds : ∀ {k}, Holds q payload s₀ k x → x.stream.sendCredit.sent = s₀.sendCredit.sent + 1 ∧
      x.stream.sendSeq = s₀.sendSeq + min (accepted x.log + 1) (Pieces.count q.sendInline payload.length) := by
    intro k hh
    have hlt := hh.lt
    refine ⟨hh.sent, ?_⟩
    rw [hh.accepted, hh.sendSeq]
    omega
  have hconn : (∃ f a, .offer f a ∈ x.log ∧ a.connFailed = true) →
      ∃ f a, .offer f a ∈ x.log ∧ (a = .closed ∨ a = .poisoned) := by
    rintro ⟨f, a, hmem, ha⟩
    refine ⟨f, a, hmem, ?_⟩
    cases a <;> simp [FragmentAnswer.connFailed] at ha ⊢
  cases (reach_inv hopen hidle hc h).status with
  | admitting _ hret _ hlog => simp [hlog, hret, InOrder, visible]
  | fragment k hh hret =>
    refine ⟨hh.holds.order, by simp [hret], fun _ => hholds hh.holds, by simp [hret], by simp [hret]⟩
  | failing k _ _ hret hh => exact ⟨hh.order, by simp [hret], fun _ => hholds hh, by simp [hret], by simp [hret]⟩
  | back _ hret hf hv hord =>
    exact ⟨hord, fun _ _ => ⟨hf.sent, hf.sendSeq, hf.touched⟩, fun h => absurd h hv, fun _ h => absurd h hv, by simp [hret]⟩
  | sent _ hret hs hseq hacc hord =>
    refine ⟨hord, by simp [hret], fun _ => ⟨hs, ?_⟩, by simp [hret], fun _ => hacc⟩
    rw [hacc, hseq]
    omega
  | broken k _ hret hh hv hend =>
    exact ⟨hh.order, fun _ h => absurd hv h, fun _ => hholds hh, fun _ _ => hend.imp_right hconn, by simp [hret]⟩

end Run

def sampleStream : Stream := { newStream .client ⟨4, .bidiStreaming, []⟩ with phase := .published, opener := .opened }

def samplePolicy : ChunkPolicy := ⟨true, 16, 2, 2⟩

/-- The second of three fragments is refused for want of room, tried again, and given up. -/
def sampleActs : List Act :=
  [.reserve, .answer .accepted, .answer .backpressure, .retry, .answer .backpressure, .waitEnds false, .fail]

def sampleFailed : TrainSend :=
  (run (step samplePolicy) (sendMsg samplePolicy sampleStream [1, 2, 3, 4, 5]) sampleActs).get (by decide +kernel)

theorem train_failure_given_up : sampleFailed.returned = some false ∧ sampleFailed.stream.sendCredit.sent = 1 ∧
    sampleFailed.stream.sendSeq = 2 ∧ sampleFailed.stream.isLive = false := by
  have hret : sampleFailed.returned = some false := by decide +kernel
  have hacc : accepted sampleFailed.log = 1 := by decide +kernel
  have hreach : Reach (step samplePolicy) Any (sendMsg samplePolicy sampleStream [1, 2, 3, 4, 5]) sampleFailed :=
    Reach.of_run (Option.some_get _).symm
  obtain ⟨-, -, hkept, hend, -⟩ := train_failure rfl rfl rfl hreach
  have hv : visible sampleFailed.log := visible_of_accepted (by omega)
  obtain ⟨hsent, hseq⟩ := hkept hv
  refine ⟨hret, hsent, by rw [hseq, hacc]; rfl, (hend hret hv).resolve_right ?_⟩
  rintro ⟨f, a, hmem, ha⟩
  have hnone : ∀ ev ∈ sampleFailed.log, ∀ f, ev ≠ .offer f .closed ∧ ev ≠ .offer f .poisoned := by
    have hall : sampleFailed.log.all (fun ev => ev.goesOn || decide (ev = .giveUp)) = true := by decide +kernel
    intro ev hev f
    have := List.all_eq_true.mp hall ev hev
    constructor <;> rintro rfl <;> simp [TrainEvent.goesOn] at this
  rcases ha with rfl | rfl
  · exact (hnone _ hmem f).1 rfl
  · exact (hnone _ hmem f).2 rfl

end TrainSend

end Styx
