/-
Opening a stream, and the teardown pair it may owe.

Until its `STREAM_OPEN` is confirmed the opener alone knows whether the peer may hold
it, so an end that comes before sends nothing and leaves the pair to the opener. Here
a table of opened streams runs with what was submitted for each: the fate of the
`STREAM_OPEN`, the lifecycle lane (`Tally`), and the `STREAM_ERR`s the emitter sent.
-/
import Styx.Stream.Obligation
import Styx.Stream.Token

namespace Styx

open Machine Function

/-- What `sendStreamOpen` came to: the frame provably did not go out, or it did or may have. -/
inductive OpenFate
  | rejected
  | handed
  deriving DecidableEq

structure OpenTrace where
  tally : Tally
  fate : Option OpenFate
  /-- `STREAM_ERR`s the emitter has handed to the transport, accepted or not. -/
  errs : Nat
  /-- The winner's `STREAM_ERR` found the emitter's queue full. -/
  dropped : Bool
  deriving DecidableEq

def OpenTrace.zero : OpenTrace := ⟨.zero, none, 0, false⟩

/-- The trace after an act on the stream, from `s` to `s'`. -/
def OpenTrace.record (g : OpenTrace) (s : Stream) (room : Bool) (a : Stream.Act) (s' : Stream) : OpenTrace :=
  { g with
    tally := g.tally.record s.view s'.view (s.lifeSend a)
    fate :=
      match a with
      | .opener (.send _ _) => some (if s'.opener = .discard then .rejected else .handed)
      | _ => g.fate
    dropped :=
      match a, s.finisher with
      | .finisher .emit, .emit true _ => g.dropped || !room
      | _, _ => g.dropped }

/-- A connection's table of opened streams. -/
structure Opening where
  tbl : Table
  trace : UInt64 → OpenTrace

namespace Opening

def start : Opening := ⟨.empty, fun _ => .zero⟩

def setTrace (x : Opening) (t : Table) (id : UInt64) (g : OpenTrace) : Opening :=
  ⟨t, Function.update x.trace id g⟩

def asked (t : Table) : Stream.Act → Bool
  | .opener (.resolve tearing) => tearing = t.closed
  | _ => true

def step (cfg : TableConfig) (x : Opening) (a : Table.Act) : Option Opening :=
  match x.tbl.step cfg a with
  | none => none
  | some (t, _) =>
    match a with
    | .stream id a =>
      match x.tbl.streams id, t.streams id with
      | some s, some s' =>
        if asked x.tbl a then some (x.setTrace t id ((x.trace id).record s (x.tbl.room cfg) a s')) else none
      | _, _ => none
    | .inbound id _ =>
      match x.tbl.streams id, t.streams id with
      | some s, some s' =>
        let g := x.trace id
        some (x.setTrace t id { g with tally := g.tally.record s.view s'.view none })
      | _, _ => some { x with tbl := t }
    | .emitSend _ =>
      match x.tbl.emitter with
      | some (job, false) =>
        let g := x.trace job.callID
        some (x.setTrace t job.callID { g with errs := g.errs + 1 })
      | _ => some { x with tbl := t }
    | _ => some { x with tbl := t }

/-- A stream's jobs that the emitter still has to send. -/
def queued (t : Table) (id : UInt64) : Nat :=
  t.emitCh.countP (fun job => job.callID = id) +
    match t.emitter with
    | some (job, false) => if job.callID = id then 1 else 0
    | _ => 0

def down (t : Table) : Bool := t.closed || t.fatal

/-! ## One stream -/

/-- What each position of the opener knows of its `STREAM_OPEN`. -/
def Fated : OpenPc → Option OpenFate → Prop
  | .publish, fate | .send, fate => fate = none
  | .discard, fate => fate = some .rejected
  | .confirm, fate | .ambiguous _, fate | .resolve, fate | .opened, fate => fate = some .handed
  | .failed, _ => True

/-- The `STREAM_ERR`s queued so far: the opener's detached sender queues one or the
connection fails, the winner of a confirmed stream queues one or drops it. -/
def Emitted (v : View) (dropped down : Bool) (k : Nat) : Prop :=
  if v.pending then
    if v.owed = .finished then k = 1 ∨ k = 0 ∧ down = true else k = 0
  else
    match v.finisher with
    | .none | .claim _ _ | .cancel => k = 0
    | .emit l _ => k = 0 ∧ l = v.needed
    | _ => if v.needed then k = 1 ∨ k = 0 ∧ dropped = true else k = 0

/-- The responsibility for the teardown pair, between the winner and the opener. -/
structure Opened (v : View) (pc : OpenPc) (fate : Option OpenFate) (dropped down : Bool) (k : Nat) : Prop where
  opener : Fated pc fate
  /-- An opener that has returned from an unconfirmed `STREAM_OPEN` leaves an ended
  stream, and has taken over its teardown if the peer may hold it. -/
  returned : v.opening = false → v.pending = true →
    v.live = false ∧ (fate = some .handed → v.needed = true → v.owed ≠ .none ∨ down = true)
  confirmed : v.pending = false → fate = some .handed
  owes : v.owed ≠ .none → fate = some .handed
  silent : v.pending = true → ∀ l toAck, v.finisher ≠ .emit l toAck
  emitted : Emitted v dropped down k

section Moves

variable {v v' : View} {pc : OpenPc} {fate fate' : Option OpenFate} {dropped down down' dropped' : Bool} {k k' : Nat} {g : Tally}
  {finisher : FinishPc} {token : LifecycleToken} {owed : OwedPc}

theorem Emitted.mono (h : Emitted v dropped down k) (ho : down = true → down' = true) : Emitted v dropped down' k := by
  unfold Emitted at h ⊢
  split
  · next hp =>
    rw [if_pos hp] at h
    split
    · next hf =>
      rw [if_pos hf] at h
      exact h.imp_right fun hk => ⟨hk.1, ho hk.2⟩
    · next hf => rwa [if_neg hf] at h
  · next hp => rwa [if_neg hp] at h

section

variable (h : Opened v pc fate dropped down k)
include h

theorem Opened.mono (ho : down = true → down' = true) :
    Opened v pc fate dropped down' k :=
  ⟨h.opener, fun hr hp => ⟨(h.returned hr hp).1, fun hf hn => ((h.returned hr hp).2 hf hn).imp_right ho⟩, h.confirmed,
    h.owes, h.silent, h.emitted.mono ho⟩

theorem Opened.zero (ht : v.Tokened g) (hl : v.live = true) : k = 0 := by
  obtain ⟨-, hfin, howed, -⟩ := ht.live hl
  have he := h.emitted
  unfold Emitted at he
  rw [hfin, howed] at he
  split at he <;> exact he

theorem Opened.ends (ht : v.Tokened g) (he : View.Ends v v') : Opened v' pc fate dropped down k := by
  cases he with
  | same => exact h
  | ended code hl =>
    have hzero := h.zero ht hl
    obtain ⟨-, -, howed, -⟩ := ht.live hl
    refine ⟨h.opener, fun hr hp => ?_, h.confirmed, h.owes, fun _ _ _ => (by simp), ?_⟩
    · have := (h.returned hr hp).1
      simp [hl] at this
    · simp [Emitted, hzero, howed]

theorem Opened.wins
    (hp : v.pending = false) (he : Emitted { v with token, finisher } dropped' down k') :
    Opened { v with token, finisher } pc fate dropped' down k' :=
  ⟨h.opener, fun _ hp' => by simp [hp] at hp', h.confirmed, h.owes, fun hp' => by simp [hp] at hp', he⟩

theorem Opened.winsPending (hp : v.pending = true)
    (hne : ∀ l toAck, finisher ≠ .emit l toAck) : Opened { v with finisher } pc fate dropped down k := by
  refine ⟨h.opener, h.returned, h.confirmed, h.owes, fun _ => hne, ?_⟩
  have he := h.emitted
  unfold Emitted at he ⊢
  rw [if_pos hp] at he ⊢
  exact he

end

def passed : FinishPc → Bool
  | .settle _ | .signal | .remove | .finished => true
  | _ => false

theorem emitted_passed (hp : v.pending = false) (hf : passed v.finisher = true) :
    Emitted v dropped down k ↔ if v.needed then k = 1 ∨ k = 0 ∧ dropped = true else k = 0 := by
  unfold Emitted
  rw [if_neg (by simp [hp])]
  cases hpc : v.finisher <;> rw [hpc] at hf <;> cases hf

section

variable (h : Opened v pc fate dropped down k)
include h

theorem Opened.passes (hold : passed v.finisher = true)
    (hnew : passed finisher = true) : Opened { v with finisher } pc fate dropped down k := by
  by_cases hp : v.pending = true
  · refine h.winsPending hp ?_
    rintro l toAck rfl
    cases hnew
  · rw [Bool.not_eq_true] at hp
    exact h.wins hp ((emitted_passed (v := { v with finisher }) hp hnew).mpr ((emitted_passed hp hold).mp h.emitted))

theorem Opened.queues {l toAck deferred : Bool}
    (hpc : v.finisher = .emit l toAck) (hk : k = 0 → if l then k' = 1 ∨ k' = 0 ∧ dropped' = true else k' = 0) :
    Opened { v with finisher := .settle deferred } pc fate dropped' down k' := by
  have hp : v.pending = false := by
    cases hp : v.pending with
    | false => rfl
    | true => exact absurd hpc (h.silent hp l toAck)
  have he := h.emitted
  simp only [Emitted, hp, hpc, Bool.false_eq_true, if_false] at he
  obtain ⟨hzero, rfl⟩ := he
  exact h.wins hp ((emitted_passed (v := { v with finisher := .settle deferred }) hp rfl).mpr (hk hzero))

theorem Opened.pays (hp : v.pending = true) (hold : v.owed ≠ .none) (hnew : owed ≠ .none)
    (he : if owed = .finished then k' = 1 ∨ k' = 0 ∧ down' = true else k' = 0) :
    Opened { v with token, owed } pc fate dropped down' k' := by
  refine ⟨h.opener, fun hr hp => ⟨(h.returned hr hp).1, fun _ _ => .inl hnew⟩, h.confirmed, fun _ => h.owes hold, h.silent, ?_⟩
  unfold Emitted
  rw [if_pos hp]
  exact he

theorem Opened.unpaid (hp : v.pending = true) (hne : v.owed ≠ .finished) : k = 0 := by
  have he := h.emitted
  unfold Emitted at he
  rwa [if_pos hp, if_neg hne] at he

theorem Opened.opens (ht : v.Tokened g) (ho : v.opening = true) {pc' : OpenPc}
    {opening : Bool} (hf : Fated pc' fate') (hret : opening = false →
      v.live = false ∧ (fate' = some .handed → v.needed = true → owed ≠ .none ∨ down = true))
    (howes : owed ≠ .none → fate' = some .handed) (hfin : owed ≠ .finished) :
    Opened { v with opening, owed } pc' fate' dropped down k := by
  obtain ⟨hp, hnone⟩ := ht.opening ho
  have hzero := h.unpaid hp (by rw [hnone]; simp)
  refine ⟨hf, fun hr _ => hret hr, fun hp' => ?_, howes, h.silent, ?_⟩
  · rw [hp] at hp'
    cases hp'
  · simp [Emitted, hp, hfin, hzero]

theorem Opened.goesOn (ht : v.Tokened g) (ho : v.opening = true) (pc' : OpenPc)
    (hf : Fated pc' fate') : Opened { v with opening := true } pc' fate' dropped down k :=
  have hnone := (ht.opening ho).2
  h.opens ht ho hf (by simp) (absurd hnone) (by rw [hnone]; simp)

theorem Opened.fails (ht : v.Tokened g) (ho : v.opening = true)
    (hl : v.live = false) (hf : fate ≠ some .handed) : Opened { v with opening := false } .failed fate dropped down k :=
  have hnone := (ht.opening ho).2
  h.opens ht ho trivial (fun _ => ⟨hl, fun hh => absurd hh hf⟩) (absurd hnone) (by rw [hnone]; simp)

theorem Opened.confirms (ht : v.Tokened g) (hl : v.live = true)
    (hf : fate = some .handed) : Opened { v with opening := false, pending := false } .opened fate dropped down k := by
  obtain ⟨-, hfin, -, -⟩ := ht.live hl
  refine ⟨hf, (by simp), fun _ => hf, fun _ => hf, (by simp), ?_⟩
  simp [Emitted, hfin, h.zero ht hl]

end

end Moves

def emits (effects : List Effect) : Nat := effects.countP fun x => x matches .emit _ _

section Steps

variable {e : Env} {s s₁ s' : Stream} {effects : List Effect} {g g' : OpenTrace} {down down' : Bool} {k : Nat}
  {a : Stream.OpenAct}

structure OpenOk (s : Stream) (g : OpenTrace) (down : Bool) (k : Nat) : Prop where
  client : s.side = .client
  handler : s.handlerErrStatus = none
  fresh : s.opener = .publish → s.phase ≠ .published
  done : s.done = true → s.isLive = false
  token : s.view.Tokened g.tally
  opened : Opened s.view s.opener g.fate g.dropped down k

theorem OpenOk.mono (h : OpenOk s g down k) (ho : down = true → down' = true) : OpenOk s g down' k :=
  ⟨h.client, h.handler, h.fresh, h.done, h.token, h.opened.mono ho⟩

theorem emits_zero (h : ∀ x ∈ effects, ∀ status keep, x ≠ .emit status keep) : emits effects = 0 := by
  unfold emits
  rw [List.countP_eq_zero]
  intro x hx
  cases x with
  | emit status keep => exact absurd rfl (h _ hx status keep)
  | _ => simp

theorem emits_arm (h : ∀ x ∈ effects, x = .appendArm) : emits effects = 0 :=
  emits_zero fun x hx status keep => by simp [h x hx]

theorem terminate_handler {code : StreamOutcomeCode} {teardownCode : UInt32} {l : Bool} :
    (s.terminate code teardownCode l).handlerErrStatus = s.handlerErrStatus := by
  unfold Stream.terminate
  split <;> rfl

theorem mapCtx_handler {deadline : Bool} : (s.mapCtxToTerminal deadline).handlerErrStatus = s.handlerErrStatus := by
  unfold Stream.mapCtxToTerminal
  split <;> exact terminate_handler

theorem senderStep_quiet {a : Stream.SendAct} (hs : s.senderStep e a = some (s', effects)) :
    s'.handlerErrStatus = s.handlerErrStatus ∧ emits effects = 0 := by
  cases Stream.senderStep_move hs with
  | fail => exact ⟨mapCtx_handler, rfl⟩
  | complete =>
    refine ⟨?_, rfl⟩
    dsimp only
    split
    · exact terminate_handler
    · rfl
  | _ => exact ⟨rfl, rfl⟩

theorem ackStep_emits {a : Stream.AckAct} (hs : s.ackStep a = some (s', effects)) : emits effects = 0 := by
  refine emits_zero fun x hx status keep heq => ?_
  subst heq
  cases Stream.ackStep_move hs with
  | @cancel ok => cases ok <;> simp [Stream.teardownCancel] at hx
  | release _ _ heff | reArm _ heff => cases heff _ hx
  | _ => simp at hx

theorem OpenOk.apart (h : OpenOk s g down k) (he : Stream.Ends s s₁) (hside : s'.side = s.side)
    (hst : s'.handlerErrStatus = s.handlerErrStatus) (hopen : s'.opener = s.opener) (hph : s'.phase = s₁.phase)
    (hdone : s'.done = s.done) (hv : s'.view = { s₁.view with token := s'.token, acker := s'.acker })
    (htok : s'.view.Tokened g'.tally) (hfate : g'.fate = g.fate) (hdrop : g'.dropped = g.dropped) :
    OpenOk s' g' down k := by
  have ho := h.opened.ends h.token (Stream.ends_view he)
  refine ⟨hside.trans h.client, hst.trans h.handler, fun hpc hpub => ?_, fun hd => ?_, htok, ?_⟩
  · cases he with
    | same => exact h.fresh (hopen ▸ hpc) (hph ▸ hpub)
    | ended => cases hph.symm.trans hpub
  · have hl := h.done (hdone ▸ hd)
    unfold Stream.isLive at hl ⊢
    rw [hph, he.eq_of_ended hl]
    exact hl
  · rw [hv, hopen, hfate, hdrop]
    exact ⟨ho.opener, ho.returned, ho.confirmed, ho.owes, ho.silent, ho.emitted⟩

theorem Opened.unqueued {v : View} {pc : OpenPc} {fate : Option OpenFate} {dropped : Bool}
    (h : Opened v pc fate dropped down k) (hp : v.pending = false) (hc : v.finisher.claimant ≠ .past) : k = 0 := by
  have he := h.emitted
  simp only [Emitted, hp, Bool.false_eq_true, if_false] at he
  cases hf : v.finisher <;> rw [hf] at he hc
  case none | claim | cancel => exact he
  all_goals exact absurd rfl hc

theorem finishStep_ended {a : Stream.FinishAct} (hs : s.finishStep e a = some (s', effects)) :
    s.finisher ≠ .none ∨ s.owed ≠ .none := by
  cases Stream.finishStep_move hs with
  | owedClaim hpc | owedCancel hpc | owedEmit hpc => exact .inr (by simp [hpc])
  | presend hpc | claim hpc | cancel hpc | emit hpc | emitStatus hpc | emitNone hpc | settle hpc | signal hpc | remove hpc =>
    exact .inl (by simp [hpc])

theorem finishStep_opened {a : Stream.FinishAct} (h : OpenOk s g down k) (hs : s.finishStep e a = some (s', effects))
    (ho : down = true → down' = true) (hfail : Effect.failConn ∈ effects → down' = true) :
    Opened s'.view s.opener g.fate (g.record s e.room (.finisher a) s').dropped down' (k + emits effects) := by
  have hop := h.opened.mono ho
  have hpast : ∀ {finisher : FinishPc}, passed s.finisher = true → passed finisher = true →
      Opened { s.view with finisher } s.opener g.fate g.dropped down' k := hop.passes
  -- The opener's detached sender, still to queue the frame.
  have howed : ∀ {pc : OwedPc}, s.owed = pc → pc ≠ .none ∧ pc ≠ .finished →
      s.view.pending = true ∧ s.view.owed ≠ .none ∧ k = 0 := by
    rintro pc hpc ⟨hne, hfin⟩
    have hne : s.view.owed ≠ .none := by simpa [Stream.view, hpc] using hne
    have hp := h.token.pending_of_owed hne
    exact ⟨hp, hne, hop.unpaid hp (by simpa [Stream.view, hpc] using hfin)⟩
  cases Stream.finishStep_move hs with
  | presend hpc =>
    obtain ⟨-, hpend⟩ := h.token.finisher _ _ hpc
    exact hop.winsPending hpend.symm (by simp)
  | @claim l submitNow _ hpc =>
    obtain ⟨hl, hpend⟩ := h.token.finisher _ _ hpc
    have hp : s.view.pending = false := hpend.symm
    have hzero := hop.unqueued hp (by rw [show s.view.finisher = _ from hpc]; simp [FinishPc.claimant])
    refine hop.wins hp ?_
    cases submitNow with
    | true => simpa [Emitted, hp, emits] using hzero
    | false => simpa [Emitted, hp, emits] using ⟨hzero, hl⟩
  | @cancel ok hpc =>
    have hp : s.view.pending = false := by
      cases hp : s.view.pending with
      | false => rfl
      | true =>
        have hother := h.token.other
        rw [if_pos hp] at hother
        exact absurd hpc hother
    have hneed : s.view.needed = true := by
      have hst := h.token.stage
      simp only [View.claimant, hp, show s.view.finisher = .cancel from hpc, Bool.false_eq_true, if_false] at hst
      exact hst.needed_of_cancelling
    have hzero := hop.unqueued hp (by rw [show s.view.finisher = _ from hpc]; simp [FinishPc.claimant])
    have hem : emits (s.teardownCancel ok) = 0 := by cases ok <;> rfl
    rw [hem]
    refine hop.wins hp ?_
    simpa [Emitted, hp] using ⟨hzero, hneed⟩
  | emit hpc =>
    refine hop.queues hpc fun hzero => ?_
    rw [if_pos rfl, hzero]
    cases hroom : e.room with
    | true => exact .inl rfl
    | false => exact .inr ⟨rfl, by simp [OpenTrace.record, hpc]⟩
  | emitStatus _ hst => cases h.handler.symm.trans hst
  | emitNone hpc =>
    refine hop.queues hpc fun hzero => ?_
    rw [if_neg Bool.false_ne_true, hzero]
    rfl
  | @settle deferred hpc =>
    have hem : emits (if deferred = true then [] else [.closeObligation]) = 0 := by cases deferred <;> rfl
    rw [hem]
    exact hpast (by rw [hpc]; rfl) rfl
  | signal hpc | remove hpc => exact hpast (by rw [hpc]; rfl) rfl
  | @owedClaim submitNow _ hpc =>
    obtain ⟨hp, hne, hzero⟩ := howed hpc (by simp)
    refine hop.pays hp hne ?_ ?_ <;> cases submitNow <;> simp [hzero, emits]
  | @owedCancel ok hpc =>
    obtain ⟨hp, hne, hzero⟩ := howed hpc (by simp)
    have hem : emits (s.teardownCancel ok) = 0 := by cases ok <;> rfl
    rw [hem]
    exact hop.pays hp hne (by simp) hzero
  | owedEmit hpc =>
    obtain ⟨hp, hne, hzero⟩ := howed hpc (by simp)
    refine hop.pays hp hne (by simp) ?_
    rw [if_pos rfl, hzero]
    cases hroom : e.room with
    | true => exact .inl rfl
    | false => exact .inr ⟨rfl, hfail (by simp [hroom])⟩

theorem ends_opening (he : Stream.Ends s s₁) : s₁.view.opening = s.view.opening := by
  obtain ⟨_, _, _, _, _, heq⟩ := he.frame
  rw [heq]
  rfl

theorem openerStep_opened (h : OpenOk s g down k) (hs : s.openerStep a = some (s', effects))
    (htear : a = .resolve true → down = true) :
    Opened s'.view s'.opener (g.record s e.room (.opener a) s').fate g.dropped down k := by
  have hop := h.opened
  have hfate : ∀ {pc}, s.opener = pc → Fated pc g.fate := fun hpc => hpc ▸ hop.opener
  have ho : ∀ {pc}, s.opener = pc → pc ≠ .opened ∧ pc ≠ .failed → s.view.opening = true := by
    rintro _ rfl hne
    simp [Stream.view, hne]
  cases Stream.openerStep_move hs with
  | publish hpc hph =>
    have hv : Stream.view { s with phase := .published, opener := .send } = { s.view with opening := true } := by
      simp [Stream.view, Stream.isLive, hph]
    rw [hv]
    exact hop.goesOn h.token (ho hpc (by simp)) .send (hfate hpc :)
  | late hpc hph =>
    have hf : g.fate = none := hfate hpc
    have hl : s.view.live = false := by
      have := h.fresh hpc
      unfold Stream.view Stream.isLive
      cases hphase : s.phase <;> simp_all
    exact hop.fails h.token (ho hpc (by simp)) hl (by rw [hf]; simp)
  | sent hpc => exact hop.goesOn h.token (ho hpc (by simp)) .confirm rfl
  | @sentCtx deadline _ hpc | @unknown deadline hpc =>
    exact hop.goesOn h.token (ho hpc (by simp)) (.ambiguous deadline) rfl
  | unsent hpc ha =>
    have ho := ho hpc (by simp)
    rcases ha with ⟨backpressure, rfl⟩ | rfl | ⟨⟨deadline, rfl⟩, rfl⟩ <;> exact hop.goesOn h.token ho .discard rfl
  | confirm hpc hph => exact hop.confirms h.token (by simp [Stream.view, Stream.isLive, hph]) (hfate hpc)
  | ended hpc => exact hop.goesOn h.token (ho hpc (by simp)) .resolve (hfate hpc :)
  | @ambiguous deadline hpc =>
    have he := Stream.ends_mapCtx (s := s) deadline
    have ho := (ends_opening he).trans (ho hpc (by simp))
    exact (hop.ends h.token (Stream.ends_view he)).goesOn (h.token.ends (Stream.ends_view he)) ho .resolve (hfate hpc :)
  | discard hpc =>
    have hf : g.fate = some .rejected := hfate hpc
    have he := Stream.ends_terminate (s := s) .crashed (by simp)
    have ho := (ends_opening he).trans (ho hpc (by simp))
    exact (hop.ends h.token (Stream.ends_view he)).fails (h.token.ends (Stream.ends_view he)) ho Stream.terminate_isLive
      (by rw [hf]; simp)
  | @resolve tearing hpc hdone =>
    have ho := ho hpc (by simp)
    have hf : g.fate = some .handed := hfate hpc
    have hnone : s.owed = .none := (h.token.opening ho).2
    have hret : s.view.live = false ∧ (g.fate = some .handed → s.view.needed = true →
        (if s.teardownCode = 0 ∨ tearing then s.owed else .claim) ≠ .none ∨ down = true) := by
      refine ⟨h.done hdone, fun _ hneed => ?_⟩
      have hcode : s.teardownCode ≠ 0 := by simpa [View.needed, Stream.view] using hneed
      cases tearing with
      | true => exact .inr (htear rfl)
      | false => simp [hcode]
    have hfin : (if s.teardownCode = 0 ∨ tearing then s.owed else .claim) ≠ .finished := by
      rw [hnone]
      split <;> simp
    by_cases hcomp : s.phase = .term .completed
    · exact hop.opens h.token ho (by simpa [Fated, hcomp, OpenTrace.record] using hf) (fun _ => hret) (fun _ => hf) hfin
    · exact hop.opens h.token ho (by simp [Fated, hcomp]) (fun _ => hret) (fun _ => hf) hfin

theorem openerStep_handler (hs : s.openerStep a = some (s', effects)) :
    s'.handlerErrStatus = s.handlerErrStatus := by
  cases Stream.openerStep_move hs with
  | ambiguous => exact mapCtx_handler
  | discard => exact terminate_handler
  | _ => rfl

theorem OpenOk.open (h : OpenOk s g down k) (hs : s.openerStep a = some (s', effects))
    (htear : a = .resolve true → down = true) (htok : s'.view.Tokened (g.record s e.room (.opener a) s').tally) :
    OpenOk s' (g.record s e.room (.opener a) s') down k := by
  refine ⟨?_, (openerStep_handler hs).trans h.handler, fun hpc => absurd hpc (Stream.openerStep_effects hs).2.1, ?_, htok,
    openerStep_opened h hs htear⟩
  all_goals
    obtain ⟨s₁, phase, _, _, _, _, he, hph, -, heq⟩ := Stream.openerStep_frame hs
  · obtain ⟨_, _, _, _, _, heq₁⟩ := he.frame
    rw [heq, heq₁]
    exact h.client
  · intro hd
    obtain ⟨_, _, _, _, _, heq₁⟩ := he.frame
    have hl : s.isLive = false := h.done (by rw [heq, heq₁] at hd; exact hd)
    rw [he.eq_of_ended hl] at hph
    rw [heq]
    rcases hph with rfl | ⟨hsub, -⟩
    · exact hl
    · simp [Stream.isLive, hsub] at hl

/-- **One act on the stream keeps the responsibility.** -/
theorem OpenOk.step {a : Stream.Act} (h : OpenOk s g down k) (hs : s.step e a = some (s', effects))
    (ho : down = true → down' = true) (hfail : Effect.failConn ∈ effects → down' = true)
    (htear : a = .opener (.resolve true) → down = true) :
    OpenOk s' (g.record s e.room a s') down' (k + emits effects) := by
  have htok : s'.view.Tokened (g.record s e.room a s').tally := Stream.step_tokens h.token hs
  cases a with
  | opener a =>
    have hem : emits effects = 0 := by
      rcases (Stream.openerStep_effects hs).1 with rfl | ⟨-, rfl⟩ <;> rfl
    rw [hem]
    exact (h.open hs (fun ha => htear (by rw [ha])) htok).mono ho
  | sender a =>
    obtain ⟨hst, hem⟩ := senderStep_quiet hs
    obtain ⟨s₁, _, _, _, _, _, _, _, he, heq⟩ := Stream.senderStep_frame hs
    obtain ⟨_, _, _, _, _, heq₁⟩ := he.frame
    rw [hem]
    refine (h.apart he ?_ hst ?_ (by rw [heq]) ?_ (by rw [heq]; rfl) htok rfl rfl).mono ho <;>
      rw [heq, heq₁]
  | receiver a =>
    obtain ⟨⟨_, _, _, _, _, _, _, heq⟩, harm⟩ := Stream.receiverStep_frame hs
    rw [emits_arm harm]
    refine (h.apart .same ?_ ?_ ?_ ?_ ?_ (by rw [heq]; rfl) htok rfl rfl).mono ho <;> rw [heq]
  | acker a =>
    obtain ⟨token, _, acker, _, _, _, heq⟩ := Stream.ackStep_frame hs
    rw [ackStep_emits hs]
    refine (h.apart .same ?_ ?_ ?_ ?_ ?_ (by rw [heq]; rfl) htok rfl rfl).mono ho <;> rw [heq]
  | finisher a =>
    have hop := finishStep_opened h hs ho hfail
    have hl : s.isLive = false := h.token.dead (finishStep_ended hs)
    obtain ⟨_, _, _, _, heq⟩ := Stream.finishStep_frame hs
    have hopen : s'.opener = s.opener := by rw [heq]
    refine ⟨?_, ?_, ?_, fun _ => ?_, htok, hopen ▸ hop⟩
    · rw [heq]
      exact h.client
    · rw [heq]
      exact h.handler
    · rw [heq]
      exact h.fresh
    · rw [heq]
      exact hl
  | ending a =>
    obtain ⟨he, rfl⟩ := Stream.endStep_ends hs
    obtain ⟨_, _, _, _, _, heq₁⟩ := he.frame
    have hst : s'.handlerErrStatus = s.handlerErrStatus := by
      cases a with
      | ctx deadline =>
        obtain ⟨-, ⟨⟩⟩ := guard_some hs
        exact mapCtx_handler
      | handlerError status =>
        simp [Stream.step, Stream.endStep, h.client] at hs
      | failAll =>
        cases hs
        exact terminate_handler
    refine (h.apart he ?_ hst ?_ rfl ?_ rfl htok rfl rfl).mono ho <;> rw [heq₁]

theorem OpenOk.dispatch (h : OpenOk s g down k) (p : ChunkPolicy) (f : StreamFrame) :
    OpenOk (s.dispatch p f).1 { g with tally := g.tally.record s.view (s.dispatch p f).1.view none } down k := by
  obtain ⟨expectedSeq, recvAccum, recvCh, closeRemote, recvClosed, acked, -, he⟩ := Stream.dispatch_frame s p f
  obtain ⟨_, _, _, _, _, heq⟩ := he.frame
  have h' : OpenOk { s with
      expectedSeq, recvAccum, recvCh, closeRemote, recvClosed, sendCredit := { s.sendCredit with acked } } g down k :=
    ⟨h.client, h.handler, h.fresh, h.done, h.token, h.opened⟩
  refine h'.apart he ?_ Stream.dispatch_handlerErrStatus ?_ rfl ?_ rfl (Stream.dispatch_tokens h.token f) rfl rfl <;> rw [heq]

theorem OpenOk.arm (h : OpenOk s g down k) : OpenOk s.arm.1 g down k := by
  unfold Stream.arm
  split
  · exact h
  · exact ⟨h.client, h.handler, h.fresh, h.done, h.token, h.opened⟩

theorem openOk_new (cfg : StreamConfig) (down : Bool) : OpenOk (newStream .client cfg) .zero down 0 := by
  refine ⟨rfl, rfl, fun _ => nofun, nofun, Stream.tokened_new .client cfg, rfl, nofun, nofun, absurd rfl, nofun, rfl⟩

end Steps

/-! ## The table -/

variable {cfg : TableConfig} {x y : Opening} {t t' : Table} {id : UInt64} {effects : List Effect} {out : List Sent}
  {s s' : Stream} {g : OpenTrace} {k : Nat} {presend : Bool}

structure Inv (x : Opening) : Prop where
  ok : ∀ id s, x.tbl.streams id = some s →
    OpenOk s (x.trace id) (down x.tbl) (queued x.tbl id + (x.trace id).errs)
  new : ∀ id, x.tbl.streams id = none → queued x.tbl id = 0 ∧ x.trace id = .zero
  used : ∀ id s, x.tbl.streams id = some s → id ∈ x.tbl.used

theorem down_wrote (h : Table.Wrote t id t' out s s' effects) :
    (down t = true → down t' = true) ∧ (Effect.failConn ∈ effects → down t' = true) := by
  unfold down
  rw [h.closed]
  cases hc : t.closed with
  | true => simp
  | false =>
    cases hf : t'.fatal with
    | true => simp
    | false =>
      obtain ⟨hfatal, hfail⟩ := h.fatal hc hf
      simp [hfatal, hfail]

theorem countP_jobs (id id' : UInt64) (effects : List Effect) :
    (effects.filterMap (Table.jobOf id)).countP (fun job => job.callID = id') =
      if id = id' then emits effects else 0 := by
  induction effects with
  | nil => simp [emits]
  | cons x xs ih =>
    unfold emits at ih ⊢
    cases x with
    | emit status keep =>
      simp only [List.filterMap_cons, Table.jobOf, List.countP_cons, ih]
      split <;> simp_all
    | _ => simpa [List.filterMap_cons, Table.jobOf] using ih

theorem queued_wrote (h : Table.Wrote t id t' out s s' effects)
    (id' : UInt64) : queued t' id' = queued t id' + if id = id' then emits effects else 0 := by
  unfold queued
  rw [h.emitter, h.emitCh, List.countP_append, countP_jobs]
  omega

theorem Inv.moved (h : x.Inv) (s' : Stream)
    (hst : t'.streams = update x.tbl.streams id (some s')) (hused : insert id x.tbl.used ⊆ t'.used)
    (hq : ∀ id', id' ≠ id → queued t' id' = queued x.tbl id') (ho : down x.tbl = true → down t' = true)
    (hok : OpenOk s' g (down t') (queued t' id + g.errs)) : (x.setTrace t' id g).Inv := by
  refine ⟨fun id' s hs => ?_, fun id' hs => ?_, fun id' s hs => ?_⟩
  · simp only [setTrace]
    rcases update_eq_some (hst ▸ hs) with ⟨rfl, rfl⟩ | ⟨hid, hs⟩
    · rw [update_self]
      exact hok
    · rw [update_of_ne hid, hq id' hid]
      exact (h.ok id' s hs).mono ho
  · simp only [setTrace, hst] at hs ⊢
    by_cases hid : id' = id
    · subst hid
      simp at hs
    · rw [update_of_ne hid] at hs ⊢
      rw [hq id' hid]
      exact h.new id' hs
  · rcases update_eq_some (hst ▸ hs) with ⟨rfl, -⟩ | ⟨-, hs⟩
    · exact hused (Finset.mem_insert_self _ _)
    · exact hused (Finset.mem_insert_of_mem (h.used id' s hs))

theorem Inv.kept (h : x.Inv) (hst : t'.streams = x.tbl.streams) (hused : t'.used = x.tbl.used)
    (hq : ∀ id, queued t' id = queued x.tbl id) (ho : down x.tbl = true → down t' = true) :
    Inv { x with tbl := t' } := by
  refine ⟨fun id s hs => ?_, fun id hs => ?_, fun id s hs => ?_⟩
  · rw [hst] at hs
    rw [hq]
    exact (h.ok id s hs).mono ho
  · rw [hst] at hs
    rw [hq]
    exact h.new id hs
  · rw [hst] at hs
    rw [hused]
    exact h.used id s hs

theorem Inv.wrote (h : x.Inv) (hw : Table.Wrote x.tbl id t' out s s' effects) (hg : g.errs = (x.trace id).errs)
    (hok : OpenOk s (x.trace id) (down x.tbl) (queued x.tbl id + (x.trace id).errs) →
      OpenOk s' g (down t') (queued x.tbl id + (x.trace id).errs + emits effects)) : (x.setTrace t' id g).Inv := by
  have hst := hw.stream
  refine h.moved s' hw.streams ?_ (fun id' hne => ?_) (down_wrote hw).1 ?_
  · rw [hw.used]
    exact Finset.insert_subset (h.used _ s hst) (Finset.Subset.refl _)
  · rw [queued_wrote hw, if_neg hne.symm, Nat.add_zero]
  · have hnum : queued x.tbl id + (x.trace id).errs + emits effects = queued t' id + g.errs := by
      rw [queued_wrote hw, if_pos rfl, hg]
      omega
    rw [← hnum]
    exact hok (h.ok id s hst)

theorem setTrace_self (x : Opening) (t : Table) (id : UInt64) : x.setTrace t id (x.trace id) = { x with tbl := t } := by
  simp [setTrace]

theorem Inv.step {a : Table.Act} (hc : cfg.side = .client) (h : x.Inv) (hs : x.step cfg a = some y) : y.Inv := by
  simp only [Opening.step] at hs
  split at hs
  · cases hs
  next t out hstep =>
  cases a with
  | openClient id scfg budget =>
    cases hs
    obtain ⟨hnew, ⟨⟩⟩ := guard_some hstep
    have hnone : x.tbl.streams id = none := by
      cases hid : x.tbl.streams id with
      | none => rfl
      | some s => exact absurd (h.used id s hid) hnew.2.1
    obtain ⟨hq, hz⟩ := h.new id hnone
    rw [← setTrace_self x _ id]
    refine h.moved _ rfl (Finset.Subset.refl _) (fun _ _ => rfl) (fun ho => ho) ?_
    rw [hz]
    have hnum : queued (x.tbl.admitStream cfg id (newStream .client { scfg with credits := Table.proposed scfg.credits })) id +
        OpenTrace.zero.errs = 0 := hq
    rw [hnum]
    exact openOk_new _ _
  | onStreamOpen id reg control budget payload => simp [Table.step, hc] at hstep
  | inbound id f =>
    cases hstep
    rcases Table.dispatch_cases cfg x.tbl id f with heq | ⟨s, -, hst, heq⟩
    · rw [heq] at hs
      have hkept : Inv { x with tbl := { x.tbl with drained := false } } := h.kept rfl rfl (fun _ => rfl) fun ho => ho
      cases hst : x.tbl.streams id with
      | none =>
        simp only [hst] at hs
        cases hs
        exact hkept
      | some s =>
        simp only [hst] at hs
        cases hs
        rw [View.record_same rfl, setTrace_self]
        exact hkept
    · rw [heq] at hs
      simp only [hst, Table.setStream, update_self] at hs
      cases hs
      refine h.moved _ rfl ?_ (fun _ _ => rfl) (fun ho => ho) ((h.ok id s hst).dispatch cfg.policy f)
      exact Finset.insert_subset (h.used id s hst) (Finset.Subset.refl _)
  | stream id a =>
    simp only [Table.step] at hstep
    obtain ⟨s, s', effects, -, hstream, hw⟩ := Table.streamStep_some hstep
    have hst' : t.streams id = some s' := by rw [hw.streams, update_self]
    simp only [hw.stream, hst'] at hs
    split at hs
    · next hask =>
      cases hs
      refine h.wrote hw rfl fun hok => hok.step hstream (down_wrote hw).1 (down_wrote hw).2 ?_
      rintro rfl
      have hclosed : x.tbl.closed = true := by simpa [asked] using hask
      simp [down, hclosed]
    · cases hs
  | readerDrained =>
    cases hstep
    cases hs
    exact h.kept rfl rfl (fun _ => rfl) id
  | sweep id =>
    cases hs
    obtain ⟨s, -, hw⟩ := Table.sweepStep_some hstep
    rw [← setTrace_self x _ id]
    have hem : emits s.arm.2 = 0 := by
      unfold Stream.arm
      split <;> rfl
    refine h.wrote hw rfl fun hok => ?_
    rw [hem]
    exact hok.arm.mono (down_wrote hw).1
  | markClosing =>
    cases hstep
    cases hs
    exact h.kept rfl rfl (fun _ => rfl) fun _ => rfl
  | emitTake =>
    cases hs
    simp only [Table.step, Table.emitTake] at hstep
    split at hstep
    · next job rest hch hem =>
      cases hstep
      refine h.kept rfl rfl (fun id => ?_) id
      simp only [queued, hch, hem, List.countP_cons, decide_eq_true_eq]
      omega
    · cases hstep
  | emitSend ok =>
    simp only [Table.step, Table.emitSend] at hstep
    split at hstep
    · next job hem =>
      cases hstep
      simp only [hem] at hs
      cases hs
      have hsent : ∀ id, queued x.tbl id =
          queued { x.tbl with emitter := some (job, true) } id + if job.callID = id then 1 else 0 := by
        intro id
        simp only [queued, hem]
        omega
      cases hst : x.tbl.streams job.callID with
      | none =>
        have := (h.new _ hst).1
        rw [hsent, if_pos rfl] at this
        omega
      | some s =>
        refine h.moved s ?_ ?_ (fun id' hne => ?_) id ?_
        · exact (update_eq_self_iff.mpr hst.symm).symm
        · exact Finset.insert_subset (h.used _ s hst) (Finset.Subset.refl _)
        · rw [hsent, if_neg hne.symm, Nat.add_zero]
        · have hok := h.ok _ s hst
          rw [hsent, if_pos rfl] at hok
          have hok' : OpenOk s { x.trace job.callID with errs := (x.trace job.callID).errs + 1 } (down x.tbl)
              (queued { x.tbl with emitter := some (job, true) } job.callID + 1 + (x.trace job.callID).errs) :=
            ⟨hok.client, hok.handler, hok.fresh, hok.done, hok.token, hok.opened⟩
          rw [Nat.add_right_comm] at hok'
          exact hok'
    · cases hstep
  | emitSettle =>
    cases hs
    simp only [Table.step, Table.emitSettle] at hstep
    split at hstep
    · next job hem =>
      cases hstep
      have hq : ∀ id, queued { x.tbl with emitter := none } id = queued x.tbl id := fun id => by simp [queued, hem]
      split
      · exact h.kept rfl rfl hq id
      · exact h.kept rfl rfl hq id
    · cases hstep

theorem inv_start : start.Inv :=
  ⟨fun _ _ hs => (by simp [start, Table.empty] at hs), fun _ _ => ⟨rfl, rfl⟩, fun _ _ hs => (by simp [start, Table.empty] at hs)⟩

theorem inv_reach (hc : cfg.side = .client) (h : Reach (step cfg) Any start x) : x.Inv :=
  h.invariant inv_start fun hx _ hs => hx.step hc hs

/-! ## What a peer is sent of a stream it may never have seen -/

/-- The opener has returned, and everyone who had a part in the end is done with it. -/
def Settled (t : Table) (id : UInt64) (s : Stream) : Prop :=
  s.view.opening = false ∧ s.finisher = .finished ∧ (s.owed = .none ∨ s.owed = .finished) ∧ s.acker = .idle ∧ queued t id = 0

instance (t : Table) (id : UInt64) (s : Stream) : Decidable (Settled t id s) :=
  inferInstanceAs (Decidable (_ ∧ _ ∧ _ ∧ _ ∧ _))

/-- The submissions of one opened stream, against what became of its `STREAM_OPEN` and
of itself. -/
structure TornDown (t : Table) (id : UInt64) (s : Stream) (g : OpenTrace) : Prop where
  ordered : 0 < g.tally.cancels ∨ 0 < g.errs → g.fate = some .handed
  atMost : g.tally.cancels ≤ 1 ∧ g.errs ≤ 1
  observed : ∀ presend, g.tally.won = some (false, presend) → g.tally.cancels = 0 ∧ g.errs = 0
  pair : ∀ presend, g.fate = some .handed → g.tally.won = some (true, presend) → Settled t id s → down t = false →
    g.tally.cancels = 1 ∧ (g.errs = 1 ∨ g.errs = 0 ∧ presend = false ∧ g.dropped = true)

theorem Opened.le_one {v : View} {pc : OpenPc} {fate : Option OpenFate} {dropped down : Bool}
    (h : Opened v pc fate dropped down k) : k ≤ 1 := by
  have he := h.emitted
  unfold Emitted at he
  repeat' split at he
  all_goals omega

theorem OpenOk.ordered {down : Bool} (h : OpenOk s g down k) (hne : 0 < g.tally.cancels ∨ 0 < k) : g.fate = some .handed := by
  cases hp : s.view.pending with
  | false => exact h.opened.confirmed hp
  | true =>
    -- What is sent for an unconfirmed stream, the opener's detached sender sends.
    refine h.opened.owes fun hnone => ?_
    have hst := h.token.stage
    simp only [View.claimant, hp, hnone, if_true] at hst
    have hcancels := hst.unclaimed rfl
    have hk := h.opened.unpaid hp (by rw [hnone]; simp)
    omega

theorem OpenOk.observed {down : Bool} (h : OpenOk s g down k)
    (hw : g.tally.won = some (false, presend)) : g.tally.cancels = 0 ∧ k = 0 := by
  have hl : s.view.live = false := by
    cases hl : s.view.live with
    | false => rfl
    | true => cases (h.token.live hl).2.2.2.symm.trans hw
  have hneed : s.view.needed = false := by
    have := (h.token.ended hl).1.symm.trans hw
    simpa using congrArg (Option.map Prod.fst) this
  constructor
  · by_contra hne
    have := h.token.stage.needed_of_sent hne
    rw [hneed] at this
    cases this
  · cases hp : s.view.pending with
    | true =>
      refine h.opened.unpaid hp fun hfin => ?_
      have := (h.token.owed (by rw [hfin]; simp)).2
      rw [hneed] at this
      cases this
    | false =>
      have he := h.opened.emitted
      simp only [Emitted, hp, hneed, Bool.false_eq_true, if_false] at he
      split at he
      all_goals first | exact he | exact he.1

theorem OpenOk.pair (h : OpenOk s g false k)
    (hf : g.fate = some .handed) (hw : g.tally.won = some (true, presend)) (hopen : s.view.opening = false)
    (hfin : s.finisher = .finished) (howed : s.owed = .none ∨ s.owed = .finished) (hack : s.acker = .idle) :
    g.tally.cancels = 1 ∧ (k = 1 ∨ k = 0 ∧ presend = false ∧ g.dropped = true) := by
  have hl : s.view.live = false := h.token.dead (.inl (by rw [show s.view.finisher = _ from hfin]; simp))
  obtain ⟨hneed, hpend⟩ : s.view.needed = true ∧ s.view.pending = presend := by
    simpa using (h.token.ended hl).1.symm.trans hw
  have hst := h.token.stage
  rw [show s.view.acker = .idle from hack] at hst
  subst hpend
  cases hp : s.view.pending with
  | true =>
    have howed : s.view.owed = .finished := by
      rcases (h.opened.returned hopen hp).2 hf hneed with hne | hdown
      · exact howed.resolve_left hne
      · cases hdown
    simp only [View.claimant, hp, howed, if_true] at hst
    have he := h.opened.emitted
    simp only [Emitted, hp, howed, if_true] at he
    exact ⟨hst.settled hneed, .inl (he.resolve_right (by simp))⟩
  | false =>
    simp only [View.claimant, hp, show s.view.finisher = _ from hfin, Bool.false_eq_true, if_false] at hst
    have he := (emitted_passed hp (by rw [show s.view.finisher = _ from hfin]; rfl)).mp h.opened.emitted
    rw [if_pos hneed] at he
    exact ⟨hst.settled hneed, he.imp_right fun hk => ⟨hk.1, rfl, hk.2⟩⟩

/-- **The teardown pair waits for the `STREAM_OPEN`, and then goes out once.** -/
theorem tornDown_reach (hc : cfg.side = .client) (h : Reach (step cfg) Any start x) {s : Stream}
    (hs : x.tbl.streams id = some s) : TornDown x.tbl id s (x.trace id) := by
  have hok := (inv_reach hc h).ok id s hs
  have hle := hok.opened.le_one
  refine ⟨fun hne => hok.ordered (hne.imp_right fun hpos => by omega), ⟨hok.token.stage.le_one, by omega⟩, fun presend hw => ?_,
    fun presend hf hw hset hdown => ?_⟩
  · obtain ⟨hcancels, hk⟩ := hok.observed hw
    exact ⟨hcancels, by omega⟩
  · obtain ⟨hopen, hfin, howed, hack, hq⟩ := hset
    rw [hq, hdown, Nat.zero_add] at hok
    exact hok.pair hf hw hopen hfin howed hack

def sampleConfig : TableConfig := ⟨.client, 1, ⟨false, 64, 16, 16⟩⟩

def opens (id : UInt64) : Table.Act := .openClient id ⟨1, .bidiStreaming, []⟩ 1

def winner (id : UInt64) (acts : List Stream.FinishAct) : List Table.Act := acts.map fun a => .stream id (.finisher a)

/-- The transport cannot tell whether it accepted the `STREAM_OPEN`. -/
def ambiguousActs : List Table.Act :=
  [opens 1, .stream 1 (.opener .publish), .stream 1 (.opener (.send (.ctxErr false true) true)), .stream 1 (.opener .ambiguous)] ++
    winner 1 [.claim, .settle, .signal, .remove] ++ [.stream 1 (.opener (.resolve false))] ++
    winner 1 [.owedClaim, .owedCancel true, .owedEmit] ++ [.emitTake, .emitSend true, .emitSettle]

def ambiguous : Opening := (run (step sampleConfig) start ambiguousActs).get (by decide +kernel)

def ambiguousStream : Stream := (ambiguous.tbl.streams 1).get (by decide +kernel)

theorem tornDown_ambiguous :
    TornDown ambiguous.tbl 1 ambiguousStream (ambiguous.trace 1) ∧ Settled ambiguous.tbl 1 ambiguousStream ∧
      ambiguous.trace 1 = ⟨⟨some (true, true), [.cancel 0xFFFFFF05]⟩, some .handed, 1, false⟩ :=
  ⟨tornDown_reach rfl (.of_run (Option.some_get _).symm) (Option.some_get _).symm, by decide +kernel, by decide +kernel⟩

/-- A stream opened, confirmed and cancelled by its caller, its `STREAM_ERR` left with the emitter. -/
def cancelled (id : UInt64) : List Table.Act :=
  [opens id, .stream id (.opener .publish), .stream id (.opener (.send .accepted false)), .stream id (.opener .confirm),
    .stream id (.ending (.ctx false))] ++ winner id [.claim, .cancel true, .emit, .settle, .signal, .remove]

def overflow : Opening :=
  (run (step sampleConfig) start (cancelled 1 ++ cancelled 2 ++ cancelled 3 ++ cancelled 4)).get (by decide +kernel)

/-- **A full emitter queue drops the `STREAM_ERR` of a confirmed stream**, and the
connection lives on. -/
theorem streamErr_dropped : ∃ x s, Reach (step sampleConfig) Any start x ∧ x.tbl.streams 4 = some s ∧
    Settled x.tbl 4 s ∧ down x.tbl = false ∧
    (x.trace 4).fate = some .handed ∧ (x.trace 4).tally.won = some (true, false) ∧
    (x.trace 4).tally.cancels = 1 ∧ (x.trace 4).errs = 0 :=
  ⟨overflow, (overflow.tbl.streams 4).get (by decide +kernel), .of_run (Option.some_get _).symm, (Option.some_get _).symm,
    by decide +kernel, by decide +kernel, by decide +kernel, by decide +kernel, by decide +kernel, by decide +kernel⟩

end Opening

end Styx
