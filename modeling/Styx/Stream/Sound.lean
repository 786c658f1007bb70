/-
What each side of a stream keeps by itself: where its sender stands and the half-close
it has made (`SendSound`), its queue and what its dispatcher may acknowledge
(`RecvSound`), and that a teardown `CANCEL` still to be sent has its code (`TearSound`).
-/
import Styx.Stream.Moves

namespace Styx

namespace Stream

variable {e : Env} {s s' : Stream} {effects : List Effect} {q : ChunkPolicy} {a : AckAct}

/-- The sender's position and the half-close it has made. -/
def SenderAt (q : ChunkPolicy) (s : Stream) : Prop :=
  match s.sender with
  | .idle => (s.sendCloseState = .idle → s.closeLocal = false) ∧
      (s.sendCloseState ≠ .idle → s.closeLocal = true ∨ s.terminalErr = true)
  | .admitting payload => s.sendCloseState = .idle ∧ s.closeLocal = false ∧ (chunked q payload = true → 0 < q.sendInline)
  | .sending _ => s.sendCloseState = .idle ∧ s.closeLocal = false ∧ 0 < s.sendSeq
  | .fragment payload off => s.sendCloseState = .idle ∧ s.closeLocal = false ∧ 0 < s.sendSeq ∧ 0 < q.sendInline ∧
      q.sendInline < payload.length ∧ payload.length ≤ q.ceiling ∧ off < payload.length
  | .failing _ => s.closeLocal = false
  | .closing _ finalSeq => s.closeLocal = false ∧ finalSeq = s.sendSeq
  | .committing => s.closeLocal = false
  | .discharging | .completing => s.sendCloseState = .closed ∧ s.closeLocal = true

structure SendSound (q : ChunkPolicy) (s : Stream) : Prop where
  completed : s.phase = .term .completed → s.closeLocal = true
  closed : s.sendClosed = s.closeLocal
  pos : s.SenderAt q

/-- The dispatcher's position and the count it has acknowledged. -/
def AckAt (s : Stream) : Prop :=
  match s.acker with
  | .checked | .holding => s.recvCredit.ackedOut < s.recvCredit.consumed
  | .built cum | .published cum => s.recvCredit.ackedOut < cum ∧ cum ≤ s.recvCredit.consumed
  | _ => s.recvCredit.ackedOut ≤ s.recvCredit.consumed

structure RecvSound (s : Stream) : Prop where
  completed : s.phase = .term .completed → s.closeRemote = true
  accum : s.closeRemote = true → s.recvAccum = []
  queue : s.closeRemote = false → ∀ it ∈ s.recvCh, it.credited = true
  fits : s.recvCh.length ≤ s.recvCap
  ack : s.AckAt

/-- A teardown `CANCEL` still to be sent has its code. -/
structure TearSound (s : Stream) : Prop where
  code : s.teardownCode = 0 ∨ TeardownCode s.teardownCode
  live : s.isLive = true → s.teardownCode = 0 ∧ s.finisher = .none ∧ s.owed = .none ∧ s.token ≠ .cancelOwed ∧
    s.acker ≠ .owing
  winner : (∃ presend, s.finisher = .claim true presend) ∨ s.finisher = .cancel → TeardownCode s.teardownCode
  left : s.token = .cancelOwed ∨ s.acker = .owing → TeardownCode s.teardownCode
  owed : s.owed = .claim ∨ s.owed = .cancel → TeardownCode s.teardownCode

/-! ### Ends -/

theorem terminalErr_isLive (h : s.isLive = true) : s.terminalErr = false := by
  unfold isLive at h
  unfold terminalErr
  split <;> simp_all

theorem SenderAt.imp (h : s.SenderAt q) (h₁ : s'.sender = s.sender) (h₂ : s'.sendCloseState = s.sendCloseState)
    (h₃ : s'.closeLocal = s.closeLocal) (h₄ : s'.sendSeq = s.sendSeq)
    (h₅ : s.terminalErr = true → s'.terminalErr = true) : s'.SenderAt q := by
  unfold SenderAt at *
  rw [h₁, h₂, h₃, h₄]
  split
  · next hpc =>
    rw [hpc] at h
    exact ⟨h.1, fun hne => (h.2 hne).imp_right h₅⟩
  all_goals simp_all

theorem SendSound.ends (h : s.SendSound q) (he : Ends s s') : s'.SendSound q := by
  have hterm : s.terminalErr = true → s'.terminalErr = true := he.terminalErr
  cases he with
  | same => exact h
  | ended code tc l status hl hboth hcode =>
    refine ⟨fun hph => ?_, h.closed, h.pos.imp rfl rfl rfl rfl hterm⟩
    have hc : code = .completed := by simpa using hph
    have hb := hboth hc
    simp only [bothClosed, Bool.and_eq_true] at hb
    exact hb.1

theorem RecvSound.ends (h : s.RecvSound) (he : Ends s s') : s'.RecvSound := by
  cases he with
  | same => exact h
  | ended code tc l status hl hboth hcode =>
    refine ⟨fun hph => ?_, fun _ => rfl, h.queue, h.fits, h.ack⟩
    have hc : code = .completed := by simpa using hph
    have hb := hboth hc
    simp only [bothClosed, Bool.and_eq_true] at hb
    exact hb.2

theorem TearSound.ends (h : s.TearSound) (he : Ends s s') : s'.TearSound := by
  cases he with
  | same => exact h
  | ended code tc l status hl hboth hcode =>
    obtain ⟨-, -, howed, htok, hack⟩ := h.live hl
    refine ⟨?_, by simp [isLive], ?_, ?_, ?_⟩
    · cases l with
      | true => exact .inr hcode
      | false => exact .inl hcode
    · rintro (⟨presend, hpc⟩ | hpc)
      · cases hpc
        exact hcode
      · cases hpc
    · rintro (h | h)
      · exact absurd h htok
      · exact absurd h hack
    · rintro (h | h) <;> simp [howed] at h

/-! ### The sender -/

theorem terminalErr_mapCtx (h : s.SendSound q) (hc : s.closeLocal = false) (deadline : Bool) :
    (s.mapCtxToTerminal deadline).terminalErr = true := by
  have hended : s.isLive = false → s.terminalErr = true := by
    intro hl
    unfold isLive at hl
    unfold terminalErr
    split <;> simp_all
    next hph => simpa [hc] using h.completed hph
  unfold mapCtxToTerminal mapDeadlineToTerminal mapCancelToTerminal terminate
  split <;> split
  · rfl
  · next hl => exact hended (by simpa using hl)
  · rfl
  · next hl => exact hended (by simpa using hl)

theorem SendSound.moved (h : s.SendSound q) (hpos : s'.SenderAt q) (h₁ : s'.phase = s.phase)
    (h₂ : s'.closeLocal = s.closeLocal) (h₃ : s'.sendClosed = s.sendClosed) : s'.SendSound q :=
  ⟨by rw [h₁, h₂]; exact h.completed, by rw [h₂, h₃]; exact h.closed, hpos⟩

theorem SendSound.senderStep {a : SendAct} (h : s.SendSound q) (hs : s.senderStep e a = some (s', effects))
    (he : e.policy = q) (ha : a ≠ .transmit .connErr) : s'.SendSound q := by
  have hpos := h.pos
  unfold SenderAt at hpos
  subst he
  cases senderStep_move hs with
  | @sendMsg payload _ hpc hterm hopen hchunk =>
    rw [hpc] at hpos
    have hc : s.closeLocal = false := by rw [← h.closed]; exact hopen
    have hst : s.sendCloseState = .idle := by
      by_contra hne
      rcases hpos.2 hne with hcl | hte
      · simp [hc] at hcl
      · simp [hterm] at hte
    exact h.moved (show SenderAt _ _ from ⟨hst, hc, fun hch => Nat.pos_of_ne_zero (hchunk hch)⟩) rfl rfl rfl
  | tooLong hpc | abandon hpc =>
    rw [hpc] at hpos
    exact h.moved (by simp [SenderAt, hpos.1, hpos.2.1]) rfl rfl rfl
  | @admitted payload pc hpc hroom hpc' =>
    rw [hpc] at hpos
    obtain ⟨hst, hc, hchunk⟩ := hpos
    rcases hpc' with rfl | ⟨rfl, hch, hceil⟩
    · exact h.moved (show SenderAt _ _ from ⟨hst, hc, Nat.succ_pos _⟩) rfl rfl rfl
    · have hlong : e.policy.sendInline < payload.length := by
        have := hch
        simp only [chunked, Bool.and_eq_true, decide_eq_true_eq] at this
        exact this.2
      have h0 := hchunk hch
      exact h.moved (show SenderAt _ _ from ⟨hst, hc, Nat.succ_pos _, h0, hlong, hceil, by omega⟩) rfl rfl rfl
  | sent hpc hlane | fragmentEnd hpc hlane =>
    rw [hpc] at hpos
    cases hlane <;> exact h.moved (by simp [SenderAt, hpos.1, hpos.2.1]) rfl rfl rfl
  | @fragment payload off hpc hlast =>
    rw [hpc] at hpos
    obtain ⟨hst, hc, hseq, hin, hlen, hceil, hoff⟩ := hpos
    have hlast : off + e.policy.sendInline < payload.length := by simpa [lastFragment] using hlast
    exact h.moved (show SenderAt _ _ from ⟨hst, hc, Nat.succ_pos _, hin, hlen, hceil, hlast⟩) rfl rfl rfl
  | rollback hpc =>
    rcases hpc with hpc | hpc <;> rw [hpc] at hpos <;>
      exact h.moved (by simp [SenderAt, Stream.rollback, hpos.1, hpos.2.1]) rfl rfl rfl
  | retry => exact h
  | unsent hpc ha' =>
    obtain ⟨deadline, rfl⟩ := ha'.resolve_left fun hc => ha (hc.1 ▸ rfl)
    rcases hpc with hpc | ⟨off, hpc⟩ <;> rw [hpc] at hpos <;> exact h.moved (by simp [SenderAt, hpos.2.1]) rfl rfl rfl
  | closeSent hpc | closeCtx hpc =>
    rw [hpc] at hpos
    exact h.moved (show SenderAt _ _ from hpos.1) rfl rfl rfl
  | closeUnsent hpc ha' =>
    rw [hpc] at hpos
    rcases ha' with ⟨rfl, rfl⟩ | ⟨⟨deadline, rfl⟩, rfl⟩ | hc
    · exact h.moved (by simp [SenderAt, hpos.1]) rfl rfl rfl
    · exact h.moved (show SenderAt _ _ from hpos.1) rfl rfl rfl
    · exact absurd (hc.1 ▸ rfl) ha
  | @fail deadline hpc =>
    rw [hpc] at hpos
    have hend := h.ends (ends_mapCtx deadline)
    have hterm := terminalErr_mapCtx h hpos deadline
    have hc : (s.mapCtxToTerminal deadline).closeLocal = false := by
      obtain ⟨_, _, _, _, _, heq⟩ := (ends_mapCtx (s := s) deadline).frame
      rw [heq]
      exact hpos
    exact hend.moved (show SenderAt _ _ from ⟨fun _ => hc, fun _ => .inr hterm⟩) rfl rfl rfl
  | closeSend _ hpc _ hst =>
    rw [hpc] at hpos
    exact h.moved (show SenderAt _ _ from ⟨hpos.1 hst, rfl⟩) rfl rfl rfl
  | commit => exact ⟨fun _ => rfl, rfl, show SenderAt _ _ from ⟨rfl, rfl⟩⟩
  | discharge hpc =>
    rw [hpc] at hpos
    exact h.moved (show SenderAt _ _ from hpos) rfl rfl rfl
  | complete hpc =>
    rw [hpc] at hpos
    have hend := h.ends (ends_completed (s := s))
    have hc : (if s.bothClosed then s.terminate .completed 0 false else s).closeLocal = true ∧
        (if s.bothClosed then s.terminate .completed 0 false else s).sendCloseState = .closed := by
      obtain ⟨_, _, _, _, _, heq⟩ := (ends_completed (s := s)).frame
      rw [heq]
      exact ⟨hpos.2, hpos.1⟩
    exact hend.moved (show SenderAt _ _ from ⟨fun h => by simp [hc.2] at h, fun _ => .inl hc.1⟩) rfl rfl rfl

/-! ### Receivers and the ack dispatcher -/

theorem AckAt.consume (h : s.AckAt) (hc : s.recvCredit.consumed ≤ s'.recvCredit.consumed)
    (ho : s'.recvCredit.ackedOut = s.recvCredit.ackedOut) (hpc : s'.acker = s.acker) : s'.AckAt := by
  unfold AckAt at *
  rw [hpc, ho]
  split <;> simp_all <;> omega

theorem RecvSound.receiverStep {a : RecvAct} (h : s.RecvSound) (hs : s.receiverStep e a = some (s', effects)) :
    s'.RecvSound := by
  cases receiverStep_move hs with
  | pop hq =>
    have hfits := h.fits
    rw [hq] at hfits
    refine ⟨h.completed, h.accum, fun hc it' hit' => h.queue hc it' ?_, Nat.le_of_succ_le hfits, h.ack⟩
    rw [hq]
    exact .tail _ hit'
  | deliver _ hle => exact ⟨h.completed, h.accum, h.queue, h.fits, h.ack.consume hle rfl rfl⟩
  | arm | eof => exact ⟨h.completed, h.accum, h.queue, h.fits, h.ack⟩

theorem RecvSound.moved (h : s.RecvSound) (h₁ : s'.phase = s.phase) (h₂ : s'.closeRemote = s.closeRemote)
    (h₃ : s'.recvAccum = s.recvAccum) (h₄ : s'.recvCh = s.recvCh) (h₅ : s'.recvCap = s.recvCap) (hack : s'.AckAt) :
    s'.RecvSound :=
  ⟨by rw [h₁, h₂]; exact h.completed, by rw [h₂, h₃]; exact h.accum, by rw [h₂, h₄]; exact h.queue,
    by rw [h₄, h₅]; exact h.fits, hack⟩

theorem AckAt.le (h : s.AckAt) : s.recvCredit.ackedOut ≤ s.recvCredit.consumed := by
  unfold AckAt at h
  split at h <;> omega

theorem RecvSound.ackStep (h : s.RecvSound) (hs : s.ackStep a = some (s', effects)) : s'.RecvSound := by
  have hle := h.ack.le
  obtain ⟨_, _, _, _, _, _, heq⟩ := ackStep_frame hs
  refine h.moved (by rw [heq]) (by rw [heq]) (by rw [heq]) (by rw [heq]) (by rw [heq]) ?_
  clear heq
  have hack := h.ack
  unfold AckAt at hack
  cases ackStep_move hs with
  | check _ _ hpend => exact hpend
  | token hpc | sent hpc =>
    rw [hpc] at hack
    exact hack
  | build hpc =>
    rw [hpc] at hack
    exact ⟨hack, Nat.le_refl _⟩
  | settle hpc =>
    rw [hpc] at hack
    simp only [AckAt, CreditCounter.advanceAckedOut, if_pos hack.1]
    exact hack.2
  | reArm => exact h.ack
  | _ => exact hle

/-! ### Teardown -/

theorem TearSound.ackStep (h : s.TearSound) (hs : s.ackStep a = some (s', effects)) : s'.TearSound := by
  -- Only `release` touches what is left to the dispatcher.
  have hkeep : ∀ (token : LifecycleToken) (c : CreditCounter) (acker : AckPc) (armed deferred : Bool) (reArms : Nat),
      (token = .cancelOwed → s.token = .cancelOwed) → (acker = .owing → s.acker = .owing ∨ s.token = .cancelOwed) →
      TearSound { s with token, recvCredit := c, acker, armed, deferred, reArms } := by
    intro token c acker armed deferred reArms htok hack
    refine ⟨h.code, fun hl => ?_, h.winner, ?_, h.owed⟩
    · obtain ⟨hcode, hfin, howed, ht, ha⟩ := h.live hl
      exact ⟨hcode, hfin, howed, fun hc => ht (htok hc), fun hc => (hack hc).elim ha ht⟩
    · rintro (hc | hc)
      · exact h.left (.inl (htok hc))
      · exact h.left (hack hc).symm
  cases ackStep_move hs with
  | token | release => exact hkeep _ _ _ _ _ _ (by simp) (by simp)
  | owe _ htok => exact hkeep _ _ _ _ _ _ (by simp) fun _ => .inr htok
  | reArm => exact hkeep _ _ _ _ _ _ id .inl
  | _ => exact hkeep _ _ _ _ _ _ id (by simp)

theorem claimTerminalToken_owed {t t' : LifecycleToken} {needCancel submitNow : Bool}
    (h : claimTerminalToken t needCancel = some (t', submitNow)) :
    (t' = .cancelOwed → needCancel = true) ∧ (submitNow = true → needCancel = true) := by
  cases t <;> cases needCancel <;> simp [claimTerminalToken] at h <;> simp [← h.1, ← h.2]

theorem TearSound.finishStep {a : FinishAct} (h : s.TearSound) (hs : s.finishStep e a = some (s', effects)) :
    s'.TearSound := by
  -- A winner or an owed sender stands at a stream that has ended.
  have hkeep : ∀ (token : LifecycleToken) (finisher : FinishPc) (done : Bool) (owed : OwedPc),
      s.finisher ≠ .none ∨ s.owed ≠ .none →
      (token = .cancelOwed → s.token = .cancelOwed ∨ TeardownCode s.teardownCode) →
      ((∃ presend, finisher = .claim true presend) ∨ finisher = .cancel → TeardownCode s.teardownCode) →
      (owed = .claim ∨ owed = .cancel → TeardownCode s.teardownCode) →
      TearSound { s with token, finisher, done, owed } := by
    intro token finisher done owed hended htok hfin howed
    refine ⟨h.code, fun hl => ?_, hfin, ?_, howed⟩
    · obtain ⟨-, hfin, howed, -⟩ := h.live hl
      exact absurd hended (by simp [hfin, howed])
    · rintro (hc | hc)
      · exact (htok hc).elim (fun ht => h.left (.inl ht)) id
      · exact h.left (.inr hc)
  cases finishStep_move hs with
  | @claim l _ _ hpc htok =>
    obtain ⟨htok, hsub⟩ := claimTerminalToken_owed htok
    have hcode : l = true → TeardownCode s.teardownCode := fun hl => h.winner (.inl ⟨false, by rw [hpc, hl]⟩)
    refine hkeep _ _ _ _ (.inl (by simp [hpc])) (fun hc => .inr (hcode (htok hc))) (fun hpc' => ?_) h.owed
    split at hpc'
    · next hnow => exact hcode (hsub hnow)
    · simp at hpc'
  | owedClaim hpc =>
    have hcode := h.owed (.inl hpc)
    exact hkeep _ _ _ _ (.inr (by simp [hpc])) (fun _ => .inr hcode) h.winner fun _ => hcode
  | owedCancel hpc | owedEmit hpc => exact hkeep _ _ _ _ (.inr (by simp [hpc])) .inl h.winner (by simp)
  | presend hpc | cancel hpc | emit hpc | emitStatus hpc | emitNone hpc | settle hpc | signal hpc | remove hpc =>
    exact hkeep _ _ _ _ (.inl (by simp [hpc])) .inl (by simp) h.owed

theorem TearSound.openerStep {a : OpenAct} (h : s.TearSound) (hs : s.openerStep a = some (s', effects)) :
    s'.TearSound := by
  obtain ⟨s₁, phase, handed, opener, pending, owed, hends, hphase, howed, rfl⟩ := openerStep_frame hs
  have h₁ := h.ends hends
  have hlive : isLive { s₁ with phase, handed, opener, openSendPending := pending, owed } = true →
      s₁.isLive = true := by
    rcases hphase with rfl | ⟨hph, -⟩
    · exact id
    · exact fun _ => by simp [isLive, hph]
  refine ⟨h₁.code, fun hl => ?_, h₁.winner, h₁.left, fun hc => ?_⟩
  · obtain ⟨hcode, hfin, how, htok, hack⟩ := h₁.live (hlive hl)
    refine ⟨hcode, hfin, ?_, htok, hack⟩
    rcases howed with heq | ⟨-, hne⟩
    · exact heq.trans how
    · exact absurd hcode hne
  · rcases howed with heq | ⟨-, hne⟩
    · exact h₁.owed (heq ▸ hc)
    · exact h₁.code.resolve_left hne

/-! ### Together -/

structure Sound (q : ChunkPolicy) (s : Stream) : Prop where
  send : s.SendSound q
  recv : s.RecvSound
  tear : s.TearSound
  /-- The queue has a slot for each unit of credit, and one for the half-close's payload. -/
  cap : s.recvCap = s.recvCredit.granted + 1

theorem Sound.ends (h : s.Sound q) (he : Ends s s') : s'.Sound q := by
  refine ⟨h.send.ends he, h.recv.ends he, h.tear.ends he, ?_⟩
  obtain ⟨_, _, _, _, _, rfl⟩ := he.frame
  exact h.cap

theorem Sound.arm (h : s.Sound q) (hs : s.arm = (s', effects)) : s'.Sound q := by
  obtain ⟨⟨_, rfl⟩, -⟩ := arm_frame hs
  exact ⟨h.send.moved (h.send.pos.imp rfl rfl rfl rfl id) rfl rfl rfl, h.recv.moved rfl rfl rfl rfl rfl h.recv.ack,
    ⟨h.tear.code, h.tear.live, h.tear.winner, h.tear.left, h.tear.owed⟩, h.cap⟩

/-- **One step of any goroutine**, on a transport that does not fail under it. -/
theorem Sound.step {a : Act} (h : s.Sound q) (hs : s.step e a = some (s', effects)) (he : e.policy = q)
    (ha : a ≠ .sender (.transmit .connErr)) : s'.Sound q := by
  cases a with
  | opener a =>
    refine ⟨?_, ?_, h.tear.openerStep hs, ?_⟩
    all_goals
      obtain ⟨s₁, phase, handed, opener, pending, owed, hends, hphase, -, rfl⟩ := openerStep_frame hs
      have h₁ := h.ends hends
      have hcomp : phase = .term .completed → s₁.phase = .term .completed := by
        rintro rfl
        rcases hphase with heq | ⟨-, heq⟩
        · exact heq.symm
        · cases heq
    · refine ⟨fun hc => h₁.send.completed (hcomp hc), h₁.send.closed, h₁.send.pos.imp rfl rfl rfl rfl fun ht => ?_⟩
      rcases hphase with rfl | ⟨hph, -⟩
      · exact ht
      · simp [terminalErr, hph] at ht
    · exact ⟨fun hc => h₁.recv.completed (hcomp hc), h₁.recv.accum, h₁.recv.queue, h₁.recv.fits, h₁.recv.ack⟩
    · exact h₁.cap
  | sender a =>
    refine ⟨h.send.senderStep hs he fun hc => ha (hc ▸ rfl), ?_, ?_, ?_⟩
    all_goals
      obtain ⟨s₁, _, _, _, _, _, _, _, hends, rfl⟩ := senderStep_frame hs
      have h₁ := h.ends hends
    · exact h₁.recv.moved rfl rfl rfl rfl rfl h₁.recv.ack
    · exact ⟨h₁.tear.code, h₁.tear.live, h₁.tear.winner, h₁.tear.left, h₁.tear.owed⟩
    · exact h₁.cap
  | receiver a =>
    refine ⟨?_, h.recv.receiverStep hs, ?_, ?_⟩
    all_goals obtain ⟨⟨_, _, _, _, _, _, _, rfl⟩, -⟩ := receiverStep_frame hs
    · exact h.send.moved (h.send.pos.imp rfl rfl rfl rfl id) rfl rfl rfl
    · exact ⟨h.tear.code, h.tear.live, h.tear.winner, h.tear.left, h.tear.owed⟩
    · exact h.cap
  | acker a =>
    refine ⟨?_, h.recv.ackStep hs, h.tear.ackStep hs, ?_⟩
    all_goals obtain ⟨_, _, _, _, _, _, rfl⟩ := ackStep_frame hs
    · exact h.send.moved (h.send.pos.imp rfl rfl rfl rfl id) rfl rfl rfl
    · exact h.cap
  | finisher a =>
    refine ⟨?_, ?_, h.tear.finishStep hs, ?_⟩
    all_goals obtain ⟨_, _, _, _, rfl⟩ := finishStep_frame hs
    · exact h.send.moved (h.send.pos.imp rfl rfl rfl rfl id) rfl rfl rfl
    · exact h.recv.moved rfl rfl rfl rfl rfl h.recv.ack
    · exact h.cap
  | ending a => exact h.ends (endStep_ends hs).1

theorem Sound.dispatch (h : s.Sound q) (p : ChunkPolicy) (f : StreamFrame) : (s.dispatch p f).1.Sound q := by
  obtain ⟨expectedSeq, recvAccum, recvCh, closeRemote, recvClosed, acked, hread, hends⟩ := dispatch_frame s p f
  refine Sound.ends ?_ hends
  refine ⟨h.send.moved (h.send.pos.imp rfl rfl rfl rfl id) rfl rfl rfl, ?_,
    ⟨h.tear.code, h.tear.live, h.tear.winner, h.tear.left, h.tear.owed⟩, h.cap⟩
  refine ⟨fun hc => hread.closes (h.recv.completed hc), fun hc => ?_, fun hc it hit => ?_, ?_, h.recv.ack⟩
  · rcases hread.accum hc with hnil | ⟨hold, heq⟩
    · exact hnil
    · exact heq.trans (h.recv.accum hold)
  · have hold : s.closeRemote = false := by
      by_contra hne
      have := hread.closes (by simpa using hne)
      simp_all
    rcases hread.queue with heq | ⟨-, payload, ⟨-, heq⟩ | ⟨htrue, -⟩⟩
    · exact h.recv.queue hold it (heq ▸ hit)
    · rw [heq] at hit
      rcases List.mem_append.mp hit with hold' | hnew
      · exact h.recv.queue hold it hold'
      · rw [List.mem_singleton.mp hnew]
    · exact absurd htrue (by simpa using hc)
  · show recvCh.length ≤ s.recvCap
    rcases hread.queue with heq | ⟨hroom, payload, ⟨-, heq⟩ | ⟨-, heq⟩⟩
    · exact heq ▸ h.recv.fits
    · rw [heq, List.length_append, List.length_singleton]
      omega
    · rw [heq, List.length_append, List.length_singleton]
      omega

end Stream

end Styx
