/-
The lifecycle token: who may send on a stream's lifecycle lane, and the one `CANCEL` of a
teardown.

Three parties meet at the token. The ack dispatcher takes it to send an acknowledgement
and gives it back. The claimant takes it for good once the stream has ended: the winner of
the end, or, while the opener's `STREAM_OPEN` is unconfirmed, the opener's detached
sender. If the dispatcher has it by then, a `CANCEL` that is due is left to the
dispatcher.
-/
import Styx.Stream.Moves

namespace Styx

/-! ## The protocol -/

/-- The dispatcher has the token: from its compare-and-swap to the release. -/
def AckPc.holds : AckPc → Bool
  | .holding | .built _ | .published _ | .refused | .releasing _ => true
  | _ => false

/-- Where the one who claims the token stands. -/
inductive Claimant
  | before
  | claiming (needCancel : Bool)
  | cancelling
  | past
  deriving DecidableEq

def Claimant.unclaimed : Claimant → Bool
  | .before | .claiming _ => true
  | _ => false

/-- The token, the dispatcher, the claimant and the `CANCEL`s submitted so far;
`needed` is whether the end was this side's own doing. -/
inductive Stage (needed : Bool) : LifecycleToken → AckPc → Claimant → Nat → Prop
  | free {a : AckPc} {c : Claimant} : a.holds = false → a ≠ .owing → c.unclaimed = true → Stage needed .idle a c 0
  | acking {a : AckPc} {c : Claimant} : a.holds = true → c.unclaimed = true → Stage needed .ackOutstanding a c 0
  | cancelling {a : AckPc} : needed = true → a.holds = false → a ≠ .owing → Stage needed .terminal a .cancelling 0
  | owed {a : AckPc} : needed = true → a.holds = true → Stage needed .cancelOwed a .past 0
  | owing : needed = true → Stage needed .terminal .owing .past 0
  | sent {a : AckPc} : needed = true → a.holds = false → a ≠ .owing → Stage needed .terminal a .past 1
  | quiet {a : AckPc} : needed = false → a ≠ .owing → Stage needed .terminal a .past 0

namespace Stage

variable {needed needed' need : Bool} {t : LifecycleToken} {a a' : AckPc} {c : Claimant} {n : Nat}

theorem ack (h : Stage needed t a c n) (hh : a'.holds = a.holds) (ho : a ≠ .owing) (ho' : a' ≠ .owing) :
    Stage needed t a' c n := by
  cases h with
  | free hf _ hc => exact .free (hh.trans hf) ho' hc
  | acking hf hc => exact .acking (hh.trans hf) hc
  | cancelling hn hf _ => exact .cancelling hn (hh.trans hf) ho'
  | owed hn hf => exact .owed hn (hh.trans hf)
  | owing => exact absurd rfl ho
  | sent hn hf _ => exact .sent hn (hh.trans hf) ho'
  | quiet hn _ => exact .quiet hn ho'

theorem take (h : Stage needed .idle a c n) (hh : a'.holds = true) : Stage needed .ackOutstanding a' c n := by
  cases h with
  | free _ _ hc => exact .acking hh hc

theorem not_held (h : Stage needed .idle a c n) : a.holds = false := by
  cases h with
  | free hf _ _ => exact hf

theorem release (h : Stage needed .ackOutstanding a c n) (a' : AckPc) (hh : a'.holds = false) (ho : a' ≠ .owing) :
    Stage needed .idle a' c n := by
  cases h with
  | acking _ hc => exact .free hh ho hc

theorem inherit (h : Stage needed .cancelOwed a c n) : Stage needed .terminal .owing c n := by
  cases h with
  | owed hn _ => exact .owing hn

theorem drop (h : Stage needed .terminal a c n) (a' : AckPc) (hold : a.holds = true) (ho : a' ≠ .owing) :
    Stage needed .terminal a' c n := by
  cases h with
  | cancelling _ hf _ | sent _ hf _ => simp [hf] at hold
  | owing => cases hold
  | quiet hn _ => exact .quiet hn ho

theorem discharge (h : Stage needed t .owing c n) : Stage needed t .discharging c (n + 1) := by
  cases h with
  | free _ ho _ | cancelling _ _ ho | sent _ _ ho | quiet _ ho => exact absurd rfl ho
  | acking hf _ | owed _ hf => cases hf
  | owing hn => exact .sent hn rfl (by simp)

theorem owing_zero (h : Stage needed t .owing c n) : n = 0 := by
  cases h with
  | free | acking | cancelling | owed | owing | quiet => rfl
  | sent _ _ ho => exact absurd rfl ho

theorem come (h : Stage needed t a .before n) : Stage needed' t a (.claiming need) n := by
  cases h with
  | free hf ho _ => exact .free hf ho rfl
  | acking hf _ => exact .acking hf rfl

theorem cancelling_zero (h : Stage needed t a .cancelling n) : n = 0 := by
  cases h with
  | free _ _ hc | acking _ hc => cases hc
  | cancelling => rfl

theorem claiming (h : Stage needed t a (.claiming need) n) : t = .idle ∨ t = .ackOutstanding ∧ a.holds = true := by
  cases h with
  | free => exact .inl rfl
  | acking hf _ => exact .inr ⟨rfl, hf⟩

theorem claim (h : Stage needed t a (.claiming needed) n) {t' : LifecycleToken} {submitNow : Bool}
    (hc : Stream.claimTerminalToken t needed = some (t', submitNow)) :
    Stage needed t' a (if submitNow then .cancelling else .past) n := by
  cases h with
  | free hf ho _ =>
    cases hc
    cases needed with
    | true => exact .cancelling rfl hf ho
    | false => exact .quiet rfl ho
  | acking hf _ =>
    cases hc
    cases needed with
    | true => exact .owed rfl hf
    | false => exact .quiet rfl (by rintro rfl; cases hf)

theorem cancel (h : Stage needed t a .cancelling n) : Stage needed t a .past (n + 1) := by
  cases h with
  | free _ _ hc | acking _ hc => cases hc
  | cancelling hn hf ho => exact .sent hn hf ho

theorem exclusive (h : Stage needed t a .cancelling n) : a.holds = false ∧ a ≠ .owing := by
  cases h with
  | free _ _ hc | acking _ hc => cases hc
  | cancelling _ hf ho => exact ⟨hf, ho⟩

theorem le_one (h : Stage needed t a c n) : n ≤ 1 := by cases h <;> decide

theorem needed_of_sent (h : Stage needed t a c n) (hn : n ≠ 0) : needed = true := by
  cases h with
  | free | acking | cancelling | owed | owing | quiet => exact absurd rfl hn
  | sent hneed => exact hneed

theorem needed_of_cancelling (h : Stage needed t a .cancelling n) : needed = true := by
  cases h with
  | free _ _ hc | acking _ hc => cases hc
  | cancelling hneed => exact hneed

theorem settled (h : Stage needed t .idle .past n) (hneed : needed = true) : n = 1 := by
  cases h with
  | free _ _ hc | acking _ hc => cases hc
  | owed _ hf => cases hf
  | sent => rfl
  | quiet hn _ => simp [hn] at hneed

theorem unclaimed (h : Stage needed t a c n) (hc : c.unclaimed = true) : n = 0 := by
  cases h with
  | free | acking => rfl
  | cancelling | owed | owing | sent | quiet => cases hc

theorem held (h : Stage needed t a c n) (ha : a.holds = true) : n = 0 := by
  cases h with
  | free hf _ _ | cancelling _ hf _ | sent _ hf _ => simp [hf] at ha
  | acking | owed | owing | quiet => rfl

theorem live (h : Stage needed t a .before n) : Stage needed' t a .before n := by
  cases h with
  | free hf ho hc => exact .free hf ho hc
  | acking hf hc => exact .acking hf hc

end Stage

/-! ## A stream's part in it -/

def StreamFrame.isCancel : StreamFrame → Bool
  | .cancel _ => true
  | _ => false

def OwedPc.claimant : OwedPc → Claimant
  | .none => .before
  | .claim => .claiming true
  | .cancel => .cancelling
  | .emit | .finished => .past

def FinishPc.claimant : FinishPc → Claimant
  | .none => .before
  | .claim locallyInitiated _ => .claiming locallyInitiated
  | .cancel => .cancelling
  | _ => .past

/-- The words of a stream that the token is about. -/
structure View where
  live : Bool
  /-- The opener is still at work; its `STREAM_OPEN` was never confirmed. -/
  opening : Bool
  pending : Bool
  code : UInt32
  token : LifecycleToken
  acker : AckPc
  finisher : FinishPc
  owed : OwedPc
  deriving DecidableEq

namespace View

def needed (v : View) : Bool := v.code ≠ 0

def claimant (v : View) : Claimant := if v.pending then v.owed.claimant else v.finisher.claimant

/-- Whether the winner initiated its end, and whether it found the `STREAM_OPEN` unconfirmed. -/
def winner (v : View) : Option (Bool × Bool) :=
  match v.finisher with
  | .claim locallyInitiated presend => some (locallyInitiated, presend)
  | _ => none

end View

/-- What has happened to a stream: who ended it, and what was submitted on its lifecycle lane. -/
structure Tally where
  won : Option (Bool × Bool)
  life : List StreamFrame
  deriving DecidableEq

namespace Tally

def zero : Tally := ⟨none, []⟩

def cancels (g : Tally) : Nat := g.life.countP StreamFrame.isCancel

/-- The tally after a step from `v` to `v'` that answers a `Send` of `sent`. -/
def record (g : Tally) (v v' : View) (sent : Option StreamFrame) : Tally :=
  ⟨if v.live = true ∧ v'.live = false then v'.winner else g.won, g.life ++ sent.toList⟩

end Tally

namespace View

structure Tokened (v : View) (g : Tally) : Prop where
  stage : Stage v.needed v.token v.acker v.claimant g.cancels
  live : v.live = true → v.code = 0 ∧ v.finisher = .none ∧ v.owed = .none ∧ g.won = none
  ended : v.live = false → g.won = some (v.needed, v.pending) ∧ v.finisher ≠ .none
  finisher : ∀ l presend, v.finisher = .claim l presend → l = v.needed ∧ presend = v.pending
  /-- The other of the two possible claimants stays out. -/
  other : if v.pending then v.finisher ≠ .cancel else v.owed = .none
  owed : v.owed ≠ .none → v.live = false ∧ v.needed = true
  opening : v.opening = true → v.pending = true ∧ v.owed = .none
  /-- Acknowledgements, and then the `CANCEL`. -/
  life : ∃ acks : List Nat, g.life = acks.map .streamAck ++ List.replicate g.cancels (.cancel v.code)

variable {v v' : View} {g : Tally} {token : LifecycleToken} {finisher : FinishPc} {acker : AckPc} {owed : OwedPc}
  {submitNow : Bool}

@[simp] theorem cancels_record_none : (g.record v v' none).cancels = g.cancels := by
  simp [Tally.record, Tally.cancels]

theorem record_same (hl : v'.live = v.live) : g.record v v' none = g := by
  unfold Tally.record
  cases g
  cases hv : v.live <;> simp [hl, hv]

theorem Tokened.claimant_of_live (h : v.Tokened g) (hl : v.live = true) : v.claimant = .before := by
  obtain ⟨-, hfin, howed, -⟩ := h.live hl
  unfold claimant
  rw [hfin, howed]
  split <;> rfl

/-- An attempt to end the stream. -/
inductive Ends (v : View) : View → Prop
  | same : Ends v v
  | ended (code : UInt32) : v.live = true →
    Ends v { v with live := false, code, finisher := .claim (decide (code ≠ 0)) v.pending }

theorem Tokened.ends (h : v.Tokened g) (he : Ends v v') : v'.Tokened (g.record v v' none) := by
  cases he with
  | same =>
    rw [record_same rfl]
    exact h
  | ended code hl =>
    obtain ⟨-, hfin, howed, -⟩ := h.live hl
    have hstage := h.stage
    rw [h.claimant_of_live hl] at hstage
    have hzero := hstage.unclaimed rfl
    refine ⟨?_, (by simp), fun _ => ⟨?_, (by simp)⟩, ?_, ?_, ?_, h.opening, ?_⟩
    · rw [cancels_record_none]
      simp only [claimant, howed]
      split
      · exact hstage.live
      · exact hstage.come
    · simp [Tally.record, hl, winner, needed]
    · rintro l presend hpc
      cases hpc
      exact ⟨rfl, rfl⟩
    · dsimp only
      split
      · simp
      · exact howed
    · intro hne
      exact absurd howed hne
    · obtain ⟨acks, hlife⟩ := h.life
      refine ⟨acks, ?_⟩
      rw [hzero] at hlife
      rw [cancels_record_none, hzero]
      simpa [Tally.record] using hlife

/-! ### The dispatcher's moves -/

theorem Tokened.acks (h : v.Tokened g)
    (hst : Stage v.needed token acker v.claimant g.cancels) : Tokened { v with token, acker } g :=
  ⟨hst, h.live, h.ended, h.finisher, h.other, h.owed, h.opening, h.life⟩

theorem Tokened.ackSent (h : v.Tokened g) {cum : Nat} (hpc : v.acker = .built cum)
    (hh : acker.holds = true) : Tokened { v with acker } (g.record v { v with acker } (some (.streamAck cum))) := by
  have hzero := h.stage.held (a := v.acker) (by rw [hpc]; rfl)
  have hsame : (g.record v { v with acker } (some (.streamAck cum))).cancels = g.cancels := by
    simp [Tally.record, Tally.cancels, StreamFrame.isCancel]
  have hwon : (g.record v { v with acker } (some (.streamAck cum))).won = g.won := by
    cases hv : v.live <;> simp [Tally.record, hv]
  have hst : Stage v.needed v.token acker v.claimant g.cancels :=
    h.stage.ack (by rw [hpc]; exact hh) (by rw [hpc]; simp) (by rintro rfl; cases hh)
  refine ⟨hsame ▸ hst, fun hl => hwon ▸ h.live hl, fun hl => hwon ▸ h.ended hl, h.finisher, h.other, h.owed, h.opening, ?_⟩
  obtain ⟨acks, hlife⟩ := h.life
  rw [hzero, List.replicate_zero, List.append_nil] at hlife
  exact ⟨acks ++ [cum], by rw [hsame, hzero]; simp [Tally.record, hlife]⟩

theorem Tokened.cancelSent (h : v.Tokened g) (acker : AckPc) (finisher : FinishPc) (owed : OwedPc)
    (hst : Stage v.needed v.token acker (if v.pending then owed.claimant else finisher.claimant) (g.cancels + 1))
    (hzero : g.cancels = 0) (hfin : v.finisher ≠ .none → finisher ≠ .none)
    (hclaim : ∀ l presend, finisher = .claim l presend → v.finisher = .claim l presend)
    (hlive : v.live = true → finisher = .none ∧ owed = .none)
    (hother : if v.pending then finisher ≠ .cancel else owed = .none)
    (howed : owed ≠ .none → v.owed ≠ .none) (hopen : v.opening = true → owed = .none) :
    Tokened { v with acker, finisher, owed }
      (g.record v { v with acker, finisher, owed } (some (.cancel v.code))) := by
  have hone : (g.record v { v with acker, finisher, owed } (some (.cancel v.code))).cancels = g.cancels + 1 := by
    simp [Tally.record, Tally.cancels, StreamFrame.isCancel]
  have hwon : (g.record v { v with acker, finisher, owed } (some (.cancel v.code))).won = g.won := by
    cases hv : v.live <;> simp [Tally.record, hv]
  refine ⟨hone ▸ hst, fun hl => ?_, fun hl => ?_, fun l presend hpc => h.finisher l presend (hclaim l presend hpc), hother,
    fun hne => h.owed (howed hne), fun ho => ⟨(h.opening ho).1, hopen ho⟩, ?_⟩
  · obtain ⟨hcode, -, -, hw⟩ := h.live hl
    exact ⟨hcode, (hlive hl).1, (hlive hl).2, hwon.trans hw⟩
  · obtain ⟨hw, hne⟩ := h.ended hl
    exact ⟨hwon.trans hw, hfin hne⟩
  · obtain ⟨acks, hlife⟩ := h.life
    rw [hzero, List.replicate_zero, List.append_nil] at hlife
    exact ⟨acks, by rw [hone, hzero]; simp [Tally.record, hlife]⟩

/-! ### The claimants' moves -/

section

variable (h : v.Tokened g)
include h

theorem Tokened.claims
    (hl : v.live = false) (hst : Stage v.needed token v.acker (if v.pending then owed.claimant else finisher.claimant) g.cancels)
    (hfin : finisher ≠ .none) (hclaim : ∀ l presend, finisher = .claim l presend → v.finisher = .claim l presend)
    (hother : if v.pending then finisher ≠ .cancel else owed = .none) (howed : owed ≠ .none → v.owed ≠ .none)
    (hopen : v.opening = true → owed = .none) : Tokened { v with token, finisher, owed } g := by
  refine ⟨hst, fun hl' => ?_, fun _ => ⟨(h.ended hl).1, hfin⟩, fun l presend hpc => h.finisher l presend (hclaim l presend hpc),
    hother, fun hne => h.owed (howed hne), fun ho => ⟨(h.opening ho).1, hopen ho⟩, h.life⟩
  rw [hl] at hl'
  cases hl'

theorem Tokened.winnerPast (hnone : v.finisher ≠ .none)
    (hold : v.pending = false → v.finisher.claimant = .past) (hnew : finisher.claimant = .past) :
    Tokened { v with finisher } g := by
  have hl : v.live = false := by
    cases hl : v.live with
    | false => rfl
    | true => exact absurd (h.live hl).2.1 hnone
  refine h.claims hl ?_ ?_ ?_ ?_ id fun ho => (h.opening ho).2
  · have hst := h.stage
    simp only [claimant] at hst
    split
    · next hp => simpa [hp] using hst
    · next hp =>
      rw [if_neg hp, hold (by simpa using hp)] at hst
      rw [hnew]
      exact hst
  · rintro rfl
    cases hnew
  · rintro l presend rfl
    cases hnew
  · have ho := h.other
    split
    · rintro rfl
      cases hnew
    · next hp => simpa [hp] using ho

theorem Tokened.dead (hne : v.finisher ≠ .none ∨ v.owed ≠ .none) : v.live = false := by
  cases hl : v.live with
  | false => rfl
  | true =>
    obtain ⟨-, hfin, howed, -⟩ := h.live hl
    exact absurd hne (by simp [hfin, howed])

/-- Only an unconfirmed `STREAM_OPEN` leaves the teardown to the opener's detached sender. -/
theorem Tokened.pending_of_owed (hne : v.owed ≠ .none) : v.pending = true := by
  by_contra hp
  have ho := h.other
  rw [if_neg hp] at ho
  exact hne ho

theorem Tokened.winnerClaims {l presend : Bool} (hp : v.pending = false) (hpc : v.finisher = .claim l presend)
    (hc : Stream.claimTerminalToken v.token l = some (token, submitNow))
    (hnew : finisher.claimant = if submitNow then .cancelling else .past) : Tokened { v with token, finisher } g := by
  obtain ⟨rfl, -⟩ := h.finisher l presend hpc
  have hst := h.stage
  simp only [claimant, hp, hpc, Bool.false_eq_true, if_false] at hst
  have ho : v.owed = .none := by simpa [hp] using h.other
  have hnb : finisher.claimant ≠ .before ∧ ∀ l, finisher.claimant ≠ .claiming l := by
    rw [hnew]
    split <;> exact ⟨(by simp), (by simp)⟩
  refine h.claims (h.dead (.inl (by simp [hpc]))) ?_ ?_ ?_ ?_ id fun ho' => (h.opening ho').2
  · rw [hp]
    simp only [Bool.false_eq_true, if_false, hnew]
    exact hst.claim hc
  · rintro rfl
    exact hnb.1 rfl
  · rintro l presend rfl
    exact absurd rfl (hnb.2 l)
  · simpa [hp] using ho

theorem Tokened.owedClaims (hpc : v.owed = .claim) (hc : Stream.claimTerminalToken v.token true = some (token, submitNow)) :
    Tokened { v with token, owed := if submitNow then .cancel else .emit } g := by
  obtain ⟨hl, hneed⟩ := h.owed (by simp [hpc])
  have hp := h.pending_of_owed (by simp [hpc])
  have hst := h.stage
  rw [hneed] at hst
  simp only [claimant, hp, hpc, if_true] at hst
  refine h.claims hl ?_ (h.ended hl).2 (fun _ _ => id) ?_ (fun _ => by simp [hpc]) fun ho => ?_
  · rw [hp, hneed, if_pos rfl]
    have := hst.claim hc
    cases submitNow <;> exact this
  · have ho := h.other
    rw [if_pos hp] at ho ⊢
    exact ho
  · have := (h.opening ho).2
    rw [hpc] at this
    cases this

theorem Tokened.owedPast (hold : v.owed.claimant = .past) (hnew : owed.claimant = .past) : Tokened { v with owed } g := by
  have hne : v.owed ≠ .none := by
    intro heq
    rw [heq] at hold
    cases hold
  have hp := h.pending_of_owed hne
  obtain ⟨hl, -⟩ := h.owed hne
  have hst := h.stage
  simp only [claimant, hp, hold, if_true] at hst
  refine h.claims hl ?_ (h.ended hl).2 (fun _ _ => id) ?_ (fun _ => hne) fun ho => absurd (h.opening ho).2 hne
  · rw [hp, if_pos rfl, hnew]
    exact hst
  · have ho := h.other
    rw [if_pos hp] at ho ⊢
    exact ho

theorem Tokened.winnerCancels (hpc : v.finisher = .cancel) (hnew : finisher.claimant = .past) :
    Tokened { v with finisher } (g.record v { v with finisher } (some (.cancel v.code))) := by
  have hp : v.pending = false := by
    cases hp : v.pending with
    | false => rfl
    | true =>
      have ho := h.other
      rw [if_pos hp, hpc] at ho
      exact absurd rfl ho
  have ho : v.owed = .none := by simpa [hp] using h.other
  have hst := h.stage
  simp only [claimant, hp, hpc, Bool.false_eq_true, if_false] at hst
  have hl := h.dead (.inl (by simp [hpc]))
  refine h.cancelSent v.acker finisher v.owed ?_ hst.cancelling_zero ?_ ?_ ?_ ?_ id fun ho' => (h.opening ho').2
  · rw [hp]
    simp only [Bool.false_eq_true, if_false, hnew]
    exact hst.cancel
  · rintro - rfl
    cases hnew
  · rintro l presend rfl
    cases hnew
  · intro hl'
    rw [hl] at hl'
    cases hl'
  · simpa [hp] using ho

theorem Tokened.owedCancels (hpc : v.owed = .cancel) :
    Tokened { v with owed := .emit } (g.record v { v with owed := .emit } (some (.cancel v.code))) := by
  have hp := h.pending_of_owed (by simp [hpc])
  obtain ⟨hl, -⟩ := h.owed (by simp [hpc])
  have hst := h.stage
  simp only [claimant, hp, hpc, if_true] at hst
  refine h.cancelSent v.acker v.finisher .emit ?_ hst.cancelling_zero id (fun _ _ => id) ?_ ?_ (fun _ => by simp [hpc]) ?_
  · rw [hp, if_pos rfl]
    exact hst.cancel
  · intro hl'
    rw [hl] at hl'
    cases hl'
  · have ho := h.other
    rw [if_pos hp] at ho ⊢
    exact ho
  · intro ho
    have := (h.opening ho).2
    rw [hpc] at this
    cases this

end

/-! ### The opener's moves -/

theorem Tokened.opened (h : v.Tokened g) : Tokened { v with opening := false } g :=
  ⟨h.stage, h.live, h.ended, h.finisher, h.other, h.owed, (by simp), h.life⟩

theorem Tokened.confirmed (h : v.Tokened g) (hl : v.live = true) : Tokened { v with opening := false, pending := false } g := by
  obtain ⟨hcode, hfin, howed, hwon⟩ := h.live hl
  have hst := h.stage
  rw [h.claimant_of_live hl] at hst
  refine ⟨?_, h.live, fun hl' => ?_, fun l presend hpc => ?_, howed, h.owed, (by simp), h.life⟩
  · simp only [claimant, Bool.false_eq_true, if_false, hfin]
    exact hst
  · simp [hl] at hl'
  · simp [hfin] at hpc

theorem Tokened.owes (h : v.Tokened g) (ho : v.opening = true) (hneed : v.needed = true) :
    Tokened { v with opening := false, owed := .claim } g := by
  obtain ⟨hp, hnone⟩ := h.opening ho
  have hl : v.live = false := by
    cases hl : v.live with
    | false => rfl
    | true => simp [needed, (h.live hl).1] at hneed
  have hst := h.stage
  simp only [claimant, hp, hnone, if_true] at hst
  refine ⟨?_, fun hl' => ?_, h.ended, h.finisher, ?_, fun _ => ⟨hl, hneed⟩, (by simp), h.life⟩
  · simp only [claimant, hp, if_true]
    exact hst.come
  · simp [hl] at hl'
  · have hother := h.other
    rw [if_pos hp] at hother ⊢
    exact hother

end View

/-! ## Every step of a stream -/

namespace Stream

def view (s : Stream) : View :=
  ⟨s.isLive, s.opener ≠ .opened ∧ s.opener ≠ .failed, s.openSendPending, s.teardownCode, s.token, s.acker, s.finisher,
    s.owed⟩

/-- The lifecycle frame whose `Send` an act answers, accepted or not. -/
def lifeSend (s : Stream) : Act → Option StreamFrame
  | .acker (.send _) =>
    match s.acker with
    | .built cum => some (.streamAck cum)
    | _ => none
  | .acker (.cancel _) => if s.acker = .owing then some (.cancel s.teardownCode) else none
  | .finisher (.cancel _) => if s.finisher = .cancel then some (.cancel s.teardownCode) else none
  | .finisher (.owedCancel _) => if s.owed = .cancel then some (.cancel s.teardownCode) else none
  | _ => none

/-- The tally is kept along with the stream. -/
def Tokens (s s' : Stream) (g : Tally) (sent : Option StreamFrame) : Prop :=
  s'.view.Tokened (g.record s.view s'.view sent)

variable {e : Env} {s s₁ s' : Stream} {effects : List Effect} {g : Tally} {p : ChunkPolicy}

theorem Tokens.quiet (hl : s'.isLive = s.isLive) (h : s'.view.Tokened g) : Tokens s s' g none := by
  unfold Tokens
  rw [View.record_same hl]
  exact h

theorem ends_view (he : Ends s s') : View.Ends s.view s'.view := by
  cases he with
  | same => exact .same
  | ended code tc l status hl hboth hcode =>
    have hneeded : l = decide (tc ≠ 0) := by
      cases l with
      | true => rcases hcode with rfl | rfl <;> rfl
      | false =>
        cases hcode
        rfl
    subst hneeded
    exact .ended tc hl

section

variable (h : s.view.Tokened g)
include h

theorem Tokens.ends (he : Ends s s₁) (hv : s'.view = s₁.view) : Tokens s s' g none := by
  unfold Tokens
  rw [hv]
  exact h.ends (ends_view he)

theorem ackStep_tokens {a : AckAct} (hs : s.ackStep a = some (s', effects)) : Tokens s s' g (s.lifeSend (.acker a)) := by
  have hst : Stage s.view.needed s.token s.acker s.view.claimant g.cancels := h.stage
  -- The dispatcher moves with the token where it was.
  have hmove : ∀ {acker : AckPc}, acker.holds = s.acker.holds → s.acker ≠ .owing → acker ≠ .owing →
      View.Tokened { s.view with acker } g := fun hh ho ho' => h.acks (hst.ack hh ho ho')
  cases ackStep_move hs with
  | pop hpc | check hpc | quit hpc | lose hpc | build hpc | settle hpc | backOff hpc | discharge hpc =>
    exact .quiet rfl (hmove (by rw [hpc]; rfl) (by rw [hpc]; simp) (by simp))
  | token _ htok =>
    rw [htok] at hst
    exact .quiet rfl (h.acks (hst.take rfl))
  | @sent cum hpc | @refused cum hpc =>
    rw [show s.lifeSend _ = some (.streamAck cum) by simp [lifeSend, hpc]]
    exact h.ackSent hpc rfl
  | release _ htok =>
    rw [htok] at hst
    exact .quiet rfl (h.acks (hst.release .idle rfl (by simp)))
  | owe _ htok =>
    rw [htok] at hst
    exact .quiet rfl (h.acks hst.inherit)
  | ended hpc hne₁ hne₂ =>
    rw [hpc] at hst
    -- The token is not idle while the dispatcher has it, so the winner has claimed it.
    have hterm : s.token = .terminal := by
      cases htok : s.token with
      | idle =>
        rw [htok] at hst
        cases hst.not_held
      | ackOutstanding => exact absurd htok hne₁
      | cancelOwed => exact absurd htok hne₂
      | terminal => rfl
    rw [hterm] at hst
    have hdrop := h.acks (hst.drop .idle rfl (by simp))
    rw [← hterm] at hdrop
    exact .quiet rfl hdrop
  | cancel hpc =>
    rw [show s.lifeSend _ = some (.cancel s.teardownCode) by simp [lifeSend, hpc]]
    rw [hpc] at hst
    exact h.cancelSent .discharging s.finisher s.owed hst.discharge hst.owing_zero id (fun _ _ => id)
      (fun hl => ⟨(h.live hl).2.1, (h.live hl).2.2.1⟩) h.other id fun ho => (h.opening ho).2
  | reArm => exact .quiet rfl h

theorem finishStep_tokens {a : FinishAct} (hs : s.finishStep e a = some (s', effects)) :
    Tokens s s' g (s.lifeSend (.finisher a)) := by
  -- Past the claim the winner has nothing to do with the token.
  have hpast : ∀ {finisher : FinishPc}, s.finisher.claimant = .past → finisher.claimant = .past →
      View.Tokened { s.view with finisher } g := by
    intro finisher hold hnew
    refine h.winnerPast (fun heq => ?_) (fun _ => hold) hnew
    rw [show s.finisher = .none from heq] at hold
    cases hold
  cases finishStep_move hs with
  | presend hpc =>
    obtain ⟨-, hpend⟩ := h.finisher _ _ hpc
    refine .quiet rfl (h.winnerPast (fun heq => ?_) (fun hp => ?_) rfl)
    · rw [show s.finisher = .none from heq] at hpc
      cases hpc
    · rw [← hpend] at hp
      cases hp
  | @claim l submitNow _ hpc hc =>
    obtain ⟨-, hpend⟩ := h.finisher _ _ hpc
    exact .quiet rfl (h.winnerClaims hpend.symm hpc hc (by cases submitNow <;> rfl))
  | cancel hpc =>
    rw [show s.lifeSend _ = some (.cancel s.teardownCode) by simp [lifeSend, hpc]]
    exact h.winnerCancels hpc rfl
  | emit hpc | emitStatus hpc | emitNone hpc | settle hpc | signal hpc | remove hpc =>
    exact .quiet rfl (hpast (by rw [hpc]; rfl) rfl)
  | owedClaim hpc hc => exact .quiet rfl (h.owedClaims hpc hc)
  | owedCancel hpc =>
    rw [show s.lifeSend _ = some (.cancel s.teardownCode) by simp [lifeSend, hpc]]
    exact h.owedCancels hpc
  | owedEmit hpc => exact .quiet rfl (h.owedPast (v := s.view) (by rw [show s.view.owed = .emit from hpc]; rfl) rfl)

theorem openerStep_tokens {a : OpenAct} (hs : s.openerStep a = some (s', effects)) : Tokens s s' g none := by
  -- The opener goes on, or returns, with the stream's end made before.
  have hmove : ∀ (s₁ : Stream) {handed : List Bytes} {opener : OpenPc}, Ends s s₁ → s₁.opener ≠ .opened →
      s₁.opener ≠ .failed → Tokens s { s₁ with handed, opener } g none := by
    intro s₁ handed opener he h₁ h₂
    have hv := h.ends (ends_view he)
    unfold Tokens
    by_cases hopen : opener ≠ .opened ∧ opener ≠ .failed
    · have heq : view { s₁ with handed, opener } = s₁.view := by simp [view, isLive, hopen, h₁, h₂]
      rw [heq]
      exact hv
    · have heq : view { s₁ with handed, opener } = { s₁.view with opening := false } := by simp [view, isLive, hopen]
      rw [heq]
      exact hv.opened
  cases openerStep_move hs with
  | publish hpc hph =>
    have heq : view { s with phase := .published, opener := .send } = s.view := by simp [view, isLive, hph, hpc]
    unfold Tokens
    rw [heq, View.record_same rfl]
    exact h
  | late hpc | sent hpc | sentCtx hpc | unknown hpc | unsent hpc | ended hpc => exact hmove s .same (by simp [hpc]) (by simp [hpc])
  | confirm _ hph =>
    have hl : s.view.live = true := by simp [view, isLive, hph]
    exact .quiet rfl (h.confirmed hl)
  | @ambiguous deadline hpc =>
    obtain ⟨phase, tc, accum, fin, status, heq⟩ := (ends_mapCtx (s := s) deadline).frame
    exact hmove _ (ends_mapCtx deadline) (by simp [heq, hpc]) (by simp [heq, hpc])
  | discard hpc =>
    have he : Ends s s.discardUnaccepted := ends_terminate .crashed (by simp)
    obtain ⟨phase, tc, accum, fin, status, heq⟩ := he.frame
    exact hmove _ he (by simp [heq, hpc]) (by simp [heq, hpc])
  | resolve hpc =>
    have hopen : s.view.opening = true := by simp [view, hpc]
    have hret : ∀ owed, view { s with opener := if s.phase = .term .completed then .opened else .failed, owed } =
        { s.view with opening := false, owed } := by
      intro owed
      simp only [view, isLive]
      split <;> simp_all
    refine .quiet rfl ?_
    rw [hret]
    split
    · exact h.opened
    · next hcode =>
      exact h.owes hopen (by simp only [not_or] at hcode; simpa [View.needed, view] using hcode.1)

theorem senderStep_tokens {a : SendAct} (hs : s.senderStep e a = some (s', effects)) : Tokens s s' g none := by
  obtain ⟨s₁, _, _, _, _, _, _, _, he, rfl⟩ := senderStep_frame hs
  exact .ends h he rfl

theorem receiverStep_tokens {a : RecvAct} (hs : s.receiverStep e a = some (s', effects)) : Tokens s s' g none := by
  obtain ⟨⟨_, _, _, _, _, _, _, rfl⟩, -⟩ := receiverStep_frame hs
  exact .quiet rfl h

theorem arm_tokens (hs : s.arm = (s', effects)) : Tokens s s' g none := by
  obtain ⟨⟨_, rfl⟩, -⟩ := arm_frame hs
  exact .quiet rfl h

theorem dispatch_tokens (f : StreamFrame) : Tokens s (s.dispatch p f).1 g none := by
  obtain ⟨_, _, _, _, _, _, -, he⟩ := dispatch_frame s p f
  have hv := ends_view he
  exact h.ends hv

/-- **A step of a stream keeps the protocol**, whichever goroutine takes it. -/
theorem step_tokens {a : Act} (hs : s.step e a = some (s', effects)) : Tokens s s' g (s.lifeSend a) := by
  cases a with
  | opener a => exact openerStep_tokens h hs
  | sender a => exact senderStep_tokens h hs
  | receiver a => exact receiverStep_tokens h hs
  | acker a => exact ackStep_tokens h hs
  | finisher a => exact finishStep_tokens h hs
  | ending a => exact .ends h (endStep_ends hs).1 rfl

end

theorem tokened_new (side : StreamSide) (cfg : StreamConfig) : (newStream side cfg).view.Tokened .zero := by
  cases side with
  | client => exact ⟨.free rfl nofun rfl, fun _ => ⟨rfl, rfl, rfl, rfl⟩, nofun, nofun, nofun, fun h => absurd rfl h,
      fun _ => ⟨rfl, rfl⟩, [], rfl⟩
  | server => exact ⟨.free rfl nofun rfl, fun _ => ⟨rfl, rfl, rfl, rfl⟩, nofun, nofun, rfl, fun h => absurd rfl h,
      nofun, [], rfl⟩

end Stream

end Styx
