/-
One stream by itself, under every interleaving of its goroutines, with the loop of
`claimTerminalToken` a compare-and-swap at a time.

The outside is any environment at any step and any inbound frame, so whatever a
table's run does to one of its streams is a run here (`solo_of_table`). The tally
beside the stream records who ended it and what was submitted on its lifecycle lane.
-/
import Styx.Stream.Table
import Styx.Stream.Token

namespace Styx

/-- A claimant's place in the loop: the round it is in, and whether the round's first
compare-and-swap has failed. -/
structure Spin where
  round : Nat
  second : Bool
  deriving DecidableEq

def Spin.start : Spin := ⟨1, false⟩

structure Solo where
  s : Stream
  finisherSpin : Spin
  owedSpin : Spin
  tally : Tally

namespace Solo

def new (s : Stream) : Solo := ⟨s, .start, .start, .zero⟩

/-- The acts whose source is the loop. -/
def spins (s : Stream) : Stream.Act → Bool
  | .finisher .claim =>
    match s.finisher with
    | .claim _ presend => !presend
    | _ => false
  | .finisher .owedClaim => true
  | _ => false

inductive Act
  | act (e : Env) (a : Stream.Act)
  /-- The next compare-and-swap of the winner, and of the opener's detached sender. -/
  | finisherCas (e : Env)
  | owedCas (e : Env)
  | inbound (p : ChunkPolicy) (f : StreamFrame)
  /-- `ReaderDrained`'s sweep comes to the stream. -/
  | sweep

def record (x : Solo) (s' : Stream) (sent : Option StreamFrame) : Solo :=
  { x with s := s', tally := x.tally.record x.s.view s'.view sent }

/-- One compare-and-swap of the loop: `none` if it succeeds. -/
def cas (t : LifecycleToken) (spin : Spin) : Option Spin :=
  if spin.second then
    if t = .ackOutstanding then none else some ⟨spin.round + 1, false⟩
  else
    if t = .idle then none else some { spin with second := true }

def step (x : Solo) : Act → Option Solo
  | .act e a => if spins x.s a then none else (x.s.step e a).map fun r => x.record r.1 (x.s.lifeSend a)
  | .finisherCas e =>
    if spins x.s (.finisher .claim) then
      match cas x.s.token x.finisherSpin with
      | some spin => some { x with finisherSpin := spin }
      | none => (x.s.finishStep e .claim).map fun r => { x.record r.1 none with finisherSpin := .start }
    else none
  | .owedCas e =>
    if x.s.owed = .claim then
      match cas x.s.token x.owedSpin with
      | some spin => some { x with owedSpin := spin }
      | none => (x.s.finishStep e .owedClaim).map fun r => { x.record r.1 none with owedSpin := .start }
    else none
  | .inbound p f => some (x.record (x.s.dispatch p f).1 none)
  | .sweep => some (x.record x.s.arm.1 none)

/-! ## The loop

A claimant finds the token idle or with the dispatcher. If the dispatcher gives it
back between the two compare-and-swaps, it does not get it again: the stream has
ended, so its next check fails. -/

/-- What a claimant in the loop knows. -/
def Spun (s : Stream) (spin : Spin) : Prop :=
  spin = .start ∨ s.isLive = false ∧ s.acker ≠ .checked ∧
    (spin = ⟨1, true⟩ ∨ spin = ⟨2, false⟩ ∧ s.token ≠ .ackOutstanding)

/-- What the loop relies on, in a stream that has ended. -/
structure Dead (s s' : Stream) : Prop where
  live : s'.isLive = false
  acker : s'.acker ≠ .checked
  token : s.token ≠ .ackOutstanding → s'.token ≠ .ackOutstanding

section Dead

variable {e : Env} {s s₁ s' : Stream} {effects : List Effect} {spin : Spin}

theorem ackStep_dead {a : Stream.AckAct} (hl : s.isLive = false) (hc : s.acker ≠ .checked)
    (hs : s.ackStep a = some (s', effects)) : Dead s s' := by
  cases Stream.ackStep_move hs with
  | check _ hlive => simp [hl] at hlive
  | token hpc => exact absurd hpc hc
  | release | owe => exact ⟨hl, (by simp), fun _ => (by simp)⟩
  | reArm => exact ⟨hl, hc, id⟩
  | _ => exact ⟨hl, (by simp), id⟩

theorem claimed_token {t t' : LifecycleToken} {needCancel submitNow : Bool}
    (h : Stream.claimTerminalToken t needCancel = some (t', submitNow)) : t' ≠ .ackOutstanding := by
  cases t <;> cases needCancel <;> cases h <;> simp

theorem finishStep_dead {a : Stream.FinishAct} (hl : s.isLive = false) (hc : s.acker ≠ .checked)
    (hs : s.finishStep e a = some (s', effects)) : Dead s s' := by
  cases Stream.finishStep_move hs with
  | claim _ htok | owedClaim _ htok => exact ⟨hl, hc, fun _ => claimed_token htok⟩
  | _ => exact ⟨hl, hc, id⟩

theorem step_dead {a : Stream.Act} (hl : s.isLive = false) (hc : s.acker ≠ .checked)
    (hs : s.step e a = some (s', effects)) : Dead s s' := by
  cases a with
  | opener a =>
    obtain ⟨s₁, phase, handed, opener, pending, owed, hends, hphase, -, rfl⟩ := Stream.openerStep_frame hs
    rw [hends.eq_of_ended hl] at hphase ⊢
    rcases hphase with rfl | ⟨hph, -⟩
    · exact ⟨hl, hc, id⟩
    · simp [Stream.isLive, hph] at hl
  | sender a =>
    obtain ⟨s₁, _, _, _, _, _, _, _, hends, rfl⟩ := Stream.senderStep_frame hs
    rw [hends.eq_of_ended hl]
    exact ⟨hl, hc, id⟩
  | receiver a =>
    obtain ⟨⟨_, _, _, _, _, _, _, rfl⟩, -⟩ := Stream.receiverStep_frame hs
    exact ⟨hl, hc, id⟩
  | acker a => exact ackStep_dead hl hc hs
  | finisher a => exact finishStep_dead hl hc hs
  | ending a =>
    rw [(Stream.endStep_ends hs).1.eq_of_ended hl]
    exact ⟨hl, hc, id⟩

theorem Spun.step (h : Spun s spin) (hd : s.isLive = false → s.acker ≠ .checked → Dead s s') : Spun s' spin := by
  rcases h with h | ⟨hl, hc, hspin⟩
  · exact .inl h
  · have hdead := hd hl hc
    exact .inr ⟨hdead.live, hdead.acker, hspin.imp_right fun ⟨heq, htok⟩ => ⟨heq, hdead.token htok⟩⟩

theorem dispatch_dead (p : ChunkPolicy) (f : StreamFrame) (hl : s.isLive = false) (hc : s.acker ≠ .checked) :
    Dead s (s.dispatch p f).1 := by
  unfold Stream.dispatch
  rw [if_neg (by simp [hl])]
  exact ⟨hl, hc, id⟩

theorem arm_dead (hl : s.isLive = false) (hc : s.acker ≠ .checked) : Dead s s.arm.1 := by
  unfold Stream.arm
  split <;> exact ⟨hl, hc, id⟩

/-- A compare-and-swap that fails. What is claimed is idle or the dispatcher's, so the
first one fails on a dispatcher that has the token, and the second on one that has
given it back. -/
theorem Spun.cas {spin' : Spin} {g : Tally} (h : Spun s spin) (ht : s.view.Tokened g) {need : Bool}
    (hcl : s.view.claimant = .claiming need) (hl : s.isLive = false) (hcas : Solo.cas s.token spin = some spin') :
    Spun s spin' := by
  have hst : Stage s.view.needed s.token s.acker s.view.claimant g.cancels := ht.stage
  rw [hcl] at hst
  have htok := hst.claiming
  rcases h with rfl | ⟨-, hc, rfl | ⟨rfl, hne⟩⟩ <;>
    simp only [Solo.cas, Spin.start, Bool.false_eq_true, if_false, if_true] at hcas
  · split at hcas <;> cases hcas
    next hidle =>
    refine .inr ⟨hl, fun hck => ?_, .inl rfl⟩
    have hheld := (htok.resolve_left hidle).2
    rw [hck] at hheld
    cases hheld
  · split at hcas <;> cases hcas
    next hne => exact .inr ⟨hl, hc, .inr ⟨rfl, hne⟩⟩
  · have hidle : s.token = .idle := htok.resolve_right fun h => hne h.1
    rw [hidle] at hcas
    cases hcas

end Dead

/-! ## Runs -/

/-- A stream as it is admitted: opened here, or accepted from the peer. -/
inductive Admitted : Stream → Prop
  | opened (cfg : StreamConfig) : Admitted (newStream .client cfg)
  | accepted (credits : Nat) (shape : StreamShape) (payload : Bytes) :
    Admitted (Table.acceptedStream credits shape payload)

structure Inv (x : Solo) : Prop where
  token : x.s.view.Tokened x.tally
  finisher : Spun x.s x.finisherSpin
  owed : Spun x.s x.owedSpin

variable {s : Stream} {g : Tally} {t t' : Table} {cfg : TableConfig}

theorem inv_new (h : Admitted s) : (new s).Inv := by
  refine ⟨?_, .inl rfl, .inl rfl⟩
  cases h with
  | opened cfg => exact Stream.tokened_new .client cfg
  | accepted credits shape payload => exact Stream.tokened_new .server ⟨credits, shape, if shape = .serverStreaming then payload else []⟩

theorem claimant_finisher (h : s.view.Tokened g) (hs : spins s (.finisher .claim) = true) :
    s.isLive = false ∧ ∃ need, s.view.claimant = .claiming need := by
  simp only [spins] at hs
  split at hs
  · next l presend hpc =>
    obtain ⟨-, hp⟩ := h.finisher l presend hpc
    have hpend : s.view.pending = false := by
      rw [← hp]
      simpa using hs
    refine ⟨h.dead (.inl (by rw [show s.view.finisher = _ from hpc]; simp)), l, ?_⟩
    simp only [View.claimant, hpend, show s.view.finisher = _ from hpc]
    rfl
  · cases hs

theorem claimant_owed (h : s.view.Tokened g) (hpc : s.owed = .claim) :
    s.isLive = false ∧ s.view.claimant = .claiming true := by
  have hpc' : s.view.owed = .claim := hpc
  have hpend : s.view.pending = true := by
    by_contra hp
    have ho := h.other
    rw [if_neg hp, hpc'] at ho
    cases ho
  refine ⟨(h.owed (by simp [hpc'])).1, ?_⟩
  simp only [View.claimant, hpend, hpc']
  rfl

theorem Inv.step {x y : Solo} {a : Act} (h : x.Inv) (hs : x.step a = some y) : y.Inv := by
  cases a <;> simp only [Solo.step] at hs
  case act e a =>
    split at hs
    · cases hs
    obtain ⟨⟨s', effects⟩, hstep, rfl⟩ := Option.map_eq_some_iff.mp hs
    have hdead := fun hl hc => step_dead hl hc hstep
    exact ⟨Stream.step_tokens h.token hstep, h.finisher.step hdead, h.owed.step hdead⟩
  case finisherCas e =>
    split at hs
    · next hsp =>
      obtain ⟨hl, need, hcl⟩ := claimant_finisher h.token hsp
      split at hs
      · next spin hcas =>
        cases hs
        exact ⟨h.token, h.finisher.cas h.token hcl hl hcas, h.owed⟩
      · obtain ⟨⟨s', effects⟩, hstep, rfl⟩ := Option.map_eq_some_iff.mp hs
        exact ⟨Stream.finishStep_tokens h.token hstep, .inl rfl, h.owed.step fun hl hc => finishStep_dead hl hc hstep⟩
    · cases hs
  case owedCas e =>
    split at hs
    · next hpc =>
      obtain ⟨hl, hcl⟩ := claimant_owed h.token hpc
      split at hs
      · next spin hcas =>
        cases hs
        exact ⟨h.token, h.finisher, h.owed.cas h.token hcl hl hcas⟩
      · obtain ⟨⟨s', effects⟩, hstep, rfl⟩ := Option.map_eq_some_iff.mp hs
        exact ⟨Stream.finishStep_tokens h.token hstep, h.finisher.step fun hl hc => finishStep_dead hl hc hstep, .inl rfl⟩
    · cases hs
  case inbound p f =>
    cases hs
    exact ⟨Stream.dispatch_tokens h.token f, h.finisher.step (dispatch_dead p f), h.owed.step (dispatch_dead p f)⟩
  case sweep =>
    cases hs
    exact ⟨Stream.arm_tokens h.token rfl, h.finisher.step arm_dead, h.owed.step arm_dead⟩

/-! ## One teardown -/

def inFlight (s : Stream) : Nat :=
  (match s.acker with
    | .built _ | .owing => 1
    | _ => 0) +
  (if s.finisher = .cancel then 1 else 0) + (if s.owed = .cancel then 1 else 0)

/-- The winner, the dispatcher and the opener's detached sender have nothing left to do. -/
def Settled (s : Stream) : Prop :=
  s.finisher = .finished ∧ s.acker = .idle ∧ (s.owed = .none ∨ s.owed = .finished)

structure OneTeardown (x : Solo) : Prop where
  inFlight : Solo.inFlight x.s ≤ 1
  once : x.tally.cancels ≤ 1
  /-- Nothing is submitted on the lifecycle lane after the `CANCEL`. -/
  last : ∀ before f after, x.tally.life = before ++ f :: after → f.isCancel = true → after = []
  onlyLocal : x.tally.cancels ≠ 0 → ∃ presend, x.tally.won = some (true, presend)
  submitted : x.tally.won = some (true, false) → Settled x.s → x.tally.cancels = 1
  rounds : x.finisherSpin.round ≤ 2 ∧ x.owedSpin.round ≤ 2

theorem Spun.round {spin : Spin} (h : Spun s spin) : spin.round ≤ 2 := by
  rcases h with rfl | ⟨-, -, rfl | ⟨rfl, -⟩⟩ <;> decide

theorem sending_claimant (h : s.view.Tokened g) :
    (if s.finisher = .cancel then 1 else 0) + (if s.owed = .cancel then 1 else 0) =
      if s.view.claimant = .cancelling then 1 else 0 := by
  have hother : if s.openSendPending then s.finisher ≠ .cancel else s.owed = .none := h.other
  have hcl : s.view.claimant = if s.openSendPending then s.owed.claimant else s.finisher.claimant := rfl
  cases hp : s.openSendPending <;> rw [hp] at hother hcl <;>
    simp only [Bool.false_eq_true, if_false, if_true] at hother hcl <;> rw [hcl]
  · rw [hother]
    cases s.finisher <;> rfl
  · rw [if_neg hother]
    cases s.owed <;> rfl

theorem Inv.inFlight {x : Solo} (h : x.Inv) : Solo.inFlight x.s ≤ 1 := by
  have hst : Stage x.s.view.needed x.s.token x.s.acker x.s.view.claimant x.tally.cancels := h.token.stage
  have hcount := sending_claimant h.token
  unfold Solo.inFlight
  by_cases hc : x.s.view.claimant = .cancelling
  · rw [hc] at hst
    obtain ⟨hfree, hne⟩ := hst.exclusive
    rw [if_pos hc] at hcount
    split
    · next hpc => rw [hpc] at hfree; cases hfree
    · next hpc => exact absurd hpc hne
    · omega
  · rw [if_neg hc] at hcount
    split <;> omega

theorem Inv.last {x : Solo} (h : x.Inv) {before after : List StreamFrame} {f : StreamFrame}
    (hlife : x.tally.life = before ++ f :: after) (hf : f.isCancel = true) : after = [] := by
  obtain ⟨acks, hacks⟩ := h.token.life
  have hone := h.token.stage.le_one
  -- The log is acknowledgements and at most one `CANCEL`; `f` is none of the former.
  have hmem : f ∉ acks.map StreamFrame.streamAck := by
    intro hin
    obtain ⟨v, -, rfl⟩ := List.mem_map.mp hin
    cases hf
  rw [hlife] at hacks
  have hlen := congrArg List.length hacks
  have hge : (acks.map StreamFrame.streamAck).length ≤ before.length := by
    by_contra hlt
    apply hmem
    have hget := congrArg (·[before.length]?) hacks
    simp only [List.getElem?_append_right (le_refl _), Nat.sub_self, List.getElem?_cons_zero] at hget
    rw [List.getElem?_append_left (by omega)] at hget
    exact List.mem_of_getElem? hget.symm
  simp only [List.length_append, List.length_cons, List.length_replicate] at hlen
  exact List.length_eq_zero_iff.mp (by omega)

theorem Inv.submitted {x : Solo} (h : x.Inv) (hwon : x.tally.won = some (true, false)) (hs : Settled x.s) :
    x.tally.cancels = 1 := by
  have hl : x.s.view.live = false := h.token.dead (.inl (by rw [show x.s.view.finisher = _ from hs.1]; simp))
  obtain ⟨hrec, -⟩ := h.token.ended hl
  rw [hwon] at hrec
  obtain ⟨hneed, hpend⟩ := Prod.mk.inj (Option.some.inj hrec)
  have hst : Stage x.s.view.needed x.s.token x.s.acker x.s.view.claimant x.tally.cancels := h.token.stage
  have hcl : x.s.view.claimant = .past := by
    simp only [View.claimant, ← hpend, show x.s.view.finisher = _ from hs.1]
    rfl
  rw [hcl, hs.2.1] at hst
  exact hst.settled hneed.symm

open Machine

/-- **One lifecycle `Send` at a time and one teardown**, in every interleaving. -/
theorem one_teardown {s : Stream} {x : Solo} (hs : Admitted s) (h : Reach step Any (new s) x) : x.OneTeardown := by
  have hi : x.Inv := h.invariant (inv_new hs) fun hi _ hstep => hi.step hstep
  refine ⟨hi.inFlight, hi.token.stage.le_one, fun _ _ _ => hi.last, fun hne => ?_, hi.submitted, hi.finisher.round,
    hi.owed.round⟩
  have hneed := hi.token.stage.needed_of_sent hne
  have hl : x.s.view.live = false := by
    cases hl : x.s.view.live with
    | false => rfl
    | true => simp [View.needed, (hi.token.live hl).1] at hneed
  obtain ⟨hwon, -⟩ := hi.token.ended hl
  rw [hneed] at hwon
  exact ⟨_, hwon⟩

def sampleEnv : Env := ⟨⟨false, 64, 16, 16⟩, true, true⟩

def sampleActs : List Act :=
  [.act sampleEnv (.opener .publish), .act sampleEnv (.opener (.send .accepted false)), .act sampleEnv (.opener .confirm),
    .inbound sampleEnv.policy (.streamMsg 1 [7]), .act sampleEnv (.receiver .pop), .act sampleEnv (.receiver .deliver),
    .act sampleEnv (.receiver .arm), .act sampleEnv (.acker .pop), .act sampleEnv (.acker .check),
    .act sampleEnv (.acker .token), .act sampleEnv (.acker .build), .act sampleEnv (.acker (.send true)),
    .act sampleEnv (.acker .settle), .act sampleEnv (.ending (.ctx false)), .finisherCas sampleEnv,
    .act sampleEnv (.acker .release), .finisherCas sampleEnv, .finisherCas sampleEnv,
    .act sampleEnv (.finisher (.cancel true)), .act sampleEnv (.finisher .emit), .act sampleEnv (.finisher .settle),
    .act sampleEnv (.finisher .signal), .act sampleEnv (.finisher .remove)]

def sample : Solo := (run step (new (newStream .client ⟨1, .bidiStreaming, []⟩)) sampleActs).get (by decide +kernel)

theorem one_teardown_sample : sample.OneTeardown ∧ sample.tally = ⟨some (true, false), [.streamAck 1, .cancel 0xFFFFFF04]⟩ :=
  ⟨one_teardown (.opened ⟨1, .bidiStreaming, []⟩) (Reach.of_run (Option.some_get _).symm), by decide +kernel⟩

/-! ## Streams of a table -/

def Idle (x : Solo) : Prop := x.finisherSpin = .start ∧ x.owedSpin = .start

variable {x : Solo} {e : Env} {s' : Stream} {effects : List Effect}

theorem claimable {t t' : LifecycleToken} {needCancel submitNow : Bool}
    (h : Stream.claimTerminalToken t needCancel = some (t', submitNow)) : t = .idle ∨ t = .ackOutstanding := by
  cases t with
  | idle => exact .inl rfl
  | ackOutstanding => exact .inr rfl
  | cancelOwed | terminal => cases h

/-- The claim that the engine's model makes in one step is one compare-and-swap of the
loop, or two. -/
theorem reach_claim (hx : x.Idle) (hsp : spins x.s (.finisher .claim) = true)
    (hs : x.s.finishStep e .claim = some (s', effects)) : ∃ y : Solo, Reach step Any x y ∧ y.s = s' ∧ y.Idle := by
  obtain ⟨hfin, howed⟩ := hx
  have htok : x.s.token = .idle ∨ x.s.token = .ackOutstanding := by
    cases Stream.finishStep_move hs with
    | presend hpc => simp [spins, hpc] at hsp
    | claim _ hc => exact claimable hc
  have hlast : ∀ x' : Solo, x'.s = x.s → x'.owedSpin = .start → cas x'.s.token x'.finisherSpin = none →
      ∃ y : Solo, Reach step Any x' y ∧ y.s = s' ∧ y.Idle := by
    intro x' hxs how hcas
    rw [hxs] at hcas
    refine ⟨{ x'.record s' none with finisherSpin := .start }, .tail (a := .finisherCas e) .refl trivial ?_, rfl, rfl, how⟩
    simp only [Solo.step, hcas, hxs, hsp, hs, if_true, Option.map_some]
  rcases htok with htok | htok
  · exact hlast x rfl howed (by simp [cas, hfin, htok, Spin.start])
  · have hone : Reach step Any x { x with finisherSpin := ⟨1, true⟩ } := by
      refine .tail (a := .finisherCas e) .refl trivial ?_
      simp [Solo.step, hsp, cas, hfin, htok, Spin.start]
    obtain ⟨y, hy, hys, hidle⟩ := hlast { x with finisherSpin := ⟨1, true⟩ } rfl howed (by simp [cas, htok])
    exact ⟨y, hone.trans hy, hys, hidle⟩

theorem reach_owedClaim (hx : x.Idle) (hs : x.s.finishStep e .owedClaim = some (s', effects)) :
    ∃ y : Solo, Reach step Any x y ∧ y.s = s' ∧ y.Idle := by
  obtain ⟨hfin, howed⟩ := hx
  obtain ⟨hpc, htok⟩ : x.s.owed = .claim ∧ (x.s.token = .idle ∨ x.s.token = .ackOutstanding) := by
    cases Stream.finishStep_move hs with
    | owedClaim hpc hc => exact ⟨hpc, claimable hc⟩
  have hlast : ∀ x' : Solo, x'.s = x.s → x'.finisherSpin = .start → cas x'.s.token x'.owedSpin = none →
      ∃ y : Solo, Reach step Any x' y ∧ y.s = s' ∧ y.Idle := by
    intro x' hxs hfi hcas
    rw [hxs] at hcas
    refine ⟨{ x'.record s' none with owedSpin := .start }, .tail (a := .owedCas e) .refl trivial ?_, rfl, hfi, rfl⟩
    simp only [Solo.step, hcas, hxs, hpc, hs, if_true, Option.map_some]
  rcases htok with htok | htok
  · exact hlast x rfl hfin (by simp [cas, howed, htok, Spin.start])
  · have hone : Reach step Any x { x with owedSpin := ⟨1, true⟩ } := by
      refine .tail (a := .owedCas e) .refl trivial ?_
      simp [Solo.step, hpc, cas, howed, htok, Spin.start]
    obtain ⟨y, hy, hys, hidle⟩ := hlast { x with owedSpin := ⟨1, true⟩ } rfl hfin (by simp [cas, htok])
    exact ⟨y, hone.trans hy, hys, hidle⟩

theorem reach_step {a : Stream.Act} (hx : x.Idle) (hs : x.s.step e a = some (s', effects)) :
    ∃ y : Solo, Reach step Any x y ∧ y.s = s' ∧ y.Idle := by
  cases hsp : spins x.s a with
  | false =>
    refine ⟨x.record s' (x.s.lifeSend a), .tail (a := .act e a) .refl trivial ?_, rfl, hx⟩
    simp only [Solo.step, hsp, hs, Bool.false_eq_true, if_false, Option.map_some]
  | true =>
    cases a with
    | finisher a =>
      cases a with
      | claim => exact reach_claim (e := e) hx hsp hs
      | owedClaim => exact reach_owedClaim (e := e) hx hs
      | _ => cases hsp
    | _ => cases hsp

/-- Where one of a table's streams is, a run of the stream by itself has been; the frames published on the way are not
compared. -/
def Covers (s : Stream) : Prop := ∃ s₀ x, Admitted s₀ ∧ Reach step Any (new s₀) x ∧ x.s = s ∧ x.Idle

theorem Covers.next (h : Covers s) (hs : ∀ x : Solo, x.Idle → x.s = s → ∃ y, Reach step Any x y ∧ y.s = s' ∧ y.Idle) :
    Covers s' := by
  obtain ⟨s₀, x, hadm, hx, hxs, hidle⟩ := h
  obtain ⟨y, hy, hys, hidle'⟩ := hs x hidle hxs
  exact ⟨s₀, y, hadm, hx.trans hy, hys, hidle'⟩

theorem covers_update {id : UInt64} (h : ∀ id s, t.streams id = some s → Covers s)
    (hst : t'.streams = Function.update t.streams id (some s')) (hs : Covers s') :
    ∀ id s, t'.streams id = some s → Covers s := by
  intro id' s hid
  rcases update_eq_some (hst ▸ hid) with ⟨-, rfl⟩ | ⟨-, hid⟩
  · exact hs
  · exact h id' s hid

theorem covers_step {a : Table.Act} {out : List Sent}
    (h : ∀ id s, t.streams id = some s → Covers s) (hs : t.step cfg a = some (t', out)) :
    ∀ id s, t'.streams id = some s → Covers s := by
  cases a with
  | openClient id scfg budget =>
    obtain ⟨-, ⟨⟩⟩ := guard_some hs
    exact covers_update h rfl ⟨_, _, .opened _, .refl, rfl, rfl, rfl⟩
  | onStreamOpen id reg control budget payload =>
    obtain ⟨-, ⟨⟩⟩ := guard_some hs
    rcases Table.onStreamOpen_cases cfg t id reg control budget payload with ⟨-, heq⟩ | ⟨jobs, -, heq⟩ | ⟨shape, -, heq⟩ <;>
      rw [heq]
    · exact h
    · exact h
    · exact covers_update h rfl ⟨_, _, .accepted _ _ _, .refl, rfl, rfl, rfl⟩
  | inbound id f =>
    simp only [Table.step, Option.some.injEq, Prod.mk.injEq] at hs
    obtain ⟨rfl, -⟩ := hs
    rcases Table.dispatch_cases cfg t id f with heq | ⟨s, -, hst, heq⟩ <;> rw [heq]
    · exact h
    · refine covers_update h rfl ((h id s hst).next fun x hidle hxs => ?_)
      exact ⟨x.record (x.s.dispatch cfg.policy f).1 none, .tail (a := .inbound cfg.policy f) .refl trivial rfl,
        by rw [← hxs]; rfl, hidle⟩
  | stream id a =>
    obtain ⟨s, s', effects, -, hstep, hw⟩ := Table.streamStep_some hs
    refine covers_update h hw.streams ((h id s hw.stream).next fun x hidle hxs => ?_)
    rw [← hxs] at hstep
    exact reach_step hidle hstep
  | sweep id =>
    obtain ⟨s, -, hw⟩ := Table.sweepStep_some hs
    refine covers_update h hw.streams ((h id s hw.stream).next fun x hidle hxs => ?_)
    exact ⟨x.record x.s.arm.1 none, .tail (a := .sweep) .refl trivial rfl, by rw [← hxs]; rfl, hidle⟩
  | readerDrained | markClosing =>
    cases hs
    exact h
  | emitTake =>
    obtain ⟨t₁, ht, heq⟩ := Option.map_eq_some_iff.mp hs
    cases heq
    unfold Table.emitTake at ht
    split at ht <;> cases ht
    exact h
  | emitSend ok =>
    simp only [Table.step, Table.emitSend] at hs
    split at hs <;> cases hs
    exact h
  | emitSettle =>
    obtain ⟨t₁, ht, heq⟩ := Option.map_eq_some_iff.mp hs
    cases heq
    unfold Table.emitSettle at ht
    split at ht
    · cases ht
      split <;> exact h
    · cases ht

/-- **Whatever a table's run does to a stream is a run of the stream by itself.** -/
theorem solo_of_table (h : Reach (fun t a => (Table.step cfg t a).map Prod.fst) Any Table.empty t) :
    ∀ id s, t.streams id = some s → Covers s := by
  induction h with
  | refl =>
    intro id s hid
    simp [Table.empty] at hid
  | tail _ _ hs ih =>
    obtain ⟨⟨t', out⟩, hstep, rfl⟩ := Option.map_eq_some_iff.mp hs
    exact covers_step ih hstep

/-- A stream opened and cancelled by its caller, its `CANCEL` out. -/
def cancelledTable : Table :=
  (run (fun t a => (Table.step ⟨.client, 1, sampleEnv.policy⟩ t a).map Prod.fst) Table.empty
    [.openClient 1 ⟨1, .bidiStreaming, []⟩ 1, .stream 1 (.opener .publish), .stream 1 (.opener (.send .accepted false)),
      .stream 1 (.opener .confirm), .stream 1 (.ending (.ctx false)), .stream 1 (.finisher .claim),
      .stream 1 (.finisher (.cancel true))]).get (by decide +kernel)

theorem solo_of_table_cancelled : ∃ s, cancelledTable.streams 1 = some s ∧ s.isLive = false ∧ Covers s :=
  ⟨(cancelledTable.streams 1).get (by decide +kernel), (Option.some_get _).symm, by decide +kernel,
    solo_of_table (Reach.of_run (Option.some_get _).symm) 1 _ (Option.some_get _).symm⟩

end Solo

end Styx
