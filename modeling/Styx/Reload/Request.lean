/-
A `Reload` call and the loop that services it: the request channel, the outcome's own
channel and the end of supervision, each operation a step.

A request is in one place: with its caller, in the channel, with the loop, or answered.
But the caller waits for its outcome and for the end of `Run` at once, and takes either:
an outcome delivered to a caller that has not run since is lost if `Run` ends first
(`reload_outcome_lost`). `Unread` is the condition that it does not.
-/
import Styx.Reload.Supervision

namespace Styx

open Machine

namespace Supervisor

/-- What `serviceReload` delivers for a request. -/
def Request.outcome (r : Request) : Option Err := if r.ctxErr.isSome then r.ctxErr else r.calls.run.2

theorem Calls.run_nil {c : Calls} : c.run.2 = none ↔ c.run.1 = true ∧ c.joined = true := by
  unfold run teardown
  repeat' split
  all_goals simp_all

/-- What `Reload` returns; `unavailable` is `ErrReloadUnavailable`. -/
inductive Result
  | outcome (err : Option Err)
  | unavailable
  deriving DecidableEq

namespace Reloads

inductive CallPc
  | fresh
  /-- At the first select, the request not sent; at the second. -/
  | offering
  | waiting
  | returned (r : Result)
  deriving DecidableEq

structure Caller where
  pc : CallPc
  ctxErr : Option Err
  /-- The request's `done`, of capacity one. -/
  done : Option (Option Err)
  deriving DecidableEq

inductive LoopPc
  /-- No instance is in its heartbeat loop. -/
  | away
  | serving
  /-- The request has been serviced; its outcome goes to `done` next. -/
  | delivering (j : Nat) (r : Request)
  deriving DecidableEq

end Reloads

structure Reloads where
  callers : Nat → Reloads.Caller
  reloadCh : Option Nat
  doneCh : Bool
  loop : Reloads.LoopPc
  /-- Ghost: the requests whose outcome the loop has delivered. -/
  served : List (Nat × Request)

namespace Reloads

def start : Reloads := ⟨fun _ => ⟨.fresh, none, none⟩, none, false, .away, []⟩

inductive Act
  | call (j : Nat) (admission : Bool)
  /-- The caller's context ends. -/
  | cancel (j : Nat) (e : Err)
  | send (j : Nat)
  | expire (j : Nat)
  | receive (j : Nat)
  /-- Either select finds `doneCh` closed. -/
  | quit (j : Nat)
  | enter
  | leave
  | service (calls : Calls)
  | deliver
  /-- `Run` returns. -/
  | finish
  deriving DecidableEq

def set (s : Reloads) (j : Nat) (c : Caller) : Reloads := { s with callers := Function.update s.callers j c }

def step (s : Reloads) : Act → Option Reloads
  | .call j admission =>
    if (s.callers j).pc ≠ .fresh then none
    else
      match (s.callers j).ctxErr with
      | some e => some (s.set j { s.callers j with pc := .returned (.outcome (some e)) })
      | none => some (s.set j { s.callers j with pc := if admission then .offering else .returned .unavailable })
  | .cancel j e => if (s.callers j).ctxErr = none then some (s.set j { s.callers j with ctxErr := some e }) else none
  | .send j =>
    if (s.callers j).pc = .offering ∧ s.reloadCh = none then
      some { s.set j { s.callers j with pc := .waiting } with reloadCh := some j }
    else none
  | .expire j =>
    if (s.callers j).pc = .offering ∧ (s.callers j).ctxErr.isSome then
      some (s.set j { s.callers j with pc := .returned (.outcome (s.callers j).ctxErr) })
    else none
  | .receive j =>
    match (s.callers j).done with
    | some err =>
      if (s.callers j).pc = .waiting then some (s.set j { s.callers j with pc := .returned (.outcome err), done := none })
      else none
    | none => none
  | .quit j =>
    if s.doneCh ∧ ((s.callers j).pc = .offering ∨ (s.callers j).pc = .waiting) then
      some (s.set j { s.callers j with pc := .returned .unavailable })
    else none
  | .enter => if s.loop = .away ∧ ¬ s.doneCh then some { s with loop := .serving } else none
  | .leave => if s.loop = .serving then some { s with loop := .away } else none
  | .service calls =>
    match s.reloadCh with
    | some j =>
      if s.loop = .serving then some { s with reloadCh := none, loop := .delivering j ⟨(s.callers j).ctxErr, calls⟩ } else none
    | none => none
  | .deliver =>
    match s.loop with
    | .delivering j r =>
      if (s.callers j).done = none then
        some { s.set j { s.callers j with done := some r.outcome } with loop := .serving, served := s.served ++ [(j, r)] }
      else none
    | _ => none
  | .finish => if s.loop = .away then some { s with doneCh := true } else none

/-! ## Where a request is -/

def CallPc.early : CallPc → Bool
  | .fresh | .offering => true
  | _ => false

variable {s t : Reloads} {j : Nat} {c : Caller} {a : Act}

def Caller.Sent (c : Caller) (doneCh : Bool) : Prop :=
  c.done = none ∧ (c.pc = .waiting ∨ doneCh = true ∧ c.pc.early = false)

def Caller.Has (c : Caller) (r : Request) : Prop :=
  c.pc = .waiting ∧ c.done = some r.outcome ∨ c.pc = .returned (.outcome r.outcome) ∧ c.done = none

theorem Caller.Sent.not_early {doneCh : Bool} (h : c.Sent doneCh) : c.pc.early = false := by
  rcases h.2 with h | h
  · rw [h]
    rfl
  · exact h.2

def Unserved (s : Reloads) (j : Nat) : Prop := ∀ r, (j, r) ∉ s.served

structure At (s : Reloads) (j : Nat) (c : Caller) : Prop where
  queued : s.reloadCh = some j → c.Sent s.doneCh ∧ s.Unserved j ∧ ∀ r, s.loop ≠ .delivering j r
  delivering : ∀ r, s.loop = .delivering j r → c.Sent s.doneCh ∧ s.Unserved j
  early : c.pc.early = true → c.done = none ∧ s.Unserved j
  served : ∀ r, (j, r) ∈ s.served → c.Has r

structure Inv (s : Reloads) : Prop where
  callers : ∀ j, s.At j (s.callers j)
  once : (s.served.map (·.1)).Nodup
  ended : s.doneCh = true → s.loop = .away ∧ ∀ j, (s.callers j).done = none

theorem inv_start : start.Inv :=
  ⟨fun _ => ⟨(fun h => by cases h), (fun _ h => by cases h), fun _ => ⟨rfl, by simp [Unserved, start]⟩, by simp [start]⟩,
    List.nodup_nil, fun h => by cases h⟩

theorem Inv.set (h : s.Inv) (hat : s.At j c) (hdone : c.done = none ∨ c.done = (s.callers j).done) : (s.set j c).Inv := by
  have hcallers : ∀ i, (s.set j c).callers i = if i = j then c else s.callers i := fun i => Function.update_apply ..
  refine ⟨fun i => ?_, h.once, fun hd => ⟨(h.ended hd).1, fun i => ?_⟩⟩
  · have hi : s.At i ((s.set j c).callers i) := by
      rw [hcallers]
      split
      · next hij => exact hij ▸ hat
      · exact h.callers i
    exact ⟨hi.queued, hi.delivering, hi.early, hi.served⟩
  · rw [hcallers]
    split
    · exact hdone.elim id fun he => he.trans ((h.ended hd).2 j)
    · exact (h.ended hd).2 i

theorem Inv.unsent (h : s.Inv) (he : (s.callers j).pc.early = true) :
    (s.callers j).done = none ∧ s.Unserved j ∧ s.reloadCh ≠ some j ∧ ∀ r, s.loop ≠ .delivering j r := by
  obtain ⟨hd, hun⟩ := (h.callers j).early he
  refine ⟨hd, hun, fun hq => ?_, fun r hl => ?_⟩
  · simp [((h.callers j).queued hq).1.not_early] at he
  · simp [((h.callers j).delivering r hl).1.not_early] at he

theorem Inv.offers (h : s.Inv) (he : (s.callers j).pc.early = true) (hd : c.done = (s.callers j).done) : (s.set j c).Inv := by
  obtain ⟨hnone, hun, hq, hl⟩ := h.unsent he
  exact h.set ⟨fun hx => absurd hx hq, fun r hx => absurd hx (hl r), fun _ => ⟨hd.trans hnone, hun⟩, fun r hm => absurd hm (hun r)⟩
    (.inr hd)

theorem Inv.service {calls : Calls} (h : s.Inv) (hq : s.reloadCh = some j) (hl : s.loop = .serving) :
    Inv { s with reloadCh := none, loop := .delivering j ⟨(s.callers j).ctxErr, calls⟩ } := by
  refine ⟨fun i => ⟨(fun hx => by cases hx), fun r hx => ?_, (h.callers i).early, (h.callers i).served⟩, h.once, fun hd => ?_⟩
  · cases hx
    exact ⟨((h.callers j).queued hq).1, ((h.callers j).queued hq).2.1⟩
  · simp [(h.ended hd).1] at hl

theorem Inv.deliver {r : Request} (h : s.Inv) (hl : s.loop = .delivering j r) :
    Inv { s.set j { s.callers j with done := some r.outcome } with loop := .serving, served := s.served ++ [(j, r)] } := by
  obtain ⟨hsent, hun⟩ := (h.callers j).delivering r hl
  have hopen : s.doneCh ≠ true := fun hd => by simp [(h.ended hd).1] at hl
  have hpc : (s.callers j).pc = .waiting := hsent.2.resolve_right fun hx => hopen hx.1
  have hmem : ∀ {i r'}, (i, r') ∈ s.served ++ [(j, r)] → (i, r') ∈ s.served ∨ i = j ∧ r' = r := by simp
  refine ⟨fun i => ?_, ?_, fun hd => absurd hd hopen⟩
  · simp only [Reloads.set]
    by_cases hij : i = j
    · subst hij
      rw [Function.update_self]
      refine ⟨fun hq => absurd hl (((h.callers i).queued hq).2.2 r), (fun _ hx => by cases hx), fun he => ?_, fun r' hm => ?_⟩
      · simp [hpc, CallPc.early] at he
      · rcases hmem hm with hm | ⟨-, rfl⟩
        · exact absurd hm (hun r')
        · exact .inl ⟨hpc, rfl⟩
    · rw [Function.update_of_ne hij]
      have hkeep : ∀ {i}, i ≠ j → s.Unserved i → ∀ r', (i, r') ∉ s.served ++ [(j, r)] := fun hne hu r' hm =>
        (hmem hm).elim (hu r') fun hx => hne hx.1
      refine ⟨fun hq => ?_, (fun _ hx => by cases hx), fun he => ?_, fun r' hm => ?_⟩
      · obtain ⟨h₁, h₂, -⟩ := (h.callers i).queued hq
        exact ⟨h₁, hkeep hij h₂, by simp⟩
      · exact ⟨((h.callers i).early he).1, hkeep hij ((h.callers i).early he).2⟩
      · exact (h.callers i).served r' ((hmem hm).resolve_right fun hx => hij hx.1)
  · rw [List.map_append, List.nodup_append]
    refine ⟨h.once, by simp, fun i hi k hk => ?_⟩
    rintro rfl
    obtain ⟨⟨i', r'⟩, hm, rfl⟩ := List.mem_map.mp hi
    cases List.mem_singleton.mp hk
    exact hun r' hm

theorem Inv.loops {l : LoopPc} (h : s.Inv) (hl : ∀ j r, l ≠ .delivering j r)
    (hended : s.doneCh = true → l = .away ∧ ∀ j, (s.callers j).done = none) : Inv { s with loop := l } :=
  ⟨fun j => ⟨fun hq => ⟨((h.callers j).queued hq).1, ((h.callers j).queued hq).2.1, hl j⟩, fun r hx => absurd hx (hl j r),
    (h.callers j).early, (h.callers j).served⟩, h.once, hended⟩

/-- **Supervision outlives the outcomes it has delivered**: when `Run` returns, every caller has read its own. -/
def Unread (s : Reloads) (a : Act) : Prop := a = .finish → ∀ j, (s.callers j).done = none

theorem Inv.step (h : s.Inv) (hg : Unread s a) (hs : s.step a = some t) : t.Inv := by
  cases a <;> simp only [Reloads.step] at hs
  case call j admission =>
    obtain ⟨hpc, hs⟩ := unless_some hs
    have he : (s.callers j).pc.early = true := by rw [not_not.mp hpc]; rfl
    split at hs <;> cases hs
    all_goals exact h.offers he rfl
  case cancel j e =>
    obtain ⟨-, ⟨⟩⟩ := guard_some hs
    exact h.set ⟨(h.callers j).queued, (h.callers j).delivering, (h.callers j).early, (h.callers j).served⟩ (.inr rfl)
  case send j =>
    obtain ⟨⟨hpc, hfree⟩, ⟨⟩⟩ := guard_some hs
    have he : (s.callers j).pc.early = true := by rw [hpc]; rfl
    obtain ⟨hnone, hun, -, hl⟩ := h.unsent he
    have hset : (s.set j { s.callers j with pc := .waiting }).Inv := h.offers he rfl
    refine ⟨fun i => ⟨fun hq => ?_, (hset.callers i).delivering, (hset.callers i).early, (hset.callers i).served⟩, h.once, hset.ended⟩
    cases hq
    exact ⟨⟨by simp [Reloads.set, hnone], .inl (by simp [Reloads.set])⟩, hun, hl⟩
  case expire j =>
    obtain ⟨⟨hpc, -⟩, ⟨⟩⟩ := guard_some hs
    exact h.offers (by rw [hpc]; rfl) rfl
  case receive j =>
    split at hs
    · next err hd =>
      obtain ⟨hpc, ⟨⟩⟩ := guard_some hs
      have hno : ¬ (s.callers j).Sent s.doneCh := fun hx => by simp [hx.1] at hd
      refine h.set ⟨fun hq => absurd ((h.callers j).queued hq).1 hno, fun r hl => absurd ((h.callers j).delivering r hl).1 hno,
        (fun he => by cases he), fun r hm => ?_⟩ (.inl rfl)
      rcases (h.callers j).served r hm with ⟨-, hx⟩ | ⟨hx, -⟩
      · cases hd.symm.trans hx
        exact .inr ⟨rfl, rfl⟩
      · simp [hpc] at hx
    · cases hs
  case quit j =>
    obtain ⟨⟨hclosed, hpc⟩, ⟨⟩⟩ := guard_some hs
    have hnone := (h.ended hclosed).2 j
    have hsent : Caller.Sent { s.callers j with pc := .returned .unavailable } s.doneCh := ⟨hnone, .inr ⟨hclosed, rfl⟩⟩
    refine h.set ⟨fun hq => ⟨hsent, ((h.callers j).queued hq).2⟩, fun r hl => ⟨hsent, ((h.callers j).delivering r hl).2⟩,
      (fun he => by cases he), fun r hm => ?_⟩ (.inr rfl)
    rcases (h.callers j).served r hm with ⟨-, hx⟩ | ⟨hx, -⟩
    · simp [hnone] at hx
    · simp [hx] at hpc
  case enter =>
    obtain ⟨⟨hl, hopen⟩, ⟨⟩⟩ := guard_some hs
    exact h.loops (by simp) fun hd => absurd hd hopen
  case leave =>
    obtain ⟨hl, ⟨⟩⟩ := guard_some hs
    exact h.loops (by simp) fun hd => ⟨rfl, (h.ended hd).2⟩
  case service calls =>
    split at hs
    · next j hq =>
      obtain ⟨hl, ⟨⟩⟩ := guard_some hs
      exact h.service hq hl
    · cases hs
  case deliver =>
    split at hs
    · next j r hl =>
      obtain ⟨-, ⟨⟩⟩ := guard_some hs
      exact h.deliver hl
    · cases hs
  case finish =>
    obtain ⟨hl, ⟨⟩⟩ := guard_some hs
    have hsent : ∀ {c : Caller}, c.Sent s.doneCh → c.Sent true := fun hx => ⟨hx.1, hx.2.imp_right fun hy => ⟨rfl, hy.2⟩⟩
    refine ⟨fun j => ⟨fun hq => ?_, fun r hx => ?_, (h.callers j).early, (h.callers j).served⟩, h.once, fun _ => ⟨hl, hg rfl⟩⟩
    · exact ⟨hsent ((h.callers j).queued hq).1, ((h.callers j).queued hq).2⟩
    · exact ⟨hsent ((h.callers j).delivering r hx).1, ((h.callers j).delivering r hx).2⟩

/-- **`Reload` reports the true outcome**, as long as `Run` does not return over one that is unread: of a request serviced at
most once, or never for `ErrReloadUnavailable`. -/
theorem reload_outcome (h : Reach step Unread start s) :
    (s.served.map (·.1)).Nodup ∧
    (∀ j r, (j, r) ∈ s.served →
      ((s.callers j).pc = .waiting ∧ (s.callers j).done = some r.outcome ∧ s.doneCh = false ∨
        (s.callers j).pc = .returned (.outcome r.outcome)) ∧
      (r.outcome = none ↔ r.ctxErr = none ∧ r.calls.run.1 = true ∧ r.calls.joined = true)) ∧
    (∀ j, (s.callers j).pc = .returned .unavailable → ∀ r, (j, r) ∉ s.served) ∧
    ∀ j r, s.loop = .delivering j r → (s.step .deliver).isSome := by
  have hi : s.Inv := h.invariant inv_start fun hx hg hs => hx.step hg hs
  refine ⟨hi.once, fun j r hm => ⟨?_, ?_⟩, fun j hpc r hm => ?_, fun j r hl => ?_⟩
  · rcases (hi.callers j).served r hm with ⟨hpc, hd⟩ | ⟨hpc, -⟩
    · refine .inl ⟨hpc, hd, ?_⟩
      by_contra hx
      simp [(hi.ended (by simpa using hx)).2 j] at hd
    · exact .inr hpc
  · unfold Request.outcome
    split
    · next hx =>
      cases hc : r.ctxErr with
      | none => simp [hc] at hx
      | some e => simp
    · next hx =>
      rw [Calls.run_nil]
      simp at hx
      simp [hx]
  · rcases (hi.callers j).served r hm with ⟨hx, -⟩ | ⟨hx, -⟩ <;> simp [hx] at hpc
  · simp [step, hl, ((hi.callers j).delivering r hl).1.1]

/-- A reload that promotes and retires the old instance. -/
def clean : Calls := ⟨none, none, false, none, none, none, none, none, none, none, true⟩

def servedActs : List Act := [.call 0 true, .send 0, .enter, .service clean, .deliver]

def answered : Reloads := (run step start (servedActs ++ [.receive 0])).get (by decide +kernel)

theorem answered_reach : Reach step Unread start answered :=
  (Reach.of_run_of (Option.some_get _).symm (show ∀ a ∈ servedActs ++ [.receive 0], a ≠ .finish by decide)).mono
    fun _ _ hne hf => absurd hf hne

theorem reload_outcome_clean : (answered.callers 0).pc = .returned (.outcome none) ∧ (answered.served.map (·.1)).Nodup :=
  ⟨by decide +kernel, (reload_outcome answered_reach).1⟩

/-- **The outcome of a reload that succeeded can be lost**: `Run` ends before the caller has run, and its select finds both
channels ready. -/
theorem reload_outcome_lost : ∃ s, Reach step Any start s ∧ s.served = [(0, ⟨none, clean⟩)] ∧
    (⟨none, clean⟩ : Request).outcome = none ∧ (s.callers 0).pc = .returned .unavailable :=
  ⟨(run step start (servedActs ++ [.leave, .finish, .quit 0])).get (by decide +kernel), .of_run (Option.some_get _).symm,
    by decide +kernel, by decide, by decide +kernel⟩

end Reloads

end Supervisor

end Styx
