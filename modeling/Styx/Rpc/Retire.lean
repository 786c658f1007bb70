/-
What a reload's retirement of the old generation costs the calls still waiting in its
table.

The join looks at that table after the cutoff, when no caller is left that could publish a
call in it (`Gone`), so its published calls only shrink from there on: whatever the
teardown's sweep ends as published is among those the join's last look has counted
(`Within`).
-/
import Styx.Rpc.Tables

namespace Styx

open Machine

namespace Conn

variable {s t : Conn} {g j : Nat} {l seen : List Nat} {td : Teardown} {a : HostAct}

/-! ## Where a reload is -/

def HostPc.joins : HostPc → Option Nat
  | .opening old => old
  | .reopening old | .joining old | .counting old _ _ _ => some old
  | _ => none

def HostPc.teardown : HostPc → Option Teardown
  | .closing _ td => td
  | .stopping td | .failing td _ | .reaping td => some td
  | _ => none

def HostPc.reload (h : HostPc) : Option Nat := h.joins.or (h.teardown.bind fun td => td.seen.map fun _ => td.gen)

/-- The callers whose calls the join's look can still count, or has counted. -/
def HostPc.bound : HostPc → Option (Nat × List Nat)
  | .counting old _ rest seen => some (old, rest ++ seen)
  | h => h.teardown.bind fun td => td.seen.map fun seen => (td.gen, seen)

theorem HostPc.reload_of_bound {h : HostPc} (hb : h.bound = some (g, l)) : h.reload = some g := by
  cases h with
  | counting =>
    cases hb
    rfl
  | closing ch td =>
    cases td with
    | none => cases hb
    | some td =>
      obtain ⟨gen, seen⟩ := td
      cases seen <;> cases hb
      rfl
  | stopping td | failing td w | reaping td =>
    obtain ⟨gen, seen⟩ := td
    cases seen <;> cases hb
    rfl
  | _ => cases hb

/-- Not routed to, and nobody is left that has loaded it. -/
structure Gone (s : Conn) (g : Nat) : Prop where
  lt : g < s.gens
  routed : s.routed ≠ some g
  callers : ∀ c ∈ s.callers, c.pc.gen ≠ some g

/-- The published calls of a generation, and those its teardown has ended, are among these. -/
def Within (s : Conn) (g : Nat) (l : List Nat) : Prop :=
  ∀ j x, s.call j = some x → x.gen = g → x.state = .published ∨ x.winner = some (.failAllDispatched .tornDown) → j ∈ l

structure Retires (s : Conn) : Prop where
  gated : s.Gated
  tables : s.Tables
  away : ∀ td, s.host.teardown = some td → td.gen < s.gens ∧ s.routed ≠ some td.gen
  gone : ∀ g, s.host.reload = some g → s.Gone g
  within : ∀ g l, s.host.bound = some (g, l) → s.Within g l
  /-- A teardown comes after the routing has moved on, and after the join. -/
  lost : ∀ j x, s.call j = some x → x.winner = some (.failAllDispatched .tornDown) →
    s.routed ≠ some x.gen ∧ s.host.joins ≠ some x.gen
  retired : ∀ p ∈ s.retired, s.Gone p.1 ∧ ∃ seen, seen.length = p.2 ∧ s.Within p.1 seen

theorem Retires.start : Retires Conn.start :=
  ⟨.start, .start, nofun, nofun, nofun, nofun,
    nofun⟩

/-! ## Steps -/

/-- What a caller has loaded after a step it had loaded before, or it was routed. -/
def GenMoves (s t : Conn) : Prop :=
  ∀ c ∈ t.callers, ∀ g, c.pc.gen = some g → (∃ d ∈ s.callers, d.pc.gen = some g) ∨ s.routed = some g

theorem Gone.moves (h : s.Gone g) (hm : GenMoves s t) (hg : s.gens ≤ t.gens)
    (hr : t.routed = s.routed ∨ t.routed = none ∨ t.routed = some s.gens) : t.Gone g := by
  refine ⟨Nat.lt_of_lt_of_le h.lt hg, fun hx => ?_, fun c hc hx => ?_⟩
  · rcases hr with hr | hr | hr <;> rw [hr] at hx
    · exact h.routed hx
    · cases hx
    · cases hx
      exact Nat.lt_irrefl _ h.lt
  · rcases hm c hc g hx with ⟨d, hd, hgd⟩ | hrouted
    · exact h.callers d hd hgd
    · exact h.routed hrouted

/-- **The published calls of a generation that is gone only shrink.** -/
theorem Within.moves (h : s.Within g l) (hgone : s.Gone g) (ht : s.Tables) (hm : CallMoves s t) : t.Within g l := by
  intro j x hx hgx hor
  rcases hm.back hx with hy | ⟨c, g', -, -, rfl⟩ | ⟨c, g', y, hy, hc, -, hst, rfl⟩ | ⟨y, op, hy, hsrc, -, rfl⟩
  · exact h j x hy hgx hor
  · rcases hor with hor | hor <;> cases hor
  · -- only a caller that has submitted it could publish it
    have hmem := List.mem_of_getElem? hc
    have hpc := (ht.held c hmem).submitted y (call_eq hc ▸ hy) hst
    refine absurd ?_ (hgone.callers c hmem)
    rw [hpc, ← hgx]
    rfl
  · rcases hor with hpub | hwin
    · have hterm := op.target_terminal
      rw [show op.target = .published from hpub] at hterm
      cases hterm
    · cases hwin
      have hpub : y.state = .published := by simpa [CallTable.Op.sources, CallTable.Op.transition] using hsrc
      exact h j y hy hgx (.inl hpub)

theorem Retires.moves (h : s.Retires) (hgated : t.Gated) (htables : t.Tables) (hm : CallMoves s t) (hgm : GenMoves s t)
    (hg : t.gens = s.gens) (hr : t.routed = s.routed ∨ t.routed = none)
    (haway : ∀ td, t.host.teardown = some td → td.gen < s.gens ∧ t.routed ≠ some td.gen)
    (hgone : ∀ g, t.host.reload = some g → s.Gone g) (hwithin : ∀ g l, t.host.bound = some (g, l) → s.Within g l)
    (hjoins : ∀ g, t.host.joins = some g → s.host.joins = some g)
    (hretired : ∀ p ∈ t.retired, s.Gone p.1 ∧ ∃ seen, seen.length = p.2 ∧ s.Within p.1 seen) : t.Retires := by
  have hmoves : ∀ {g}, s.Gone g → t.Gone g := fun hx =>
    hx.moves hgm (Nat.le_of_eq hg.symm) (hr.imp_right .inl)
  have hrouted : ∀ g, t.routed = some g → s.routed = some g := by
    intro g hx
    rcases hr with hr | hr <;> rw [hr] at hx
    · exact hx
    · cases hx
  refine ⟨hgated, htables, fun td hd => hg ▸ haway td hd, fun g hx => hmoves (hgone g hx), fun g l hb => ?_,
    fun j x hx hw => ?_, fun p hp => ?_⟩
  · exact (hwithin g l hb).moves (hgone g (HostPc.reload_of_bound hb)) h.tables hm
  · have hback : ∀ y : Call, s.call j = some y → y.winner = some (.failAllDispatched .tornDown) →
        t.routed ≠ some y.gen ∧ t.host.joins ≠ some y.gen := fun y hy hwy =>
      ⟨fun hx => (h.lost j y hy hwy).1 (hrouted _ hx), fun hx => (h.lost j y hy hwy).2 (hjoins _ hx)⟩
    rcases hm.back hx with hy | ⟨c, g, -, -, rfl⟩ | ⟨c, g, y, hy, -, -, -, rfl⟩ | ⟨y, op, hy, -, he, rfl⟩
    · exact hback x hy hw
    · cases hw
    · exact hback y hy hw
    · cases hw
      obtain ⟨w, hsw, hj, hop⟩ := he
      have hcause := Sweep.cause_of_op hop
      rcases hsw with hsw | ⟨td, hh⟩
      · obtain ⟨-, -, e, he⟩ := h.tables.faults w hsw
        cases hcause.trans he
      · obtain ⟨hsweeps, hgen, -⟩ := h.tables.failing td w hh
        obtain ⟨z, hz, hgz⟩ := hsweeps j hj
        cases hy.symm.trans hz
        have hrd := (h.away td (by rw [hh]; rfl)).2
        refine ⟨fun hx => hrd ?_, fun hx => ?_⟩
        · rw [← hgen, ← hgz]
          exact hrouted _ hx
        · have hjx := hjoins _ hx
          rw [hh] at hjx
          cases hjx
  · obtain ⟨hgp, seen, hlen, hws⟩ := hretired p hp
    exact ⟨hmoves hgp, seen, hlen, hws.moves hgp h.tables hm⟩

theorem SameSpans.genMoves (h : SameSpans s t) : GenMoves s t := by
  intro c hc g hg
  obtain ⟨d, hd, hb⟩ := h.mem hc
  have hpc : d.bare.pc = c.bare.pc := congrArg Caller.pc hb
  exact .inl ⟨d, hd, (congrArg Pc.gen hpc).trans hg⟩

section

variable (h : s.Retires)
include h

theorem Retires.still (hgated : t.Gated) (htables : t.Tables) (hm : CallMoves s t) (hgm : GenMoves s t)
    (hg : t.gens = s.gens) (hr : t.routed = s.routed) (hh : t.host = s.host) (hret : t.retired = s.retired) : t.Retires :=
  h.moves hgated htables hm hgm hg (.inl hr) (hh ▸ hr ▸ h.away) (hh ▸ h.gone) (hh ▸ h.within) (hh ▸ fun _ => id)
    (hret ▸ h.retired)

theorem Retires.hosts (hgated : t.Gated) (htables : t.Tables) (hm : CallMoves s t) (hsp : SameSpans s t)
    (hg : t.gens = s.gens) (hr : t.routed = s.routed) (hret : t.retired = s.retired)
    (haway : ∀ td, t.host.teardown = some td → s.host.teardown = some td ∨ s.Gone td.gen)
    (hgone : ∀ g, t.host.reload = some g → s.Gone g) (hwithin : ∀ g l, t.host.bound = some (g, l) → s.Within g l)
    (hjoins : ∀ g, t.host.joins = some g → s.host.joins = some g) : t.Retires := by
  refine h.moves hgated htables hm hsp.genMoves hg (.inl hr) (fun td hd => ?_) hgone hwithin hjoins (hret ▸ h.retired)
  rw [hr]
  rcases haway td hd with hd | hgn
  · exact h.away td hd
  · exact ⟨hgn.lt, hgn.routed⟩

theorem Retires.keeps {p q : HostPc} (hgated : t.Gated) (htables : t.Tables) (hm : CallMoves s t)
    (hsp : SameSpans s t) (hg : t.gens = s.gens) (hr : t.routed = s.routed) (hret : t.retired = s.retired) (hp : s.host = p)
    (hq : t.host = q) (hd : q.teardown = none ∨ q.teardown = p.teardown) (hj : q.joins = none ∨ q.joins = p.joins)
    (hreload : q.reload = none ∨ q.reload = p.reload) (hb : q.bound = none ∨ q.bound = p.bound) : t.Retires := by
  have hkeep : ∀ {α : Type} {f : HostPc → Option α}, f q = none ∨ f q = f p → ∀ {x}, f t.host = some x → f s.host = some x := by
    intro α f hf x hx
    rw [hq] at hx
    rw [hp]
    rcases hf with hf | hf
    · rw [hf] at hx
      cases hx
    · exact hf ▸ hx
  exact h.hosts hgated htables hm hsp hg hr hret (fun td hx => .inl (hkeep hd hx)) (fun g hx => h.gone g (hkeep hreload hx))
    (fun g l hx => h.within g l (hkeep hb hx)) fun g hx => hkeep hj hx

theorem Retires.crashed (hgated : (s.stopAdmission td).Gated)
    (htables : (s.stopAdmission td).Tables) (hm : CallMoves s (s.stopAdmission td)) (hr : s.routed = some td.gen)
    (hseen : td.seen = none) : (s.stopAdmission td).Retires := by
  have hlt := h.tables.routed _ hr
  unfold Conn.stopAdmission at hgated htables hm ⊢
  rw [if_pos hr] at hgated htables hm ⊢
  obtain ⟨d, n, host, heq, hhost⟩ := shutGate_frame { s with routed := none } (some td) (s.fail td)
  rw [heq] at hgated htables hm ⊢
  refine h.moves hgated htables hm (SameSpans.genMoves rfl) rfl (.inr rfl) (fun td' hd => ⟨?_, by simp⟩) (fun g hx => ?_)
    (fun g l hx => ?_) (fun g hx => ?_) h.retired
  all_goals rcases hhost with rfl | ⟨ch, rfl⟩
  · cases hd
    exact hlt
  · cases hd
    exact hlt
  · simp [HostPc.reload, HostPc.joins, HostPc.teardown, Conn.fail, hseen] at hx
  · simp [HostPc.reload, HostPc.joins, HostPc.teardown, hseen] at hx
  · simp [HostPc.bound, HostPc.teardown, Conn.fail, hseen] at hx
  · simp [HostPc.bound, HostPc.teardown, hseen] at hx
  · cases hx
  · cases hx

/-- **A reload's teardown finds routing that is not its own**: `StopAdmission` does nothing. -/
theorem Retires.stopAdmission_eq (hh : s.host = .stopping td) : s.stopAdmission td = { s with host := s.fail td } := by
  unfold Conn.stopAdmission
  rw [if_neg (h.away td (by rw [hh]; rfl)).2]

theorem Retires.wire (hgated : (s.wire old).Gated) (htables : (s.wire old).Tables)
    (hold : old = none ∨ old = s.routed ∧ s.active = 0) : (s.wire old).Retires := by
  have hgm : GenMoves s (s.wire old) := SameSpans.genMoves rfl
  have hmoves : ∀ {g}, s.Gone g → (s.wire old).Gone g := fun hx => hx.moves hgm (Nat.le_succ _) (.inr (.inr rfl))
  refine ⟨hgated, htables, nofun, fun g hx => ?_, nofun, fun j x hx hw => ?_,
    fun p hp => ?_⟩
  · -- the cutoff has left nobody that could have loaded it
    have hx : old = some g := by
      cases old with
      | none => cases hx
      | some g' => exact hx
    subst hx
    rcases hold with hold | ⟨hold, h0⟩
    · cases hold
    · have hlt := h.tables.routed g hold.symm
      refine ⟨Nat.lt_succ_of_lt hlt, fun hx => ?_, fun c hc hgc => ?_⟩
      · cases hx
        exact Nat.lt_irrefl _ hlt
      · have hnc := h.gated.uncounted h0 hc
        rw [Caller.counted_of_gen (.inl hgc)] at hnc
        cases hnc
  · have hlt := h.tables.gens j x hx
    refine ⟨fun hr => ?_, fun hj => ?_⟩
    · have hr : s.gens = x.gen := Option.some.inj hr
      omega
    · rcases hold with rfl | ⟨rfl, -⟩
      · cases hj
      · exact (h.lost j x hx hw).1 hj
  · obtain ⟨hgp, hseen⟩ := h.retired p hp
    exact ⟨hmoves hgp, hseen⟩

theorem Retires.look {old : Nat} {final : Bool} {rest : List Nat} (hh : s.host = .counting old final (j :: rest) seen) :
    s.Within old (rest ++ if (s.call j).any (·.state == .published) then seen ++ [j] else seen) := by
  intro i x hx hg hor
  have hw := h.within old (j :: rest ++ seen) (by rw [hh]; rfl) i x hx hg hor
  -- no call of the generation has been torn down yet
  have hpub : x.state = .published := by
    rcases hor with hpub | hwin
    · exact hpub
    · exact absurd (by rw [hh, hg]; rfl) (h.lost i x hx hwin).2
  rcases List.mem_append.mp hw with hw | hw
  · rcases List.mem_cons.mp hw with rfl | hw
    · simp [hx, hpub]
    · exact List.mem_append_left _ hw
  · refine List.mem_append_right _ ?_
    split
    · exact List.mem_append_left _ hw
    · exact hw

theorem Retires.hostStep (hs : s.hostStep a = some t) : t.Retires := by
  have hgated := h.gated.hostStep hs
  have htables := h.tables.hostStep hs
  have hm : CallMoves s t := step_call (a := .host a) h.tables.fated hs
  have hkeeps {p q} := h.keeps (p := p) (q := q) hgated htables hm
  cases hostStep_moves hs with
  | wired => exact h.wire hgated htables (.inl rfl)
  | promoted hh => exact h.wire hgated htables (.inr ⟨rfl, (h.gated.cut (by rw [hh]; rfl)).2⟩)
  | crashed _ hr => exact h.crashed hgated htables hm hr rfl
  | @opened old hh =>
    cases old with
    | none => exact hkeeps rfl rfl rfl rfl hh rfl (.inl rfl) (.inl rfl) (.inl rfl) (.inl rfl)
    | some old => exact hkeeps rfl rfl rfl rfl hh rfl (.inl rfl) (.inr rfl) (.inr rfl) (.inl rfl)
  | reopened hh | rejoins hh =>
    exact hkeeps rfl rfl rfl rfl hh rfl (.inl rfl) (.inr rfl) (.inr rfl) (.inl rfl)
  | closes =>
    obtain ⟨d, n, host, heq, hhost⟩ := s.shutGate_frame none .shut
    rw [heq] at hgated htables hm ⊢
    rcases hhost with rfl | ⟨ch, rfl⟩
    all_goals
      exact h.keeps hgated htables hm rfl rfl rfl rfl rfl rfl (.inl rfl) (.inl rfl) (.inl rfl) (.inl rfl)
  | @woken _ td hh | @expired _ td _ hh =>
    cases td with
    | none => exact hkeeps rfl rfl rfl rfl hh rfl (.inl rfl) (.inl rfl) (.inl rfl) (.inl rfl)
    | some td => exact hkeeps rfl rfl rfl rfl hh rfl (.inr rfl) (.inl rfl) (.inr rfl) (.inr rfl)
  | resumed | reaped =>
    exact hkeeps rfl rfl rfl rfl rfl rfl (.inl rfl) (.inl rfl) (.inl rfl) (.inl rfl)
  | readable => exact h
  | counts hh =>
    refine h.hosts hgated htables hm rfl rfl rfl rfl nofun (fun g hx => h.gone g (by rw [hh]; exact hx))
      (fun g l hx => ?_) (fun g hx => by rw [hh]; exact hx)
    cases hx
    exact fun j x hx hg _ => by simpa using mem_callsOf.mpr ⟨x, hx, hg⟩
  | counted hh hl =>
    refine h.hosts hgated htables hm rfl rfl rfl rfl nofun (fun g hx => h.gone g (by rw [hh]; exact hx))
      (fun g l hx => ?_) (fun g hx => by rw [hh]; exact hx)
    cases hx
    exact hl ▸ h.look hh
  | joined hh =>
    have hgone := h.gone _ (by rw [hh]; rfl)
    have hwithin := h.within _ _ (by rw [hh]; rfl)
    refine h.hosts hgated htables hm rfl rfl rfl rfl (fun td hx => ?_) (fun g hx => ?_) (fun g l hx => ?_)
      nofun
    · cases hx
      exact .inr hgone
    · cases hx
      exact hgone
    · cases hx
      exact hwithin
  | stops hh =>
    rw [h.stopAdmission_eq hh] at hgated htables hm ⊢
    exact h.keeps hgated htables hm rfl rfl rfl rfl hh rfl (.inr rfl) (.inl rfl) (.inr rfl) (.inr rfl)
  | fails hh =>
    exact hkeeps (sameSpans_attempt _ _ _) rfl rfl rfl hh rfl (.inr rfl) (.inl rfl) (.inr rfl) (.inr rfl)
  | swept hh => exact hkeeps rfl rfl rfl rfl hh rfl (.inr rfl) (.inl rfl) (.inr rfl) (.inr rfl)
  | retired hh hseen =>
    refine h.moves hgated htables hm (SameSpans.genMoves rfl) rfl (.inl rfl) nofun
      nofun nofun nofun fun p hp => ?_
    rcases List.mem_append.mp hp with hp | hp
    · exact h.retired p hp
    · rw [List.mem_singleton.mp hp]
      exact ⟨h.gone _ (by rw [hh]; simp [HostPc.reload, HostPc.joins, HostPc.teardown, hseen]), _, rfl,
        h.within _ _ (by rw [hh]; simp [HostPc.bound, HostPc.teardown, hseen])⟩

theorem Retires.step {a : Act} (hs : s.step a = some t) : t.Retires := by
  have hgated := h.gated.step hs
  have htables := h.tables.step hs
  have hm : CallMoves s t := step_call h.tables.fated hs
  cases a with
  | spawn kind =>
    cases hs
    refine h.still hgated htables hm (fun c hc g hg => ?_) rfl rfl rfl rfl
    rcases List.mem_append.mp hc with hc | hc
    · exact .inl ⟨c, hc, hg⟩
    · rw [List.mem_singleton.mp hc] at hg
      cases hg
  | caller j a =>
    obtain ⟨c, m, hc, hact, rfl⟩ := callerStep_some hs
    obtain ⟨n, d, cs, hgate⟩ := s.gateOp_frame m.gate
    rw [hgate] at hgated htables hm ⊢
    refine h.still hgated htables hm (fun d hd g hg => ?_) rfl rfl rfl rfl
    rcases List.mem_or_eq_of_mem_set hd with hd | rfl
    · exact .inl ⟨d, hd, hg⟩
    · exact (Caller.step_gen hact hg).imp_left fun hx => ⟨c, List.mem_of_getElem? hc, hx⟩
  | reply j op =>
    obtain ⟨c, x, hc, -, -, -, rfl⟩ := reply_some hs
    exact h.still hgated htables hm (SameSpans.genMoves (sameSpans_set hc)) rfl rfl rfl rfl
  | fault g exits cause =>
    obtain ⟨-, ⟨⟩⟩ := guard_some hs
    exact h.still hgated htables hm (SameSpans.genMoves rfl) rfl rfl rfl rfl
  | sweep i =>
    obtain ⟨w, j, rest, -, -, rfl⟩ := sweep_some hs
    exact h.still hgated htables hm (SameSpans.genMoves (sameSpans_attempt _ _ _)) rfl rfl rfl rfl
  | host a => exact h.hostStep hs

end

/-! ## The join's report -/

/-- The calls of a generation that its teardown has ended with an unknown outcome. -/
def lost (s : Conn) (g : Nat) : List Nat :=
  (List.range s.callers.length).filter fun j =>
    (s.call j).any fun x => x.gen == g && x.winner == some (.failAllDispatched .tornDown)

theorem Within.length_lost (h : s.Within g seen) : (s.lost g).length ≤ seen.length := by
  refine (List.subperm_of_subset (List.Nodup.filter _ List.nodup_range) fun j hj => ?_).length_le
  obtain ⟨-, hany⟩ := List.mem_filter.mp hj
  simp only [Option.any_eq_true, Bool.and_eq_true, beq_iff_eq] at hany
  obtain ⟨x, hx, hgen, hwin⟩ := hany
  exact h j x hx hgen (.inr hwin)

/-- The ends of a call that the join has seen out. -/
def SeenOut (faulted : Bool) : Op → Prop
  -- the plugin's own response or status, the caller's cancel or deadline
  | .complete _ | .completeMsg _ | .fail _ | .cancel | .deadlineExceeded => True
  -- an answer that could not be decoded or taken, a failed send of its own
  | .outcomeUnknown (.discarded _) | .outcomeUnknown (.unknownSend _) | .reject _ => True
  -- a call that was never published
  | .failAllNotDispatched _ => True
  -- a failure of the data plane under it
  | .failAllDispatched (.connFault _) => faulted = true
  | .outcomeUnknown _ | .failAllDispatched _ => False

theorem Retires.seenOut {x : Call} (h : s.Retires) (hgone : s.Gone g) (hw : s.Within g []) (hx : s.call j = some x)
    (hg : x.gen = g) : ∃ op, x.winner = some op ∧ SeenOut (s.faulted g) op := by
  cases hwin : x.winner with
  | none =>
    -- it would be published, or its caller about to publish it
    have hlive := h.tables.live j x hx hwin
    cases hst : x.state with
    | submitted =>
      obtain ⟨c, hc, hcall⟩ := Option.bind_eq_some_iff.mp hx
      have hmem := List.mem_of_getElem? hc
      have hpc := (h.tables.held c hmem).submitted x hcall hst
      exact absurd (by rw [hpc, ← hg]; rfl) (hgone.callers c hmem)
    | published => exact absurd (hw j x hx hg (.inl hst)) List.not_mem_nil
    | _ =>
      rw [hst] at hlive
      cases hlive
  | some op =>
    have hsorted := h.tables.sorted j x op hx hwin
    rw [hg] at hsorted
    refine ⟨op, rfl, ?_⟩
    cases op with
    | outcomeUnknown cause =>
      obtain ⟨e, rfl | rfl⟩ := hsorted <;> trivial
    | failAllDispatched cause =>
      rcases hsorted with rfl | ⟨hf, e, rfl⟩
      · exact absurd (hw j x hx hg (.inr hwin)) List.not_mem_nil
      · exact hf
    | _ => trivial

theorem Retires.undisturbed (h : s.Retires) (hr : s.host.reload = some g) (hs : s.hostStep a = some t) :
    t.routed = s.routed ∧ (s.isOpen = true → t.isOpen = true) := by
  cases hostStep_moves hs with
  | wired hh | promoted hh | closes hh =>
    rw [hh] at hr
    cases hr
  | crashed hh =>
    rcases hh with hh | hh <;> rw [hh] at hr <;> cases hr
  | opened | reopened | resumed => exact ⟨rfl, fun _ => rfl⟩
  | stops hh =>
    rw [h.stopAdmission_eq hh]
    exact ⟨rfl, id⟩
  | _ => exact ⟨rfl, id⟩

/-- **A reload loses no answered call.** Of a generation retired with `n` stragglers reported the teardown has ended at most
`n` calls; with none reported it has ended none, and every call has its own end (`SeenOut`). The retirement leaves the
successor's routing and the gate alone. -/
theorem reload_retires (h : Reach step Any Conn.start s) :
    (∀ p ∈ s.retired, (s.lost p.1).length ≤ p.2) ∧
    (∀ p ∈ s.retired, p.2 = 0 → ∀ j x, s.call j = some x → x.gen = p.1 →
      ∃ op, x.winner = some op ∧ SeenOut (s.faulted p.1) op) ∧
    ∀ g, s.host.reload = some g → ∀ a t, s.step (.host a) = some t →
      t.routed = s.routed ∧ (s.isOpen = true → t.isOpen = true) := by
  have hr : s.Retires := h.invariant .start fun hx _ hs => hx.step hs
  refine ⟨fun p hp => ?_, fun p hp h0 j x hx hg => ?_, fun g hg a t hs => hr.undisturbed hg hs⟩
  · obtain ⟨-, seen, hlen, hw⟩ := hr.retired p hp
    exact hlen ▸ hw.length_lost
  · obtain ⟨hgone, seen, hlen, hw⟩ := hr.retired p hp
    rw [List.length_eq_zero_iff.mp (hlen.trans h0)] at hw
    exact hr.seenOut hgone hw hx hg

/-- Two calls are out at the cutoff; the join sees one answered and gives the other up. -/
def stragglerActs : List Act :=
  sentActs ++ [.spawn .unary, .caller 1 .check, .caller 1 .enter, .caller 1 .load, .caller 1 .submit,
    .caller 1 (.publish true), .caller 1 (.send .ok true), .caller 1 .classify, .caller 1 .leave, .caller 0 .handle,
    .caller 1 .handle, .host .close, .host .promote, .host .open, .host .open, .host (.look false), .host .count,
    .reply 0 (.complete []), .host .count, .host .count, .host .giveUp, .host .count, .host .count, .host .count, .host .stop,
    .host .sweep, .host .sweep, .host .sweep, .host .sweep, .host .sweep, .host .reap]

def stragglerLost : Conn := (run step Conn.start stragglerActs).get (by decide +kernel)

theorem reload_retires_straggler :
    stragglerLost.retired = [(0, 1)] ∧ stragglerLost.lost 0 = [1] ∧ (stragglerLost.lost 0).length ≤ 1 :=
  ⟨by decide +kernel, by decide +kernel,
    (reload_retires (.of_run (Option.some_get _).symm)).1 (0, 1) (by decide +kernel)⟩

/-- **With no straggler reported, a call the plugin has handled may still end with an unknown outcome**: the old
generation's data plane fails between the promotion and the join, and its own `FailAll` empties the table. -/
theorem retired_unknown :
    ∃ (s : Conn) (c : Caller) (x : Call), Reach step Any Conn.start s ∧ (0, 0) ∈ s.retired ∧ s.callers[0]? = some c ∧
      c.wire = .handled ∧ c.call = some x ∧ x.gen = 0 ∧
      x.winner = some (.failAllDispatched (.connFault [.other])) := by
  refine ⟨(run step Conn.start (sentActs ++ [.caller 0 .handle, .host .close, .host .promote, .host .open, .host .open,
    .fault 0 true [.other], .sweep 0, .sweep 0, .host (.look false), .host .count, .host .count, .host .stop, .host .sweep,
    .host .sweep, .host .sweep, .host .reap])).get (by decide +kernel), _, _, .of_run (Option.some_get _).symm,
    by decide +kernel, (Option.some_get (by decide +kernel)).symm, by decide +kernel,
    (Option.some_get (by decide +kernel)).symm, by decide +kernel, by decide +kernel⟩

end Conn

end Styx
