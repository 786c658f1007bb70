/-
What a complete cutoff guarantees.

A caller hands its opening frame over within its span and never after it (`handed_of_shut`,
`handedBy_of_past`), and the routing changes while nobody is about to load it (`Routed`). No
state of the gate holds a caller up: those inside go on to their `Leave`, and the last of
them wakes the `Close` that waits. A caller that panics inside never leaves, and no `Close`
returns nil after it (`panic_leaks`).
-/
import Styx.Rpc.Admission

namespace Styx

open Machine

namespace Conn

variable {s t : Conn} {a : CallerAct} {c c' : Caller} {routed : Option Nat} {j g : Nat} {m : Move} {isOpen : Bool}
  {td : Option Teardown}

/-! ## After the span -/

def Pc.gen : Pc → Option Nat
  | .loaded g | .submitted g | .sending g => some g
  | _ => none

def Intent.gen : Intent → Option Nat
  | .queued g => some g
  | _ => Option.none

theorem Caller.step_handed
    (hs : c.step isOpen routed a = some m) (hg : m.handed = some g) : c.pc.gen = some g ∨ c.intent.gen = some g := by
  cases step_moves hs with
  | sent hpc | streamed hpc => exact .inl (by rw [hpc]; exact hg)
  | pushed hi => exact .inr (by rw [hi]; exact hg)
  | _ => cases hg

/-- Only within its span does a caller hand its frame over. -/
theorem Caller.counted_of_gen (h : c.pc.gen = some g ∨ c.intent.gen = some g) : c.counted = true := by
  rcases h with h | h
  · cases hp : c.pc <;> rw [hp] at h <;> cases h
    all_goals simp [counted, hp, Pc.inside]
  · cases hi : c.intent <;> rw [hi] at h <;> cases h
    simp [counted, hi, Intent.owed]

def Caller.Past (c : Caller) : Prop := 0 < c.enters ∧ c.counted = false

theorem Caller.Past.step (h : c.Past)
    (hsp : c.Spans) (hs : c.step isOpen routed a = some m) : m.caller.Past ∧ m.handed = none := by
  obtain ⟨hsp', hcounts⟩ := Caller.step_counts hsp hs
  obtain ⟨hent, hnc⟩ := h
  constructor
  · cases hcounts with
    | rests _ hc he _ _ => exact ⟨he ▸ hent, hc.trans hnc⟩
    | enters _ _ _ _ he _ _ _ =>
      have := hsp'.once
      omega
    | leaves _ hc _ _ _ _ => rw [hnc] at hc; cases hc
  · cases hh : m.handed with
    | none => rfl
    | some g =>
      have hc := Caller.counted_of_gen (Caller.step_handed hs hh)
      rw [hnc] at hc
      cases hc

/-- What the host does to the callers, to the count, to the gate and to the routing. -/
structure HostKeeps (s : Conn) (a : HostAct) (t : Conn) : Prop where
  spans : SameSpans s t
  handed : t.handed = s.handed
  active : t.active = s.active
  shut : a ≠ .open → s.isOpen = false → t.isOpen = false
  faulted : t.faulted = s.faulted
  routed : t.gens = s.gens ∧ (t.routed = s.routed ∨ t.routed = none) ∨ a = .wire ∧ t = s.wire none ∨
    s.host = .shut ∧ t = s.wire s.routed

theorem HostKeeps.rest {a : HostAct} (ho : t.isOpen = s.isOpen) (hc : SameSpans s t) (hh : t.handed = s.handed)
    (ha : t.active = s.active) (hf : t.faulted = s.faulted) (hg : t.gens = s.gens) (hr : t.routed = s.routed) :
    HostKeeps s a t :=
  ⟨hc, hh, ha, fun _ hx => ho.trans hx, hf, .inl ⟨hg, .inl hr⟩⟩

theorem HostKeeps.opens (hc : SameSpans s t) (hh : t.handed = s.handed) (ha : t.active = s.active)
    (hf : t.faulted = s.faulted) (hg : t.gens = s.gens) (hr : t.routed = s.routed) : HostKeeps s .open t :=
  ⟨hc, hh, ha, fun hx => absurd rfl hx, hf, .inl ⟨hg, .inl hr⟩⟩

theorem hostKeeps_shutGate {a : HostAct} {next : HostPc} : HostKeeps s a (s.shutGate td next) := by
  unfold Conn.shutGate
  split <;> exact ⟨rfl, rfl, rfl, fun _ _ => rfl, rfl, .inl ⟨rfl, .inl rfl⟩⟩

theorem hostKeeps_stopAdmission {a : HostAct} {td : Teardown} : HostKeeps s a (s.stopAdmission td) := by
  unfold Conn.stopAdmission Conn.shutGate
  repeat' split
  · exact ⟨rfl, rfl, rfl, fun _ _ => rfl, rfl, .inl ⟨rfl, .inr rfl⟩⟩
  · exact ⟨rfl, rfl, rfl, fun _ _ => rfl, rfl, .inl ⟨rfl, .inr rfl⟩⟩
  · exact .rest rfl rfl rfl rfl rfl rfl rfl

theorem hostStep_keeps {a : HostAct} (hs : s.hostStep a = some t) : HostKeeps s a t := by
  cases hostStep_moves hs with
  | wired => exact ⟨rfl, rfl, rfl, fun _ => id, rfl, .inr (.inl ⟨rfl, rfl⟩)⟩
  | opened | reopened | resumed => exact .opens rfl rfl rfl rfl rfl rfl
  | closes => exact hostKeeps_shutGate
  | crashed | stops => exact hostKeeps_stopAdmission
  | promoted hh => exact ⟨rfl, rfl, rfl, fun _ => id, rfl, .inr (.inr ⟨hh, rfl⟩)⟩
  | fails => exact .rest rfl (sameSpans_attempt _ _ _) rfl rfl rfl rfl rfl
  | _ => exact .rest rfl rfl rfl rfl rfl rfl rfl

/-- What is neither a spawn nor a caller's step leaves the callers their spans, and the gate its count. -/
theorem step_keeps {a : Act} (hs : s.step a = some t) (hspawn : ∀ kind, a ≠ .spawn kind) (hcaller : ∀ j b, a ≠ .caller j b) :
    SameSpans s t ∧ t.handed = s.handed ∧ t.active = s.active ∧ (a ≠ .host .open → s.isOpen = false → t.isOpen = false) := by
  cases a with
  | spawn kind => exact absurd rfl (hspawn kind)
  | caller j b => exact absurd rfl (hcaller j b)
  | reply j op =>
    obtain ⟨c, x, hc, -, -, -, rfl⟩ := reply_some hs
    exact ⟨sameSpans_set hc, rfl, rfl, fun _ => id⟩
  | fault g exits cause =>
    obtain ⟨-, ⟨⟩⟩ := guard_some hs
    exact ⟨rfl, rfl, rfl, fun _ => id⟩
  | sweep i =>
    obtain ⟨w, k, rest, -, -, rfl⟩ := sweep_some hs
    exact ⟨sameSpans_attempt w k rest, rfl, rfl, fun _ => id⟩
  | host a =>
    have hk := hostStep_keeps hs
    exact ⟨hk.spans, hk.handed, hk.active, fun hne => hk.shut fun ha => hne (ha ▸ rfl)⟩

def handedBy (s : Conn) (j : Nat) : List (Nat × Nat) := s.handed.filter (·.1 == j)

theorem step_other {a : Act} (hc : s.callers[j]? = some c) (hs : s.step a = some t)
    (ha : ∀ b, a ≠ .caller j b) : (∃ c', t.callers[j]? = some c' ∧ c'.bare = c.bare) ∧ t.handedBy j = s.handedBy j := by
  cases a with
  | spawn kind =>
    cases hs
    exact ⟨⟨c, by rw [List.getElem?_append_left (List.getElem?_eq_some_iff.mp hc).1]; exact hc, rfl⟩, rfl⟩
  | caller i b =>
    obtain ⟨d, m, hd, hm, rfl⟩ := callerStep_some hs
    have hij : i ≠ j := fun h => ha b (h ▸ rfl)
    refine ⟨⟨c, by rw [List.getElem?_set_ne hij]; exact hc, rfl⟩, ?_⟩
    unfold handedBy
    rw [List.filter_append]
    cases m.handed with
    | none => simp
    | some g => simp [hij]
  | _ =>
    obtain ⟨hsp, hh, -⟩ := step_keeps hs nofun nofun
    exact ⟨hsp.get hc, by unfold handedBy; rw [hh]⟩

theorem Caller.Past.of_bare (h : c.Past) (hb : c'.bare = c.bare) : c'.Past := by
  have he : c'.bare.enters = c.bare.enters := congrArg Caller.enters hb
  have hc : c'.bare.counted = c.bare.counted := congrArg Caller.counted hb
  exact ⟨Nat.lt_of_lt_of_eq h.1 he.symm, hc.trans h.2⟩

/-- **A caller past its span never hands a frame over again.** -/
theorem handedBy_of_past (hg : s.Gated) (hc : s.callers[j]? = some c) (hp : c.Past)
    (h : Reach step Any s t) : t.handedBy j = s.handedBy j := by
  have hinv : t.Gated ∧ (∃ c, t.callers[j]? = some c ∧ c.Past) ∧ t.handedBy j = s.handedBy j := by
    induction h with
    | refl => exact ⟨hg, ⟨c, hc, hp⟩, rfl⟩
    | @tail u v a _ _ hs ih =>
    obtain ⟨hgu, ⟨d, hd, hpd⟩, heq⟩ := ih
    refine ⟨hgu.step hs, ?_⟩
    by_cases ha : ∃ b, a = .caller j b
    · obtain ⟨b, rfl⟩ := ha
      obtain ⟨d', m, hd', hm, rfl⟩ := callerStep_some hs
      cases hd.symm.trans hd'
      obtain ⟨hpm, hnone⟩ := hpd.step (hgu.spans d (List.mem_of_getElem? hd)) hm
      refine ⟨⟨m.caller, List.getElem?_set_self (List.getElem?_eq_some_iff.mp hd).1, hpm⟩, ?_⟩
      rw [← heq]
      simp [handedBy, hnone]
    · obtain ⟨⟨d', hd', hb⟩, heq'⟩ := step_other hd hs fun b hb => ha ⟨b, hb⟩
      exact ⟨⟨d', hd', hpd.of_bare hb⟩, heq'.trans heq⟩
  exact hinv.2.2

/-- **Behind a closed gate that has been joined nobody hands a frame over**, until the next `Open`. -/
theorem handed_of_shut (hg : s.Gated) (ho : s.isOpen = false) (ha : s.active = 0)
    (h : Reach step (fun _ a => a ≠ .host .open) s t) : t.handed = s.handed := by
  have hinv : t.Gated ∧ t.isOpen = false ∧ t.active = 0 ∧ t.handed = s.handed := by
    induction h with
    | refl => exact ⟨hg, ho, ha, rfl⟩
    | @tail u v a _ hne hs ih =>
    obtain ⟨hgu, ho, ha, heq⟩ := ih
    refine ⟨hgu.step hs, ?_⟩
    cases a with
    | spawn kind =>
      cases hs
      exact ⟨ho, ha, heq⟩
    | caller j b =>
      obtain ⟨c, m, hc, hm, rfl⟩ := callerStep_some hs
      have hmem := List.mem_of_getElem? hc
      have hnc : c.counted = false := hgu.uncounted ha hmem
      have hnone : m.handed = none := by
        cases hh : m.handed with
        | none => rfl
        | some g => exact absurd (Caller.counted_of_gen (Caller.step_handed hm hh)) (by simp [hnc])
      have hgate : m.gate = .none := by
        cases (Caller.step_counts (hgu.spans c hmem) hm).2 with
        | rests hg _ _ _ _ => exact hg
        | enters _ hx _ _ _ _ _ _ => rw [ho] at hx; cases hx
        | leaves _ hx _ _ _ _ => rw [hnc] at hx; cases hx
      simpa [hgate, hnone, gateOp] using ⟨ho, ha, heq⟩
    | _ =>
      obtain ⟨-, hh, hact, hshut⟩ := step_keeps hs (by simp) (by simp)
      exact ⟨hshut hne ho, hact.trans ha, hh.trans heq⟩
  exact hinv.2.2.2

/-! ## The generation a caller publishes on -/

/-- What a caller has loaded is what was routed when it was admitted. -/
structure Caller.Bound (routed : Option Nat) (c : Caller) : Prop where
  entered : c.pc = .entered → routed = none ∨ c.admitted = routed
  loaded : ∀ g, c.pc.gen = some g ∨ c.intent.gen = some g → c.admitted = some g

theorem Caller.Bound.keep (h : c.Bound routed) (ha : c'.admitted = c.admitted)
    (hp : c'.pc = .entered → c.pc = .entered)
    (hg : ∀ g, c'.pc.gen = some g ∨ c'.intent.gen = some g → c.pc.gen = some g ∨ c.intent.gen = some g) :
    c'.Bound routed :=
  ⟨fun hx => ha ▸ h.entered (hp hx), fun g hx => ha ▸ h.loaded g (hg g hx)⟩

theorem Caller.Bound.step
    (h : c.Bound routed) (hsp : c.Spans) (hs : c.step isOpen routed a = some m) : m.caller.Bound routed := by
  cases step_moves hs with
  | entered hpc =>
    refine ⟨fun _ => .inr rfl, fun g hx => ?_⟩
    rcases hx with hx | hx
    · cases hx
    · rw [show c.intent = .none from hsp.intent (.inl (by rw [hpc]; rfl))] at hx
      cases hx
  | loaded hpc hr =>
    refine ⟨nofun, fun g' hx => ?_⟩
    rcases hx with hx | hx
    · cases hx
      exact ((h.entered hpc).resolve_left (by simp [hr])).trans hr
    · exact h.loaded g' (.inr hx)
  | submitted hpc | reserved hpc | opened hpc =>
    exact h.keep rfl nofun fun g' hx => hx.imp_left fun hx => by rw [hpc]; exact hx
  | published hpc =>
    unfold Caller.publish
    repeat' split
    · exact h.keep rfl nofun fun g' hx => hx.imp_left fun hx => by rw [hpc]; exact hx
    all_goals exact h.keep rfl nofun fun g' hx => hx.imp_left nofun
  | queued hpc =>
    exact h.keep rfl nofun fun g' hx => .inl (by rw [hpc]; exact hx.elim nofun id)
  | classified =>
    unfold Caller.classify
    split
    all_goals exact h.keep rfl nofun fun g hx => hx.imp_left nofun
  | pushed | reported => exact h.keep rfl id fun g hx => hx.imp_right nofun
  | expired | taken => exact h.keep rfl id fun g hx => hx
  | _ => exact h.keep rfl nofun fun g hx => hx.imp_left nofun

theorem Caller.Bound.of_bare (h : c.Bound routed) (hb : c'.bare = c.bare) : c'.Bound routed := by
  have ha : c'.bare.admitted = c.bare.admitted := congrArg Caller.admitted hb
  have hp : c'.bare.pc = c.bare.pc := congrArg Caller.pc hb
  have hi : c'.bare.intent = c.bare.intent := congrArg Caller.intent hb
  exact h.keep ha (fun hx => hp.symm.trans hx)
    fun g hx => hx.imp (congrArg Pc.gen hp.symm).trans (congrArg Intent.gen hi.symm).trans

theorem Caller.Bound.reroute {routed' : Option Nat} (h : c.Bound routed)
    (hr : c.pc = .entered → routed' = none) : c.Bound routed' :=
  ⟨fun hx => .inl (hr hx), h.loaded⟩

/-- A restart that wires its generation once the callers of the last one have left. -/
def Orderly (s : Conn) (a : Act) : Prop := a = .host .wire → s.active = 0

instance : ∀ (s : Conn) (a : Act), Decidable (Orderly s a) := fun s a =>
  inferInstanceAs (Decidable (a = .host .wire → s.active = 0))

/-- **A frame is handed to the generation its caller was admitted to.** -/
structure Routed (s : Conn) : Prop where
  gated : s.Gated
  bound : ∀ c ∈ s.callers, c.Bound s.routed
  handed : ∀ p ∈ s.handed, ∃ c, s.callers[p.1]? = some c ∧ c.admitted = some p.2 ∧ 0 < c.enters

theorem Routed.start : Routed Conn.start := ⟨.start, (fun c hc => by cases hc), fun p hp => by cases hp⟩

theorem Routed.same (h : s.Routed) (hg : t.Gated) (hsp : SameSpans s t) (hh : t.handed = s.handed)
    (hr : ∀ c ∈ s.callers, c.Bound t.routed) : t.Routed := by
  refine ⟨hg, fun c hc => ?_, fun p hp => ?_⟩
  · obtain ⟨c', hc', hb⟩ := hsp.mem hc
    exact (hr c' hc').of_bare hb.symm
  · obtain ⟨c, hc, ha, he⟩ := h.handed p (hh ▸ hp)
    obtain ⟨c', hc', hb⟩ := hsp.get hc
    have ha' : c'.bare.admitted = c.bare.admitted := congrArg Caller.admitted hb
    have he' : c'.bare.enters = c.bare.enters := congrArg Caller.enters hb
    exact ⟨c', hc', ha'.trans ha, Nat.lt_of_lt_of_eq he he'.symm⟩

theorem Gated.not_entered (h : s.Gated) (ha : s.active = 0) (hc : c ∈ s.callers) : c.pc ≠ .entered := by
  intro hpc
  have hnc := h.uncounted ha hc
  simp [Caller.counted, hpc, Pc.inside] at hnc

theorem Routed.callerStep (h : s.Routed) (hs : s.callerStep j a = some t) : t.Routed := by
  have hg := h.gated.callerStep hs
  obtain ⟨c, m, hc, hm, rfl⟩ := callerStep_some hs
  have hmem := List.mem_of_getElem? hc
  have hlt := (List.getElem?_eq_some_iff.mp hc).1
  have hbound := (h.bound c hmem).step (h.gated.spans c hmem) hm
  obtain ⟨hsp, hcounts⟩ := Caller.step_counts (h.gated.spans c hmem) hm
  have hrouted : (s.gateOp m.gate).routed = s.routed := by
    obtain ⟨n, d, cs, hx⟩ := s.gateOp_frame m.gate
    rw [hx]
  -- once admitted, a caller is not admitted again
  have hkept : 0 < c.enters → m.caller.admitted = c.admitted ∧ 0 < m.caller.enters := by
    intro he
    cases hcounts with
    | rests _ _ he' _ ha => exact ⟨ha, he' ▸ he⟩
    | enters _ _ _ _ he' _ _ _ =>
      have := hsp.once
      omega
    | leaves _ _ _ he' _ ha => exact ⟨ha, he' ▸ he⟩
  refine ⟨hg, fun d hd => ?_, fun p hp => ?_⟩
  · simp only [hrouted]
    rcases List.mem_or_eq_of_mem_set hd with hd | rfl
    · exact h.bound d hd
    · exact hbound
  · rcases List.mem_append.mp hp with hp | hp
    · obtain ⟨d, hd, ha, he⟩ := h.handed p hp
      by_cases hj : j = p.1
      · subst hj
        cases hc.symm.trans hd
        exact ⟨m.caller, List.getElem?_set_self hlt, (hkept he).1.trans ha, (hkept he).2⟩
      · exact ⟨d, by rw [List.getElem?_set_ne hj]; exact hd, ha, he⟩
    · cases hh : m.handed with
      | none => simp [hh] at hp
      | some g =>
        simp only [hh, Option.map_some, Option.toList_some, List.mem_singleton] at hp
        subst hp
        have hgen := Caller.step_handed hm hh
        have hent : 0 < c.enters := by
          have hbal := (h.gated.spans c hmem).balance
          rw [Caller.counted_of_gen hgen] at hbal
          simp only [Bool.toNat_true] at hbal
          omega
        exact ⟨m.caller, List.getElem?_set_self hlt, (hkept hent).1.trans ((h.bound c hmem).loaded g hgen), (hkept hent).2⟩

theorem Routed.step {a : Act} (h : s.Routed) (ho : Orderly s a) (hs : s.step a = some t) : t.Routed := by
  have hg := h.gated.step hs
  cases a with
  | spawn kind =>
    cases hs
    refine ⟨hg, fun c hc => ?_, fun p hp => ?_⟩
    · rcases List.mem_append.mp hc with hc | hc
      · exact h.bound c hc
      · rw [List.mem_singleton.mp hc]
        exact ⟨nofun, fun g hx => by rcases hx with hx | hx <;> cases hx⟩
    · obtain ⟨c, hc, ha⟩ := h.handed p hp
      exact ⟨c, by rw [List.getElem?_append_left (List.getElem?_eq_some_iff.mp hc).1]; exact hc, ha⟩
  | caller j a => exact h.callerStep hs
  | reply j op =>
    obtain ⟨c, x, hc, -, -, -, rfl⟩ := reply_some hs
    exact h.same hg (sameSpans_set hc) rfl h.bound
  | fault g exits cause =>
    obtain ⟨-, ⟨⟩⟩ := guard_some hs
    exact h.same hg rfl rfl h.bound
  | sweep i =>
    obtain ⟨w, j, rest, -, -, rfl⟩ := sweep_some hs
    exact h.same hg (sameSpans_attempt _ _ _) rfl h.bound
  | host a =>
    have hk := hostStep_keeps hs
    refine h.same hg hk.spans hk.handed fun c hc => ?_
    rcases hk.routed with ⟨-, hr | hr⟩ | ⟨rfl, -⟩ | ⟨hshut, -⟩
    · exact hr ▸ h.bound c hc
    · exact (h.bound c hc).reroute fun _ => hr
    · exact (h.bound c hc).reroute fun hx => absurd hx (h.gated.not_entered (ho rfl) hc)
    · exact (h.bound c hc).reroute fun hx => absurd hx (h.gated.not_entered (h.gated.cut (by rw [hshut]; rfl)).2 hc)

/-! ## No caller is stranded -/

/-- What is left of a caller's own part of its span. -/
def Pc.rank : Pc → Nat
  | .entered => 5
  | .loaded _ => 4
  | .submitted _ => 3
  | .sending _ => 2
  | .classifying _ => 1
  | _ => 0

/-- Whatever the gate and the routing are, a caller that has not panicked can go on with its span. -/
theorem Caller.step_progress (isOpen : Bool) (routed : Option Nat) (hsp : c.Spans) (hc : c.counted = true)
    (hp : c.pc ≠ .panicked) : ∃ a m, c.step isOpen routed a = some m ∧
      (m.caller.counted = true → m.caller.pc ≠ .panicked ∧ m.caller.pc.rank < c.pc.rank) := by
  cases hpc : c.pc with
  | panicked => exact absurd hpc hp
  | entered =>
    cases routed with
    | some g => exact ⟨.load, { caller := { c with pc := .loaded g } }, by simp [Caller.step, hpc], by simp [Pc.rank]⟩
    | none =>
      exact ⟨.load, { caller := { c with pc := .leaving (.answer (.err [.pluginUnavailable])) } }, by simp [Caller.step, hpc],
        by simp [Pc.rank]⟩
  | loaded g =>
    cases hk : c.kind with
    | unary =>
      exact ⟨.refuse .marshal, { caller := { c with pc := .leaving (.answer .marshal) } },
        by simp [Caller.step, hpc, hk, Caller.refusal], by simp [Pc.rank]⟩
    | stream reporting =>
      exact ⟨.refuse .stream, { caller := { c with pc := .leaving (.answer .stream) } },
        by simp [Caller.step, hpc, hk, Caller.refusal], by simp [Pc.rank]⟩
  | submitted g =>
    by_cases hk : c.kind = .unary
    · refine ⟨.publish true, { caller := c.publish g }, by simp [Caller.step, hpc, hk], fun _ => ?_⟩
      unfold Caller.publish
      repeat' split
      all_goals simp [Pc.rank]
    · exact ⟨.publish false, { caller := { c with pc := .leaving (.answer .stream) } }, by simp [Caller.step, hpc, hk],
        by simp [Pc.rank]⟩
  | sending g =>
    cases hk : c.kind with
    | unary =>
      exact ⟨.send .fillFailed false, { caller := { c with wire := .off, pc := .classifying .fillFailed }, handed := some g },
        by simp [Caller.step, hpc, hk, Sent.wire], by simp [Pc.rank]⟩
    | stream reporting =>
      cases reporting with
      | false =>
        exact ⟨.send .fillFailed false,
          { caller := { c with wire := .off, pc := .leaving (.answer .stream) }, handed := some g },
          by simp [Caller.step, hpc, hk, Sent.wire], by simp [Pc.rank]⟩
      | true =>
        exact ⟨.enqueue false, { caller := { c with pc := .leaving (.answer .stream) } }, by simp [Caller.step, hpc, hk],
          by simp [Pc.rank]⟩
  | classifying r =>
    refine ⟨.classify, { caller := c.classify r }, by simp [Caller.step, hpc], fun _ => ?_⟩
    unfold Caller.classify
    split
    all_goals simp [Pc.rank]
  | leaving k =>
    have hnone : c.intent = .none := hsp.intent (.inr (by rw [hpc]; rfl))
    cases k with
    | wait =>
      exact ⟨.leave, { caller := { c with pc := .waiting, leaves := c.leaves + 1 }, gate := .leave },
        by simp [Caller.step, hpc], by simp [Caller.counted, hnone, Pc.inside, Intent.owed]⟩
    | answer r =>
      exact ⟨.leave, { caller := { c with pc := .done r, leaves := c.leaves + 1 }, gate := .leave },
        by simp [Caller.step, hpc], by simp [Caller.counted, hnone, Pc.inside, Intent.owed]⟩
  | _ =>
    -- an enqueued open: its report is due
    cases hi : c.intent with
    | none | reported => simp [Caller.counted, hpc, hi, Pc.inside, Intent.owed] at hc
    | queued | pushed =>
      exact ⟨.report, { caller := { c with intent := .reported, leaves := c.leaves + 1 }, gate := .leave },
        by simp [Caller.step, hi], by simp [Caller.counted, hpc, Pc.inside, Intent.owed]⟩

/-- Steps of one caller's own. -/
def Own (j : Nat) : Conn → Act → Prop := fun _ a => ∃ b, a = .caller j b

theorem callerStep_host (hs : s.callerStep j a = some t)
    (hc : t.callers[j]? = some c) : t.host = s.host ∧ t.isOpen = s.isOpen ∧ t.callers = s.callers.set j c := by
  obtain ⟨d, m, hd, -, rfl⟩ := callerStep_some hs
  have hm : (s.callers.set j m.caller)[j]? = some m.caller := List.getElem?_set_self (List.getElem?_eq_some_iff.mp hd).1
  cases hm.symm.trans hc
  obtain ⟨n, e, cs, hx⟩ := s.gateOp_frame m.gate
  simp only [hx, and_self]

theorem callerStep_of (hc : s.callers[j]? = some c)
    (hm : c.step s.isOpen s.routed a = some m) : ∃ t, s.step (.caller j a) = some t ∧ t.callers[j]? = some m.caller := by
  refine ⟨_, by simp only [Conn.step, callerStep, hc, hm, Option.map_some]; rfl, ?_⟩
  exact List.getElem?_set_self (List.getElem?_eq_some_iff.mp hc).1

/-- No caller has panicked, and none does in a calm run. -/
def Steady (s : Conn) : Prop := ∀ c ∈ s.callers, c.pc ≠ .panicked

def Calm (_ : Conn) : Act → Prop
  | .caller _ .panic => False
  | _ => True

instance : ∀ (s : Conn) (a : Act), Decidable (Calm s a)
  | _, .caller _ a => by
    unfold Calm
    cases a <;> infer_instance
  | _, .spawn _ | _, .reply _ _ | _, .fault _ _ _ | _, .sweep _ | _, .host _ => isTrue trivial

theorem Caller.step_panicked (hs : c.step isOpen routed a = some m) (ha : a ≠ .panic) :
    m.caller.pc = .panicked ↔ c.pc = .panicked := by
  cases step_moves hs with
  | published hpc =>
    unfold Caller.publish
    (repeat' split) <;> simp [hpc]
  | classified hpc =>
    unfold Caller.classify
    split <;> simp [hpc]
  | pushed | reported | expired | taken => rfl
  | _ => simp_all

theorem Steady.step {a : Act} (h : s.Steady) (hcalm : Calm s a) (hs : s.step a = some t) : t.Steady := by
  cases a with
  | spawn kind =>
    cases hs
    intro c hc
    rcases List.mem_append.mp hc with hc | hc
    · exact h c hc
    · rw [List.mem_singleton.mp hc]
      simp [newCaller]
  | caller j a =>
    obtain ⟨c, m, hc, hm, rfl⟩ := callerStep_some hs
    intro d hd hpc
    rcases List.mem_or_eq_of_mem_set hd with hd | rfl
    · exact h d hd hpc
    · exact h c (List.mem_of_getElem? hc) ((Caller.step_panicked hm fun ha => (ha ▸ hcalm : Calm s (.caller j .panic))).mp hpc)
  | _ =>
    intro c hc hpc
    obtain ⟨c', hc', hb⟩ := (step_keeps hs nofun nofun).1.mem hc
    have hp : c'.bare.pc = c.bare.pc := congrArg Caller.pc hb
    exact h c' hc' (hp.trans hpc)

theorem woken (hg : s.Gated) (hs : s.step (.host .wake) = some t) : t.isOpen = false ∧ t.active = 0 := by
  cases hostStep_moves hs with
  | woken hh hclosed =>
    obtain ⟨ho, hch⟩ := hg.waiting _ _ hh
    refine ⟨ho, ?_⟩
    rcases hch with hd | ⟨-, h0⟩
    · exact absurd hclosed (hg.drained _ hd).2.2.1
    · exact h0
  | counts hh => simp [Conn.step, Conn.hostStep, hh] at hs

/-- **A panic leaks the gate**: the caller stays counted, and no `Close` returns nil again. -/
theorem panic_leaks (hg : s.Gated) (hc : s.callers[j]? = some c) (hp : c.pc = .panicked) (h : Reach step Any s t) :
    0 < t.active ∧ t.host.cut = false ∧ t.step (.host .wake) = none := by
  have hinv : t.Gated ∧ ∃ c, t.callers[j]? = some c ∧ c.pc = .panicked := by
    induction h with
    | refl => exact ⟨hg, c, hc, hp⟩
    | @tail u v a _ _ hs ih =>
    obtain ⟨hgu, d, hd, hpd⟩ := ih
    refine ⟨hgu.step hs, ?_⟩
    by_cases ha : ∃ b, a = .caller j b
    · obtain ⟨b, rfl⟩ := ha
      obtain ⟨d', m, hd', hm, rfl⟩ := callerStep_some hs
      cases hd.symm.trans hd'
      have hb : b ≠ .panic := by
        rintro rfl
        simp [Caller.step, hpd] at hm
      exact ⟨m.caller, List.getElem?_set_self (List.getElem?_eq_some_iff.mp hd).1, (Caller.step_panicked hm hb).mpr hpd⟩
    · obtain ⟨⟨d', hd', hb⟩, -⟩ := step_other hd hs fun b hb => ha ⟨b, hb⟩
      have hpc : d'.bare.pc = d.bare.pc := congrArg Caller.pc hb
      exact ⟨d', hd', hpc.trans hpd⟩
  obtain ⟨hgt, d, hd, hpd⟩ := hinv
  have hpos : 0 < t.active := by
    refine lt_of_le_of_ne hgt.nonneg fun h0 => ?_
    have := hgt.uncounted h0.symm (List.mem_of_getElem? hd)
    simp [Caller.counted, hpd, Pc.inside] at this
  refine ⟨hpos, ?_, ?_⟩
  · by_contra hcut
    have := (hgt.cut (by simpa using hcut)).2
    omega
  · cases hw : t.step (.host .wake) with
    | none => rfl
    | some u =>
      have hu := (woken hgt hw).2
      have hk := (hostStep_keeps hw).active
      omega

/-- **Every caller inside can finish its span by its own steps.** -/
theorem finishes (hg : s.Gated) (hc : s.callers[j]? = some c) (hp : c.pc ≠ .panicked) :
    ∃ t, Reach step (Own j) s t ∧ t.Gated ∧ t.host = s.host ∧ t.isOpen = s.isOpen ∧
      ∃ c', t.callers = s.callers.set j c' ∧ c'.counted = false := by
  -- by induction on what is left of the span
  induction hn : c.pc.rank using Nat.strong_induction_on generalizing s c with
  | _ n ih =>
  cases hcnt : c.counted with
  | false =>
    obtain ⟨hlt, rfl⟩ := List.getElem?_eq_some_iff.mp hc
    exact ⟨s, .refl, hg, rfl, rfl, _, (List.set_getElem_self hlt).symm, hcnt⟩
  | true =>
    obtain ⟨a, m, hm, hrank⟩ := Caller.step_progress s.isOpen s.routed (hg.spans c (List.mem_of_getElem? hc)) hcnt hp
    obtain ⟨u, hu, hcu⟩ := callerStep_of hc hm
    obtain ⟨hh, ho, hset⟩ := callerStep_host hu hcu
    have hreach : Reach step (Own j) s u := .tail .refl ⟨a, rfl⟩ hu
    cases hm' : m.caller.counted with
    | false => exact ⟨u, hreach, hg.step hu, hh, ho, m.caller, hset, hm'⟩
    | true =>
      obtain ⟨t, ht, hgt, hht, hot, c', hset', hc'⟩ := ih _ (hn ▸ (hrank hm').2) (hg.step hu) hcu (hrank hm').1 rfl
      refine ⟨t, hreach.trans ht, hgt, hht.trans hh, hot.trans ho, c', ?_, hc'⟩
      rw [hset', hset, List.set_set]

/-- **The callers inside can all leave**, and a closed gate is then joined. -/
theorem drains (hg : s.Gated) (hp : s.Steady) :
    ∃ t, Reach step (fun _ a => ∃ j b, a = .caller j b) s t ∧ t.Gated ∧ t.host = s.host ∧ t.isOpen = s.isOpen ∧
      t.active = 0 := by
  induction hn : s.callers.countP Caller.counted using Nat.strong_induction_on generalizing s with
  | _ n ih =>
  by_cases h0 : n = 0
  · exact ⟨s, .refl, hg, rfl, rfl, by rw [hg.active, hn, h0]; rfl⟩
  · obtain ⟨c, hmem, hcnt⟩ := List.countP_pos_iff.mp (hn ▸ Nat.pos_of_ne_zero h0)
    obtain ⟨j, hj⟩ := List.getElem?_of_mem hmem
    obtain ⟨u, hu, hgu, hhu, hou, c', hset, hc'⟩ := finishes hg hj (hp c hmem)
    have hpu : u.Steady := by
      intro d hd hpc
      rw [hset] at hd
      rcases List.mem_or_eq_of_mem_set hd with hd | rfl
      · exact hp d hd hpc
      · simp [Caller.counted, hpc, Pc.inside] at hc'
    have hlt : u.callers.countP Caller.counted < n := by
      have hcount := count_set c' hj
      rw [hset]
      rw [hcnt, hc', hn] at hcount
      simp only [Bool.toNat_true, Bool.toNat_false] at hcount
      omega
    obtain ⟨t, ht, hgt, hht, hot, hat⟩ := ih _ hlt hgu hpu rfl
    refine ⟨t, .trans (hu.mono ?_) ht, hgt, hht.trans hhu, hot.trans hou, hat⟩
    rintro - a ⟨b, rfl⟩
    exact ⟨j, b, rfl⟩

theorem wakes {ch : Nat} (hg : s.Gated) (hh : s.host = .closing ch td) (ha : s.active = 0) :
    (s.step (.host .wake)).isSome = true := by
  have hclosed : ch ∈ s.closed := by
    rcases (hg.waiting ch td hh).2 with hd | ⟨hc, -⟩
    · exact absurd (hg.drained ch hd).2.2.2 (by omega)
    · exact hc
  simp [Conn.step, Conn.hostStep, hh, hclosed]

/-- **The admission cutoff is complete** as long as no caller panics inside: each caller enters at most once and leaves once for it; a
`Close` that returns nil leaves the gate closed and joined, and no opening frame is handed over
before the next `Open`; a frame goes to the generation routed when its caller was admitted; and a
waiting `Close` is woken once the callers inside have left, which each can by its own steps. -/
theorem admission_cutoff (h : Reach step Calm Conn.start s) :
    ((∀ c ∈ s.callers, c.enters ≤ 1 ∧ c.leaves + c.counted.toNat = c.enters) ∧
      s.active = (s.callers.countP Caller.counted : Nat) ∧ 0 ≤ s.active) ∧
    ((s.host.cut = true → s.isOpen = false ∧ s.active = 0) ∧
      (∀ t, s.step (.host .wake) = some t → t.isOpen = false ∧ t.active = 0) ∧
      (s.isOpen = false → s.active = 0 →
        (∀ t, Reach step Any s t → ∀ j c, s.callers[j]? = some c → 0 < c.enters → t.handedBy j = s.handedBy j) ∧
        ∀ t, Reach step (fun _ a => a ≠ .host .open) s t → t.handed = s.handed)) ∧
    (Reach step Orderly Conn.start s → ∀ p ∈ s.handed, ∃ c, s.callers[p.1]? = some c ∧ c.admitted = some p.2) ∧
    ((∀ j c, s.callers[j]? = some c →
        ∃ t c', Reach step (Own j) s t ∧ t.callers[j]? = some c' ∧ c'.counted = false) ∧
      (∀ ch td, s.host = .closing ch td →
        ∃ t, Reach step (fun _ a => ∃ j b, a = .caller j b) s t ∧ (t.step (.host .wake)).isSome = true) ∧
      ∀ ch, s.drained = some ch → ch ∉ s.closed) := by
  have hg : s.Gated := .of_reach h.any
  have hp : s.Steady := h.invariant (fun c hc => by cases hc) fun hp hcalm hs => hp.step hcalm hs
  refine ⟨⟨fun c hc => ⟨(hg.spans c hc).once, (hg.spans c hc).balance⟩, hg.active, hg.nonneg⟩,
    ⟨hg.cut, fun t hs => woken hg hs, fun ho ha => ⟨fun t ht j c hc he => ?_, fun t ht => handed_of_shut hg ho ha ht⟩⟩,
    fun horderly p hp => ?_, fun j c hc => ?_, fun ch td hh => ?_, fun ch hd => (hg.drained ch hd).2.2.1⟩
  · exact handedBy_of_past hg hc ⟨he, hg.uncounted ha (List.mem_of_getElem? hc)⟩ ht
  · have hr : s.Routed := horderly.invariant .start fun hx hgd hs => hx.step hgd hs
    obtain ⟨c, hc, ha, -⟩ := hr.handed p hp
    exact ⟨c, hc, ha⟩
  · obtain ⟨t, ht, -, -, -, c', hset, hc'⟩ := finishes hg hc (hp c (List.mem_of_getElem? hc))
    refine ⟨t, c', ht, ?_, hc'⟩
    rw [hset]
    exact List.getElem?_set_self (List.getElem?_eq_some_iff.mp hc).1
  · obtain ⟨t, ht, hgt, hht, -, hat⟩ := drains hg hp
    exact ⟨t, ht, wakes hgt (hht.trans hh) hat⟩

def cutoffActs : List Act :=
  [.host .wire, .host .open, .spawn .unary, .spawn (.stream true), .caller 0 .check, .caller 0 .enter,
    .caller 1 .check, .caller 1 .enter, .host .close, .host .expire, .host .open, .host .close,
    .caller 0 .load, .caller 0 .submit, .caller 0 (.publish true), .caller 0 (.send .ok true), .caller 0 .classify,
    .caller 0 .leave, .caller 1 .load, .caller 1 .submit, .caller 1 (.publish true), .caller 1 (.enqueue true),
    .caller 1 .push, .caller 1 .report, .host .wake, .host .promote, .host .open, .spawn .unary, .caller 2 .check,
    .caller 2 .enter, .caller 2 .load, .caller 2 .submit, .caller 2 (.publish true), .caller 2 (.send .ok true)]

def cutOver : Conn := (run (guarded step fun s a => Orderly s a ∧ Calm s a) Conn.start cutoffActs).get (by decide +kernel)

theorem admission_cutoff_promoted :
    cutOver.handed = [(0, 0), (1, 0), (2, 1)] ∧ cutOver.active = 1 ∧
      (∀ c ∈ cutOver.callers, c.enters ≤ 1 ∧ c.leaves + c.counted.toNat = c.enters) ∧
      ∀ p ∈ cutOver.handed, ∃ c, cutOver.callers[p.1]? = some c ∧ c.admitted = some p.2 := by
  have hr : Reach step (fun s a => Orderly s a ∧ Calm s a) Conn.start cutOver := .of_guarded (Option.some_get _).symm
  obtain ⟨⟨hcounts, -⟩, -, hadmitted, -⟩ := admission_cutoff (hr.mono fun _ _ h => h.2)
  exact ⟨by decide +kernel, by decide +kernel, hcounts, hadmitted (hr.mono fun _ _ h => h.1)⟩

/-- A caller's request panics in its codec, and the cutoff comes after it. -/
def panickedActs : List Act :=
  [.host .wire, .host .open, .spawn .unary, .caller 0 .check, .caller 0 .enter, .caller 0 .load, .caller 0 .panic,
    .host .close]

def panickedEnd : Conn := (run step Conn.start panickedActs).get (by decide +kernel)

/-- **With a panic inside the cutoff is not complete**: nothing that follows wakes the `Close` that waits. -/
theorem admission_leaked :
    ¬ ∀ s, Reach step Any Conn.start s → ∀ ch td, s.host = .closing ch td →
      ∃ t, Reach step Any s t ∧ (t.step (.host .wake)).isSome = true := by
  intro h
  have hr : Reach step Any Conn.start panickedEnd := .of_run (Option.some_get _).symm
  obtain ⟨t, ht, hw⟩ := h panickedEnd hr 0 none rfl
  rw [(panic_leaks (.of_reach hr) (j := 0) rfl rfl ht).2.2] at hw
  cases hw

end Conn

end Styx
