/-
The admission cutoff: the gate as a publication barrier.

A caller is counted from its `Enter` to its `Leave`, which for an enqueued `STREAM_OPEN`
is the writer's report and not the opener's own (`Caller.counted`); on every way through
`invokeCore` and `openStreamByID` there is one `Leave` for an `Enter` (`step_counts`), but
for a panic of the application's code between the two, which leaves it counted for good.
-/
import Styx.Rpc.Conn

namespace Styx

open Machine

namespace Conn

/-! ## A caller's span -/

def Pc.inside : Pc → Bool
  | .entered | .loaded _ | .submitted _ | .sending _ | .classifying _ | .leaving _ | .panicked => true
  | _ => false

def Pc.before : Pc → Bool
  | .fresh | .checked => true
  | _ => false

theorem Pc.before_of_inside {p : Pc} (h : p.inside = true) : p.before = false := by
  cases p <;> first | rfl | cases h

def Intent.owed : Intent → Bool
  | .queued _ | .pushed => true
  | _ => false

namespace Caller

def counted (c : Caller) : Bool := c.pc.inside || c.intent.owed

/-- One `Enter`, and a `Leave` for it at the end of the span; an intent outlives its opener's own part of it. -/
structure Spans (c : Caller) : Prop where
  fresh : c.pc.before = true → c.enters = 0
  once : c.enters ≤ 1
  balance : c.leaves + c.counted.toNat = c.enters
  intent : c.pc.before = true ∨ c.pc.inside = true → c.intent = .none

variable {c c' : Caller} {m : Move} {isOpen : Bool} {routed handed : Option Nat} {a : CallerAct}

theorem spans_new (kind : Kind) : (newCaller kind).Spans := ⟨fun _ => rfl, Nat.zero_le 1, rfl, fun _ => rfl⟩

/-- What a step changes of the count, the `Enter`s and the `Leave`s. -/
inductive Counts (isOpen : Bool) (routed : Option Nat) (c : Caller) (m : Move) : Prop
  | rests : m.gate = .none → m.caller.counted = c.counted → m.caller.enters = c.enters → m.caller.leaves = c.leaves →
    m.caller.admitted = c.admitted → Counts isOpen routed c m
  | enters : m.gate = .enter → isOpen = true → c.counted = false → m.caller.counted = true → m.caller.enters = c.enters + 1 →
    m.caller.leaves = c.leaves → m.caller.admitted = routed → m.caller.pc = .entered → Counts isOpen routed c m
  | leaves : m.gate = .leave → c.counted = true → m.caller.counted = false → m.caller.enters = c.enters →
    m.caller.leaves = c.leaves + 1 → m.caller.admitted = c.admitted → Counts isOpen routed c m

theorem Spans.rest (h : c.Spans) (hc : c'.counted = c.counted) (he : c'.enters = c.enters)
    (hl : c'.leaves = c.leaves) (hi : c'.intent = c.intent) (hb : c'.pc.before = true → c.pc.before = true)
    (hin : c'.pc.inside = true → c.pc.before = true ∨ c.pc.inside = true) : c'.Spans := by
  refine ⟨fun hx => ?_, ?_, ?_, fun hx => ?_⟩
  · rw [he]
    exact h.fresh (hb hx)
  · rw [he]
    exact h.once
  · rw [hl, hc, he]
    exact h.balance
  · rw [hi]
    rcases hx with hx | hx
    · exact h.intent (.inl (hb hx))
    · exact h.intent (hin hx)

theorem Spans.within (h : c.Spans) (hin : c.pc.inside = true)
    (hin' : c'.pc.inside = true) (he : c'.enters = c.enters) (hl : c'.leaves = c.leaves) (hi : c'.intent = c.intent)
    (ha : c'.admitted = c.admitted) : c'.Spans ∧ Counts isOpen routed c { caller := c', handed } := by
  have hc : c'.counted = c.counted := by simp [counted, hin, hin']
  have hb : c'.pc.before = true → c.pc.before = true := fun hx => absurd hx (by simp [Pc.before_of_inside hin'])
  exact ⟨h.rest hc he hl hi hb fun _ => .inr hin, .rests rfl hc he hl ha⟩

theorem Spans.past (h : c.Spans) (hout : c.pc.inside = false) (hout' : c'.pc.inside = false)
    (hb : c'.pc.before = true → c.pc.before = true) (he : c'.enters = c.enters) (hl : c'.leaves = c.leaves)
    (hi : c'.intent = c.intent) (ha : c'.admitted = c.admitted) : c'.Spans ∧ Counts isOpen routed c { caller := c' } := by
  have hc : c'.counted = c.counted := by simp [counted, hout, hout', hi]
  exact ⟨h.rest hc he hl hi hb fun hx => absurd hx (by simp [hout']), .rests rfl hc he hl ha⟩

theorem Spans.other (h : c.Spans) (hp : c'.pc = c.pc) (he : c'.enters = c.enters)
    (hl : c'.leaves = c.leaves) (hi : c'.intent.owed = c.intent.owed) (hn : c.intent = .none → c'.intent = .none)
    (ha : c'.admitted = c.admitted) : c'.Spans ∧ Counts isOpen routed c { caller := c', handed } := by
  have hc : c'.counted = c.counted := by simp [counted, hp, hi]
  refine ⟨⟨fun hx => ?_, he ▸ h.once, by rw [hl, hc, he]; exact h.balance, fun hx => ?_⟩, .rests rfl hc he hl ha⟩
  · rw [he]
    exact h.fresh (hp ▸ hx)
  · exact hn (h.intent (hp ▸ hx))

theorem Spans.left (h : c.Spans) (hc : c.counted = true) (hc' : c'.counted = false)
    (hb : c'.pc.before = false) (he : c'.enters = c.enters) (hl : c'.leaves = c.leaves + 1) (ha : c'.admitted = c.admitted)
    (hin : c'.pc.inside = false) : c'.Spans ∧ Counts isOpen routed c { caller := c', gate := .leave } := by
  have hbal := h.balance
  rw [hc] at hbal
  refine ⟨⟨fun hx => absurd hx (by simp [hb]), he ▸ h.once, ?_, fun hx => absurd hx (by simp [hb, hin])⟩,
    .leaves rfl hc hc' he hl ha⟩
  rw [hl, hc', he, ← hbal]
  rfl

theorem step_counts (h : c.Spans) (hs : c.step isOpen routed a = some m) : m.caller.Spans ∧ Counts isOpen routed c m := by
  cases step_moves hs with
  | checked hpc | unrouted hpc | drained hpc =>
    exact h.past (by rw [hpc]; rfl) rfl (fun _ => by rw [hpc]; rfl) rfl rfl rfl rfl
  | entered hpc ho =>
    have hnone : c.intent = .none := h.intent (.inl (by rw [hpc]; rfl))
    have hc : c.counted = false := by simp [counted, hpc, hnone, Pc.inside, Intent.owed]
    have he : c.enters = 0 := h.fresh (by rw [hpc]; rfl)
    have hbal := h.balance
    rw [hc, he] at hbal
    refine ⟨⟨(fun hx => by cases hx), by simp [he], ?_, fun _ => hnone⟩, .enters rfl ho hc rfl rfl rfl rfl rfl⟩
    simpa [counted, Pc.inside, he] using hbal
  | loaded hpc | lost hpc | refused hpc | panicked hpc | submitted hpc | reserved hpc | opened hpc | unopened hpc | sent hpc
  | streamed hpc | unqueued hpc => exact h.within (by rw [hpc]; rfl) rfl rfl rfl rfl rfl
  | published hpc =>
    have hin : c.pc.inside = true := by rw [hpc]; rfl
    unfold publish
    repeat' split
    all_goals exact h.within hin rfl rfl rfl rfl rfl
  | queued hpc =>
    -- the `Leave` is now the report's
    have hbal := h.balance
    have hc : c.counted = true := by simp [counted, hpc, Pc.inside]
    rw [hc] at hbal
    exact ⟨⟨(fun hx => by cases hx), h.once, hbal, (fun hx => by rcases hx with hx | hx <;> cases hx)⟩,
      .rests rfl hc.symm rfl rfl rfl⟩
  | classified hpc =>
    have hin : c.pc.inside = true := by rw [hpc]; rfl
    unfold Caller.classify
    split
    all_goals exact h.within hin rfl rfl rfl rfl rfl
  | left hpc | answered hpc =>
    have hnone : c.intent = .none := h.intent (.inr (by rw [hpc]; rfl))
    exact h.left (by simp [counted, hpc, Pc.inside]) (by simp [counted, Pc.inside, hnone, Intent.owed]) rfl rfl rfl rfl rfl
  | received hpc | abandoned hpc | cancelled hpc =>
    exact h.past (by rw [hpc]; rfl) rfl (fun hx => by cases hx) rfl rfl rfl rfl
  | expired | taken => exact h.other rfl rfl rfl rfl id rfl
  | pushed hi => exact h.other rfl rfl rfl (by rw [hi]; rfl) (fun hx => by rw [hi] at hx; cases hx) rfl
  | reported hne hnr =>
    have hb : c.pc.before = false := by
      by_contra hx
      exact hne (h.intent (.inl (by simpa using hx)))
    have hin : c.pc.inside = false := by
      by_contra hx
      exact hne (h.intent (.inr (by simpa using hx)))
    have ho : c.intent.owed = true := by cases hi : c.intent <;> simp_all [Intent.owed]
    exact h.left (by simp [counted, ho]) (by simp [counted, hin, Intent.owed]) hb rfl rfl rfl hin

end Caller

/-! ## The gate -/

variable {s t : Conn} {c : Caller} {j : Nat} {a : CallerAct}

def Caller.bare (c : Caller) : Caller := { c with call := none }

theorem Caller.Spans.bare (h : c.bare.Spans) : c.Spans := ⟨h.fresh, h.once, h.balance, h.intent⟩

theorem Caller.Spans.to_bare (h : c.Spans) : c.bare.Spans := ⟨h.fresh, h.once, h.balance, h.intent⟩

def SameSpans (s t : Conn) : Prop := t.callers.map Caller.bare = s.callers.map Caller.bare

theorem SameSpans.mem (h : SameSpans s t) (hc : c ∈ t.callers) : ∃ c' ∈ s.callers, c'.bare = c.bare := by
  have hm : c.bare ∈ t.callers.map Caller.bare := List.mem_map_of_mem hc
  rw [h] at hm
  exact List.mem_map.mp hm

theorem SameSpans.get (h : SameSpans s t) (hc : s.callers[j]? = some c) :
    ∃ c', t.callers[j]? = some c' ∧ c'.bare = c.bare := by
  have hm : (t.callers.map Caller.bare)[j]? = some c.bare := by rw [h, List.getElem?_map, hc]; rfl
  rw [List.getElem?_map] at hm
  exact Option.map_eq_some_iff.mp hm

theorem SameSpans.count (h : SameSpans s t) : t.callers.countP Caller.counted = s.callers.countP Caller.counted := by
  have hb : ∀ l : List Caller, l.countP Caller.counted = (l.map Caller.bare).countP Caller.counted := by
    intro l
    rw [List.countP_map]
    rfl
  rw [hb t.callers, hb s.callers, h]

theorem sameSpans_attempt (w : Sweep) (j : Nat) (rest : List Nat) :
    (s.attempt w j rest).1.map Caller.bare = s.callers.map Caller.bare := by
  unfold attempt
  repeat' split
  · apply List.ext_getElem?
    intro i
    simp only [List.getElem?_map, List.getElem?_modify]
    cases s.callers[i]? with
    | none => rfl
    | some c =>
      simp only [Option.map_some, Option.map_eq_map]
      split <;> rfl
  all_goals rfl

/-- The old generation's `Close` has returned nil, and the next `Open` has not come. -/
def HostPc.cut : HostPc → Bool
  | .shut | .opening (some _) => true
  | _ => false

/-- **The gate counts the callers in their spans, and a waiting `Close` is the one the last of them wakes.** -/
structure Gated (s : Conn) : Prop where
  spans : ∀ c ∈ s.callers, c.Spans
  active : s.active = (s.callers.countP Caller.counted : Nat)
  closed : ∀ ch ∈ s.closed, ch < s.chans
  drained : ∀ ch, s.drained = some ch →
    (∃ td, s.host = .closing ch td) ∧ ch < s.chans ∧ ch ∉ s.closed ∧ 0 < s.active
  waiting : ∀ ch td, s.host = .closing ch td → s.isOpen = false ∧ (s.drained = some ch ∨ ch ∈ s.closed ∧ s.active = 0)
  cut : s.host.cut = true → s.isOpen = false ∧ s.active = 0

theorem Gated.start : Gated start :=
  ⟨(fun c hc => by cases hc), rfl, (fun ch hc => by cases hc), (fun ch hd => by cases hd), (fun ch td hh => by cases hh),
    fun hh => by cases hh⟩

theorem Gated.spans_same (h : s.Gated) (hsp : SameSpans s t) (hc : c ∈ t.callers) : c.Spans := by
  obtain ⟨c', hc', hb⟩ := hsp.mem hc
  exact (hb ▸ (h.spans c' hc').to_bare).bare

theorem Gated.same (h : s.Gated) (hsp : SameSpans s t) (ha : t.active = s.active) (hc : t.closed = s.closed)
    (hn : t.chans = s.chans) (hd : t.drained = s.drained) (ho : t.isOpen = s.isOpen) (hh : t.host = s.host) : t.Gated := by
  refine ⟨fun c => h.spans_same hsp, by rw [ha, hsp.count, h.active], ?_, ?_, ?_, ?_⟩
  · rw [hc, hn]
    exact h.closed
  · rw [hd, hh, hc, hn, ha]
    exact h.drained
  · rw [hh, ho, hd, hc, ha]
    exact h.waiting
  · rw [hh, ho, ha]
    exact h.cut

theorem Gated.returned (h : s.Gated) (hsp : SameSpans s t) (ha : t.active = s.active) (hc : t.closed = s.closed)
    (hn : t.chans = s.chans) (hd : t.drained = none) (hnew : ∀ ch td, t.host ≠ .closing ch td)
    (hcut : t.host.cut = true → t.isOpen = false ∧ t.active = 0) : t.Gated := by
  refine ⟨fun c => h.spans_same hsp, by rw [ha, hsp.count, h.active], ?_, fun ch hd' => ?_,
    fun ch td hh => absurd hh (hnew ch td), hcut⟩
  · rw [hc, hn]
    exact h.closed
  · cases hd.symm.trans hd'

theorem Gated.host (h : s.Gated) (hsp : SameSpans s t) (ha : t.active = s.active) (hc : t.closed = s.closed)
    (hn : t.chans = s.chans) (hd : t.drained = s.drained) (hold : ∀ ch td, s.host ≠ .closing ch td)
    (hnew : ∀ ch td, t.host ≠ .closing ch td) (hcut : t.host.cut = true → t.isOpen = false ∧ t.active = 0) : t.Gated := by
  refine h.returned hsp ha hc hn (hd.trans ?_) hnew hcut
  cases hd' : s.drained with
  | none => rfl
  | some ch =>
    obtain ⟨⟨td, hcl⟩, -⟩ := h.drained ch hd'
    exact absurd hcl (hold ch td)

theorem Gated.nonneg (h : s.Gated) : 0 ≤ s.active := by
  rw [h.active]
  exact Int.natCast_nonneg _

theorem Gated.uncounted (h : s.Gated) (ha : s.active = 0) (hc : c ∈ s.callers) : c.counted = false := by
  by_contra hx
  have : 0 < s.callers.countP Caller.counted := List.countP_pos_iff.mpr ⟨c, hc, by simpa using hx⟩
  have := h.active
  omega

theorem Gated.shutGate {td : Option Teardown} {next : HostPc} (h : s.Gated) (hold : ∀ ch td, s.host ≠ .closing ch td)
    (hnew : ∀ ch td, next ≠ .closing ch td) : (s.shutGate td next).Gated := by
  unfold Conn.shutGate
  split
  · next h0 =>
    exact h.host rfl rfl rfl rfl rfl hold hnew fun _ => ⟨rfl, h0⟩
  · next h0 =>
    have hpos : 0 < s.active := lt_of_le_of_ne h.nonneg (Ne.symm h0)
    refine ⟨h.spans, h.active, fun ch hch => ?_, fun ch hd => ?_, fun ch td hh => ?_, nofun⟩
    · exact Nat.lt_succ_of_lt (h.closed ch hch)
    · cases hd
      exact ⟨⟨td, rfl⟩, Nat.lt_succ_self _, fun hm => Nat.lt_irrefl _ (h.closed _ hm), hpos⟩
    · cases hh
      exact ⟨rfl, .inl rfl⟩

theorem Gated.stopAdmission {td : Teardown} (h : s.Gated) (hold : ∀ ch td, s.host ≠ .closing ch td) :
    (s.stopAdmission td).Gated := by
  unfold Conn.stopAdmission
  split
  · exact Gated.shutGate (s := { s with routed := none })
      ⟨h.spans, h.active, h.closed, h.drained, h.waiting, h.cut⟩ hold (by simp [fail])
  · exact h.host rfl rfl rfl rfl rfl hold (by simp [fail]) nofun

theorem Gated.hostStep {a : HostAct} (h : s.Gated) (hs : s.hostStep a = some t) : t.Gated := by
  cases hostStep_moves hs with
  | woken hh hmem =>
    next ch td =>
    obtain ⟨hshut, hch⟩ := h.waiting ch td hh
    -- only the Leave that brought the count to zero has closed the channel
    have hnone : s.drained = none ∧ s.active = 0 := by
      rcases hch with hd | ⟨-, h0⟩
      · exact absurd hmem (h.drained ch hd).2.2.1
      · refine ⟨?_, h0⟩
        cases hd : s.drained with
        | none => rfl
        | some ch' => exact absurd (h.drained ch' hd).2.2.2 (by omega)
    cases td with
    | none => exact h.returned rfl rfl rfl rfl hnone.1 (by simp) fun _ => ⟨hshut, hnone.2⟩
    | some td => exact h.returned rfl rfl rfl rfl hnone.1 (by simp [fail]) nofun
  | expired hh hd =>
    next ch td d =>
    have hnone : d = none := by
      rcases hd with hd | ⟨rfl, hne⟩
      · exact hd
      · cases hd : s.drained with
        | none => rfl
        | some ch' =>
          obtain ⟨⟨td', hcl⟩, -⟩ := h.drained ch' hd
          rw [hh] at hcl
          cases hcl
          exact absurd hd hne
    cases td with
    | none => exact h.returned rfl rfl rfl rfl hnone (by simp) nofun
    | some td => exact h.returned rfl rfl rfl rfl hnone (by simp [fail]) fun hc => by cases hc
  | wired hh => exact h.host rfl rfl rfl rfl rfl (by simp [hh]) (by simp [wire]) fun hc => by cases hc
  | promoted hh => exact h.host rfl rfl rfl rfl rfl (by simp [hh]) (by simp [wire]) fun _ => h.cut (by rw [hh]; rfl)
  | closes hh => exact h.shutGate (by simp [hh]) (by simp)
  | crashed hh => exact h.stopAdmission (by rcases hh with hh | hh <;> simp [hh])
  | stops hh => exact h.stopAdmission (by simp [hh])
  | readable => exact h
  | @opened old hh =>
    cases old <;> exact h.host rfl rfl rfl rfl rfl (by simp [hh]) (by simp) fun hc => by cases hc
  | resumed hh =>
    exact h.host rfl rfl rfl rfl rfl (by rcases hh with hh | hh <;> simp [hh]) (by simp) fun hc => by cases hc
  | fails hh => exact h.host (sameSpans_attempt _ _ _) rfl rfl rfl rfl (by simp [hh]) (by simp) fun hc => by cases hc
  | reopened hh | counts hh | counted hh | joined hh | rejoins hh | swept hh | retired hh | reaped hh =>
    exact h.host rfl rfl rfl rfl rfl (by simp [hh]) (by simp) fun hc => by cases hc

/-! ## Callers at the gate -/

theorem callerStep_some (hs : s.callerStep j a = some t) :
    ∃ c m, s.callers[j]? = some c ∧ c.step s.isOpen s.routed a = some m ∧ t = { s.gateOp m.gate with
        callers := s.callers.set j m.caller, handed := s.handed ++ (m.handed.map ((j, ·))).toList } := by
  unfold callerStep at hs
  split at hs
  · cases hs
  · next c hc =>
    obtain ⟨m, hm, rfl⟩ := Option.map_eq_some_iff.mp hs
    exact ⟨c, m, hc, hm, rfl⟩

theorem shutGate_frame (s : Conn) (td : Option Teardown) (next : HostPc) :
    ∃ d n h, s.shutGate td next = { s with isOpen := false, drained := d, chans := n, host := h } ∧
      (h = next ∨ ∃ ch, h = .closing ch td) := by
  unfold Conn.shutGate
  split
  · exact ⟨_, _, _, rfl, .inl rfl⟩
  · exact ⟨_, _, _, rfl, .inr ⟨_, rfl⟩⟩

theorem gateOp_frame (s : Conn) (o : GateOp) :
    ∃ n d cs, s.gateOp o = { s with active := n, drained := d, closed := cs } := by
  cases o with
  | none | enter => exact ⟨_, _, _, rfl⟩
  | leave =>
    simp only [gateOp, leave]
    split <;> exact ⟨_, _, _, rfl⟩

theorem count_set (c' : Caller) (hc : s.callers[j]? = some c) :
    (((s.callers.set j c').countP Caller.counted : Nat) : Int) =
      (s.callers.countP Caller.counted : Nat) - c.counted.toNat + c'.counted.toNat := by
  obtain ⟨hj, rfl⟩ := List.getElem?_eq_some_iff.mp hc
  rw [List.countP_set hj]
  cases h1 : s.callers[j].counted with
  | false => cases h2 : c'.counted <;> simp
  | true =>
    have hpos : 0 < s.callers.countP Caller.counted := List.countP_pos_iff.mpr ⟨_, List.getElem_mem hj, h1⟩
    cases h2 : c'.counted <;> simp <;> omega

theorem Gated.callerStep (h : s.Gated) (hs : s.callerStep j a = some t) : t.Gated := by
  obtain ⟨c, m, hc, hm, rfl⟩ := callerStep_some hs
  obtain ⟨hsp, hcounts⟩ := Caller.step_counts (h.spans c (List.mem_of_getElem? hc)) hm
  have hspans : ∀ c' ∈ s.callers.set j m.caller, c'.Spans := by
    intro c' hc'
    rcases List.mem_or_eq_of_mem_set hc' with hc' | rfl
    · exact h.spans c' hc'
    · exact hsp
  have hcount := count_set m.caller hc
  have hactive := h.active
  cases hcounts with
  | rests hg hcnt =>
    rw [hcnt] at hcount
    rw [hg]
    refine ⟨hspans, ?_, h.closed, h.drained, h.waiting, h.cut⟩
    simp only [gateOp]
    omega
  | enters hg ho hc0 hc1 =>
    rw [hc0, hc1] at hcount
    rw [hg]
    refine ⟨hspans, ?_, h.closed, fun ch hd => ?_, fun ch td hh => ?_, fun hx => ?_⟩
    · simp only [gateOp, enter, Bool.toNat_false, Bool.toNat_true] at hcount ⊢
      omega
    · obtain ⟨hcl, hlt, hnm, hpos⟩ := h.drained ch hd
      refine ⟨hcl, hlt, hnm, ?_⟩
      simp only [gateOp, enter]
      omega
    · rw [(h.waiting ch td hh).1] at ho
      cases ho
    · rw [(h.cut hx).1] at ho
      cases ho
  | leaves hg hc1 hc0 =>
    rw [hc1, hc0] at hcount
    rw [hg]
    simp only [Bool.toNat_false, Bool.toNat_true] at hcount
    have hpos : 0 < s.active := by
      have : 0 < s.callers.countP Caller.counted := List.countP_pos_iff.mpr ⟨c, List.mem_of_getElem? hc, hc1⟩
      omega
    simp only [gateOp, leave]
    split
    · next h0 =>
      refine ⟨hspans, by simp only; omega, fun ch hch => ?_, (fun ch hd => by cases hd), fun ch td hh => ?_, fun hx => ?_⟩
      · rcases List.mem_append.mp hch with hch | hch
        · exact h.closed ch hch
        · exact (h.drained ch (by simpa using hch)).2.1
      · obtain ⟨hshut, hch⟩ := h.waiting ch td hh
        refine ⟨hshut, .inr ⟨List.mem_append.mpr ?_, h0⟩⟩
        rcases hch with hd | ⟨hm, -⟩
        · exact .inr (by simp [hd])
        · exact .inl hm
      · exact absurd (h.cut hx).2 (by omega)
    · next h0 =>
      refine ⟨hspans, by simp only; omega, h.closed, fun ch hd => ?_, fun ch td hh => ?_, fun hx => ?_⟩
      · obtain ⟨hcl, hlt, hnm, -⟩ := h.drained ch hd
        exact ⟨hcl, hlt, hnm, by simp only; omega⟩
      · obtain ⟨hshut, hch⟩ := h.waiting ch td hh
        refine ⟨hshut, hch.imp_right fun ⟨_, hz⟩ => ?_⟩
        omega
      · exact absurd (h.cut hx).2 (by omega)

/-! ## Everyone else -/

theorem reply_some {op : Op} (hs : s.step (.reply j op) = some t) :
    ∃ c x, s.callers[j]? = some c ∧ c.call = some x ∧ s.reading x.gen = true ∧ answers c.wire op = true ∧
      t = { s with callers := s.callers.set j { c with call := some (x.terminate op) } } := by
  simp only [step] at hs
  split at hs
  · cases hs
  next c hc =>
  split at hs
  · cases hs
  next x hx =>
  obtain ⟨hr, ⟨⟩⟩ := guard_some hs
  exact ⟨c, x, hc, hx, hr.1, hr.2, rfl⟩

theorem sweep_some {i : Nat} (hs : s.step (.sweep i) = some t) :
    ∃ w j rest, s.sweeps[i]? = some w ∧ w.rest = j :: rest ∧
      t = { s with callers := (s.attempt w j rest).1, sweeps := s.sweeps.set i (s.attempt w j rest).2 } := by
  simp only [step] at hs
  split at hs
  · cases hs
  next w hw =>
  split at hs <;> cases hs
  next j rest hr => exact ⟨w, j, rest, hw, hr, rfl⟩

theorem sameSpans_set {x : Option Call} (hc : s.callers[j]? = some c) :
    (s.callers.set j { c with call := x }).map Caller.bare = s.callers.map Caller.bare := by
  rw [List.map_set]
  apply List.ext_getElem?
  intro i
  rw [List.getElem?_set]
  split
  · next hij =>
    subst hij
    obtain ⟨hlt, rfl⟩ := List.getElem?_eq_some_iff.mp hc
    simp [hlt, Caller.bare]
  · rfl

theorem Gated.spawn {kind : Kind} (h : s.Gated) : Gated { s with callers := s.callers ++ [newCaller kind] } := by
  refine ⟨fun c hc => ?_, ?_, h.closed, h.drained, h.waiting, h.cut⟩
  · rcases List.mem_append.mp hc with hc | hc
    · exact h.spans c hc
    · rw [List.mem_singleton.mp hc]
      exact Caller.spans_new kind
  · rw [List.countP_append, h.active]
    rfl

theorem Gated.step {a : Act} (h : s.Gated) (hs : s.step a = some t) : t.Gated := by
  cases a with
  | spawn kind =>
    cases hs
    exact h.spawn
  | caller j a => exact h.callerStep hs
  | reply j op =>
    obtain ⟨c, x, hc, -, -, -, rfl⟩ := reply_some hs
    exact h.same (sameSpans_set hc) rfl rfl rfl rfl rfl rfl
  | fault g exits cause =>
    obtain ⟨-, ⟨⟩⟩ := guard_some hs
    exact h.same rfl rfl rfl rfl rfl rfl rfl
  | sweep i =>
    obtain ⟨w, j, rest, -, -, rfl⟩ := sweep_some hs
    exact h.same (sameSpans_attempt _ _ _) rfl rfl rfl rfl rfl rfl
  | host a => exact h.hostStep hs

theorem Gated.of_reach (h : Reach Conn.step Any Conn.start s) : s.Gated := h.invariant .start fun hx _ hs => hx.step hs

end Conn

end Styx
