/-
The calls in the tables, over a whole run.

`step_call` says everything one step can do to one call: it is submitted by the caller
that has loaded the generation, published by the caller that has submitted it, or ended by
a `terminate`, and `FailAll`'s two come from a sweep of the call's generation (`Ending`).
-/
import Styx.Rpc.Retry

namespace Styx

open Machine

namespace Conn

variable {s t : Conn} {c : Caller} {j : Nat} {op : Op} {w : Sweep} {rest : List Nat} {a : Act} {x : Call}

/-! ## What a step does to a call -/

def call (s : Conn) (j : Nat) : Option Call := s.callers[j]?.bind (·.call)

theorem call_eq (hc : s.callers[j]? = some c) : s.call j = c.call := by simp [call, hc]

def Sweeping (s : Conn) (w : Sweep) : Prop := w ∈ s.sweeps ∨ ∃ td, s.host = .failing td w

/-- Who can end the call of caller `j` this way: the two `FailAll` makes come from a sweep that has it. -/
def Ending (s : Conn) (j : Nat) (op : Op) : Prop :=
  match op with
  | .failAllNotDispatched _ | .failAllDispatched _ => ∃ w, s.Sweeping w ∧ j ∈ w.rest ∧ op = w.op
  | .outcomeUnknown cause => ∃ e, cause = .unknownSend e ∨ cause = .discarded e
  | _ => True

/-- What one step makes of the call of caller `j`. -/
inductive CallMove (s : Conn) (j : Nat) : Option Call → Option Call → Prop
  | rests {x : Option Call} : CallMove s j x x
  | submits {c : Caller} {g : Nat} : s.callers[j]? = some c → c.kind = .unary → c.pc = .loaded g →
    CallMove s j none (some ⟨g, .submitted, none⟩)
  | publishes {c : Caller} {g : Nat} {x : Call} : s.callers[j]? = some c → c.pc = .submitted g → x.state = .submitted →
    CallMove s j (some x) (some { x with state := .published })
  | ends {x : Call} {op : Op} : x.state ∈ op.sources → s.Ending j op →
    CallMove s j (some x) (some { x with state := op.target, winner := some op })

theorem CallMove.terminate (h : s.Ending j op) (x : Option Call) :
    CallMove s j x (x.map (·.terminate op)) := by
  cases x with
  | none => exact .rests
  | some x =>
    simp only [Option.map_some, Call.terminate]
    split
    · next hs => exact .ends hs h
    · exact .rests

theorem ending_sweep (hw : s.Sweeping w) (hj : j ∈ w.rest) : s.Ending j w.op := by
  cases hsec : w.second <;> simp only [Ending, Sweep.op, hsec, if_true, Bool.false_eq_true, if_false]
  all_goals exact ⟨w, hw, hj, by simp [hsec]⟩

theorem Sweep.cause_of_op {cause : Cause} (h : .failAllDispatched cause = w.op) : cause = w.cause := by
  cases hsec : w.second <;> simp [Sweep.op, hsec] at h
  exact h

theorem ending_answers {wire : Wire} (h : answers wire op = true) : s.Ending j op := by
  cases op with
  | failAllNotDispatched | failAllDispatched => cases wire <;> cases h
  | outcomeUnknown cause =>
    cases cause with
    | discarded e => exact ⟨e, .inr rfl⟩
    | _ => cases wire <;> cases h
  | _ => trivial

theorem Caller.step_call {m : Move} {isOpen : Bool} {routed : Option Nat} {a : CallerAct}
    (hc : s.callers[j]? = some c) (hcall : ∀ g, c.kind = .unary → c.pc = .loaded g → c.call = none)
    (hs : c.step isOpen routed a = some m) : CallMove s j c.call m.caller.call := by
  cases step_moves hs with
  | submitted hpc hk =>
    rw [hcall _ hk hpc]
    exact .submits hc hk hpc
  | published hpc =>
    unfold Caller.publish
    split
    · next x hx =>
      split
      · next hsub =>
        rw [hx]
        exact .publishes hc hpc hsub
      · exact .rests
    · exact .rests
  | classified =>
    unfold Caller.classify
    split
    · exact .rests
    iterate 4
      · refine .terminate ?_ _
        trivial
    · refine .terminate ?_ _
      exact ⟨_, .inl rfl⟩
  | expired | cancelled =>
    refine .terminate ?_ _
    trivial
  | _ => exact .rests

theorem attempt_call (w : Sweep) (j : Nat) (rest : List Nat) (i : Nat) :
    (s.attempt w j rest).1[i]?.bind (·.call) = if j = i then (s.call i).map (·.terminate w.op) else s.call i := by
  unfold Conn.attempt
  split
  · next x hx =>
    split
    · rw [List.getElem?_modify]
      split <;> cases hc : s.callers[i]? <;> simp [call, hc]
    · next hs =>
      change s.call i = _
      split
      · next hij =>
        subst hij
        simp only [call, hx, Option.map_some, Call.terminate, hs, if_false]
      · rfl
  · next hx =>
    split
    · next hij =>
      subst hij
      simp only [call, hx, Option.map_none]
    · rfl

theorem attempt_move (hw : s.Sweeping w) (hr : w.rest = j :: rest) (i : Nat) :
    CallMove s i (s.call i) ((s.attempt w j rest).1[i]?.bind (·.call)) := by
  rw [attempt_call]
  split
  · next hij => exact .terminate (ending_sweep hw (by rw [hr, hij]; exact List.mem_cons_self)) _
  · exact .rests

theorem call_set {d : Caller} (hc : s.callers[j]? = some c) (i : Nat) :
    (s.callers.set j d)[i]?.bind (·.call) = if j = i then d.call else s.call i := by
  rw [List.getElem?_set]
  split
  · simp [(List.getElem?_eq_some_iff.mp hc).1]
  · rfl

theorem Fated.loaded_call (h : s.Fated) (hc : s.callers[j]? = some c) (g : Nat) (hk : c.kind = .unary)
    (hpc : c.pc = .loaded g) : c.call = none := by
  have hfate := (h.callers c (List.mem_of_getElem? hc) hk).2
  rw [Caller.Fate, hpc] at hfate
  exact hfate.1

/-- **What a step can do to a call.** -/
theorem step_call (hf : s.Fated) (hs : s.step a = some t) (j : Nat) : CallMove s j (s.call j) (t.call j) := by
  cases a with
  | spawn kind =>
    cases hs
    have hsame : ((s.callers ++ [newCaller kind])[j]?.bind (·.call)) = s.call j := by
      rw [List.getElem?_append]
      split
      · rfl
      · next hlt =>
        rw [call, List.getElem?_eq_none (Nat.le_of_not_lt hlt)]
        cases hn : [newCaller kind][j - s.callers.length]? with
        | none => rfl
        | some c =>
          cases List.mem_singleton.mp (List.mem_of_getElem? hn)
          rfl
    exact hsame ▸ .rests
  | caller i a =>
    obtain ⟨c, m, hc, hm, rfl⟩ := callerStep_some hs
    change CallMove s j (s.call j) ((s.callers.set i m.caller)[j]?.bind (·.call))
    rw [call_set hc]
    split
    · next hij =>
      subst hij
      rw [call_eq hc]
      exact Caller.step_call hc (hf.loaded_call hc) hm
    · exact .rests
  | reply i op =>
    obtain ⟨c, x, hc, hx, -, hop, rfl⟩ := reply_some hs
    change CallMove s j (s.call j) ((s.callers.set i _)[j]?.bind (·.call))
    rw [call_set hc]
    split
    · next hij =>
      subst hij
      rw [call_eq hc, hx]
      exact .terminate (ending_answers hop) (some x)
    · exact .rests
  | fault g exits cause =>
    obtain ⟨-, ⟨⟩⟩ := guard_some hs
    exact .rests
  | sweep i =>
    obtain ⟨w, k, rest, hw, hr, rfl⟩ := sweep_some hs
    exact attempt_move (.inl (List.mem_of_getElem? hw)) hr j
  | host a =>
    rcases hostStep_calls hs with ⟨td, w, k, rest, hh, hr, rfl⟩ | ⟨hc, -, -⟩
    · exact attempt_move (.inr ⟨td, hh⟩) hr j
    · have hsame : t.call j = s.call j := by rw [call, call, hc]
      exact hsame ▸ .rests

/-! ## Callers and their generations -/

/-- A caller works on a generation there is, and only it can publish the call it has submitted. -/
structure Caller.Held (gens : Nat) (c : Caller) : Prop where
  loaded : ∀ g, c.pc.gen = some g → g < gens
  submitted : ∀ x, c.call = some x → x.state = .submitted → c.pc = .submitted x.gen
  stream : c.kind ≠ .unary → c.call = none

theorem Call.terminate_submitted (h : (x.terminate op).state = .submitted) : x.terminate op = x := by
  unfold Call.terminate at h ⊢
  split at h
  · have hterm := op.target_terminal
    rw [show op.target = .submitted from h] at hterm
    cases hterm
  · next hn => rw [if_neg hn]

namespace Caller

variable {c : Caller} {m : Move} {isOpen : Bool} {routed : Option Nat} {a : CallerAct} {gens : Nat} {x : Call}

theorem step_gen (hs : c.step isOpen routed a = some m) {g : Nat} (hg : m.caller.pc.gen = some g) :
    c.pc.gen = some g ∨ routed = some g := by
  cases step_moves hs with
  | loaded _ hr => exact .inr (hr.trans hg)
  | submitted hpc | reserved hpc | opened hpc => exact .inl (by rw [hpc]; exact hg)
  | published hpc =>
    unfold publish at hg
    (repeat' split at hg)
    · exact .inl (by rw [hpc]; exact hg)
    all_goals cases hg
  | classified =>
    unfold Caller.classify at hg
    split at hg <;> cases hg
  | expired | pushed | reported | taken => exact .inl hg
  | _ => cases hg

theorem Held.terminate (h : c.Held gens) : Held gens { c with call := c.call.map (·.terminate op) } := by
  refine ⟨h.loaded, fun x hx hst => ?_, fun hk => by simp [h.stream hk]⟩
  obtain ⟨y, hy, rfl⟩ := Option.map_eq_some_iff.mp hx
  have hsame := Call.terminate_submitted hst
  rw [hsame] at hst ⊢
  exact h.submitted y hy hst

theorem Held.terminate_submitted (h : c.Held gens) (hpc : ∀ g, c.pc ≠ .submitted g)
    (hx : c.call.map (·.terminate op) = some x) : x.state ≠ .submitted := by
  intro hst
  obtain ⟨y, hy, rfl⟩ := Option.map_eq_some_iff.mp hx
  have hsame := Call.terminate_submitted hst
  rw [hsame] at hst
  exact hpc _ (h.submitted y hy hst)

theorem Held.step_submitted (h : c.Held gens) (hs : c.step isOpen routed a = some m) (hx : m.caller.call = some x)
    (hst : x.state = .submitted) : m.caller.pc = .submitted x.gen := by
  cases step_moves hs with
  | submitted =>
    cases hx
    rfl
  | published =>
    unfold publish at hx
    split at hx
    · split at hx
      · cases hx
        cases hst
      · next hy hn =>
        cases hy.symm.trans hx
        exact absurd hst hn
    · next hy => cases hy.symm.trans hx
  | classified hpc =>
    have hpc' : ∀ g, c.pc ≠ .submitted g := fun g => by rw [hpc]; simp
    unfold Caller.classify at hx
    split at hx
    · exact absurd (h.submitted x hx hst) (hpc' _)
    all_goals exact absurd hst (h.terminate_submitted hpc' hx)
  | expired hpc | cancelled hpc => exact absurd hst (h.terminate_submitted (fun g => by rw [hpc]; simp) hx)
  | reserved _ hk | opened _ hk | unopened _ hk =>
    cases (h.stream hk).symm.trans hx
  | pushed | reported | taken => exact h.submitted x hx hst
  | checked hpc | unrouted hpc | entered hpc | drained hpc | loaded hpc | lost hpc | refused hpc | panicked hpc | sent hpc
  | streamed hpc | queued hpc | unqueued hpc | left hpc | answered hpc | received hpc | abandoned hpc =>
    -- at any other position the call is not a submitted one
    cases hpc.symm.trans (h.submitted x hx hst)

theorem Held.step (hc : s.callers[j]? = some c) (hcall : ∀ g, c.kind = .unary → c.pc = .loaded g → c.call = none)
    (hr : ∀ g, routed = some g → g < gens) (h : c.Held gens) (hs : c.step isOpen routed a = some m) : m.caller.Held gens := by
  refine ⟨fun g hg => (step_gen hs hg).elim (h.loaded g) (hr g), fun x hx hst => h.step_submitted hs hx hst, fun hk => ?_⟩
  rw [(step_kind hs).1] at hk
  have hmove := step_call hc hcall hs
  rw [h.stream hk] at hmove
  generalize m.caller.call = y at hmove ⊢
  cases hmove with
  | rests => rfl
  | submits hc' hk' =>
    cases hc.symm.trans hc'
    exact absurd hk' hk

end Caller

/-! ## The tables -/

/-- How a call of a generation may have ended. -/
def Sorted (faulted : Bool) : Op → Prop
  | .failAllDispatched cause => cause = .tornDown ∨ faulted = true ∧ ∃ e, cause = .connFault e
  | .outcomeUnknown cause => ∃ e, cause = .unknownSend e ∨ cause = .discarded e
  | _ => True

def Sweeps (s : Conn) (w : Sweep) : Prop := ∀ j ∈ w.rest, ∃ x, s.call j = some x ∧ x.gen = w.gen

structure Tables (s : Conn) : Prop where
  fated : s.Fated
  routed : ∀ g, s.routed = some g → g < s.gens
  held : ∀ c ∈ s.callers, c.Held s.gens
  gens : ∀ j x, s.call j = some x → x.gen < s.gens
  live : ∀ j x, s.call j = some x → x.winner = none → x.state.terminal = false
  sorted : ∀ j x op, s.call j = some x → x.winner = some op → Sorted (s.faulted x.gen) op
  faults : ∀ w ∈ s.sweeps, s.Sweeps w ∧ s.faulted w.gen = true ∧ ∃ e, w.cause = .connFault e
  failing : ∀ td w, s.host = .failing td w → s.Sweeps w ∧ w.gen = td.gen ∧ w.cause = .tornDown

theorem Tables.start : Tables Conn.start := by
  refine ⟨.start, (fun g hg => by cases hg), (fun c hc => by cases hc), (fun j x hx => by cases hx), (fun j x hx => by cases hx),
    (fun j x op hx => by cases hx), (fun w hw => by cases hw), fun td w hh => by cases hh⟩

theorem CallMove.gen {x y : Option Call} (h : CallMove s j x y) {z : Call} (hx : x = some z) :
    ∃ z', y = some z' ∧ z'.gen = z.gen := by
  cases h with
  | rests => exact ⟨z, hx, rfl⟩
  | submits => cases hx
  | publishes | ends =>
    cases hx
    exact ⟨_, rfl, rfl⟩

def CallMoves (s t : Conn) : Prop := ∀ j, CallMove s j (s.call j) (t.call j)

theorem CallMoves.back (hm : CallMoves s t) (hx : t.call j = some x) : s.call j = some x ∨
    (∃ c g, s.callers[j]? = some c ∧ c.pc = .loaded g ∧ x = ⟨g, .submitted, none⟩) ∨
    (∃ c g y, s.call j = some y ∧ s.callers[j]? = some c ∧ c.pc = .submitted g ∧ y.state = .submitted ∧
      x = { y with state := .published }) ∨
    (∃ y op, s.call j = some y ∧ y.state ∈ op.sources ∧ s.Ending j op ∧
      x = { y with state := op.target, winner := some op }) := by
  have hj := hm j
  rw [hx] at hj
  generalize hy : s.call j = y at hj
  cases hj with
  | rests => exact .inl rfl
  | submits hc _ hpc => exact .inr (.inl ⟨_, _, hc, hpc, rfl⟩)
  | publishes hc hpc hs => exact .inr (.inr (.inl ⟨_, _, _, rfl, hc, hpc, hs, rfl⟩))
  | ends hs he => exact .inr (.inr (.inr ⟨_, _, rfl, hs, he, rfl⟩))

theorem Sweeps.moves (h : s.Sweeps w) (hm : CallMoves s t) : t.Sweeps w := by
  intro j hj
  obtain ⟨x, hx, hg⟩ := h j hj
  obtain ⟨y, hy, hgy⟩ := (hm j).gen hx
  exact ⟨y, hy, hgy.trans hg⟩

theorem mem_callsOf {g : Nat} : j ∈ s.callsOf g ↔ ∃ x, s.call j = some x ∧ x.gen = g := by
  simp only [callsOf, List.mem_filter, List.mem_range, Option.any_eq_true, beq_iff_eq]
  constructor
  · rintro ⟨-, x, hx, hg⟩
    exact ⟨x, hx, hg⟩
  · rintro ⟨x, hx, hg⟩
    refine ⟨?_, x, hx, hg⟩
    obtain ⟨c, hc, -⟩ := Option.bind_eq_some_iff.mp hx
    exact (List.getElem?_eq_some_iff.mp hc).1

theorem sweeps_failAll (g : Nat) (cause : Cause) : s.Sweeps (s.failAll g cause) := fun _ hj => mem_callsOf.mp hj

theorem Sweeps.attempt (h : t.Sweeps w) (hr : w.rest = j :: rest) :
    t.Sweeps (s.attempt w j rest).2 ∧ (s.attempt w j rest).2.gen = w.gen ∧ (s.attempt w j rest).2.cause = w.cause := by
  have hrest : ∀ i ∈ rest, ∃ x, t.call i = some x ∧ x.gen = w.gen := fun i hi => h i (by rw [hr]; exact List.mem_cons_of_mem _ hi)
  unfold Conn.attempt
  (repeat' split)
  · exact ⟨hrest, rfl, rfl⟩
  · exact ⟨hrest, rfl, rfl⟩
  · exact ⟨h, rfl, rfl⟩
  · exact ⟨hrest, rfl, rfl⟩

theorem Tables.sorted_ending (h : s.Tables) (hx : s.call j = some x) (he : s.Ending j op) : Sorted (s.faulted x.gen) op := by
  cases op with
  | failAllDispatched cause =>
    obtain ⟨w, hw, hj, hop⟩ := he
    have hcause := Sweep.cause_of_op hop
    rcases hw with hw | ⟨td, hh⟩
    · obtain ⟨hsw, hf, e, he⟩ := h.faults w hw
      obtain ⟨y, hy, hg⟩ := hsw j hj
      cases hx.symm.trans hy
      exact .inr ⟨hg ▸ hf, e, hcause.trans he⟩
    · exact .inl (hcause.trans (h.failing td w hh).2.2)
  | outcomeUnknown => exact he
  | _ => trivial

theorem Sorted.mono {f f' : Bool} (h : Sorted f op) (hf : f = true → f' = true) : Sorted f' op := by
  cases op with
  | failAllDispatched => exact h.imp_right fun ⟨hx, he⟩ => ⟨hf hx, he⟩
  | outcomeUnknown => exact h
  | _ => trivial

theorem Tables.moves (h : s.Tables) (hm : CallMoves s t) (hx : t.call j = some x) :
    x.gen < s.gens ∧ (x.winner = none → x.state.terminal = false) ∧
      ∀ op, x.winner = some op → Sorted (s.faulted x.gen) op := by
  rcases hm.back hx with hy | ⟨c, g, hc, hpc, rfl⟩ | ⟨c, g, y, hy, -, -, -, rfl⟩ | ⟨y, op, hy, -, he, rfl⟩
  · exact ⟨h.gens j x hy, h.live j x hy, fun op => h.sorted j x op hy⟩
  · exact ⟨(h.held c (List.mem_of_getElem? hc)).loaded g (by rw [hpc]; rfl), fun _ => rfl, fun op hop => by cases hop⟩
  · have hgen := h.gens j y hy
    have hsorted := fun op => h.sorted j y op hy
    exact ⟨hgen, fun _ => rfl, hsorted⟩
  · have hgen := h.gens j y hy
    refine ⟨hgen, (fun hw => by cases hw), fun op' hop => ?_⟩
    cases hop
    have hsorted := h.sorted_ending hy he
    exact hsorted

theorem Tables.step_moves (h : s.Tables) (hf : t.Fated) (hm : CallMoves s t) (hr : t.routed = s.routed ∨ t.routed = none)
    (hg : t.gens = s.gens) (hheld : ∀ c ∈ t.callers, c.Held s.gens) (hfaulted : ∀ g, s.faulted g = true → t.faulted g = true)
    (hfaults : ∀ w ∈ t.sweeps, t.Sweeps w ∧ t.faulted w.gen = true ∧ ∃ e, w.cause = .connFault e)
    (hfailing : ∀ td w, t.host = .failing td w → t.Sweeps w ∧ w.gen = td.gen ∧ w.cause = .tornDown) : t.Tables := by
  refine ⟨hf, fun g hx => ?_, hg ▸ hheld, fun j x hx => hg ▸ (h.moves hm hx).1, fun j x hx => (h.moves hm hx).2.1,
    fun j x op hx hw => ((h.moves hm hx).2.2 op hw).mono (hfaulted x.gen), hfaults, hfailing⟩
  rw [hg]
  rcases hr with hr | hr
  · exact h.routed g (hr ▸ hx)
  · rw [hr] at hx
    cases hx

theorem Tables.held_attempt (h : s.Tables) :
    ∀ c ∈ (s.attempt w j rest).1, c.Held s.gens := by
  intro c hc
  obtain ⟨i, hi⟩ := List.getElem?_of_mem hc
  obtain ⟨d, hd, rfl | ⟨-, rfl⟩⟩ := attempt_get hi
  · exact h.held c (List.mem_of_getElem? hd)
  · exact (h.held d (List.mem_of_getElem? hd)).terminate

theorem Tables.held_set (h : s.Tables) (hc : c.Held s.gens) :
    ∀ d ∈ s.callers.set j c, d.Held s.gens := by
  intro d hd
  rcases List.mem_or_eq_of_mem_set hd with hd | rfl
  · exact h.held d hd
  · exact hc

theorem Tables.wire (h : s.Tables) (hf : (s.wire old).Fated) : (s.wire old).Tables := by
  refine ⟨hf, fun g hg => ?_, fun c hc => ?_, fun j x hx => Nat.lt_succ_of_lt (h.gens j x hx), h.live, h.sorted, h.faults,
    fun td w hh => by cases hh⟩
  · cases hg
    exact Nat.lt_succ_self _
  · exact ⟨fun g hg => Nat.lt_succ_of_lt ((h.held c hc).loaded g hg), (h.held c hc).submitted, (h.held c hc).stream⟩

theorem Tables.hostStep {a : HostAct} (h : s.Tables) (hs : s.hostStep a = some t) : t.Tables := by
  have hf := h.fated.hostStep hs
  have hk := hostStep_keeps hs
  have hm : CallMoves s t := step_call (a := .host a) h.fated hs
  rcases hk.routed with ⟨hg, hr⟩ | ⟨-, rfl⟩ | ⟨-, rfl⟩
  · have hfaulted : ∀ g, s.faulted g = true → t.faulted g = true := fun g hx => hk.faulted ▸ hx
    rcases hostStep_calls hs with ⟨td, w, j, rest, hh, hrest, rfl⟩ | ⟨hc, hsw, hfail⟩
    · obtain ⟨hsweeps, hgen, hcause⟩ := h.failing td w hh
      refine h.step_moves hf hm hr hg h.held_attempt hfaulted (fun w' hw' => ?_) fun td' w' hx => ?_
      · obtain ⟨h1, h2⟩ := h.faults w' hw'
        exact ⟨h1.moves hm, h2⟩
      · cases hx
        obtain ⟨h1, h2, h3⟩ := (hsweeps.moves hm).attempt (s := s) hrest
        exact ⟨h1, h2.trans hgen, h3.trans hcause⟩
    · refine h.step_moves hf hm hr hg (hc ▸ h.held) hfaulted (fun w hw => ?_) fun td w hx => ?_
      · obtain ⟨h1, h2, h3⟩ := h.faults w (hsw ▸ hw)
        exact ⟨h1.moves hm, hfaulted _ h2, h3⟩
      · rw [hfail td w hx]
        exact ⟨(sweeps_failAll td.gen .tornDown).moves hm, rfl, rfl⟩
  · exact h.wire hf
  · exact h.wire hf

theorem Tables.step (h : s.Tables) (hs : s.step a = some t) : t.Tables := by
  have hf := h.fated.step hs
  have hm : CallMoves s t := step_call h.fated hs
  have hfaults : ∀ w ∈ s.sweeps, t.Sweeps w ∧ s.faulted w.gen = true ∧ ∃ e, w.cause = .connFault e := fun w hw =>
    ⟨(h.faults w hw).1.moves hm, (h.faults w hw).2⟩
  have hfailing : ∀ td w, s.host = .failing td w → t.Sweeps w ∧ w.gen = td.gen ∧ w.cause = .tornDown := fun td w hh =>
    ⟨(h.failing td w hh).1.moves hm, (h.failing td w hh).2⟩
  cases a with
  | spawn kind =>
    cases hs
    refine h.step_moves hf hm (.inl rfl) rfl (fun c hc => ?_) (fun _ => id) hfaults hfailing
    rcases List.mem_append.mp hc with hc | hc
    · exact h.held c hc
    · rw [List.mem_singleton.mp hc]
      exact ⟨(fun g hg => by cases hg), (fun x hx => by cases hx), fun _ => rfl⟩
  | caller j a =>
    obtain ⟨c, m, hc, hact, rfl⟩ := callerStep_some hs
    obtain ⟨n, d, cs, hgate⟩ := s.gateOp_frame m.gate
    rw [hgate] at hf hm hfaults hfailing ⊢
    have hheld := (h.held c (List.mem_of_getElem? hc)).step hc (h.fated.loaded_call hc) h.routed hact
    exact h.step_moves hf hm (.inl rfl) rfl (h.held_set hheld) (fun _ => id) hfaults hfailing
  | reply j op =>
    obtain ⟨c, x, hc, hx, -, -, rfl⟩ := reply_some hs
    have hheld : Caller.Held s.gens { c with call := c.call.map (·.terminate op) } :=
      (h.held c (List.mem_of_getElem? hc)).terminate
    rw [hx] at hheld
    exact h.step_moves hf hm (.inl rfl) rfl (h.held_set hheld) (fun _ => id) hfaults hfailing
  | fault g exits cause =>
    obtain ⟨-, ⟨⟩⟩ := guard_some hs
    have hfaulted : ∀ g', s.faulted g' = true → Function.update s.faulted g true g' = true := by
      intro g' hx
      by_cases hg : g' = g
      · rw [hg, Function.update_self]
      · rwa [Function.update_of_ne hg]
    refine h.step_moves hf hm (.inl rfl) rfl h.held hfaulted (fun w hw => ?_) hfailing
    rcases List.mem_append.mp hw with hw | hw
    · obtain ⟨h1, h2, h3⟩ := hfaults w hw
      exact ⟨h1, hfaulted _ h2, h3⟩
    · rw [List.mem_singleton.mp hw]
      exact ⟨(sweeps_failAll g (.connFault cause)).moves hm, Function.update_self .., cause, rfl⟩
  | sweep i =>
    obtain ⟨w, j, rest, hw, hrest, rfl⟩ := sweep_some hs
    refine h.step_moves hf hm (.inl rfl) rfl h.held_attempt (fun _ => id) (fun w' hw' => ?_) hfailing
    rcases List.mem_or_eq_of_mem_set hw' with hw' | rfl
    · exact hfaults w' hw'
    · obtain ⟨h1, h2, e, h3⟩ := hfaults w (List.mem_of_getElem? hw)
      obtain ⟨h4, h5, h6⟩ := h1.attempt (s := s) hrest
      exact ⟨h4, h5 ▸ h2, e, h6.trans h3⟩
  | host a => exact h.hostStep hs

end Conn

end Styx
