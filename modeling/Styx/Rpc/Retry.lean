/-
Retry safety: an invocation that ends in an error `IsRetryable` reports has had no handler
run for it, and will have none.

The retryable errors come from four places, and each is tied to the request's fate on the
wire: the gate and the routing state refuse before a call exists; `FailAll`'s first
attempt wins a call that is still submitted, whose `Publish` then fails; a never-published
send has put nothing on the wire; and only a request the peer has declined is answered
with the declined code.
-/
import Styx.Rpc.Cutoff

namespace Styx

open Machine

namespace Conn

/-! ## What an answer says of the request -/

/-- The ends of a call whose request a handler may have been given. -/
def Return.ends : Return → Bool
  | .response | .status | .ctx _ | .undecodable => true
  | .err e => .outcomeUnknown ∈ e
  | .marshal | .neverPublished _ | .stream => false

variable {r : Return} {op : Op} {x : Call} {c : Caller} {td : Teardown} {a : HostAct}

theorem Return.not_retryable_of_ends (h : r.ends = true) : r.retryable = false := by
  cases r with
  | err e => simpa [retryable, wraps, isRetryable, ends] using fun hn => absurd (by simpa [ends] using h) hn
  | response | status | ctx | undecodable => rfl
  | marshal | neverPublished | stream => cases h

def Wire.spared : Wire → Bool
  | .off | .declined => true
  | _ => false

def Answered (w : Wire) (r : Return) : Prop := w.spared = true ∨ r.ends = true

/-- What the winner of a call says of its request. -/
def Accounts (w : Wire) : Op → Prop
  | .failAllNotDispatched _ | .reject _ => w = .off
  | .failAllDispatched cause | .outcomeUnknown cause => .outcomeUnknown ∈ cause.err
  | .fail st => st.code = statusCodeRequestDeclined → w = .declined
  | .complete _ | .completeMsg _ | .cancel | .deadlineExceeded => True

theorem answered_result {w : Wire} (h : Accounts w op) (decodes : Bool) : Answered w (Call.result op decodes) := by
  cases op with
  | failAllNotDispatched | reject =>
    cases h
    exact .inl rfl
  | failAllDispatched | outcomeUnknown => exact .inr (decide_eq_true h)
  | fail st =>
    simp only [Call.result]
    split
    · next hcode => exact .inl (by rw [h hcode]; rfl)
    · split <;> exact .inr rfl
  | complete | completeMsg =>
    simp only [Call.result]
    split <;> exact .inr rfl
  | cancel | deadlineExceeded => exact .inr rfl

theorem accounts_answers {w : Wire} (h : answers w op = true) : Accounts w op := by
  cases op with
  | failAllNotDispatched | reject | failAllDispatched | cancel | deadlineExceeded => cases w <;> cases h
  | complete | completeMsg => trivial
  | outcomeUnknown cause =>
    cases cause with
    | discarded e => simp [Accounts, Cause.err]
    | _ => cases w <;> cases h
  | fail st =>
    intro hcode
    cases w with
    | declined => rfl
    | handled | refused => simp [answers, hcode] at h
    | off | sent => cases h

theorem Accounts.taken {w : Wire} (h : Accounts .sent op) : Accounts w op := by
  cases op with
  | failAllNotDispatched | reject => cases h
  | fail st => exact fun hcode => by cases h hcode
  | _ => exact h

/-! ## A call -/

namespace Call

def Unpublished (x : Call) : Prop :=
  x.state = .submitted ∧ x.winner = none ∨ x.state = .rejected ∧ ∃ cause, x.winner = some (.failAllNotDispatched cause)

def Publishing (x : Call) : Prop :=
  x.state ≠ .submitted ∧ ∀ op, x.winner = some op → ∃ cause, op = .failAllDispatched cause ∧ .outcomeUnknown ∈ cause.err

def Explained (w : Wire) (x : Call) : Prop :=
  x.state ≠ .submitted ∧ ∀ op, x.winner = some op → Accounts w op

variable {x : Call}

theorem Unpublished.explained (h : x.Unpublished) (hs : x.state ≠ .submitted) : x.Explained .off := by
  rcases h with ⟨hx, -⟩ | ⟨-, cause, hw⟩
  · exact absurd hx hs
  · refine ⟨hs, fun op hop => ?_⟩
    cases hw.symm.trans hop
    rfl

theorem Publishing.explained (h : x.Publishing) (w : Wire) : x.Explained w := by
  refine ⟨h.1, fun op hop => ?_⟩
  obtain ⟨cause, rfl, hc⟩ := h.2 op hop
  exact hc

theorem Explained.terminate {w : Wire} {op : Op} (h : x.Explained w) (hop : Accounts w op) :
    (x.terminate op).Explained w := by
  unfold Call.terminate
  split
  · refine ⟨fun hx => ?_, fun op' hw => ?_⟩
    · have hterm := op.target_terminal
      rw [show op.target = .submitted from hx] at hterm
      cases hterm
    · cases hw
      exact hop
  · exact h

theorem Explained.taken {w : Wire} (h : x.Explained .sent) : x.Explained w :=
  ⟨h.1, fun op hop => (h.2 op hop).taken⟩

end Call

def Sweep.Sound (w : Sweep) : Prop := .outcomeUnknown ∈ w.cause.err

variable {w : Sweep} {j : Nat} {rest : List Nat}

theorem Call.Unpublished.sweep (h : x.Unpublished) : (x.terminate w.op).Unpublished := by
  rcases h with ⟨hs, hw⟩ | h
  · cases hsec : w.second with
    | true => exact .inl (by simp [Call.terminate, Sweep.op, hsec, hs, hw, CallTable.Op.sources, CallTable.Op.transition])
    | false =>
      exact .inr (by simp [Call.terminate, Sweep.op, hsec, hs, CallTable.Op.sources, CallTable.Op.target,
        CallTable.Op.transition])
  · have hstay : x.terminate w.op = x := by
      have hn : x.state ∉ w.op.sources := fun hx => by
        have := CallTable.Op.source_live hx
        rw [h.1] at this
        cases this
      simp [Call.terminate, hn]
    rw [hstay]
    exact .inr h

theorem Call.terminate_sweep (hs : x.state ≠ .submitted) :
    x.terminate w.op = x ∨ x.terminate w.op = { x with state := .outcomeUnknown, winner := some (.failAllDispatched w.cause) } := by
  unfold Call.terminate
  split
  · next hmem =>
    right
    cases hsec : w.second with
    | true => simp [Sweep.op, hsec, CallTable.Op.target, CallTable.Op.transition]
    | false => simp [Sweep.op, hsec, CallTable.Op.sources, CallTable.Op.transition, hs] at hmem
  · exact .inl rfl

theorem Call.Publishing.sweep (h : x.Publishing) (hw : w.Sound) : (x.terminate w.op).Publishing := by
  rcases x.terminate_sweep h.1 with hx | hx
  · rw [hx]
    exact h
  · rw [hx]
    refine ⟨by simp, fun op hop => ?_⟩
    cases hop
    exact ⟨w.cause, rfl, hw⟩

theorem Call.Explained.sweep {wire : Wire} (h : x.Explained wire) (hw : w.Sound) : (x.terminate w.op).Explained wire := by
  rcases x.terminate_sweep h.1 with hx | hx
  · rw [hx]
    exact h
  · rw [hx]
    refine ⟨by simp, fun op hop => ?_⟩
    cases hop
    exact hw

/-! ## A caller -/

/-- What is known of the request of a unary caller, at each of its positions. -/
def Caller.Fate (c : Caller) : Prop :=
  match c.pc with
  | .fresh | .checked | .entered | .loaded _ | .panicked => c.call = none ∧ c.wire = .off
  | .submitted _ => (∀ x, c.call = some x → x.Unpublished) ∧ c.wire = .off
  | .sending _ => (∀ x, c.call = some x → x.Publishing) ∧ c.wire = .off
  | .classifying r => (∀ x, c.call = some x → x.Explained c.wire) ∧ (r.wire false → ¬ r.wire true → c.wire = .off)
  | .leaving .wait | .waiting | .abandoning _ => ∀ x, c.call = some x → x.Explained c.wire
  | .leaving (.answer r) | .done r => Answered c.wire r

namespace Caller

variable {c : Caller} {m : Move} {isOpen : Bool} {routed : Option Nat} {a : CallerAct}

theorem step_kind (hs : c.step isOpen routed a = some m) :
    m.caller.kind = c.kind ∧ (c.kind = .unary → c.intent = .none → m.caller.intent = .none) := by
  cases step_moves hs with
  | published =>
    unfold publish
    repeat' split
    all_goals exact ⟨rfl, fun _ => id⟩
  | classified =>
    unfold Caller.classify
    split <;> exact ⟨rfl, fun _ => id⟩
  | queued _ hk => exact ⟨rfl, fun hu => absurd (hu.symm.trans hk) (by simp)⟩
  | pushed hi => exact ⟨rfl, fun _ hn => by rw [hn] at hi; cases hi⟩
  | reported hne => exact ⟨rfl, fun _ hn => absurd hn hne⟩
  | _ => exact ⟨rfl, fun _ => id⟩

theorem Fate.taken {w : Wire} (h : c.Fate) (hw : c.wire = .sent) : Fate { c with wire := w } := by
  unfold Fate at h ⊢
  simp only
  cases hpc : c.pc with
  | fresh | checked | entered | loaded | panicked | submitted | sending =>
    rw [hpc, hw] at h
    cases h.2
  | classifying r =>
    rw [hpc, hw] at h
    refine ⟨fun x hx => (h.1 x hx).taken, fun h0 h1 => ?_⟩
    cases h.2 h0 h1
  | waiting | abandoning =>
    rw [hpc, hw] at h
    exact fun x hx => (h x hx).taken
  | leaving k =>
    cases k with
    | wait =>
      rw [hpc, hw] at h
      exact fun x hx => (h x hx).taken
    | answer r =>
      rw [hpc, hw] at h
      exact h.elim (fun hx => by cases hx) .inr
  | done r =>
    rw [hpc, hw] at h
    exact h.elim (fun hx => by cases hx) .inr

theorem Fate.reply {x : Call} {op : Op} (h : c.Fate) (hx : c.call = some x) (hop : answers c.wire op = true) :
    Fate { c with call := some (x.terminate op) } := by
  have hoff : c.wire ≠ .off := fun hw => by rw [hw] at hop; cases hop
  unfold Fate at h ⊢
  simp only
  cases hpc : c.pc with
  | fresh | checked | entered | loaded | panicked | submitted | sending =>
    rw [hpc] at h
    exact absurd h.2 hoff
  | classifying r =>
    rw [hpc] at h
    refine ⟨fun y hy => ?_, h.2⟩
    cases hy
    exact (h.1 x hx).terminate (accounts_answers hop)
  | waiting | abandoning =>
    rw [hpc] at h
    intro y hy
    cases hy
    exact (h x hx).terminate (accounts_answers hop)
  | leaving k =>
    cases k with
    | wait =>
      rw [hpc] at h
      intro y hy
      cases hy
      exact (h x hx).terminate (accounts_answers hop)
    | answer r =>
      rw [hpc] at h
      exact h
  | done r =>
    rw [hpc] at h
    exact h

theorem Fate.sweep (h : c.Fate) (hw : w.Sound) : Fate { c with call := c.call.map (·.terminate w.op) } := by
  unfold Fate at h ⊢
  simp only [Option.map_eq_some_iff, forall_exists_index, and_imp, forall_apply_eq_imp_iff₂, Option.map_eq_none_iff]
  cases hpc : c.pc with
  | fresh | checked | entered | loaded | panicked | done r =>
    rw [hpc] at h
    exact h
  | submitted =>
    rw [hpc] at h
    exact ⟨fun x hx => (h.1 x hx).sweep, h.2⟩
  | sending | classifying r =>
    rw [hpc] at h
    exact ⟨fun x hx => (h.1 x hx).sweep hw, h.2⟩
  | waiting | abandoning =>
    rw [hpc] at h
    exact fun x hx => (h x hx).sweep hw
  | leaving k =>
    cases k with
    | wait =>
      rw [hpc] at h
      exact fun x hx => (h x hx).sweep hw
    | answer r =>
      rw [hpc] at h
      exact h

theorem Fate.classify {r : Sent} (h : c.Fate) (hpc : c.pc = .classifying r) : (c.classify r).Fate := by
  unfold Fate at h
  rw [hpc] at h
  obtain ⟨hcall, hwire⟩ := h
  cases r with
  | ok => exact hcall
  | fillFailed | neverPublished => exact .inl (by simp [Caller.classify, hwire rfl (by simp [Sent.wire]), Wire.spared])
  | ctx e => cases e <;> exact .inr rfl
  | unknown e =>
    intro x hx
    obtain ⟨y, hy, rfl⟩ := Option.map_eq_some_iff.mp hx
    exact (hcall y hy).terminate (by simp [Accounts, Cause.err])

theorem Fate.publish {g : Nat} (h : c.Fate) (hpc : c.pc = .submitted g) : (c.publish g).Fate := by
  unfold Fate at h
  rw [hpc] at h
  obtain ⟨hcall, hwire⟩ := h
  unfold Caller.publish
  split
  · next x hx =>
    split
    · next hs =>
      refine ⟨fun y hy => ?_, hwire⟩
      cases hy
      refine ⟨by simp, fun op hop => ?_⟩
      rcases hcall x hx with ⟨-, hn⟩ | ⟨hr, -⟩
      · rw [hn] at hop
        cases hop
      · rw [hr] at hs
        cases hs
    · next hs =>
      intro y hy
      cases hx.symm.trans hy
      simpa [hwire] using (hcall x hx).explained hs
  · next hx =>
    intro y hy
    cases hx.symm.trans hy

theorem Fate.step (hk : c.kind = .unary) (hi : c.intent = .none) (h : c.Fate) (hs : c.step isOpen routed a = some m) : m.caller.Fate := by
  have hf := h
  unfold Fate at h
  cases step_moves hs with
  | checked hpc | entered hpc | loaded hpc | panicked hpc | left hpc | answered hpc | abandoned hpc =>
    rw [hpc] at h
    exact h
  | unrouted hpc | drained hpc | lost hpc | refused hpc =>
    rw [hpc] at h
    exact .inl (by rw [h.2]; rfl)
  | submitted hpc =>
    rw [hpc] at h
    refine ⟨fun x hx => ?_, h.2⟩
    cases hx
    exact .inl ⟨rfl, rfl⟩
  | published hpc => exact hf.publish hpc
  | sent hpc _ hw =>
    rw [hpc] at h
    -- had it reached the wire, this result would be one that says so
    exact ⟨fun x hx => (h.1 x hx).explained _, fun _ h1 => hw.resolve_left h1⟩
  | classified hpc => exact hf.classify hpc
  | received hpc hop =>
    rw [hpc] at h
    obtain ⟨x, hx, hw⟩ := Option.bind_eq_some_iff.mp hop
    exact answered_result ((h x hx).2 _ hw) _
  | expired hpc =>
    rw [hpc] at h
    simp only [Fate, hpc]
    intro x hx
    obtain ⟨y, hy, rfl⟩ := Option.map_eq_some_iff.mp hx
    exact (h y hy).terminate trivial
  | cancelled => exact .inr rfl
  | taken _ hw => exact hf.taken hw
  | reserved _ hne | opened _ hne | unopened _ hne | streamed _ hne => exact absurd hk hne
  | queued _ hst | unqueued _ hst => cases hk.symm.trans hst
  | pushed hq => cases hi.symm.trans hq
  | reported hne => exact absurd hi hne

theorem step_done {r : Return} (hpc : c.pc = .done r) (hs : c.step isOpen routed a = some m) : m.caller.pc = .done r := by
  cases a with
  | push | report | decline | refuseDispatch | handle =>
    simp only [Caller.step] at hs
    split at hs <;> cases hs
    all_goals exact hpc
  | _ => simp [Caller.step, hpc] at hs

end Caller

/-! ## The connection -/

variable {s t : Conn}

/-- A unary caller's request is accounted for, and every sweep of dispatched calls says that their outcome is unknown. -/
structure Fated (s : Conn) : Prop where
  callers : ∀ c ∈ s.callers, c.kind = .unary → c.intent = .none ∧ c.Fate
  sweeps : ∀ w ∈ s.sweeps, w.Sound
  failing : ∀ td w, s.host = .failing td w → w.Sound

theorem Fated.start : Fated Conn.start :=
  ⟨(fun c hc => by cases hc), (fun w hw => by cases hw), fun td w hh => by cases hh⟩

theorem sound_attempt (hw : w.Sound) : (s.attempt w j rest).2.Sound := by
  unfold attempt
  repeat' split
  all_goals exact hw

theorem attempt_get {i : Nat} (hc : (s.attempt w j rest).1[i]? = some c) :
    ∃ d, s.callers[i]? = some d ∧ (c = d ∨ i = j ∧ c = { d with call := d.call.map (·.terminate w.op) }) := by
  unfold Conn.attempt at hc
  (repeat' split at hc)
  · rw [List.getElem?_modify] at hc
    obtain ⟨d, hd, rfl⟩ := Option.map_eq_some_iff.mp hc
    refine ⟨d, hd, ?_⟩
    split
    · next hij => exact .inr ⟨hij.symm, rfl⟩
    · exact .inl rfl
  all_goals exact ⟨c, hc, .inl rfl⟩

theorem Fated.attempt (h : s.Fated) (hw : w.Sound) :
    ∀ c ∈ (s.attempt w j rest).1, c.kind = .unary → c.intent = .none ∧ c.Fate := by
  intro c hc hk
  obtain ⟨i, hi⟩ := List.getElem?_of_mem hc
  obtain ⟨d, hd, rfl | ⟨-, rfl⟩⟩ := attempt_get hi
  · exact h.callers c (List.mem_of_getElem? hd) hk
  · obtain ⟨hn, hf⟩ := h.callers d (List.mem_of_getElem? hd) hk
    exact ⟨hn, hf.sweep hw⟩

theorem sound_failAll {g : Nat} {cause : Cause} (h : .outcomeUnknown ∈ cause.err) : (s.failAll g cause).Sound := h

theorem Fated.set (h : s.Fated) (hc : c.kind = .unary → c.intent = .none ∧ c.Fate) :
    ∀ d ∈ s.callers.set j c, d.kind = .unary → d.intent = .none ∧ d.Fate := by
  intro d hd hk
  rcases List.mem_or_eq_of_mem_set hd with hd | rfl
  · exact h.callers d hd hk
  · exact hc hk

theorem fail_sweep {td' : Teardown} (h : s.fail td = .failing td' w) : w = s.failAll td'.gen .tornDown := by
  cases h
  rfl

theorem stopAdmission_calls : (s.stopAdmission td).callers = s.callers ∧ (s.stopAdmission td).sweeps = s.sweeps ∧
      ∀ td' w, (s.stopAdmission td).host = .failing td' w → w = s.failAll td'.gen .tornDown := by
  unfold Conn.stopAdmission Conn.shutGate
  repeat' split
  · exact ⟨rfl, rfl, fun td' w hx => fail_sweep hx⟩
  · exact ⟨rfl, rfl, (fun td' w hx => by cases hx)⟩
  · exact ⟨rfl, rfl, fun td' w hx => fail_sweep hx⟩

/-- **The host touches the calls by the attempts of a teardown's sweep**, which starts from all of its generation's. -/
theorem hostStep_calls (hs : s.hostStep a = some t) : (∃ td w j rest, s.host = .failing td w ∧ w.rest = j :: rest ∧
      t = { s with callers := (s.attempt w j rest).1, host := .failing td (s.attempt w j rest).2 }) ∨
    (t.callers = s.callers ∧ t.sweeps = s.sweeps ∧
      ∀ td w, t.host = .failing td w → w = s.failAll td.gen .tornDown) := by
  cases hostStep_moves hs with
  | fails hh hrest => exact .inl ⟨_, _, _, _, hh, hrest, rfl⟩
  | @woken _ td | @expired _ td =>
    refine .inr ⟨rfl, rfl, fun td' w hx => ?_⟩
    cases td with
    | none => cases hx
    | some td => exact fail_sweep hx
  | crashed | stops => exact .inr stopAdmission_calls
  | closes =>
    unfold Conn.shutGate
    split <;> exact .inr ⟨rfl, rfl, (fun td w hx => by cases hx)⟩
  | @opened old => cases old <;> exact .inr ⟨rfl, rfl, (fun td w hx => by cases hx)⟩
  | readable hh => exact .inr ⟨rfl, rfl, (fun td w hx => by rw [hh] at hx; cases hx)⟩
  | _ => exact .inr ⟨rfl, rfl, (fun td w hx => by cases hx)⟩

theorem Fated.hostStep (h : s.Fated) (hs : s.hostStep a = some t) : t.Fated := by
  rcases hostStep_calls hs with ⟨td, w, j, rest, hh, -, rfl⟩ | ⟨hc, hsw, hf⟩
  · have hsound := h.failing td w hh
    refine ⟨h.attempt hsound, h.sweeps, fun td' w' hx => ?_⟩
    cases hx
    exact sound_attempt hsound
  · refine ⟨hc ▸ h.callers, hsw ▸ h.sweeps, fun td w hx => ?_⟩
    rw [hf td w hx]
    exact sound_failAll (by simp [Cause.err])

theorem Fated.step {a : Act} (h : s.Fated) (hs : s.step a = some t) : t.Fated := by
  cases a with
  | spawn kind =>
    cases hs
    refine ⟨fun c hc hk => ?_, h.sweeps, h.failing⟩
    rcases List.mem_append.mp hc with hc | hc
    · exact h.callers c hc hk
    · rw [List.mem_singleton.mp hc]
      exact ⟨rfl, rfl, rfl⟩
  | caller j a =>
    obtain ⟨c, m, hc, hm, rfl⟩ := callerStep_some hs
    obtain ⟨hkind, hintent⟩ := Caller.step_kind hm
    obtain ⟨n, d, cs, hgate⟩ := s.gateOp_frame m.gate
    rw [hgate]
    refine ⟨h.set fun hk => ?_, h.sweeps, h.failing⟩
    obtain ⟨hn, hf⟩ := h.callers c (List.mem_of_getElem? hc) (hkind ▸ hk)
    exact ⟨hintent (hkind ▸ hk) hn, hf.step (hkind ▸ hk) hn hm⟩
  | reply j op =>
    obtain ⟨c, x, hc, hx, -, hop, rfl⟩ := reply_some hs
    refine ⟨h.set fun hk => ?_, h.sweeps, h.failing⟩
    obtain ⟨hn, hf⟩ := h.callers c (List.mem_of_getElem? hc) hk
    exact ⟨hn, hf.reply hx hop⟩
  | fault g exits cause =>
    obtain ⟨-, ⟨⟩⟩ := guard_some hs
    refine ⟨h.callers, fun w hw => ?_, h.failing⟩
    rcases List.mem_append.mp hw with hw | hw
    · exact h.sweeps w hw
    · rw [List.mem_singleton.mp hw]
      exact sound_failAll (by simp [Cause.err])
  | sweep i =>
    obtain ⟨w, j, rest, hw, -, rfl⟩ := sweep_some hs
    have hsound := h.sweeps w (List.mem_of_getElem? hw)
    refine ⟨h.attempt hsound, fun w' hw' => ?_, h.failing⟩
    rcases List.mem_or_eq_of_mem_set hw' with hw' | rfl
    · exact h.sweeps w' hw'
    · exact sound_attempt hsound
  | host a => exact h.hostStep hs

theorem step_get {a : Act} (hc : s.callers[j]? = some c) (hd : c.pc = .done r)
    (hk : c.kind = .unary) (hs : s.step a = some t) : ∃ c', t.callers[j]? = some c' ∧ c'.pc = .done r ∧ c'.kind = .unary := by
  by_cases ha : ∃ b, a = .caller j b
  · obtain ⟨b, rfl⟩ := ha
    obtain ⟨c', m, hc', hm, rfl⟩ := callerStep_some hs
    cases hc.symm.trans hc'
    exact ⟨m.caller, List.getElem?_set_self (List.getElem?_eq_some_iff.mp hc).1, Caller.step_done hd hm,
      (Caller.step_kind hm).1.trans hk⟩
  · obtain ⟨⟨c', hc', hb⟩, -⟩ := step_other hc hs fun b hb => ha ⟨b, hb⟩
    have hp : c'.bare.pc = c.bare.pc := congrArg Caller.pc hb
    have hkd : c'.bare.kind = c.bare.kind := congrArg Caller.kind hb
    exact ⟨c', hc', hp.trans hd, hkd.trans hk⟩

/-- **Retry safety**, in any interleaving. If what an invocation returned is retryable, no handler has the request in this
state or in any later one; and where one has or may have it, what was returned is none of the retryable errors. -/
theorem retry_safe {j : Nat} {c : Caller} {r : Return} (h : Reach step Any Conn.start s) (hc : s.callers[j]? = some c)
    (hk : c.kind = .unary) (hd : c.pc = .done r) :
    (r.retryable = true →
      ∀ t, Reach step Any s t → ∃ c', t.callers[j]? = some c' ∧ (c'.wire = .off ∨ c'.wire = .declined)) ∧
    (c.wire = .sent ∨ c.wire = .handled →
      r.retryable = false ∧
        (r = .response ∨ r = .status ∨ (∃ e, r = .ctx e) ∨ (∃ e, r = .err e ∧ .outcomeUnknown ∈ e) ∨ r = .undecodable)) := by
  have hfate : ∀ {t : Conn} {c : Caller}, t.Fated → t.callers[j]? = some c → c.kind = .unary → c.pc = .done r →
      Answered c.wire r := by
    intro t c hf hc hk hd
    have := (hf.callers c (List.mem_of_getElem? hc) hk).2
    rwa [Caller.Fate, hd] at this
  have hf : s.Fated := h.invariant .start fun hx _ hs => hx.step hs
  refine ⟨fun hr t ht => ?_, fun hw => ?_⟩
  · have hlater : t.Fated ∧ ∃ c', t.callers[j]? = some c' ∧ c'.pc = .done r ∧ c'.kind = .unary := by
      induction ht with
      | refl => exact ⟨hf, c, hc, hd, hk⟩
      | tail _ _ hs ih =>
        obtain ⟨hfu, c', hc', hd', hk'⟩ := ih
        exact ⟨hfu.step hs, step_get hc' hd' hk' hs⟩
    obtain ⟨hft, c', hc', hd', hk'⟩ := hlater
    refine ⟨c', hc', ?_⟩
    rcases hfate hft hc' hk' hd' with hs | he
    · cases hw : c'.wire <;> rw [hw] at hs <;> first | exact .inl rfl | exact .inr rfl | cases hs
    · rw [Return.not_retryable_of_ends he] at hr
      cases hr
  · have he : r.ends = true := by
      rcases hfate hf hc hk hd with hs | he
      · rcases hw with hw | hw <;> rw [hw] at hs <;> cases hs
      · exact he
    refine ⟨Return.not_retryable_of_ends he, ?_⟩
    cases r with
    | response => exact .inl rfl
    | status => exact .inr (.inl rfl)
    | ctx e => exact .inr (.inr (.inl ⟨e, rfl⟩))
    | err e => exact .inr (.inr (.inr (.inl ⟨e, rfl, of_decide_eq_true he⟩)))
    | undecodable => exact .inr (.inr (.inr (.inr rfl)))
    | marshal | neverPublished | stream => cases he

def sentActs : List Act :=
  [.host .wire, .host .open, .spawn .unary, .caller 0 .check, .caller 0 .enter, .caller 0 .load, .caller 0 .submit,
    .caller 0 (.publish true), .caller 0 (.send .ok true), .caller 0 .classify, .caller 0 .leave]

def requestDeclined : Conn :=
  (run step Conn.start (sentActs ++ [.caller 0 .decline, .reply 0 (.fail ⟨statusCodeRequestDeclined, [], []⟩),
    .caller 0 (.receive true)])).get (by decide +kernel)

theorem retry_safe_declined :
    (∃ c, requestDeclined.callers[0]? = some c ∧ c.pc = .done (.err [.requestDeclined])) ∧
      Return.retryable (.err [.requestDeclined]) = true ∧
      ∀ t, Reach step Any requestDeclined t → ∃ c', t.callers[0]? = some c' ∧ (c'.wire = .off ∨ c'.wire = .declined) := by
  have hc : requestDeclined.callers[0]? = some _ := (Option.some_get (by decide +kernel)).symm
  exact ⟨⟨_, hc, by decide +kernel⟩, rfl,
    (retry_safe (r := .err [.requestDeclined]) (.of_run (Option.some_get _).symm) hc (by decide +kernel) (by decide +kernel)).1 rfl⟩

/-- **A handled call may end in none of the four**: its response does not decode, which the caller sees as an error of its
own. -/
theorem handled_undecodable :
    ∃ (s : Conn) (c : Caller) (r : Return), Reach step Any Conn.start s ∧ s.callers[0]? = some c ∧ c.kind = .unary ∧
      c.wire = .handled ∧ c.pc = .done r ∧
      ¬ (r = .response ∨ r = .status ∨ (∃ e, r = .ctx e) ∨ ∃ e, r = .err e ∧ .outcomeUnknown ∈ e) := by
  refine ⟨(run step Conn.start (sentActs ++ [.caller 0 .handle, .reply 0 (.complete []),
    .caller 0 (.receive false)])).get (by decide +kernel), _, .undecodable, .of_run (Option.some_get _).symm,
    (Option.some_get (by decide +kernel)).symm, by decide +kernel, by decide +kernel, by decide +kernel, by simp⟩

end Conn

end Styx
