/-
What a reload keeps to, whatever the old plugin does.

The host is the machine of `Transaction`. The plugin is gone: any message may come at any
time and any control call may fail. `Watched` notes what the host has behind it, so
that the order of a reload is a statement about its record.
-/
import Styx.Reload.Kept

namespace Styx

namespace Reload

open Machine State

inductive Milestone
  | cutoff
  | drainAck
  | verified
  | saveStateAck
  | spawned
  | restored
  | promoted
  | discarded
  deriving DecidableEq

/-- What the host has done by moving from one line to the other. -/
def milestone : HostPc → HostPc → Option Milestone
  | .closing _, .drain => some .cutoff
  | .awaitDrainAck _, .snapshot => some .drainAck
  | .verify _, .sendSaveStateAck _ => some .verified
  | .sendSaveStateAck _, .spawn => some .saveStateAck
  | .spawn, .restore => some .spawned
  | .restore, .promote => some .restored
  | .promote, .teardown => some .promoted
  | .discard _ _, .resume _ _ => some .discarded
  | _, _ => none

/-- The control call the host is at fails: the plugin has crashed, or its message is malformed. -/
def broken (s : State) : Option State :=
  match s.host with
  | .sendDrain _ _ => some (s.rollback .cutoff false .drainNotCommitted)
  | .awaitDrainAck _ => some (s.rollback .drainAck false .awaitDrainAck)
  | .awaitSaveState _ => some (s.rollback .snapshot false .awaitSaveState)
  | .sendSaveStateAck _ => some (s.rollback .snapshot false .sendSaveStateAck)
  | .resume _ c | .awaitResumeAck _ c => some { s with host := .done (.crashEquivalent c) }
  | _ => none

inductive Wild
  | act (a : Act)
  | sends (m : ControlMessage)
  | broken

structure Watched where
  state : State
  passed : List Milestone

def wild (s : State) : Wild → Option State
  | .act (.plugin _) => none
  | .act a => step s a
  | .sends m => some (s.answer m)
  | .broken => broken s

def note (s : State) (passed : List Milestone) (t : State) : Watched :=
  ⟨t, passed ++ (milestone s.host t.host).toList⟩

def watch (w : Watched) (a : Wild) : Option Watched := (wild w.state a).map (note w.state w.passed)

/-- A reload that goes through. -/
def route : List Milestone := [.cutoff, .drainAck, .verified, .saveStateAck, .spawned, .restored, .promoted]

/-- How far along the route a line is that is not in `rollback`. -/
def HostPc.reached : HostPc → Nat
  | .drain | .sendDrain _ _ | .awaitDrainAck _ => 1
  | .snapshot | .awaitSaveState _ | .verify _ => 2
  | .sendSaveStateAck _ => 3
  | .spawn => 4
  | .restore => 5
  | .promote => 6
  | .teardown | .reap | .done .promoted => 7
  | _ => 0

/-- Nothing was promoted, and a successor there was is gone. -/
def Cleared (passed : List Milestone) : Prop :=
  .promoted ∉ passed ∧ (.spawned ∈ passed → .discarded ∈ passed)

instance (passed : List Milestone) : Decidable (Cleared passed) := inferInstanceAs (Decidable (_ ∧ _))

def Safe (w : Watched) : Prop :=
  match w.state.host with
  | .start => w.passed = [] ∧ w.state.drainSent = false
  | .closing _ | .drain | .sendDrain _ _ =>
    w.passed = route.take w.state.host.reached ∧ w.state.gate.isOpen = false ∧ w.state.drainSent = false
  | .discard _ _ => .promoted ∉ w.passed ∧ w.state.gate.isOpen = false
  | .resume _ _ | .awaitResumeAck _ _ | .done (.crashEquivalent _) =>
    Cleared w.passed ∧ w.state.gate.isOpen = false
  | .done (.rolledBack _) =>
    Cleared w.passed ∧ w.state.gate.isOpen = true ∧ (w.state.drainSent = true → w.state.resumeAcked = true)
  | pc => w.passed = route.take pc.reached ∧ w.state.gate.isOpen = pc.promoted

variable {s t : State} {w w' : Watched} {a : Wild} {passed : List Milestone} {c : Cause}
  {phase : Phase} {successor : Bool}

theorem milestone_self (pc : HostPc) : milestone pc pc = none := by
  cases pc <;> rfl

/-- What `Safe` reads has not moved. -/
theorem Safe.congr (hi : Safe ⟨s, passed⟩) (hh : t.host = s.host) (hg : t.gate.isOpen = s.gate.isOpen)
    (hd : t.drainSent = s.drainSent) (hr : t.resumeAcked = s.resumeAcked) : Safe (note s passed t) := by
  rw [note, hh, milestone_self, Option.toList_none, List.append_nil]
  simpa only [Safe, hh, hg, hd, hr] using hi

/-- The rollback of a reload that has sent no Drain. -/
theorem safe_abort (hp : passed = route.take s.host.reached) (hr : s.host.reached < 2) (hd : s.drainSent = false) :
    Safe (note s passed (s.rollback .cutoff false c)) := by
  have hm : milestone s.host (.done (.rolledBack c)) = none := by cases s.host <;> rfl
  have hc : ∀ n < 2, Cleared (route.take n) := by decide
  simp [Safe, note, rollback, AdmissionGate.reopen, hm, hd, hp, hc _ hr]

/-- The rollback of one that has, with a successor to tear down once there is one. -/
theorem safe_retreat (hph : phase ≠ .cutoff) (hp : passed = route.take s.host.reached)
    (hr : 0 < s.host.reached ∧ s.host.reached < if successor then 7 else 5) (hg : s.gate.isOpen = false) :
    Safe (note s passed (s.rollback phase successor c)) := by
  have hm {d} : milestone s.host (.discard d c) = none ∧ milestone s.host (.resume d c) = none := by
    cases hpc : s.host <;> simp_all [milestone, HostPc.reached]
  have hn : ∀ n < 7, .promoted ∉ route.take n := by decide
  have hc : ∀ n < 5, Cleared (route.take n) := by decide
  cases successor
  · simp [Safe, note, rollback, hph, hm, hp, hg, hc _ hr.2]
  · simp [Safe, note, rollback, hph, hm, hp, hg, hn _ hr.2]

attribute [local simp] Safe note milestone HostPc.reached HostPc.promoted route Cleared State.tell AdmissionGate.shut
  AdmissionGate.reopen

theorem Safe.hostGo {ok : Bool} (hi : Safe ⟨s, passed⟩) (h : s.hostGo ok = some t) : Safe (note s passed t) := by
  cases hpc : s.host <;> simp only [State.hostGo, hpc, reduceCtorEq] at h <;> simp only [Safe, hpc] at hi
  case closing =>
    obtain ⟨-, ⟨⟩⟩ := guard_some h
    split
    · exact safe_abort (hpc ▸ hi.1) (by simp [hpc]) hi.2.2
    · simp_all
  all_goals cases h
  case drain | sendDrain =>
    split
    any_goals exact safe_abort (hpc ▸ hi.1) (by simp [hpc]) hi.2.2
    all_goals simp_all
  case snapshot | verify | sendSaveStateAck | spawn | restore | promote =>
    split
    any_goals exact safe_retreat (by decide) (hpc ▸ hi.1) (by simp [hpc]) hi.2
    all_goals simp_all
  case teardown | resume => split <;> simp_all
  all_goals simp_all

theorem Safe.hostRecv (hi : Safe ⟨s, passed⟩) (h : s.hostRecv = some t) : Safe (note s passed t) := by
  simp only [State.hostRecv] at h
  split at h
  · cases h
  cases hpc : s.host <;> simp only [hpc, reduceCtorEq] at h <;> simp only [Safe, hpc] at hi <;> cases h <;> split
  any_goals exact safe_retreat (s := { s with toHost := _ }) (by decide) (hpc ▸ hi.1) (by simp [hpc]) hi.2
  all_goals simp_all

theorem Safe.hostExpire (hi : Safe ⟨s, passed⟩) (h : s.hostExpire = some t) : Safe (note s passed t) := by
  cases hpc : s.host <;> simp only [State.hostExpire, hpc, reduceCtorEq] at h <;> simp only [Safe, hpc] at hi <;>
    obtain ⟨-, ⟨⟩⟩ := guard_some h
  case closing => exact safe_abort (hpc ▸ hi.1) (by simp [hpc]) hi.2.2
  case awaitResumeAck => simp_all
  all_goals exact safe_retreat (by decide) (hpc ▸ hi.1) (by simp [hpc]) hi.2

theorem Safe.broken (hi : Safe ⟨s, passed⟩) (h : broken s = some t) : Safe (note s passed t) := by
  cases hpc : s.host <;> simp only [Reload.broken, hpc, reduceCtorEq] at h <;> simp only [Safe, hpc] at hi <;> cases h
  case sendDrain => exact safe_abort (hpc ▸ hi.1) (by simp [hpc]) hi.2.2
  case resume | awaitResumeAck => simp_all
  all_goals exact safe_retreat (by decide) (hpc ▸ hi.1) (by simp [hpc]) hi.2

theorem Safe.step (hi : Safe w) (h : watch w a = some w') : Safe w' := by
  obtain ⟨t, ht, rfl⟩ := Option.map_eq_some_iff.mp h
  cases a with
  | sends m =>
    cases ht
    exact hi.congr rfl rfl rfl rfl
  | broken => exact hi.broken ht
  | act a =>
    cases a with
    | plugin => cases ht
    | host a =>
      cases a with
      | go ok => exact hi.hostGo ht
      | recv => exact hi.hostRecv ht
      | expire => exact hi.hostExpire ht
    | leave =>
      obtain ⟨-, ⟨⟩⟩ := unless_some ht
      exact hi.congr rfl rfl rfl rfl
    | enter =>
      cases ht
      refine hi.congr rfl ?_ rfl rfl
      simp only [AdmissionGate.enter]
      split <;> rfl
    | _ =>
      cases ht
      exact hi.congr rfl rfl rfl rfl

/-- **A reload is safe against any plugin.** The successor is routed only after the whole route;
while calls are admitted, a Drain that went out is answered or its instance routed no more; and
`Run` returns with its successor promoted or torn down, and with admission closed only as a crash.
-/
theorem reload_safe (h0 : s.host = .start) (hd : s.drainSent = false) (h : Reach watch Any ⟨s, []⟩ w) :
    (w.state.host.promoted = true → w.passed = route) ∧
    (w.state.gate.isOpen = true → w.state.drainSent = true →
      w.state.resumeAcked = true ∨ w.state.host.promoted = true) ∧
    ∀ r, w.state.host = .done r →
      (r = .promoted ↔ .promoted ∈ w.passed) ∧
      (.spawned ∈ w.passed → .promoted ∈ w.passed ∨ .discarded ∈ w.passed) ∧
      (w.state.gate.isOpen = false ↔ ∃ c, r = .crashEquivalent c) := by
  have hi : Safe w := h.invariant (by simp [Safe, h0, hd]) fun hi _ hs => hi.step hs
  revert hi
  cases hpc : w.state.host <;> simp only [Safe, hpc] <;> intro hi
  case done r => cases r <;> simp_all [HostPc.promoted, HostPc.reached, route, Cleared]
  all_goals simp_all [HostPc.promoted, HostPc.reached, route]

/-- The successor refuses the snapshot; the old instance is resumed. -/
def refusedActs : List Wild :=
  let go := .act (.host (.go true))
  let recv := .act (.host .recv)
  [go, go, go, go, .sends .drainAck, recv, go, .sends .saveState, recv, go, go, go, .act (.host (.go false)), go, go,
   .sends .resumeAck, recv]

def refusedEnd : Watched := (run watch ⟨twoMutators, []⟩ refusedActs).get (by decide)

theorem reload_safe_refused :
    refusedEnd.passed = route.take 5 ++ [.discarded] ∧ refusedEnd.state.gate.isOpen = true ∧
      (refusedEnd.state.resumeAcked = true ∨ refusedEnd.state.host.promoted = true) :=
  ⟨by decide, by decide, (reload_safe rfl rfl (.of_run (Option.some_get _).symm)).2.1 (by decide) (by decide)⟩

end Reload

end Styx
