/-
A hot reload: the host's `Transaction.Run` and the plugin's `ServeReload`, joined
by one control connection.

Each side is its control flow, one point per place it can be delayed at; the
connection is two queues; the clock moves by any amount between any two steps. A
receive takes the head of its queue; a wait may end without one once its deadline
has passed, whatever is in the queue, for a message that is there may not have
been delivered. A send fails exactly if its context has ended.

The other side's code (mutators, snapshot, successor) answers with a `Bool`. The
old plugin does not crash and no message is lost; those runs are not here.
-/
import Styx.Control.Message
import Styx.Lib.Machine

namespace Styx

/-! ## The admission gate -/

structure AdmissionGate where
  isOpen : Bool
  /-- Callers between admission and publication. -/
  active : Nat
  deriving DecidableEq

namespace AdmissionGate

def enter (g : AdmissionGate) : AdmissionGate := if g.isOpen then { g with active := g.active + 1 } else g
def leave (g : AdmissionGate) : AdmissionGate := { g with active := g.active - 1 }
def shut (g : AdmissionGate) : AdmissionGate := { g with isOpen := false }
def reopen (g : AdmissionGate) : AdmissionGate := { g with isOpen := true }

end AdmissionGate

namespace Reload

/-! ## Deadlines -/

structure PhaseDeadlines where
  drainAck : Int
  snapshot : Int
  deriving DecidableEq

def drainAckHostMargin : Int := 1000000000

/-- How long the host itself waits for DrainAck. -/
def drainHostWait (now drainAck : Int) (ctxDeadline : Option Int) : Int :=
  match ctxDeadline with
  | some d => if d < now + drainAck then d else now + drainAck
  | none => now + drainAck

/-- The host's wait and the deadline it transmits; `none` when the budget leaves
no room for both. -/
def drainPlan (now drainAck : Int) (ctxDeadline : Option Int) : Option (Int × Int) :=
  let hostWait := drainHostWait now drainAck ctxDeadline
  let budget := hostWait - now
  if budget < 2 then none
  else
    let margin := if drainAckHostMargin ≥ budget then budget / 2 else drainAckHostMargin
    some (hostWait, hostWait - margin)

/-! ## The two control flows -/

/-- Rollback is defined from every phase before the promote. -/
inductive Phase
  | cutoff
  | drainAck
  | snapshot
  | restoreValidate
  deriving DecidableEq

/-- Why a reload did not go through. -/
inductive Cause
  | cutoff
  | drainNotCommitted
  | awaitDrainAck
  | awaitSaveState
  | snapshotRejected
  | sendSaveStateAck
  | spawn
  | restore
  | promote
  deriving DecidableEq

inductive Result
  | promoted
  | rolledBack (c : Cause)
  /-- `ErrReloadCrashEquivalent`. -/
  | crashEquivalent (c : Cause)
  deriving DecidableEq

/-- Where `Run` is. -/
inductive HostPc
  | start
  /-- In `AdmissionGate.Close`. -/
  | closing (deadline : Int)
  | drain
  | sendDrain (hostWait transmitted : Int)
  | awaitDrainAck (hostWait : Int)
  | snapshot
  | awaitSaveState (deadline : Int)
  | verify (deadline : Int)
  | sendSaveStateAck (deadline : Int)
  | spawn
  | restore
  | promote
  /-- The successor is routed; the old instance is sent Shutdown and reaped. -/
  | teardown
  | reap
  /-- In `rollback`, with a successor to tear down. -/
  | discard (deadline : Int) (c : Cause)
  | resume (deadline : Int) (c : Cause)
  | awaitResumeAck (deadline : Int) (c : Cause)
  | done (r : Result)
  deriving DecidableEq

/-- The successor is routed. -/
def HostPc.promoted : HostPc → Bool
  | .teardown | .reap | .done .promoted => true
  | _ => false

inductive ReloadOutcome
  | retired
  | rolledBack
  deriving DecidableEq

/-- Where `ServeReload` is. -/
inductive PluginPc
  | awaitDrain
  /-- Drain is received; `ServeReloadAfterDrain` is next. -/
  | drained (deadline : Int)
  | freezing (deadline : Int) (i : Nat)
  | quiescing (deadline : Int)
  | sendDrainAck (deadline : Int)
  | loadState
  | sendSaveState
  | awaitSaveStateOutcome
  | awaitResumeOrExit
  | resuming (i : Nat)
  | sendResumeAck
  | left (o : ReloadOutcome) (failed : Bool)
  deriving DecidableEq

/-- The plugin is at a receive. -/
def PluginPc.receiving : PluginPc → Bool
  | .awaitDrain | .awaitSaveStateOutcome | .awaitResumeOrExit => true
  | _ => false

structure State where
  now : Int
  deadlines : PhaseDeadlines
  /-- The caller's context: its deadline, and whether it has been cancelled. -/
  ctxDeadline : Option Int
  cancelled : Bool
  gate : AdmissionGate
  host : HostPc
  plugin : PluginPc
  /-- The mutators, in registration order: is it frozen? -/
  frozen : List Bool
  toPlugin : List ControlMessage
  toHost : List ControlMessage
  /-- The host has closed its end. -/
  closed : Bool
  /-- Ghosts: Drain has gone out; ResumeAck has come in. -/
  drainSent : Bool
  resumeAcked : Bool
  deriving DecidableEq

inductive HostAct
  /-- Execute the present line; `ok` is the answer of the code it calls. -/
  | go (ok : Bool)
  | recv
  | expire
  deriving DecidableEq

inductive PluginAct
  | go (ok : Bool)
  | recv
  | expire
  deriving DecidableEq

inductive Act
  | tick (n : Nat)
  | cancel
  | enter
  | leave
  | host (a : HostAct)
  | plugin (a : PluginAct)
  deriving DecidableEq

namespace State

/-! ## The host -/

/-- `ctx.Err() != nil`. -/
def ctxErr (s : State) : Bool := s.cancelled || s.ctxDeadline.any (· ≤ s.now)

/-- The deadline of `context.WithTimeout(ctx, d)`. -/
def withTimeout (s : State) (d : Int) : Int :=
  match s.ctxDeadline with
  | some c => min c (s.now + d)
  | none => s.now + d

def tell (s : State) (m : ControlMessage) : State := { s with toPlugin := s.toPlugin ++ [m] }

/-- The start of `rollback`, on a context detached from the caller's. -/
def rollback (s : State) (phase : Phase) (successor : Bool) (c : Cause) : State :=
  if phase = .cutoff then { s with gate := s.gate.reopen, host := .done (.rolledBack c) }
  else
    let deadline := s.now + s.deadlines.drainAck
    { s with host := if successor then .discard deadline c else .resume deadline c }

def hostGo (s : State) (ok : Bool) : Option State :=
  match s.host with
  | .start => some { s with gate := s.gate.shut, host := .closing (s.withTimeout s.deadlines.drainAck) }
  | .closing _ =>
    if s.gate.active = 0 then
      some (if s.ctxErr then s.rollback .cutoff false .cutoff else { s with host := .drain })
    else none
  | .drain =>
    some <|
      match drainPlan s.now s.deadlines.drainAck s.ctxDeadline with
      | some (hostWait, transmitted) => { s with host := .sendDrain hostWait transmitted }
      | none => s.rollback .cutoff false .drainNotCommitted
  | .sendDrain hostWait transmitted =>
    some <|
      if s.ctxErr ∨ hostWait ≤ s.now then s.rollback .cutoff false .drainNotCommitted
      else { s.tell (.drain transmitted) with host := .awaitDrainAck hostWait, drainSent := true }
  | .snapshot =>
    let deadline := s.withTimeout s.deadlines.snapshot
    some <|
      if s.cancelled ∨ deadline ≤ s.now then s.rollback .snapshot false .awaitSaveState
      else { s with host := .awaitSaveState deadline }
  | .verify deadline =>
    some (if ok then { s with host := .sendSaveStateAck deadline } else s.rollback .snapshot false .snapshotRejected)
  | .sendSaveStateAck deadline =>
    some <|
      if s.cancelled ∨ deadline ≤ s.now then s.rollback .snapshot false .sendSaveStateAck
      else { s.tell .saveStateAck with host := .spawn }
  | .spawn => some (if ok then { s with host := .restore } else s.rollback .restoreValidate false .spawn)
  | .restore => some (if ok then { s with host := .promote } else s.rollback .restoreValidate true .restore)
  | .promote =>
    some <|
      if ok then { s with gate := s.gate.reopen, host := .teardown }
      else s.rollback .restoreValidate true .promote
  | .teardown => some { (if ok then s.tell .shutdown else s) with host := .reap }
  | .reap => some { s with closed := true, host := .done .promoted }
  | .discard deadline c => some { s with host := .resume deadline c }
  | .resume deadline c =>
    some <|
      if deadline ≤ s.now then { s with host := .done (.crashEquivalent c) }
      else { s.tell .resume with host := .awaitResumeAck deadline c }
  | _ => none

def hostRecv (s : State) : Option State :=
  match s.toHost with
  | [] => none
  | m :: rest =>
    let s' := { s with toHost := rest }
    match s.host with
    | .awaitDrainAck _ =>
      some <|
        if expected .draining .drainAck m then { s' with host := .snapshot }
        else s'.rollback .drainAck false .awaitDrainAck
    | .awaitSaveState deadline =>
      some <|
        if expected .draining .saveState m then { s' with host := .verify deadline }
        else s'.rollback .snapshot false .awaitSaveState
    | .awaitResumeAck _ c =>
      some <|
        if expected .draining .resumeAck m then
          { s' with gate := s.gate.reopen, host := .done (.rolledBack c), resumeAcked := true }
        else { s' with host := .done (.crashEquivalent c) }
    | _ => none

/-- A wait ends without its message; cancellation ends a receive that a signal interrupts. -/
def hostExpire (s : State) : Option State :=
  match s.host with
  | .closing deadline =>
    if deadline ≤ s.now ∨ s.cancelled then some (s.rollback .cutoff false .cutoff) else none
  | .awaitDrainAck hostWait =>
    if hostWait ≤ s.now then some (s.rollback .drainAck false .awaitDrainAck) else none
  | .awaitSaveState deadline =>
    if deadline ≤ s.now ∨ s.cancelled then some (s.rollback .snapshot false .awaitSaveState) else none
  | .awaitResumeAck deadline c =>
    if deadline ≤ s.now then some { s with host := .done (.crashEquivalent c) } else none
  | _ => none

def hostStep (s : State) : HostAct → Option State
  | .go ok => s.hostGo ok
  | .recv => s.hostRecv
  | .expire => s.hostExpire

/-! ## The plugin -/

def answer (s : State) (m : ControlMessage) : State := { s with toHost := s.toHost ++ [m] }

/-- Leave with an error; the outcome beside it is `ReloadRetired`. -/
def fail (s : State) : State := { s with plugin := .left .retired true }

def pluginGo (s : State) (ok : Bool) : Option State :=
  match s.plugin with
  | .drained deadline => some { s with plugin := .freezing deadline 0 }
  | .freezing deadline i =>
    some <|
      if i < s.frozen.length then
        if ok then { s with frozen := s.frozen.set i true, plugin := .freezing deadline (i + 1) } else s.fail
      else { s with plugin := .quiescing deadline }
  | .quiescing deadline => some { s with plugin := .sendDrainAck deadline }
  | .sendDrainAck deadline =>
    some (if deadline ≤ s.now ∨ s.closed then s.fail else { s.answer .drainAck with plugin := .loadState })
  | .loadState => some { s with plugin := if ok then .sendSaveState else .awaitResumeOrExit }
  | .sendSaveState =>
    some (if s.closed then s.fail else { s.answer .saveState with plugin := .awaitSaveStateOutcome })
  | .resuming i =>
    some <|
      if i < s.frozen.length then
        if ok then { s with frozen := s.frozen.set i false, plugin := .resuming (i + 1) } else s.fail
      else { s with plugin := .sendResumeAck }
  | .sendResumeAck =>
    some (if s.closed then s.fail else { s.answer .resumeAck with plugin := .left .rolledBack false })
  | _ => none

/-- What a receive makes of the next message, where the plugin receives. -/
def pluginNext (pc : PluginPc) (m : ControlMessage) : PluginPc :=
  match pc, m with
  | .awaitDrain, .drain deadline => .drained deadline
  | .awaitSaveStateOutcome, .saveStateAck => .awaitResumeOrExit
  | .awaitSaveStateOutcome, .resume => .resuming 0
  | .awaitResumeOrExit, .resume => .resuming 0
  | .awaitResumeOrExit, .shutdown => .left .retired false
  | _, _ => .left .retired true

def pluginRecv (s : State) : Option State :=
  if s.plugin.receiving then
    match s.toPlugin with
    | m :: rest => some { s with toPlugin := rest, plugin := pluginNext s.plugin m }
    | [] => if s.closed then some { s with plugin := .left .retired (s.plugin == .awaitDrain) } else none
  else none

/-- The drain deadline passes before the accepted calls have finished. -/
def pluginExpire (s : State) : Option State :=
  match s.plugin with
  | .quiescing deadline => if deadline ≤ s.now then some { s with plugin := .awaitResumeOrExit } else none
  | _ => none

def pluginStep (s : State) : PluginAct → Option State
  | .go ok => s.pluginGo ok
  | .recv => s.pluginRecv
  | .expire => s.pluginExpire

variable {s t : State} {a : PluginAct}

theorem pluginStep_host (h : s.pluginStep a = some t) : t.host = s.host ∧ t.closed = s.closed := by
  cases a with
  | go ok =>
    simp only [pluginStep, pluginGo, answer, fail] at h
    split at h <;> cases h <;> (try split) <;> (try split) <;> exact ⟨rfl, rfl⟩
  | recv =>
    obtain ⟨-, h⟩ := Machine.guard_some h
    split at h
    · cases h
      exact ⟨rfl, rfl⟩
    · split at h <;> cases h
      exact ⟨rfl, rfl⟩
  | expire =>
    simp only [pluginStep, pluginExpire] at h
    split at h
    · split at h <;> cases h
      exact ⟨rfl, rfl⟩
    · cases h

theorem receiving_step (hpc : s.plugin.receiving = true) (h : s.pluginStep a = some t) :
    a = .recv ∧ s.pluginRecv = some t := by
  cases a with
  | recv => exact ⟨rfl, h⟩
  | go ok => cases hp : s.plugin <;> simp_all [pluginStep, pluginGo, PluginPc.receiving]
  | expire => cases hp : s.plugin <;> simp_all [pluginStep, pluginExpire, PluginPc.receiving]

theorem receiving_stuck (hpc : s.plugin.receiving = true) (hp : s.toPlugin = [])
    (hc : s.closed = false) : s.pluginStep a = none := by
  cases h : s.pluginStep a with
  | none => rfl
  | some t =>
    obtain ⟨-, hr⟩ := receiving_step hpc h
    simp [pluginRecv, hpc, hp, hc] at hr

theorem receiving_next {m : ControlMessage} {rest : List ControlMessage}
    (hpc : s.plugin.receiving = true) (hp : s.toPlugin = m :: rest) (h : s.pluginStep a = some t) :
    t = { s with toPlugin := rest, plugin := pluginNext s.plugin m } := by
  obtain ⟨-, hr⟩ := receiving_step hpc h
  simp only [pluginRecv, hpc, hp, if_true, Option.some.injEq] at hr
  exact hr.symm

theorem executing_step (hpc : s.plugin.receiving = false) (h : s.pluginStep a = some t) :
    (∃ ok, a = .go ok ∧ s.pluginGo ok = some t) ∨
      (∃ d, s.plugin = .quiescing d ∧ t = { s with plugin := .awaitResumeOrExit }) := by
  cases a with
  | go ok => exact .inl ⟨ok, rfl, h⟩
  | recv => simp [pluginStep, pluginRecv, hpc] at h
  | expire =>
    simp only [pluginStep, pluginExpire] at h
    split at h
    · next d hd =>
      obtain ⟨-, ⟨⟩⟩ := Machine.guard_some h
      exact .inr ⟨d, hd, rfl⟩
    · cases h

theorem going_step {pc : PluginPc} (hpc : s.plugin = pc) (hr : pc.receiving = false) (hq : ∀ d, pc ≠ .quiescing d)
    (h : s.pluginStep a = some t) : ∃ ok, a = .go ok ∧ s.pluginGo ok = some t := by
  obtain hgo | ⟨d, hd, -⟩ := executing_step (hpc ▸ hr) h
  · exact hgo
  · exact absurd (hpc.symm.trans hd) (hq d)

end State

open State

def step (s : State) : Act → Option State
  | .tick n => some { s with now := s.now + n }
  | .cancel => some { s with cancelled := true }
  | .enter => some { s with gate := s.gate.enter }
  | .leave => if s.gate.active = 0 then none else some { s with gate := s.gate.leave }
  | .host a => s.hostStep a
  | .plugin a => s.pluginStep a

end Reload

end Styx
