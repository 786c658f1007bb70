/-
The heartbeat of a plugin that is being reloaded.

The plugin's sender beats on its own ticker and stops only when its control loop has
received Drain. The host's loop services a reload right after a heartbeat it has read,
and counts on the withheld ack to keep the plugin from beating; but the sender does
not look at acks. So a beat during the cutoff wait, or one still
queued behind the heartbeat the host has read, is what the transaction's next
receive finds (`heartbeat_collides`).

`quiet` is what it takes: nothing of the sender's is under way when Drain goes out,
and the sender does not beat before it is paused (`no_collision`).
-/
import Styx.Reload.Transaction

namespace Styx

open Machine Reload

/-! ## The sender -/

def heartbeatSpacingToleranceDivisor : Int := 8

def minHeartbeatSpacing (cadence : Int) : Int := cadence - cadence.tdiv heartbeatSpacingToleranceDivisor

inductive HeartbeatPc
  | waiting
  /-- In `sendControl`, with a heartbeat built. -/
  | sending (sequence : Nat)
  | paused
  | stopped
  deriving DecidableEq

structure HeartbeatSender where
  interval : Int
  seq : Nat
  lastBuilt : Option Int
  pc : HeartbeatPc
  deriving DecidableEq

/-- The spacing guard of `send`; a gap of exactly the minimum passes. -/
def HeartbeatSender.due (h : HeartbeatSender) (now : Int) : Bool :=
  h.lastBuilt.all fun last => minHeartbeatSpacing h.interval ≤ now - last

/-! ## The session -/

/-- Where `heartbeatLoop` is. -/
inductive LoopPc
  | recv
  /-- A heartbeat is read; `serviceReload` is next. -/
  | received (sequence : Nat)
  /-- The transaction runs inline. -/
  | reload (sequence : Nat)
  | ack (sequence : Nat)
  /-- The loop no longer owns this instance's connection. -/
  | ended
  deriving DecidableEq

/-- One instance's control connection and the processes at its two ends. -/
structure Session where
  r : Reload.State
  loop : LoopPc
  sender : HeartbeatSender
  deriving DecidableEq

namespace Session

inductive Act
  | tick (n : Nat)
  | cancel
  | enter
  | leave
  /-- The ticker fires. -/
  | beat
  | deliver (ok : Bool)
  /-- The sender takes the pause request of `handleReload`. -/
  | pause
  | plugin (a : PluginAct)
  /-- `handleReload` after `ServeReloadAfterDrain`. -/
  | finish
  | host (a : HostAct)
  | recvBeat
  /-- Missed heartbeats, a lost connection, a stop. -/
  | lose
  /-- No reload is asked for, or one whose context is done. -/
  | skip
  | service (ctxDeadline : Option Int)
  | complete (acked : Bool)
  | ack (ok : Bool)
  deriving DecidableEq

def setSender (s : Session) (pc : HeartbeatPc) : Session := { s with sender := { s.sender with pc } }

/-- `dispatchControl` on its next message: Drain and Shutdown are acted on. -/
def dispatch (s : Session) : Option Session :=
  match s.r.toPlugin with
  | .drain deadline :: rest => some { s with r := { s.r with toPlugin := rest, plugin := .drained deadline } }
  | .shutdown :: rest =>
    some ({ s with r := { s.r with toPlugin := rest, plugin := .left .retired false } }.setSender .stopped)
  | _ :: rest => some { s with r := { s.r with toPlugin := rest } }
  | [] =>
    if s.r.closed then some ({ s with r := { s.r with plugin := .left .retired true } }.setSender .stopped) else none

/-- A fresh transaction on the instance. -/
def newTransaction (r : Reload.State) (ctxDeadline : Option Int) : Reload.State :=
  { r with host := .start, ctxDeadline, cancelled := false, drainSent := false, resumeAcked := false }

def step (s : Session) : Act → Option Session
  | .tick n => some { s with r := { s.r with now := s.r.now + n } }
  | .cancel => some { s with r := { s.r with cancelled := true } }
  | .enter => some { s with r := { s.r with gate := s.r.gate.enter } }
  | .leave => some { s with r := { s.r with gate := s.r.gate.leave } }
  | .beat =>
    match s.sender.pc with
    | .waiting =>
      if s.sender.due s.r.now then
        let q := s.sender.seq + 1
        some { s with sender := { s.sender with seq := q, lastBuilt := some s.r.now, pc := .sending q } }
      else some s
    | _ => none
  | .deliver ok =>
    match s.sender.pc with
    | .sending q => some ({ s with r := if ok then s.r.answer (.heartbeat q) else s.r }.setSender .waiting)
    | _ => none
  | .pause =>
    match s.r.plugin, s.sender.pc with
    | .drained _, .waiting => some (s.setSender .paused)
    | _, _ => none
  | .plugin a =>
    match s.r.plugin, a with
    | .awaitDrain, .recv => s.dispatch
    | .drained _, a =>
      if s.sender.pc = .paused then (s.r.pluginStep a).map fun r => { s with r } else none
    | _, a => (s.r.pluginStep a).map fun r => { s with r }
  | .finish =>
    match s.r.plugin with
    | .left .rolledBack _ => some ({ s with r := { s.r with plugin := .awaitDrain } }.setSender .waiting)
    | .left .retired _ => some (s.setSender .stopped)
    | _ => none
  | .host a =>
    match s.loop with
    | .reload _ => (s.r.hostStep a).map fun r => { s with r }
    | _ => none
  | .recvBeat =>
    match s.loop, s.r.toHost with
    | .recv, m :: rest =>
      let s' := { s with r := { s.r with toHost := rest } }
      match m with
      | .heartbeat q => some { s' with loop := .received q }
      | _ => some s'
    | _, _ => none
  | .lose => if s.loop = .recv then some { s with loop := .ended } else none
  | .skip =>
    match s.loop with
    | .received q => some { s with loop := .ack q }
    | _ => none
  | .service ctxDeadline =>
    match s.loop with
    | .received q => some { s with r := newTransaction s.r ctxDeadline, loop := .reload q }
    | _ => none
  | .complete acked =>
    match s.loop, s.r.host with
    | .reload q, .done (.rolledBack _) => some { s with loop := if acked then .ack q else .recv }
    | .reload _, .done _ => some { s with loop := .ended }
    | _, _ => none
  | .ack ok =>
    match s.loop with
    | .ack q => some { s with r := if ok then s.r.tell (.heartbeatAck q) else s.r, loop := .recv }
    | _ => none

/-- An instance that has just started serving. -/
structure Start (s : Session) : Prop where
  plugin : s.r.plugin = .awaitDrain
  toPlugin : s.r.toPlugin = []
  toHost : s.r.toHost = []
  loop : s.loop = .recv

/-- No receive of the transaction has a heartbeat to read. -/
def NoCollision (s : Session) : Prop :=
  ∀ n q rest, s.loop = .reload n → s.r.toHost = .heartbeat q :: rest → s.r.hostRecv = none

/-- Nothing of the sender's is under way to the host. -/
def noBeat (s : Session) : Bool :=
  s.r.toHost.all (!·.isHeartbeat) && !(s.sender.pc matches .sending _)

/-- Drain is on its way, or received and the sender not yet paused. -/
def drainPending (s : Session) : Bool :=
  s.r.toPlugin.any (·.kind == .drain) || s.r.plugin matches .drained _

def quiet (s : Session) : Act → Bool
  | .host (.go _) =>
    match s.r.host with
    | .sendDrain hostWait _ => s.r.ctxErr || hostWait ≤ s.r.now || s.noBeat
    | _ => true
  | .beat => !s.sender.due s.r.now || !s.drainPending
  | _ => true

/-! ## What is on the wire -/

def Acks (q : List ControlMessage) : Prop := ∀ m ∈ q, ∃ n, m = .heartbeatAck n

def Inert (q : List ControlMessage) : Prop := ∀ m ∈ q, m.kind ≠ .drain ∧ m ≠ .resume

def Plain (q : List ControlMessage) : Prop := ∀ m ∈ q, m.isHeartbeat = false ∧ m ≠ .resumeAck

variable {m : ControlMessage} {a : PluginAct} {r : Reload.State} {v : View} {rest tail q : List ControlMessage} {ok successor : Bool} {phase : Phase} {c : Cause}

theorem Inert.append (hq : Inert q) (hm : m.kind ≠ .drain ∧ m ≠ .resume) : Inert (q ++ [m]) := by
  intro m' h
  rcases List.mem_append.mp h with h | h
  · exact hq m' h
  · exact List.mem_singleton.mp h ▸ hm

theorem Plain.append (hq : Plain q) (hm : m.isHeartbeat = false ∧ m ≠ .resumeAck) : Plain (q ++ [m]) := by
  intro m' h
  rcases List.mem_append.mp h with h | h
  · exact hq m' h
  · exact List.mem_singleton.mp h ▸ hm

/-! ## How the two ends stand -/

/-- The plugin's end: its control loop, its sender and the wire. -/
structure View where
  plugin : PluginPc
  toPlugin : List ControlMessage
  toHost : List ControlMessage
  pc : HeartbeatPc

def view (s : Session) : View := ⟨s.r.plugin, s.r.toPlugin, s.r.toHost, s.sender.pc⟩

/-- In `dispatchControl`, or about to return to it. -/
def Dispatching (pc : PluginPc) : Prop := pc = .awaitDrain ∨ ∃ o f, pc = .left o f

/-- Past the pause and not yet told to resume. -/
def reloading : PluginPc → Bool
  | .freezing _ _ | .quiescing _ | .sendDrainAck _ | .loadState | .sendSaveState | .awaitSaveStateOutcome
  | .awaitResumeOrExit | .left .retired _ => true
  | _ => false

def Quiesced (pc : HeartbeatPc) : Prop := pc = .paused ∨ pc = .stopped

/-- No reload has reached the plugin. -/
structure Free (v : View) : Prop where
  plugin : Dispatching v.plugin
  toPlugin : Acks v.toPlugin
  toHost : .resumeAck ∉ v.toHost

/-- Drain has been sent, then nothing that matters, then `tail`. -/
inductive Held (tail : List ControlMessage) (v : View) : Prop
  | unread {q q' : List ControlMessage} {d : Int} (hpc : Dispatching v.plugin) (hq : Acks q) (hq' : Inert q')
    (hp : v.toPlugin = q ++ .drain d :: (q' ++ tail))
  | pausing {q' : List ControlMessage} {d : Int} (hpc : v.plugin = .drained d) (hq' : Inert q')
    (hp : v.toPlugin = q' ++ tail)
  | paused {q' : List ControlMessage} (hs : Quiesced v.pc) (hpc : reloading v.plugin = true) (hq' : Inert q')
    (hp : v.toPlugin = q' ++ tail)

/-- Nothing of the sender's is under way, and nothing answers a Resume. -/
structure Silent (v : View) : Prop where
  toHost : Plain v.toHost
  pc : ∀ n, v.pc ≠ .sending n

/-- Resume is not answered: not read, or the mutators are being resumed. -/
inductive Calling (v : View) : Prop
  | told (h : Held [.resume] v)
  | resuming (hpc : (∃ i, v.plugin = .resuming i) ∨ v.plugin = .sendResumeAck ∨ ∃ f, v.plugin = .left .retired f)
    (hs : Quiesced v.pc) (hp : v.toPlugin = [])

/-- Resume is answered: what the sender sends now comes after the ResumeAck. -/
structure Answered (v : View) : Prop where
  plugin : Dispatching v.plugin
  toPlugin : Acks v.toPlugin
  toHost : ∃ pre post, v.toHost = pre ++ .resumeAck :: post ∧ Plain pre ∧ .resumeAck ∉ post

/-- How the plugin's end stands to a transaction at a given line. -/
def Facing (v : View) : HostPc → Prop
  | .start | .closing _ | .drain | .sendDrain _ _ | .done (.rolledBack _) => Free v
  | .done _ => True
  | .awaitResumeAck _ _ => (Silent v ∧ Calling v) ∨ Answered v
  | _ => Silent v ∧ Held [] v

def Agreed (s : Session) : Prop :=
  match s.loop with
  | .ended => True
  | .reload _ => Facing (view s) s.r.host
  | _ => Free (view s)

variable {s t : Session}

theorem Start.agreed (h0 : s.Start) : Agreed s := by
  simp only [Agreed, h0.loop]
  refine ⟨.inl h0.plugin, ?_, ?_⟩
  · simp [view, h0.toPlugin, Acks]
  · simp [view, h0.toHost]

theorem Agreed.noCollision (ha : Agreed s) : s.NoCollision := by
  intro n q rest hl hq
  have plain : ¬ Plain s.r.toHost := by
    intro h
    rw [hq] at h
    exact absurd (h _ List.mem_cons_self).1 (by simp [ControlMessage.isHeartbeat, ControlMessage.kind])
  simp only [Agreed, hl] at ha
  cases hpc : s.r.host <;> simp only [hpc, Facing] at ha <;> simp only [State.hostRecv, hq, hpc]
  case awaitDrainAck | awaitSaveState => exact absurd ha.1.toHost plain
  case awaitResumeAck =>
    rcases ha with ha | ha
    · exact absurd ha.1.toHost plain
    · obtain ⟨pre, post, hh, hpre, -⟩ := ha.toHost
      cases pre with
      | nil => cases hq.symm.trans hh
      | cons m pre =>
        cases hq.symm.trans hh
        exact absurd (hpre _ List.mem_cons_self).1 (by simp [ControlMessage.isHeartbeat, ControlMessage.kind])

/-! ## Steps of the plugin's end -/

/-- One step of `ServeReload` while the sender is quiesced: it stays there, sends at
most DrainAck or SaveState, and takes at most the next message. -/
theorem reloading_step {r' : Reload.State} (hpc : reloading r.plugin = true)
    (h : r.pluginStep a = some r') :
    (r'.toHost = r.toHost ∨ r'.toHost = r.toHost ++ [.drainAck] ∨ r'.toHost = r.toHost ++ [.saveState]) ∧
      ((reloading r'.plugin = true ∧ r'.toPlugin = r.toPlugin) ∨
        ∃ m rest, r.toPlugin = m :: rest ∧ r'.toPlugin = rest ∧
          ((m = .resume ∧ r'.plugin = .resuming 0) ∨ (m ≠ .resume ∧ reloading r'.plugin = true))) := by
  cases hr : r.plugin.receiving with
  | true =>
    cases hp : r.toPlugin with
    | nil =>
      obtain ⟨-, hrecv⟩ := State.receiving_step hr h
      simp only [State.pluginRecv, hr, hp, if_true] at hrecv
      split at hrecv <;> cases hrecv
      exact ⟨.inl rfl, .inl ⟨rfl, rfl⟩⟩
    | cons m rest =>
      obtain rfl := State.receiving_next hr hp h
      refine ⟨.inl rfl, .inr ⟨m, rest, rfl, rfl, ?_⟩⟩
      cases hpl : r.plugin with
      | awaitSaveStateOutcome | awaitResumeOrExit => cases m <;> simp [State.pluginNext, reloading]
      | _ => simp_all [reloading, PluginPc.receiving]
  | false =>
    obtain ⟨ok, -, hgo⟩ | ⟨d, hd, rfl⟩ := State.executing_step hr h
    · cases hpl : r.plugin with
      | freezing d i =>
        simp only [State.pluginGo, hpl, State.fail] at hgo
        cases hgo
        split
        · split <;> exact ⟨.inl rfl, .inl ⟨rfl, rfl⟩⟩
        · exact ⟨.inl rfl, .inl ⟨rfl, rfl⟩⟩
      | quiescing d =>
        simp only [State.pluginGo, hpl] at hgo
        cases hgo
        exact ⟨.inl rfl, .inl ⟨rfl, rfl⟩⟩
      | sendDrainAck d =>
        simp only [State.pluginGo, hpl, State.fail, State.answer] at hgo
        cases hgo
        split
        · exact ⟨.inl rfl, .inl ⟨rfl, rfl⟩⟩
        · exact ⟨.inr (.inl rfl), .inl ⟨rfl, rfl⟩⟩
      | loadState =>
        simp only [State.pluginGo, hpl] at hgo
        cases hgo
        cases ok <;> exact ⟨.inl rfl, .inl ⟨rfl, rfl⟩⟩
      | sendSaveState =>
        simp only [State.pluginGo, hpl, State.fail, State.answer] at hgo
        cases hgo
        split
        · exact ⟨.inl rfl, .inl ⟨rfl, rfl⟩⟩
        · exact ⟨.inr (.inr rfl), .inl ⟨rfl, rfl⟩⟩
      | _ => simp_all [reloading, PluginPc.receiving, State.pluginGo]
    · exact ⟨.inl rfl, .inl ⟨rfl, rfl⟩⟩

theorem Silent.reload {v' : View} (hs : Silent v) (hpc : v'.pc = v.pc)
    (hh : v'.toHost = v.toHost ∨ v'.toHost = v.toHost ++ [.drainAck] ∨ v'.toHost = v.toHost ++ [.saveState]) :
    Silent v' := by
  refine ⟨?_, hpc ▸ hs.pc⟩
  rcases hh with hh | hh | hh <;> rw [hh]
  · exact hs.toHost
  · exact hs.toHost.append (by decide)
  · exact hs.toHost.append (by decide)

theorem dispatch_ack {n : Nat} (hp : s.r.toPlugin = .heartbeatAck n :: rest)
    (h : s.dispatch = some t) : t = { s with r := { s.r with toPlugin := rest } } := by
  simp only [dispatch, hp, Option.some.injEq] at h
  exact h.symm

/-- A step of the plugin: its control loop's, or `ServeReload`'s, which starts with
the sender paused. -/
theorem plugin_step (h : s.step (.plugin a) = some t) :
    (s.r.plugin = .awaitDrain ∧ s.dispatch = some t) ∨
      ∃ r', s.r.pluginStep a = some r' ∧ t = { s with r := r' } ∧ s.r.plugin ≠ .awaitDrain ∧
        ∀ d, s.r.plugin = .drained d → s.sender.pc = .paused := by
  cases hpc : s.r.plugin with
  | awaitDrain =>
    cases a with
    | recv => exact .inl ⟨rfl, by simpa [Session.step, hpc] using h⟩
    | go ok => simp [Session.step, hpc, State.pluginStep, State.pluginGo] at h
    | expire => simp [Session.step, hpc, State.pluginStep, State.pluginExpire] at h
  | drained d =>
    simp only [Session.step, hpc] at h
    split at h
    · next hp =>
      obtain ⟨r', hr', rfl⟩ := Option.map_eq_some_iff.mp h
      exact .inr ⟨r', hr', rfl, by simp, fun _ _ => hp⟩
    · cases h
  | _ =>
    simp only [Session.step, hpc] at h
    obtain ⟨r', hr', rfl⟩ := Option.map_eq_some_iff.mp h
    exact .inr ⟨r', hr', rfl, by simp, by simp⟩

theorem plugin_awaitDrain (hpc : s.r.plugin = .awaitDrain) (h : s.step (.plugin a) = some t) :
    s.dispatch = some t := by
  obtain ⟨-, hd⟩ | ⟨r', -, -, hne, -⟩ := plugin_step h
  · exact hd
  · exact absurd hpc hne

theorem plugin_reload (hpc : s.r.plugin ≠ .awaitDrain) (h : s.step (.plugin a) = some t) :
    ∃ r', s.r.pluginStep a = some r' ∧ t = { s with r := r' } := by
  obtain ⟨hd, -⟩ | ⟨r', hr', ht, -⟩ := plugin_step h
  · exact absurd hd hpc
  · exact ⟨r', hr', ht⟩

theorem plugin_left {o : ReloadOutcome} {f : Bool} (hpc : s.r.plugin = .left o f) :
    s.step (.plugin a) = none := by
  have hnone : s.r.pluginStep a = none := by
    cases a <;> simp [State.pluginStep, State.pluginGo, State.pluginRecv, State.pluginExpire, PluginPc.receiving, hpc]
  simp [Session.step, hpc, hnone]

theorem dispatching_step (hpc : Dispatching s.r.plugin) (hq : Acks s.r.toPlugin)
    (h : s.step (.plugin a) = some t) :
    Dispatching t.r.plugin ∧ Acks t.r.toPlugin ∧ t.r.toHost = s.r.toHost := by
  rcases hpc with hpc | ⟨o, f, hpc⟩
  · have hd := plugin_awaitDrain hpc h
    cases hp : s.r.toPlugin with
    | nil =>
      simp only [dispatch, hp] at hd
      split at hd <;> cases hd
      exact ⟨.inr ⟨_, _, rfl⟩, by simp [setSender, Acks], rfl⟩
    | cons m rest =>
      rw [hp] at hq
      obtain ⟨n, rfl⟩ := hq m List.mem_cons_self
      obtain rfl := dispatch_ack hp hd
      exact ⟨.inl hpc, fun m hm => hq m (List.mem_cons_of_mem _ hm), rfl⟩
  · rw [plugin_left hpc] at h
    cases h

/-- The plugin under a Drain: it goes on towards the pause and beyond, and only a
Resume takes it out. -/
theorem Held.plugin (hl : Held tail (view s)) (hs : Silent (view s))
    (htail : tail = [] ∨ tail = [.resume]) (h : s.step (.plugin a) = some t) :
    Silent (view t) ∧ (Held tail (view t) ∨ (tail = [.resume] ∧ Calling (view t))) := by
  cases hl with
  | unread hpc hq hq' hp =>
    rename_i q q' d
    rcases hpc with hpc | ⟨o, f, hpc⟩
    · have hd := plugin_awaitDrain hpc h
      cases q with
      | nil =>
        simp only [dispatch, show s.r.toPlugin = _ from hp, List.nil_append, Option.some.injEq] at hd
        subst hd
        exact ⟨⟨hs.toHost, hs.pc⟩, .inl (.pausing rfl hq' rfl)⟩
      | cons m q =>
        obtain ⟨n, rfl⟩ := hq m List.mem_cons_self
        obtain rfl := dispatch_ack hp hd
        exact ⟨⟨hs.toHost, hs.pc⟩, .inl (.unread (.inl hpc) (fun m hm => hq m (List.mem_cons_of_mem _ hm)) hq' rfl)⟩
    · rw [plugin_left hpc] at h
      cases h
  | pausing hpc hq' hp =>
    change s.r.plugin = _ at hpc
    obtain ⟨hd, -⟩ | ⟨r', hr', rfl, -, hpaused⟩ := plugin_step h
    · cases hpc.symm.trans hd
    · obtain ⟨ok, -, hgo⟩ := State.going_step hpc rfl nofun hr'
      simp only [State.pluginGo, hpc, Option.some.injEq] at hgo
      subst hgo
      exact ⟨⟨hs.toHost, hs.pc⟩, .inl (.paused (.inl (hpaused _ hpc)) rfl hq' hp)⟩
  | paused hq hpc hq' hp =>
    rename_i q'
    change reloading s.r.plugin = true at hpc
    obtain ⟨r', hr', rfl⟩ := plugin_reload (fun h => by rw [h] at hpc; cases hpc) h
    obtain ⟨hh, hmove⟩ := reloading_step hpc hr'
    refine ⟨hs.reload rfl hh, ?_⟩
    rcases hmove with ⟨hpc', hp'⟩ | ⟨m, rest, hm, hp', hmove⟩
    · exact .inl (.paused hq hpc' hq' (hp'.trans hp))
    · cases q' with
      | nil =>
        rcases htail with rfl | rfl <;> cases hm.symm.trans hp
        obtain ⟨-, hpc'⟩ | ⟨hne, -⟩ := hmove
        · exact .inr ⟨rfl, .resuming (.inl ⟨0, hpc'⟩) hq hp'⟩
        · exact absurd rfl hne
      | cons x q' =>
        cases hm.symm.trans hp
        obtain ⟨rfl, -⟩ | ⟨-, hpc'⟩ := hmove
        · exact absurd rfl (hq' _ List.mem_cons_self).2
        · exact .inl (.paused hq hpc' (fun m hm => hq' m (List.mem_cons_of_mem _ hm)) hp')

theorem Calling.plugin (hl : Calling (view s)) (hs : Silent (view s))
    (h : s.step (.plugin a) = some t) : (Silent (view t) ∧ Calling (view t)) ∨ Answered (view t) := by
  cases hl with
  | told hl =>
    obtain ⟨hs', hl' | ⟨-, hl'⟩⟩ := hl.plugin hs (.inr rfl) h
    · exact .inl ⟨hs', .told hl'⟩
    · exact .inl ⟨hs', hl'⟩
  | resuming hpc hq hp =>
    rcases hpc with ⟨i, hpc⟩ | hpc | ⟨f, hpc⟩ <;> change s.r.plugin = _ at hpc
    · obtain ⟨r', hr', rfl⟩ := plugin_reload (by rw [hpc]; simp) h
      obtain ⟨ok, -, hgo⟩ := State.going_step hpc rfl (by simp) hr'
      simp only [State.pluginGo, hpc, State.fail, Option.some.injEq] at hgo
      subst hgo
      split
      · split
        · exact .inl ⟨⟨hs.toHost, hs.pc⟩, .resuming (.inl ⟨_, rfl⟩) hq hp⟩
        · exact .inl ⟨⟨hs.toHost, hs.pc⟩, .resuming (.inr (.inr ⟨_, rfl⟩)) hq hp⟩
      · exact .inl ⟨⟨hs.toHost, hs.pc⟩, .resuming (.inr (.inl rfl)) hq hp⟩
    · obtain ⟨r', hr', rfl⟩ := plugin_reload (by rw [hpc]; simp) h
      obtain ⟨ok, -, hgo⟩ := State.going_step hpc rfl (by simp) hr'
      simp only [State.pluginGo, hpc, State.fail, State.answer, Option.some.injEq] at hgo
      subst hgo
      split
      · exact .inl ⟨⟨hs.toHost, hs.pc⟩, .resuming (.inr (.inr ⟨_, rfl⟩)) hq hp⟩
      · refine .inr ⟨.inr ⟨_, _, rfl⟩, ?_, s.r.toHost, [], rfl, hs.toHost, by simp⟩
        simp [Acks, view, show s.r.toPlugin = _ from hp]
    · rw [plugin_left hpc] at h
      cases h

/-! ## Steps of the sender -/

/-- A beat is built only where no Drain is on its way. -/
theorem beat_step (hg : s.quiet .beat = true) (h : s.step .beat = some t) :
    t = s ∨ (s.sender.pc = .waiting ∧ s.drainPending = false ∧ ∃ n, view t = { view s with pc := .sending n } ∧
      t.r = s.r ∧ t.loop = s.loop) := by
  simp only [Session.step] at h
  split at h
  · next hw =>
    split at h
    · next hdue =>
      cases h
      refine .inr ⟨hw, ?_, _, rfl, rfl, rfl⟩
      simpa [quiet, hdue] using hg
    · cases h
      exact .inl rfl
  · cases h

/-- Where Drain has been sent and no Resume answered, no beat is built. -/
theorem Held.pending (hl : Held tail (view s)) (hw : s.sender.pc = .waiting) :
    s.drainPending = true := by
  cases hl with
  | unread _ _ _ hp =>
    simp only [drainPending, show s.r.toPlugin = _ from hp]
    simp [ControlMessage.kind]
  | pausing hpc _ _ =>
    simp only [drainPending, show s.r.plugin = _ from hpc]
    simp
  | paused hq _ _ _ =>
    rcases hq with hq | hq <;> cases hw.symm.trans hq

theorem deliver_step (h : s.step (.deliver ok) = some t) : ∃ n, s.sender.pc = .sending n ∧
      (t = s.setSender .waiting ∨ t = { s with r := s.r.answer (.heartbeat n) }.setSender .waiting) := by
  simp only [Session.step] at h
  split at h
  · next n hn =>
    cases h
    cases ok
    · exact ⟨n, hn, .inl rfl⟩
    · exact ⟨n, hn, .inr rfl⟩
  · cases h

theorem pause_step (h : s.step .pause = some t) : (∃ d, s.r.plugin = .drained d) ∧ t = s.setSender .paused := by
  simp only [Session.step] at h
  split at h
  · next d _ hd _ =>
    cases h
    exact ⟨⟨_, hd⟩, rfl⟩
  · cases h

theorem finish_step (h : s.step .finish = some t) : ∃ o f, s.r.plugin = .left o f ∧
    ((o = .rolledBack ∧ t = { s with r := { s.r with plugin := .awaitDrain } }.setSender .waiting) ∨
      (o = .retired ∧ t = s.setSender .stopped)) := by
  simp only [Session.step] at h
  split at h
  · next f hf =>
    cases h
    exact ⟨_, f, hf, .inl ⟨rfl, rfl⟩⟩
  · next f hf =>
    cases h
    exact ⟨_, f, hf, .inr ⟨rfl, rfl⟩⟩
  · cases h

/-! ## Steps of the plugin's end -/

/-- The steps of the plugin process: its sender and its control loop. -/
def Act.isLocal : Act → Bool
  | .beat | .deliver _ | .pause | .plugin _ | .finish => true
  | _ => false

theorem local_host {a : Act} (hl : a.isLocal = true) (hg : s.quiet a = true) (h : s.step a = some t) :
    t.loop = s.loop ∧ t.r.host = s.r.host := by
  cases a <;> cases hl
  case beat =>
    rcases beat_step hg h with rfl | ⟨-, -, n, -, hr, hl⟩
    · exact ⟨rfl, rfl⟩
    · exact ⟨hl, congrArg _ hr⟩
  case deliver ok =>
    obtain ⟨n, -, rfl | rfl⟩ := deliver_step h <;> exact ⟨rfl, rfl⟩
  case pause =>
    obtain ⟨-, rfl⟩ := pause_step h
    exact ⟨rfl, rfl⟩
  case finish =>
    obtain ⟨o, f, -, ⟨-, rfl⟩ | ⟨-, rfl⟩⟩ := finish_step h <;> exact ⟨rfl, rfl⟩
  case plugin a =>
    by_cases hpc : s.r.plugin = .awaitDrain
    · have hd := plugin_awaitDrain hpc h
      simp only [dispatch] at hd
      split at hd
      · cases hd; exact ⟨rfl, rfl⟩
      · cases hd; exact ⟨rfl, rfl⟩
      · cases hd; exact ⟨rfl, rfl⟩
      · split at hd <;> cases hd
        exact ⟨rfl, rfl⟩
    · obtain ⟨r', hr', rfl⟩ := plugin_reload hpc h
      exact ⟨rfl, (State.pluginStep_host hr').1⟩

theorem dispatching_local {a : Act} (hpc : Dispatching s.r.plugin) (hq : Acks s.r.toPlugin) (hl : a.isLocal = true)
    (hg : s.quiet a = true) (h : s.step a = some t) :
    Dispatching t.r.plugin ∧ Acks t.r.toPlugin ∧
      (t.r.toHost = s.r.toHost ∨ ∃ n, t.r.toHost = s.r.toHost ++ [.heartbeat n]) := by
  cases a <;> cases hl
  case beat =>
    rcases beat_step hg h with rfl | ⟨-, -, n, -, hr, -⟩
    · exact ⟨hpc, hq, .inl rfl⟩
    · rw [hr]
      exact ⟨hpc, hq, .inl rfl⟩
  case deliver ok =>
    obtain ⟨n, -, rfl | rfl⟩ := deliver_step h
    · exact ⟨hpc, hq, .inl rfl⟩
    · exact ⟨hpc, hq, .inr ⟨n, rfl⟩⟩
  case pause =>
    obtain ⟨⟨d, hd⟩, rfl⟩ := pause_step h
    exact ⟨hpc, hq, .inl rfl⟩
  case finish =>
    obtain ⟨o, f, -, ⟨-, rfl⟩ | ⟨-, rfl⟩⟩ := finish_step h
    · exact ⟨.inl rfl, hq, .inl rfl⟩
    · exact ⟨hpc, hq, .inl rfl⟩
  case plugin a =>
    obtain ⟨hpc', hq', hh⟩ := dispatching_step hpc hq h
    exact ⟨hpc', hq', .inl hh⟩

theorem Free.local {a : Act} (hf : Free (view s)) (hl : a.isLocal = true) (hg : s.quiet a = true)
    (h : s.step a = some t) : Free (view t) := by
  obtain ⟨hpc, hq, hh⟩ := dispatching_local hf.plugin hf.toPlugin hl hg h
  refine ⟨hpc, hq, ?_⟩
  have hno : .resumeAck ∉ s.r.toHost := hf.toHost
  rcases hh with hh | ⟨n, hh⟩
  · simpa [view, hh] using hno
  · simpa [view, hh] using hno

theorem Answered.local {a : Act} (hf : Answered (view s)) (hl : a.isLocal = true) (hg : s.quiet a = true)
    (h : s.step a = some t) : Answered (view t) := by
  obtain ⟨hpc, hq, hh⟩ := dispatching_local hf.plugin hf.toPlugin hl hg h
  obtain ⟨pre, post, hs, hpre, hpost⟩ := hf.toHost
  refine ⟨hpc, hq, ?_⟩
  rcases hh with hh | ⟨n, hh⟩
  · exact ⟨pre, post, hh.trans hs, hpre, hpost⟩
  · refine ⟨pre, post ++ [.heartbeat n], ?_, hpre, by simpa using hpost⟩
    simp [view, hh, show s.r.toHost = _ from hs]

theorem Held.local {a : Act} (hf : Held tail (view s)) (hs : Silent (view s))
    (htail : tail = [] ∨ tail = [.resume]) (hl : a.isLocal = true) (hg : s.quiet a = true) (h : s.step a = some t) :
    Silent (view t) ∧ (Held tail (view t) ∨ (tail = [.resume] ∧ Calling (view t))) := by
  cases a <;> cases hl
  case beat =>
    rcases beat_step hg h with rfl | ⟨hw, hp, -⟩
    · exact ⟨hs, .inl hf⟩
    · rw [hf.pending hw] at hp
      cases hp
  case deliver ok =>
    obtain ⟨n, hn, -⟩ := deliver_step h
    exact absurd hn (hs.pc n)
  case pause =>
    obtain ⟨⟨d, hd⟩, rfl⟩ := pause_step h
    refine ⟨⟨hs.toHost, nofun⟩, .inl ?_⟩
    cases hf with
    | unread hpc hq hq' hp => exact .unread hpc hq hq' hp
    | pausing hpc hq' hp => exact .pausing hpc hq' hp
    | paused hq hpc hq' hp => exact .paused (.inl rfl) hpc hq' hp
  case finish =>
    obtain ⟨o, f, hpc, ⟨rfl, rfl⟩ | ⟨rfl, rfl⟩⟩ := finish_step h
    · refine ⟨⟨hs.toHost, nofun⟩, .inl ?_⟩
      cases hf with
      | unread hpc' hq hq' hp => exact .unread (.inl rfl) hq hq' hp
      | pausing hpc' hq' hp => cases hpc.symm.trans hpc'
      | paused hq hpc' hq' hp =>
        rw [show (view s).plugin = _ from hpc] at hpc'
        cases hpc'
    · refine ⟨⟨hs.toHost, nofun⟩, .inl ?_⟩
      cases hf with
      | unread hpc' hq hq' hp => exact .unread hpc' hq hq' hp
      | pausing hpc' hq' hp => exact .pausing hpc' hq' hp
      | paused hq hpc' hq' hp => exact .paused (.inr rfl) hpc' hq' hp
  case plugin a => exact hf.plugin hs htail h

theorem Calling.local {a : Act} (hf : Calling (view s)) (hs : Silent (view s)) (hl : a.isLocal = true)
    (hg : s.quiet a = true) (h : s.step a = some t) : (Silent (view t) ∧ Calling (view t)) ∨ Answered (view t) := by
  cases hf with
  | told hf =>
    obtain ⟨hs', hf' | ⟨-, hf'⟩⟩ := hf.local hs (.inr rfl) hl hg h
    · exact .inl ⟨hs', .told hf'⟩
    · exact .inl ⟨hs', hf'⟩
  | resuming hpc hq hp =>
    cases a with
    | beat =>
      rcases beat_step hg h with rfl | ⟨hw, -⟩
      · exact .inl ⟨hs, .resuming hpc hq hp⟩
      · rcases hq with hq | hq <;> cases hw.symm.trans hq
    | deliver ok =>
      obtain ⟨n, hn, -⟩ := deliver_step h
      exact absurd hn (hs.pc n)
    | pause =>
      obtain ⟨⟨d, hd⟩, rfl⟩ := pause_step h
      exact .inl ⟨⟨hs.toHost, nofun⟩, .resuming hpc (.inl rfl) hp⟩
    | finish =>
      obtain ⟨o, f, hleft, ⟨rfl, rfl⟩ | ⟨rfl, rfl⟩⟩ := finish_step h
      · rcases hpc with ⟨i, hpc⟩ | hpc | ⟨f', hpc⟩ <;> cases hleft.symm.trans hpc
      · exact .inl ⟨⟨hs.toHost, nofun⟩, .resuming hpc (.inr rfl) hp⟩
    | plugin a => exact (Calling.resuming hpc hq hp).plugin hs h
    | _ => cases hl

/-! ## Steps of the host -/

theorem facing_rollback
    (hph : phase ≠ .cutoff) (hv : Silent v ∧ Held [] v) : Facing v (r.rollback phase successor c).host := by
  simp only [State.rollback, if_neg hph]
  cases successor
  · exact hv
  · exact hv

theorem Held.tell (hl : Held [] v) (hm : m.kind ≠ .drain ∧ m ≠ .resume) :
    Held [] { v with toPlugin := v.toPlugin ++ [m] } := by
  cases hl with
  | @unread q q' d hpc hq hq' hp => exact .unread (d := d) hpc hq (hq'.append hm) (by simp [hp])
  | pausing hpc hq' hp => exact .pausing hpc (hq'.append hm) (by simp [hp])
  | paused hq hpc hq' hp => exact .paused hq hpc (hq'.append hm) (by simp [hp])

theorem Held.resume (hl : Held [] v) : Held [.resume] { v with toPlugin := v.toPlugin ++ [.resume] } := by
  cases hl with
  | @unread q q' d hpc hq hq' hp => exact .unread (d := d) hpc hq hq' (by simp [hp])
  | pausing hpc hq' hp => exact .pausing hpc hq' (by simp [hp])
  | paused hq hpc hq' hp => exact .paused hq hpc hq' (by simp [hp])

theorem Silent.recv (hs : Silent v)
    (hm : v.toHost = m :: rest) : Silent { v with toHost := rest } :=
  ⟨fun m' h => hs.toHost m' (hm ▸ List.mem_cons_of_mem _ h), hs.pc⟩

theorem Held.recv (hl : Held tail v) :
    Held tail { v with toHost := rest } := by
  cases hl with
  | unread hpc hq hq' hp => exact .unread hpc hq hq' hp
  | pausing hpc hq' hp => exact .pausing hpc hq' hp
  | paused hq hpc hq' hp => exact .paused hq hpc hq' hp

/-- The view of a session whose transaction has moved. -/
def viewOf (s : Session) (r : Reload.State) : View := view { s with r }

theorem viewOf_rollback : viewOf s (r.rollback phase successor c) = viewOf s r := by
  simp only [viewOf, view, State.rollback]
  split <;> rfl

theorem facing_go (hf : Facing (view s) s.r.host)
    (hg : s.quiet (.host (.go ok)) = true) (h : s.r.hostGo ok = some r) : Facing (viewOf s r) r.host := by
  cases hpc : s.r.host <;> simp only [State.hostGo, hpc, reduceCtorEq] at h <;> rw [hpc] at hf
  case start | discard =>
    cases h
    exact hf
  case closing =>
    obtain ⟨-, ⟨⟩⟩ := guard_some h
    split
    · rw [viewOf_rollback]
      exact hf
    · exact hf
  case drain =>
    cases h
    split
    · exact hf
    · rw [viewOf_rollback]
      exact hf
  case sendDrain w d =>
    cases h
    split
    · rw [viewOf_rollback]
      exact hf
    · next hsend =>
      have hf : Free (view s) := hf
      have hno : s.noBeat = true := by
        simp only [quiet, hpc, Bool.or_eq_true, decide_eq_true_eq] at hg
        exact hg.resolve_left hsend
      simp only [noBeat, Bool.and_eq_true, List.all_eq_true, Bool.not_eq_eq_eq_not, Bool.not_true] at hno
      refine ⟨⟨fun m hm => ⟨hno.1 m hm, fun he => hf.toHost (he ▸ hm)⟩, fun n hn => ?_⟩, ?_⟩
      · have := hno.2
        rw [show s.sender.pc = _ from hn] at this
        cases this
      · exact .unread hf.plugin hf.toPlugin (show Inert [] by simp [Inert]) rfl
  case snapshot =>
    cases h
    split
    · rw [viewOf_rollback]
      exact facing_rollback (by decide) hf
    · exact hf
  case verify | spawn | restore | promote =>
    cases h
    split
    · exact hf
    · rw [viewOf_rollback]
      exact facing_rollback (by decide) hf
  case sendSaveStateAck =>
    cases h
    split
    · rw [viewOf_rollback]
      exact facing_rollback (by decide) hf
    · exact ⟨⟨hf.1.toHost, hf.1.pc⟩, hf.2.tell (by decide)⟩
  case teardown =>
    cases h
    cases ok
    · exact hf
    · exact ⟨⟨hf.1.toHost, hf.1.pc⟩, hf.2.tell (by decide)⟩
  case reap =>
    cases h
    trivial
  case resume =>
    cases h
    split
    · trivial
    · exact .inl ⟨⟨hf.1.toHost, hf.1.pc⟩, .told hf.2.resume⟩

theorem facing_recv (hf : Facing (view s) s.r.host) (h : s.r.hostRecv = some r) :
    Facing (viewOf s r) r.host := by
  simp only [State.hostRecv] at h
  split at h
  · cases h
  next m rest hm =>
  cases hpc : s.r.host <;> simp only [hpc, reduceCtorEq] at h <;> rw [hpc] at hf <;> cases h
  case awaitDrainAck | awaitSaveState =>
    split
    · exact ⟨hf.1.recv hm, hf.2.recv⟩
    · rw [viewOf_rollback]
      exact facing_rollback (by decide) ⟨hf.1.recv hm, hf.2.recv⟩
  case awaitResumeAck =>
    split
    · next hexp =>
      have hk := expected_kind hexp
      rcases hf with hf | hf
      · have := (hf.1.toHost m (by rw [show (view s).toHost = _ from hm]; exact List.mem_cons_self)).2
        cases m <;> simp_all [ControlMessage.kind]
      · obtain ⟨pre, post, hh, hpre, hpost⟩ := hf.toHost
        cases pre with
        | nil =>
          cases hm.symm.trans hh
          exact ⟨hf.plugin, hf.toPlugin, hpost⟩
        | cons x pre =>
          cases hm.symm.trans hh
          have := (hpre _ List.mem_cons_self).2
          cases m <;> simp_all [ControlMessage.kind]
    · trivial

theorem facing_expire (hf : Facing (view s) s.r.host) (h : s.r.hostExpire = some r) :
    Facing (viewOf s r) r.host := by
  cases hpc : s.r.host <;> simp only [State.hostExpire, hpc, reduceCtorEq] at h <;> rw [hpc] at hf <;>
    obtain ⟨-, ⟨⟩⟩ := guard_some h
  case closing =>
    rw [viewOf_rollback]
    exact hf
  case awaitDrainAck | awaitSaveState =>
    rw [viewOf_rollback]
    exact facing_rollback (by decide) hf
  case awaitResumeAck => trivial

/-! ## Whole runs -/

theorem Agreed.local {a : Act} (ha : Agreed s) (hl : a.isLocal = true) (hg : s.quiet a = true)
    (h : s.step a = some t) : Agreed t := by
  obtain ⟨hloop, hhost⟩ := local_host hl hg h
  cases hlp : s.loop with
  | ended => simp only [Agreed, hloop, hlp]
  | recv | received n | ack n =>
    simp only [Agreed, hloop, hlp] at ha ⊢
    exact ha.local hl hg h
  | reload n =>
    simp only [Agreed, hloop, hlp, hhost] at ha ⊢
    have held : Silent (view s) ∧ Held [] (view s) → Silent (view t) ∧ Held [] (view t) := by
      intro hf
      obtain ⟨hs, hf' | ⟨he, -⟩⟩ := hf.2.local hf.1 (.inl rfl) hl hg h
      · exact ⟨hs, hf'⟩
      · cases he
    cases hpc : s.r.host <;> rw [hpc] at ha
    case start | closing | drain | sendDrain => exact Free.local ha hl hg h
    case awaitResumeAck =>
      rcases ha with ⟨hs, hc⟩ | ha
      · exact hc.local hs hl hg h
      · exact .inr (ha.local hl hg h)
    case done r =>
      cases r with
      | rolledBack c => exact Free.local ha hl hg h
      | promoted | crashEquivalent c => trivial
    all_goals exact held ha

theorem Agreed.step {a : Act} (ha : Agreed s) (hg : s.quiet a = true) (h : s.step a = some t) : Agreed t := by
  cases a <;> simp only [Session.step] at h
  case beat | deliver ok | pause | plugin a | finish => exact ha.local rfl hg h
  case tick n | cancel | enter | leave =>
    cases h
    exact ha
  case host a =>
    split at h
    · next n hl =>
      obtain ⟨r, hr, rfl⟩ := Option.map_eq_some_iff.mp h
      simp only [Agreed, hl] at ha ⊢
      cases a with
      | go ok => exact facing_go ha hg hr
      | recv => exact facing_recv ha hr
      | expire => exact facing_expire ha hr
    · cases h
  case recvBeat =>
    split at h
    · next m rest hl hm =>
      simp only [Agreed, hl] at ha
      have hf : ∀ n, Free ⟨s.r.plugin, s.r.toPlugin, rest, n⟩ := fun n =>
        ⟨ha.plugin, ha.toPlugin, fun he => ha.toHost (show _ ∈ s.r.toHost from hm ▸ List.mem_cons_of_mem _ he)⟩
      split at h <;> cases h
      · exact hf _
      · simp only [Agreed, hl]
        exact hf _
    · cases h
  case lose =>
    obtain ⟨-, ⟨⟩⟩ := guard_some h
    trivial
  case skip | service c =>
    split at h <;> cases h
    next n hl =>
    simp only [Agreed, hl] at ha
    exact ha
  case complete acked =>
    split at h <;> cases h
    · next n c hl hpc =>
      simp only [Agreed, hl, hpc, Facing] at ha
      cases acked <;> exact ha
    · trivial
  case ack ok =>
    split at h <;> cases h
    next n hl =>
    simp only [Agreed, hl] at ha
    cases ok
    · exact ha
    · refine ⟨ha.plugin, fun m hm => ?_, ha.toHost⟩
      rcases List.mem_append.mp hm with hm | hm
      · exact ha.toPlugin m hm
      · exact ⟨n, List.mem_singleton.mp hm⟩

/-- **A heartbeat does not collide with a reload** in a quiet run, however many
reloads it has and however they end. -/
theorem no_collision (h0 : s.Start) (hr : Reach step (fun s a => s.quiet a = true) s t) : t.NoCollision :=
  (hr.invariant h0.agreed fun ha hg h => ha.step hg h).noCollision

/-! ## A beat during the cutoff -/

/-- A plugin without mutators that beats every 8, and a host that waits 100. -/
def beatStart : Session where
  r :=
    { now := 0, deadlines := ⟨100, 10⟩, ctxDeadline := none, cancelled := false, gate := ⟨true, 1⟩, host := .start
      plugin := .awaitDrain, frozen := [], toPlugin := [], toHost := [], closed := false, drainSent := false
      resumeAcked := false }
  loop := .recv
  sender := ⟨8, 0, none, .waiting⟩

theorem beatStart_start : beatStart.Start := ⟨rfl, rfl, rfl, rfl⟩

/-- The host reads the first heartbeat and closes admission; a caller is inside. -/
def cutoffActs : List Act := [.beat, .deliver true, .recvBeat, .service none, .host (.go true)]

/-- The caller leaves; cutoff, plan, Drain. -/
def drainActs : List Act := [.leave, .host (.go true), .host (.go true), .host (.go true)]

/-- The cutoff takes a whole interval. -/
def beatEnd : Session :=
  (run step beatStart (cutoffActs ++ [.tick 8, .beat, .deliver true] ++ drainActs)).get (by decide)

/-- **A heartbeat meets the transaction's receive**: Drain is sent, and the next
message on the connection is the plugin's second heartbeat. -/
theorem heartbeat_collides : ¬ ∀ s t : Session, s.Start → Reach step Any s t → t.NoCollision := by
  intro h
  have hc := h beatStart beatEnd beatStart_start (Reach.of_run (Option.some_get _).symm) 1 2 [] (by decide) (by decide)
  exact absurd hc (by decide)

/-- With the second beat left out, the reload goes through to its DrainAck. -/
def quietEnd : Session :=
  (run (guarded step fun s a => s.quiet a = true) beatStart
    (cutoffActs ++ [.tick 8] ++ drainActs ++ [.plugin .recv, .pause, .plugin (.go true), .plugin (.go true),
      .plugin (.go true), .plugin (.go true)])).get (by decide)

theorem no_collision_quiet : quietEnd.r.toHost = [.drainAck] ∧ quietEnd.NoCollision :=
  ⟨by decide, no_collision beatStart_start (Reach.of_guarded (Option.some_get _).symm)⟩

end Session

end Styx
