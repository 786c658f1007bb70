/-
What a reload leaves of the old instance.

The host rolls back by sending Resume and then accepts nothing but ResumeAck. So what it
gave up on may not be under way any more: a DrainAck or a SaveState that arrives after all
ends the reload as a crash (`instance_lost`).

`settled` says of each step what it takes: the host gives up only on a plugin that is
silent, DrainAck is sent in time, and the rollback's own exchange is not cut short. In the
runs that keep to it the instance is kept (`instance_kept`).
-/
import Styx.Reload.Transaction

namespace Styx

namespace Reload

open Machine State

/-! ## The property -/

/-- A reload about to start: the plugin serves, nothing is on the wire. -/
structure Start (s : State) : Prop where
  host : s.host = .start
  plugin : s.plugin = .awaitDrain
  frozen : ∀ b ∈ s.frozen, b = false
  toPlugin : s.toPlugin = []
  toHost : s.toHost = []
  closed : s.closed = false
  drainSent : s.drainSent = false

/-- The old instance is not lost: `Run` returns with the successor routed or the
old instance resumed, and the plugin leaves as retired only for a routed successor.
A reload that never sent Drain has nothing to be acknowledged. -/
structure Kept (s : State) : Prop where
  ends : ∀ r, s.host = .done r → r = .promoted ∨ ∃ c, r = .rolledBack c ∧ (∀ b ∈ s.frozen, b = false) ∧
    s.gate.isOpen = true ∧ (s.drainSent = true → s.resumeAcked = true)
  stays : ∀ failed, s.plugin = .left .retired failed → s.host.promoted = true

def sound (s : State) : Act → Bool
  | .plugin (.go ok) =>
    match s.plugin with
    | .freezing _ _ | .resuming _ => ok
    | _ => true
  | _ => true

def silent (s : State) : Bool := s.plugin = .awaitResumeOrExit ∧ s.toHost = []

def settled (s : State) : Act → Bool
  | .host .expire =>
    match s.host with
    | .awaitDrainAck _ | .awaitSaveState _ => silent s
    | .awaitResumeAck _ _ => false
    | _ => true
  | .host (.go _) =>
    match s.host with
    | .snapshot => silent s || !(s.cancelled || s.withTimeout s.deadlines.snapshot ≤ s.now)
    | .resume deadline _ => s.now < deadline
    | _ => true
  | .plugin (.go _) =>
    match s.plugin with
    | .sendDrainAck deadline => s.now < deadline
    | _ => true
  | _ => true

/-- A step of a run in which nothing fails and nothing is given up too early. -/
def Calm (s : State) (a : Act) : Prop := sound s a = true ∧ settled s a = true

instance (s : State) (a : Act) : Decidable (Calm s a) := inferInstanceAs (Decidable (_ ∧ _))

/-! ## `Run` returns -/

/-- How many lines `Run` has before it, at most. -/
def HostPc.rank : HostPc → Nat
  | .start => 18
  | .closing _ => 17
  | .drain => 16
  | .sendDrain _ _ => 15
  | .awaitDrainAck _ => 14
  | .snapshot => 13
  | .awaitSaveState _ => 12
  | .verify _ => 11
  | .sendSaveStateAck _ => 10
  | .spawn => 9
  | .restore => 8
  | .promote => 7
  | .discard _ _ => 6
  | .resume _ _ => 5
  | .awaitResumeAck _ _ => 4
  | .teardown => 2
  | .reap => 1
  | .done _ => 0

variable {s t : State} {c : Cause} {successor ok : Bool} {a : PluginAct} {phase : Phase} {pre : List ControlMessage}

theorem rank_rollback : (s.rollback phase successor c).host.rank ≤ 6 := by
  simp only [rollback]
  split
  · exact Nat.zero_le _
  · cases successor <;> simp [HostPc.rank]

theorem rollback_rank {n : Nat} (hn : 6 < n) :
    (s.rollback phase successor c).host.rank < n :=
  Nat.lt_of_le_of_lt rank_rollback hn

theorem hostGo_rank (h : s.hostGo ok = some t) : t.host.rank < s.host.rank := by
  cases hpc : s.host <;> simp only [hostGo, hpc, reduceCtorEq] at h
  case closing =>
    obtain ⟨-, ⟨⟩⟩ := guard_some h
    split
    · exact rollback_rank (by simp [HostPc.rank])
    · simp [HostPc.rank]
  case drain =>
    cases h
    split
    · simp [HostPc.rank]
    · exact rollback_rank (by simp [HostPc.rank])
  all_goals cases h
  all_goals first
    | simp [HostPc.rank]; done
    | split <;> first | exact rollback_rank (by simp [HostPc.rank]) | simp [HostPc.rank]

theorem hostRecv_rank (h : s.hostRecv = some t) : t.host.rank < s.host.rank := by
  simp only [hostRecv] at h
  split at h
  · cases h
  · cases hpc : s.host <;> simp only [hpc, reduceCtorEq] at h <;> cases h <;> split <;>
      first | exact rollback_rank (by simp [HostPc.rank]) | simp [HostPc.rank]

theorem hostExpire_rank (h : s.hostExpire = some t) : t.host.rank < s.host.rank := by
  cases hpc : s.host <;> simp only [hostExpire, hpc, reduceCtorEq] at h <;> split at h <;> cases h <;>
    first | exact rollback_rank (by simp [HostPc.rank]) | simp [HostPc.rank]

/-- Every step of `Run` goes forward. -/
theorem hostStep_rank {a : HostAct} (h : s.hostStep a = some t) : t.host.rank < s.host.rank := by
  cases a with
  | go ok => exact hostGo_rank h
  | recv => exact hostRecv_rank h
  | expire => exact hostExpire_rank h

/-- `Run` never blocks for good: with time it can take its next step. -/
theorem host_enabled (h : ∀ r, s.host ≠ .done r) :
    ∃ n : Nat, ∃ a, (({ s with now := s.now + n } : State).hostStep a).isSome := by
  have wait : ∀ d : Int, ∃ n : Nat, d ≤ s.now + n := fun d => ⟨(d - s.now).toNat, by omega⟩
  cases hpc : s.host with
  | closing d | awaitDrainAck d | awaitSaveState d | awaitResumeAck d c =>
    obtain ⟨n, hn⟩ := wait d
    exact ⟨n, .expire, by simp [hostStep, hostExpire, hn]⟩
  | done r => exact absurd hpc (h r)
  | _ => exact ⟨0, .go true, by simp [hostStep, hostGo]⟩

/-! ## How the two sides stand -/

/-- The plugin's side of a reload: its line, its mutators and the wire. -/
structure Link where
  plugin : PluginPc
  frozen : List Bool
  toPlugin : List ControlMessage
  toHost : List ControlMessage

def link (s : State) : Link := ⟨s.plugin, s.frozen, s.toPlugin, s.toHost⟩

structure Untouched (l : Link) : Prop where
  plugin : l.plugin = .awaitDrain
  frozen : ∀ b ∈ l.frozen, b = false
  toPlugin : l.toPlugin = []
  toHost : l.toHost = []

def PluginPc.acking : PluginPc → Bool
  | .drained _ | .freezing _ _ | .quiescing _ | .sendDrainAck _ => true
  | _ => false

/-- DrainAck is out (`pre` if the host has not read it) and SaveState may follow. -/
inductive Saving (l : Link) (pre : List ControlMessage) : Prop
  | building (hpc : l.plugin = .loadState ∨ l.plugin = .sendSaveState ∨ l.plugin = .awaitResumeOrExit)
    (hp : l.toPlugin = []) (hh : l.toHost = pre)
  | sent (hpc : l.plugin = .awaitSaveStateOutcome) (hp : l.toPlugin = []) (hh : l.toHost = pre ++ [.saveState])

/-- The host waits for DrainAck. -/
inductive Draining (l : Link) : Prop
  | unread {d : Int} (hpc : l.plugin = .awaitDrain) (hp : l.toPlugin = [.drain d]) (hh : l.toHost = [])
  | acking (hpc : l.plugin.acking = true) (hp : l.toPlugin = []) (hh : l.toHost = [])
  | missed (hpc : l.plugin = .awaitResumeOrExit) (hp : l.toPlugin = []) (hh : l.toHost = [])
  | acked (h : Saving l [.drainAck])

/-- The plugin waits for what the host makes of its snapshot. -/
structure Awaiting (l : Link) : Prop where
  plugin : l.plugin = .awaitSaveStateOutcome
  toPlugin : l.toPlugin = []
  toHost : l.toHost = []

/-- A Resume, if it were sent now, would be the next thing the plugin acts on. -/
inductive Resumable (l : Link) : Prop
  | silent (hpc : l.plugin = .awaitResumeOrExit) (hp : l.toPlugin = []) (hh : l.toHost = [])
  | awaiting (h : Awaiting l)
  | acked (hpc : l.plugin = .awaitSaveStateOutcome) (hp : l.toPlugin = [.saveStateAck]) (hh : l.toHost = [])

/-- Resume is sent and its answer not yet received. -/
inductive Resuming (l : Link) : Prop
  | told {p : List ControlMessage} (hp : l.toPlugin = p ++ [.resume]) (h : Resumable { l with toPlugin := p })
  | resuming {i : Nat} (hpc : l.plugin = .resuming i) (hf : ∀ b ∈ l.frozen.take i, b = false)
    (hp : l.toPlugin = []) (hh : l.toHost = [])
  | resumed (hpc : l.plugin = .sendResumeAck) (hf : ∀ b ∈ l.frozen, b = false)
    (hp : l.toPlugin = []) (hh : l.toHost = [])
  | acked (hpc : l.plugin = .left .rolledBack false) (hf : ∀ b ∈ l.frozen, b = false)
    (hp : l.toPlugin = []) (hh : l.toHost = [.resumeAck])

/-- The host has its ResumeAck. -/
structure Resumed (l : Link) : Prop where
  plugin : l.plugin = .left .rolledBack false
  frozen : ∀ b ∈ l.frozen, b = false

/-- How the plugin stands, by the host's line. -/
def Agreed (s : State) : Prop :=
  match s.host with
  | .start | .closing _ | .drain | .sendDrain _ _ => Untouched (link s) ∧ s.drainSent = false
  | .awaitDrainAck _ => Draining (link s)
  | .snapshot | .awaitSaveState _ => Saving (link s) []
  | .verify _ | .sendSaveStateAck _ => Awaiting (link s)
  | .spawn | .restore | .promote | .discard _ _ | .resume _ _ => Resumable (link s)
  | .awaitResumeAck _ _ => Resuming (link s)
  | .done (.rolledBack _) =>
    s.gate.isOpen = true ∧ ((Untouched (link s) ∧ s.drainSent = false) ∨ (Resumed (link s) ∧ s.resumeAcked = true))
  | .done (.crashEquivalent _) => False
  | .teardown | .reap | .done .promoted => True

/-! ## Steps of the plugin -/

theorem Resumed.stuck (hl : Resumed (link s)) : s.pluginStep a = none := by
  have hpc : s.plugin = .left .rolledBack false := hl.plugin
  cases a <;> simp [pluginStep, pluginGo, pluginRecv, pluginExpire, PluginPc.receiving, hpc]

theorem Saving.plugin (hl : Saving (link s) pre) (hc : s.closed = false)
    (h : s.pluginStep a = some t) : Saving (link t) pre := by
  cases hl with
  | building hpc hp hh =>
    rcases hpc with hpc | hpc | hpc <;> change s.plugin = _ at hpc
    · obtain ⟨ok, -, h⟩ := going_step hpc rfl (by simp) h
      simp only [pluginGo, hpc, Option.some.injEq] at h
      subst h
      cases ok
      · exact .building (.inr (.inr rfl)) hp hh
      · exact .building (.inr (.inl rfl)) hp hh
    · obtain ⟨ok, -, h⟩ := going_step hpc rfl (by simp) h
      simp only [pluginGo, hpc, hc, Option.some.injEq] at h
      subst h
      exact .sent rfl hp (congrArg (· ++ [ControlMessage.saveState]) hh)
    · rw [receiving_stuck (by rw [hpc]; rfl) hp hc] at h
      cases h
  | sent hpc hp hh =>
    change s.plugin = _ at hpc
    rw [receiving_stuck (by rw [hpc]; rfl) hp hc] at h
    cases h

theorem Resumable.plugin (hl : Resumable (link s)) (hc : s.closed = false)
    (h : s.pluginStep a = some t) : Resumable (link t) := by
  cases hl with
  | silent hpc hp hh =>
    change s.plugin = _ at hpc
    rw [receiving_stuck (by rw [hpc]; rfl) hp hc] at h
    cases h
  | awaiting hl =>
    have hpc : s.plugin = _ := hl.plugin
    rw [receiving_stuck (by rw [hpc]; rfl) hl.toPlugin hc] at h
    cases h
  | acked hpc hp hh =>
    change s.plugin = _ at hpc
    rw [receiving_next (by rw [hpc]; rfl) hp h, hpc]
    exact .silent rfl rfl hh

theorem Draining.plugin (hl : Draining (link s)) (hc : s.closed = false) (hg : Calm s (.plugin a))
    (h : s.pluginStep a = some t) : Draining (link t) := by
  cases hl with
  | unread hpc hp hh =>
    change s.plugin = _ at hpc
    rw [receiving_next (by rw [hpc]; rfl) hp h, hpc]
    exact .acking rfl rfl hh
  | acking hpc hp hh =>
    change s.plugin.acking = true at hpc
    have hr : s.plugin.receiving = false := by cases hs : s.plugin <;> simp_all [PluginPc.acking, PluginPc.receiving]
    obtain ⟨ok, rfl, hgo⟩ | ⟨d, hd, rfl⟩ := executing_step hr h
    · cases hs : s.plugin <;> simp only [hs, PluginPc.acking, Bool.false_eq_true] at hpc <;>
        simp only [pluginGo, hs] at hgo
      case drained | quiescing =>
        cases hgo
        exact .acking rfl hp hh
      case freezing d i =>
        have hok : ok = true := by simpa [sound, hs] using hg.1
        rw [if_pos hok] at hgo
        split at hgo <;> cases hgo <;> exact .acking rfl hp hh
      case sendDrainAck d =>
        have hd : s.now < d := by simpa [settled, hs] using hg.2
        rw [if_neg (by simp [hc]; omega)] at hgo
        cases hgo
        exact .acked (.building (.inl rfl) hp (congrArg (· ++ [ControlMessage.drainAck]) hh))
    · exact .missed rfl hp hh
  | missed hpc hp hh =>
    change s.plugin = _ at hpc
    rw [receiving_stuck (by rw [hpc]; rfl) hp hc] at h
    cases h
  | acked hs => exact .acked (hs.plugin hc h)

theorem take_set_false {l : List Bool} {i : Nat} (h : ∀ b ∈ l.take i, b = false) :
    ∀ b ∈ (l.set i false).take (i + 1), b = false := by
  intro b hb
  obtain ⟨j, hj, rfl⟩ := List.getElem_of_mem hb
  simp only [List.length_take, List.length_set] at hj
  simp only [List.getElem_take, List.getElem_set]
  split
  · rfl
  · exact h _ (List.mem_take_iff_getElem.mpr ⟨j, by omega, rfl⟩)

theorem Resuming.plugin (hl : Resuming (link s)) (hc : s.closed = false) (hg : Calm s (.plugin a))
    (h : s.pluginStep a = some t) : Resuming (link t) := by
  cases hl with
  | told hp hl =>
    cases hl with
    | silent hpc hp' hh =>
      change s.plugin = _ at hpc
      cases hp'
      rw [receiving_next (by rw [hpc]; rfl) hp h, hpc]
      exact .resuming rfl (by simp) rfl hh
    | awaiting hl =>
      have hpc : s.plugin = _ := hl.plugin
      cases hl.toPlugin
      rw [receiving_next (by rw [hpc]; rfl) hp h, hpc]
      exact .resuming rfl (by simp) rfl hl.toHost
    | acked hpc hp' hh =>
      change s.plugin = _ at hpc
      cases hp'
      rw [receiving_next (by rw [hpc]; rfl) hp h, hpc]
      exact .told (p := []) rfl (.silent rfl rfl hh)
  | resuming hpc hf hp hh =>
    change s.plugin = _ at hpc
    obtain ⟨ok, rfl, hgo⟩ := going_step hpc rfl (by simp) h
    have hok : ok = true := by simpa [sound, hpc] using hg.1
    simp only [pluginGo, hpc, if_pos hok] at hgo
    split at hgo <;> cases hgo
    · exact .resuming rfl (take_set_false hf) hp hh
    · next hi =>
      have hall := List.take_of_length_le (Nat.le_of_not_lt hi)
      exact .resumed rfl (fun b hb => hf b (show b ∈ s.frozen.take _ by rwa [hall])) hp hh
  | resumed hpc hf hp hh =>
    change s.plugin = _ at hpc
    obtain ⟨ok, rfl, hgo⟩ := going_step hpc rfl (by simp) h
    simp only [pluginGo, hpc, hc, Bool.false_eq_true, if_false] at hgo
    cases hgo
    exact .acked rfl hf hp (congrArg (· ++ [ControlMessage.resumeAck]) hh)
  | acked hpc hf hp hh =>
    rw [Resumed.stuck ⟨hpc, hf⟩] at h
    cases h

/-! ## Steps of the host -/

theorem Saving.resumable (hl : Saving (link s) pre) (hq : silent s = true) : Resumable (link s) := by
  simp only [Reload.silent, Bool.decide_and, Bool.and_eq_true, decide_eq_true_eq] at hq
  cases hl with
  | building hpc hp hh => exact .silent hq.1 hp hq.2
  | sent hpc hp hh =>
    have hpc' : s.plugin = .awaitSaveStateOutcome := hpc
    rw [hq.1] at hpc'
    cases hpc'

theorem Draining.resumable (hl : Draining (link s)) (hq : silent s = true) : Resumable (link s) := by
  have hq' := hq
  simp only [Reload.silent, Bool.decide_and, Bool.and_eq_true, decide_eq_true_eq] at hq'
  cases hl with
  | unread hpc hp hh =>
    change s.plugin = _ at hpc
    rw [hq'.1] at hpc
    cases hpc
  | acking hpc hp hh =>
    change s.plugin.acking = true at hpc
    rw [hq'.1] at hpc
    cases hpc
  | missed hpc hp hh => exact .silent hpc hp hh
  | acked hl => exact hl.resumable hq

theorem agreed_rollback (hph : phase ≠ .cutoff) (hl : Resumable (link s)) : Agreed (s.rollback phase successor c) := by
  simp only [rollback, if_neg hph]
  cases successor
  · exact hl
  · exact hl

theorem agreed_abort (hl : Untouched (link s) ∧ s.drainSent = false) :
    Agreed (s.rollback .cutoff false c) :=
  ⟨rfl, .inl hl⟩

theorem Agreed.hostGo (ha : Agreed s) (hg : Calm s (.host (.go ok))) (h : s.hostGo ok = some t) : Agreed t := by
  cases hpc : s.host <;> simp only [State.hostGo, hpc, reduceCtorEq] at h <;> simp only [Agreed, hpc] at ha
  case start | discard =>
    cases h
    exact ha
  case closing =>
    obtain ⟨-, ⟨⟩⟩ := guard_some h
    split
    · exact agreed_abort ha
    · exact ha
  case drain =>
    cases h
    split
    · exact ha
    · exact agreed_abort ha
  case sendDrain w d =>
    cases h
    split
    · exact agreed_abort ha
    · exact .unread ha.1.plugin (congrArg (· ++ [ControlMessage.drain d]) ha.1.toPlugin) ha.1.toHost
  case snapshot =>
    cases h
    split
    · next hend =>
      have hq : silent s = true ∨ s.cancelled = false ∧ s.now < s.withTimeout s.deadlines.snapshot := by
        simpa [settled, hpc] using hg.2
      refine agreed_rollback (by decide) (ha.resumable ?_)
      rcases hq with hq | ⟨hcan, hlt⟩
      · exact hq
      · rcases hend with hend | hend
        · rw [hcan] at hend
          cases hend
        · omega
    · exact ha
  case verify =>
    cases h
    split
    · exact ha
    · exact agreed_rollback (by decide) (.awaiting ha)
  case sendSaveStateAck =>
    cases h
    split
    · exact agreed_rollback (by decide) (.awaiting ha)
    · exact .acked ha.plugin (congrArg (· ++ [ControlMessage.saveStateAck]) ha.toPlugin) ha.toHost
  case spawn | restore =>
    cases h
    split
    · exact ha
    · exact agreed_rollback (by decide) ha
  case promote =>
    cases h
    split
    · trivial
    · exact agreed_rollback (by decide) ha
  case teardown | reap =>
    cases h
    trivial
  case resume d c =>
    have hd : s.now < d := by simpa [settled, hpc] using hg.2
    rw [if_neg (by omega)] at h
    cases h
    exact .told rfl ha

theorem Agreed.hostRecv (ha : Agreed s) (h : s.hostRecv = some t) : Agreed t := by
  simp only [State.hostRecv] at h
  split at h
  · cases h
  next m rest hm =>
  cases hpc : s.host <;> simp only [hpc, reduceCtorEq] at h <;> simp only [Agreed, hpc] at ha <;> cases h
  case awaitDrainAck =>
    cases ha with
    | acked hl =>
      cases hl with
      | building hpc' hp hh =>
        cases hm.symm.trans hh
        exact .building hpc' hp rfl
      | sent hpc' hp hh =>
        cases hm.symm.trans hh
        exact .sent hpc' hp rfl
    | unread _ _ hh | acking _ _ hh | missed _ _ hh => cases hm.symm.trans hh
  case awaitSaveState =>
    cases ha with
    | building _ _ hh => cases hm.symm.trans hh
    | sent hpc' hp hh =>
      cases hm.symm.trans hh
      exact ⟨hpc', hp, rfl⟩
  case awaitResumeAck =>
    cases ha with
    | told hp hl =>
      cases hl with
      | silent _ _ hh | acked _ _ hh => cases hm.symm.trans hh
      | awaiting hl => cases hm.symm.trans hl.toHost
    | resuming _ _ _ hh | resumed _ _ _ hh => cases hm.symm.trans hh
    | acked hpc' hf hp hh =>
      cases hm.symm.trans hh
      exact ⟨rfl, .inr ⟨⟨hpc', hf⟩, rfl⟩⟩

theorem Agreed.hostExpire (ha : Agreed s) (hg : Calm s (.host .expire)) (h : s.hostExpire = some t) : Agreed t := by
  cases hpc : s.host <;> simp only [State.hostExpire, hpc, reduceCtorEq] at h <;> simp only [Agreed, hpc] at ha <;>
    obtain ⟨-, ⟨⟩⟩ := guard_some h
  case closing => exact agreed_abort ha
  case awaitDrainAck | awaitSaveState => exact agreed_rollback (by decide) (ha.resumable (by simpa [settled, hpc] using hg.2))
  case awaitResumeAck =>
    have := hg.2
    simp [settled, hpc] at this

/-! ## Whole runs -/

theorem Agreed.gate {g : AdmissionGate} (ha : Agreed s) (hg : g.isOpen = s.gate.isOpen) :
    Agreed { s with gate := g } := by
  unfold Agreed at ha ⊢
  dsimp only
  cases hpc : s.host with
  | done r =>
    rw [hpc] at ha
    rw [← hg] at ha
    exact ha
  | _ =>
    rw [hpc] at ha
    exact ha

theorem Agreed.not_retired {failed : Bool} (ha : Agreed s) (hp : s.plugin = .left .retired failed) :
    s.host.promoted = true := by
  have saving : ∀ {pre}, ¬ Saving (link s) pre := by
    intro pre hl
    cases hl with
    | building hpc _ _ => rcases hpc with hpc | hpc | hpc <;> cases hp.symm.trans hpc
    | sent hpc _ _ => cases hp.symm.trans hpc
  have resumable : ∀ {p}, ¬ Resumable { link s with toPlugin := p } := by
    intro p hl
    cases hl with
    | silent hpc _ _ | acked hpc _ _ => cases hp.symm.trans hpc
    | awaiting hl => cases hp.symm.trans hl.plugin
  cases hpc : s.host <;> simp only [Agreed, hpc] at ha
  case start | closing | drain | sendDrain => cases hp.symm.trans ha.1.plugin
  case awaitDrainAck =>
    cases ha with
    | unread hpc' _ _ | missed hpc' _ _ => cases hp.symm.trans hpc'
    | acking hpc' _ _ =>
      rw [show (link s).plugin = _ from hp] at hpc'
      cases hpc'
    | acked hl => exact absurd hl saving
  case snapshot | awaitSaveState => exact absurd ha saving
  case verify | sendSaveStateAck => cases hp.symm.trans ha.plugin
  case spawn | restore | promote | discard | resume => exact absurd ha resumable
  case awaitResumeAck =>
    cases ha with
    | told _ hl => exact absurd hl resumable
    | resuming hpc' _ _ _ | resumed hpc' _ _ _ | acked hpc' _ _ _ => cases hp.symm.trans hpc'
  case done r =>
    cases r with
    | promoted => rfl
    | rolledBack c =>
      rcases ha.2 with ha | ha
      · cases hp.symm.trans ha.1.plugin
      · cases hp.symm.trans ha.1.plugin
    | crashEquivalent c => exact absurd ha id
  case teardown | reap => rfl

structure Inv (s : State) : Prop where
  agreed : Agreed s
  closed : s.host.promoted = false → s.closed = false

theorem Start.inv (h0 : Start s) : Inv s := by
  refine ⟨?_, fun _ => h0.closed⟩
  simp only [Agreed, h0.host]
  exact ⟨⟨h0.plugin, h0.frozen, h0.toPlugin, h0.toHost⟩, h0.drainSent⟩

theorem Inv.kept (hi : Inv s) : Kept s := by
  refine ⟨fun r hr => ?_, fun failed hp => hi.agreed.not_retired hp⟩
  have ha := hi.agreed
  simp only [Agreed, hr] at ha
  cases r with
  | promoted => exact .inl rfl
  | rolledBack c =>
    refine .inr ⟨c, rfl, ?_, ha.1, ?_⟩
    · rcases ha.2 with ha | ha
      · exact ha.1.frozen
      · exact ha.1.frozen
    · intro hsent
      rcases ha.2 with ha | ha
      · rw [ha.2] at hsent
        cases hsent
      · exact ha.2
  | crashEquivalent c => exact absurd ha id

/-- The host closes its end for a routed successor only, and a routed one stays. -/
theorem hostStep_closed {a : HostAct} (hc : s.host.promoted = false → s.closed = false)
    (h : s.hostStep a = some t) (ht : t.host.promoted = false) : t.closed = false := by
  cases a with
  | go ok =>
    cases hpc : s.host <;> simp only [hostStep, State.hostGo, hpc, reduceCtorEq] at h <;> simp only [hpc] at hc
    case closing =>
      obtain ⟨-, ⟨⟩⟩ := guard_some h
      split <;> exact hc rfl
    case teardown | reap =>
      cases h
      cases ht
    all_goals
      cases h
      first | exact hc rfl | split <;> exact hc rfl
  | recv =>
    simp only [hostStep, State.hostRecv] at h
    split at h
    · cases h
    · cases hpc : s.host <;> simp only [hpc, reduceCtorEq] at h <;> simp only [hpc] at hc <;> cases h <;> split <;>
        exact hc rfl
  | expire =>
    cases hpc : s.host <;> simp only [hostStep, State.hostExpire, hpc, reduceCtorEq] at h <;>
      simp only [hpc] at hc <;> split at h <;> cases h <;> exact hc rfl

theorem Agreed.plugin (ha : Agreed s) (hc : s.host.promoted = false → s.closed = false)
    (hg : Calm s (.plugin a)) (h : s.pluginStep a = some t) : Agreed t := by
  have hhost := (pluginStep_host h).1
  cases hpc : s.host <;> rw [hpc] at hhost hc <;> simp only [Agreed, hpc, hhost] at ha ⊢
  case start | closing | drain | sendDrain =>
    rw [receiving_stuck (by rw [show s.plugin = _ from ha.1.plugin]; rfl) ha.1.toPlugin (hc rfl)] at h
    cases h
  case awaitDrainAck => exact ha.plugin (hc rfl) hg h
  case snapshot | awaitSaveState => exact Saving.plugin ha (hc rfl) h
  case verify | sendSaveStateAck =>
    rw [receiving_stuck (by rw [show s.plugin = _ from ha.plugin]; rfl) ha.toPlugin (hc rfl)] at h
    cases h
  case spawn | restore | promote | discard | resume => exact Resumable.plugin ha (hc rfl) h
  case awaitResumeAck => exact ha.plugin (hc rfl) hg h
  case done r =>
    cases r with
    | promoted => trivial
    | rolledBack c =>
      rcases ha.2 with ha' | ha'
      · rw [receiving_stuck (by rw [show s.plugin = _ from ha'.1.plugin]; rfl) ha'.1.toPlugin (hc rfl)] at h
        cases h
      · rw [ha'.1.stuck] at h
        cases h
    | crashEquivalent c => exact ha

theorem Inv.step {a : Act} (hi : Inv s) (hg : Calm s a) (h : step s a = some t) : Inv t := by
  cases a with
  | tick n | cancel =>
    cases h
    exact ⟨hi.agreed, hi.closed⟩
  | enter =>
    cases h
    refine ⟨hi.agreed.gate ?_, hi.closed⟩
    simp only [AdmissionGate.enter]
    split <;> rfl
  | leave =>
    simp only [Reload.step] at h
    split at h <;> cases h
    exact ⟨hi.agreed.gate rfl, hi.closed⟩
  | host a =>
    refine ⟨?_, hostStep_closed hi.closed h⟩
    cases a with
    | go ok => exact hi.agreed.hostGo hg h
    | recv => exact hi.agreed.hostRecv h
    | expire => exact hi.agreed.hostExpire hg h
  | plugin a =>
    refine ⟨hi.agreed.plugin hi.closed hg h, ?_⟩
    rw [(pluginStep_host h).1, (pluginStep_host h).2]
    exact hi.closed

/-- **The old instance is kept** in every settled run: whatever has happened by
then, `Run` has not lost it, the plugin has not retired, and `Run` still has a step
to take, time permitting, and fewer after it. -/
theorem instance_kept (h0 : Start s) (hr : Reach step Calm s t) :
    Kept t ∧ ((∀ r, t.host ≠ .done r) →
      ∃ n : Nat, ∃ a u, step { t with now := t.now + n } (.host a) = some u ∧ u.host.rank < t.host.rank) := by
  have hi : Inv t := hr.invariant h0.inv fun hi hg h => hi.step hg h
  refine ⟨hi.kept, fun hd => ?_⟩
  obtain ⟨n, a, ha⟩ := host_enabled hd
  obtain ⟨u, hu⟩ := Option.isSome_iff_exists.mp ha
  have hrank : u.host.rank < ({ t with now := t.now + n } : State).host.rank := hostStep_rank hu
  exact ⟨n, a, u, hu, hrank⟩

/-! ## A reload that loses its instance -/

/-- Two mutators; a host that waits 100 for DrainAck and 10 for SaveState. -/
def twoMutators : State where
  now := 0
  deadlines := ⟨100, 10⟩
  ctxDeadline := none
  cancelled := false
  gate := ⟨true, 0⟩
  host := .start
  plugin := .awaitDrain
  frozen := [false, false]
  toPlugin := []
  toHost := []
  closed := false
  drainSent := false
  resumeAcked := false

theorem twoMutators_start : Start twoMutators := ⟨rfl, rfl, by decide, rfl, rfl, rfl, rfl⟩

/-- Drain, both mutators frozen, the accepted calls about to finish. -/
def freezeActs : List Act :=
  [.host (.go true), .host (.go true), .host (.go true), .host (.go true),
   .plugin .recv, .plugin (.go true), .plugin (.go true), .plugin (.go true), .plugin (.go true)]

/-- The plugin takes 10 over its snapshot, and sends it then. -/
def lateSaveActs : List Act :=
  freezeActs ++
    [.plugin (.go true), .plugin (.go true), .host .recv, .host (.go true), .tick 10, .host .expire, .host (.go true),
     .plugin (.go true), .plugin (.go true), .host .recv]

def lateSaveEnd : State := (run (guarded step fun s a => sound s a = true) twoMutators lateSaveActs).get (by decide)

/-- **A healthy instance is lost**: the host has given up on a snapshot that
arrives after all, and takes it for the end of the plugin. -/
theorem instance_lost :
    ¬ ∀ s t : State, Start s → Reach step (fun s a => sound s a = true) s t → Kept t := by
  intro h
  have hk := h twoMutators lateSaveEnd twoMutators_start (Reach.of_guarded (Option.some_get _).symm)
  have hend : lateSaveEnd.host = .done (.crashEquivalent .awaitSaveState) := by decide
  obtain hr | ⟨c, hr, -⟩ := hk.ends _ hend <;> cases hr

/-- The drain deadline passes after the last call has finished: the plugin leaves. -/
example : ((run (guarded step fun s a => sound s a = true) twoMutators
    (freezeActs ++ [.plugin (.go true), .tick 50, .plugin (.go true)])).map (·.plugin)) =
      some (.left .retired true) := by
  decide

/-- It passes before: the plugin waits for the Resume the host sends in its turn. -/
def missedActs : List Act :=
  freezeActs ++
    [.tick 100, .plugin .expire, .host .expire, .host (.go true), .plugin .recv, .plugin (.go true), .plugin (.go true),
     .plugin (.go true), .plugin (.go true), .host .recv]

def missedEnd : State := (run (guarded step Calm) twoMutators missedActs).get (by decide)

theorem instance_kept_missed :
    missedEnd.host = .done (.rolledBack .awaitDrainAck) ∧ missedEnd.resumeAcked = true ∧ Kept missedEnd :=
  ⟨by decide, by decide, (instance_kept twoMutators_start (Reach.of_guarded (Option.some_get _).symm)).1⟩

end Reload

end Styx
