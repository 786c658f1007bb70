/-
The host's heartbeat loop and the generations it supervises (`heartbeatLoop`,
`serviceReload`, `runReload`).

A reload swaps the current instance inside the loop's body, while the loop's locals still
refer to the old connection and its samples; whether the loop then drops them depends on
the outcome `serviceReload` reads off the transaction's error. Of the transaction only
that error matters here: what each of its calls returned, and how `Run`, `rollback` and
`Teardown.Run` wrap it. An error is the sentinels `errors.Is` finds in it.
-/
import Styx.Reload.Heartbeat

namespace Styx

open Machine

namespace Supervisor

/-! ## Health -/

structure HeartbeatSample where
  sequence : UInt64
  descriptorsConsumedH2P : UInt64
  descriptorsProducedP2H : UInt64
  inflightCount : UInt64
  arenaOccupancyBytes : UInt64
  inboundReadable : Bool
  boundedReadActive : Bool
  deriving DecidableEq

inductive HealthClass
  | ok
  | wedged
  | overloaded
  deriving DecidableEq

inductive WedgeKind
  | none
  | transport
  | dispatch
  deriving DecidableEq

def defaultHighWaterBytes : UInt64 := (1 : UInt64) <<< 30

def classify (prev cur : HeartbeatSample) (highWaterBytes : UInt64) : HealthClass × WedgeKind :=
  let consumeStalled := cur.descriptorsConsumedH2P == prev.descriptorsConsumedH2P
  let produceStalled := cur.descriptorsProducedP2H == prev.descriptorsProducedP2H
  if consumeStalled && cur.inboundReadable && !cur.boundedReadActive then (.wedged, .transport)
  else if produceStalled && cur.inflightCount > 0 then (.wedged, .dispatch)
  else if (!consumeStalled || !produceStalled) && cur.arenaOccupancyBytes ≥ highWaterBytes then (.overloaded, .none)
  else (.ok, .none)

structure WedgeTracker where
  windowBeats : UInt64
  kind : WedgeKind
  anchorSeq : UInt64
  lastSeq : UInt64
  haveSeq : Bool
  fired : Bool
  deriving DecidableEq

namespace WedgeTracker

def clear (w : WedgeTracker) : WedgeTracker :=
  { w with kind := .none, anchorSeq := 0, fired := false, lastSeq := 0, haveSeq := false }

def observe (w : WedgeTracker) (cls : HealthClass) (kind : WedgeKind) (sequence : UInt64) : WedgeTracker × Option WedgeKind :=
  let w := if w.haveSeq && sequence != w.lastSeq + 1 then w.clear else w
  let w := { w with lastSeq := sequence, haveSeq := true }
  if cls ≠ .wedged then (w.clear, none)
  else if w.kind ≠ kind then ({ w with kind, anchorSeq := sequence, fired := false }, none)
  else if w.fired then (w, none)
  else if 0 < w.windowBeats ∧ w.windowBeats ≤ sequence - w.anchorSeq then ({ w with fired := true }, some kind)
  else (w, none)

/-- Observing keeps the window, all that a clear keeps. -/
theorem observe_clear {w : WedgeTracker} {cls : HealthClass} {kind : WedgeKind} {sequence : UInt64} :
    (w.observe cls kind sequence).1.clear = w.clear := by
  unfold observe
  dsimp only
  (repeat' split) <;> rfl

end WedgeTracker

/-- `newWedgeTracker`: the window in sequence increments, rounded up. -/
def newWedgeTracker (window senderCadence : Int) : WedgeTracker where
  windowBeats :=
    let minSpacing := minHeartbeatSpacing senderCadence
    if 0 < window ∧ 0 < minSpacing then
      UInt64.ofNat (window.tdiv minSpacing + if window.tmod minSpacing ≠ 0 then 1 else 0).toNat
    else 0
  kind := .none
  anchorSeq := 0
  lastSeq := 0
  haveSeq := false
  fired := false

/-! ## The transaction's error -/

inductive Sentinel
  | canceled
  | deadlineExceeded
  | crashEquivalent
  | drainNotCommitted
  | joinTimeout
  | other
  deriving DecidableEq

/-- The sentinels an error wraps. -/
abbrev Err := List Sentinel

/-- What the calls of one `Transaction.Run` return, the error if any. -/
structure Calls where
  /-- `admission.Close`, and the context's own error after it. -/
  close : Option Err
  ctxErr : Option Err
  /-- The caller's budget leaves no room for a drain; else the Send of Drain, and the wait for its ack. -/
  tooSmall : Bool
  sendDrain : Option Err
  awaitDrainAck : Option Err
  snapshot : Option Err
  spawnNew : Option Err
  restore : Option Err
  promote : Option Err
  /-- `resumeOld`, in a rollback. -/
  resumeOld : Option Err
  /-- `JoinGoroutines` completes within its deadline. -/
  joined : Bool
  deriving DecidableEq

namespace Calls

def drain (c : Calls) : Option Err :=
  if c.tooSmall then some [.drainNotCommitted]
  else
    match c.sendDrain with
    | some e => some (e ++ [.drainNotCommitted])
    | none => c.awaitDrainAck

def rollback (c : Calls) (phase : Reload.Phase) (cause : Err) : Err :=
  if phase = .cutoff then cause
  else
    match c.resumeOld with
    | some e => .crashEquivalent :: (cause ++ e)
    | none => cause

/-- `Teardown.Run` returns the join's error and no other. -/
def teardown (c : Calls) : Option Err := if c.joined then none else some [.joinTimeout]

/-- `Transaction.Run`: is there a promoted successor, and the error. -/
def run (c : Calls) : Bool × Option Err :=
  match c.close with
  | some e => (false, some (c.rollback .cutoff e))
  | none =>
  match c.ctxErr with
  | some e => (false, some (c.rollback .cutoff e))
  | none =>
  match c.drain with
  | some e => (false, some (c.rollback (if .drainNotCommitted ∈ e then .cutoff else .drainAck) e))
  | none =>
  match c.snapshot with
  | some e => (false, some (c.rollback .snapshot e))
  | none =>
  match c.spawnNew with
  | some e => (false, some (c.rollback .restoreValidate e))
  | none =>
  match c.restore with
  | some e => (false, some (c.rollback .restoreValidate e))
  | none =>
  match c.promote with
  | some e => (false, some (c.rollback .restoreValidate e))
  | none => (true, c.teardown)

/-- **A promoted reload fails only in the old instance's join.** -/
theorem run_promoted {c : Calls} (h : c.run.1 = true) : c.run.2 = none ∨ c.run.2 = some [.joinTimeout] := by
  have hrun : c.run = (true, c.teardown) := by
    revert h
    unfold run
    repeat' split
    all_goals simp
  rw [hrun, teardown]
  split
  · exact .inl rfl
  · exact .inr rfl

end Calls

/-! ## The loop -/

/-- A live instance: its connection and its generation. -/
structure Instance where
  conn : Nat
  generation : UInt64
  deriving DecidableEq

/-- A received sample. Ghost: the instance whose connection it came on. -/
structure Beat where
  sample : HeartbeatSample
  origin : Instance
  deriving DecidableEq

/-- What the loop makes of a sample and the one before it. -/
def WedgeTracker.weigh (w : WedgeTracker) (p : Beat × Beat) : WedgeTracker × Option WedgeKind :=
  let (cls, kind) := classify p.1.sample p.2.sample defaultHighWaterBytes
  w.observe cls kind p.2.sample.sequence

def WedgeTracker.feed (w : WedgeTracker) (ps : List (Beat × Beat)) : WedgeTracker := ps.foldl (fun w p => (w.weigh p).1) w

theorem WedgeTracker.feed_clear {w : WedgeTracker} {ps : List (Beat × Beat)} : (w.feed ps).clear = w.clear := by
  induction ps generalizing w with
  | nil => rfl
  | cons p ps ih => exact ih.trans observe_clear

def origins (ps : List (Beat × Beat)) : List Instance := ps.flatMap fun p => [p.1.origin, p.2.origin]

inductive ReloadOutcome
  | none
  | serviced
  | noop
  | crashEquivalent
  deriving DecidableEq

/-- A reload request: its context's error when it is picked up, and what its transaction meets. -/
structure Request where
  ctxErr : Option Err
  calls : Calls
  deriving DecidableEq

inductive Reason
  | missedHeartbeats (missed : Nat)
  | wedged (kind : WedgeKind)
  deriving DecidableEq

/-- An `EventUnhealthy`. Ghost: the instances it was drawn from, by their silence or their samples. -/
structure Unhealthy where
  reason : Reason
  gen : UInt64
  drawn : List Instance
  deriving DecidableEq

/-- A HeartbeatAck sent: on which connection, for whose heartbeat, with which instance current. -/
structure Ack where
  conn : Instance
  origin : Instance
  current : Instance
  deriving DecidableEq

inductive Pc
  | top
  | receiving (conn : Instance)
  | received (conn : Instance) (b : Beat)
  | serviced (conn : Instance) (b : Beat) (o : ReloadOutcome)
  | acking (conn : Instance) (b : Beat)
  | classifying (b : Beat)
  | ended
  deriving DecidableEq

structure Config where
  missedHeartbeats : Nat
  deriving DecidableEq

structure Loop where
  generation : UInt64
  current : Instance
  missed : Nat
  prev : Option Beat
  tracker : WedgeTracker
  pc : Pc
  /-- Ghost: the connections made; the waits `missed` counts; the pairs weighed since the last reset; the current instance has
  changed since. -/
  conns : Nat
  silence : List Instance
  shown : List (Beat × Beat)
  changed : Bool
  /-- Ghost: the pairs classified, the acks sent, the verdicts. -/
  classified : List (Beat × Beat)
  acks : List Ack
  verdicts : List Unhealthy
  deriving DecidableEq

namespace Loop

/-- `runReload`. -/
def runReload (s : Loop) (c : Calls) : Loop × Option Err :=
  let s := { s with generation := s.generation + 1 }
  let (promoted, err) := c.run
  (if promoted then { s with current := ⟨s.conns, s.generation⟩, conns := s.conns + 1, changed := true } else s, err)

/-- What `serviceReload` makes of the error. -/
def outcome : Option Err → ReloadOutcome
  | none => .serviced
  | some e =>
    if .crashEquivalent ∈ e then .crashEquivalent
    else if .canceled ∈ e ∨ .deadlineExceeded ∈ e then .noop
    else .serviced

def serviceReload (s : Loop) : Option Request → Loop × ReloadOutcome
  | none => (s, .none)
  | some r =>
    if r.ctxErr.isSome then (s, .noop)
    else
      let (s, err) := s.runReload r.calls
      (s, outcome err)

def reset (s : Loop) : Loop :=
  { s with missed := 0, prev := none, tracker := s.tracker.clear, silence := [], shown := [], changed := false }

inductive Act
  /-- `Stop`, a cancelled context, or a data-plane fault escalated to the loop. -/
  | leave
  | next
  | timeout
  /-- The connection is lost, or its other end closed. -/
  | lost
  /-- A message of another kind. -/
  | other
  | heartbeat (sample : HeartbeatSample)
  | service (r : Option Request)
  deriving DecidableEq

/-- A wait that ends in silence. -/
def miss (cfg : Config) (s : Loop) (conn : Instance) : Loop :=
  let missed := s.missed + 1
  let silence := s.silence ++ [conn]
  if missed ≥ cfg.missedHeartbeats then
    { s with
      missed, silence, pc := .ended
      verdicts := s.verdicts ++ [⟨.missedHeartbeats missed, s.current.generation, silence⟩] }
  else { s with missed, silence, pc := .top }

/-- The sample against the previous one. -/
def judge (s : Loop) (b : Beat) : Loop :=
  match s.prev with
  | none => { s with prev := some b, pc := .top }
  | some p =>
    let (tracker, fired) := s.tracker.weigh (p, b)
    let s := { s with tracker, shown := s.shown ++ [(p, b)], classified := s.classified ++ [(p, b)] }
    match fired with
    | some kind => { s with pc := .ended, verdicts := s.verdicts ++ [⟨.wedged kind, s.current.generation, origins s.shown⟩] }
    | none => { s with prev := some b, pc := .top }

def step (cfg : Config) (s : Loop) (a : Act) : Option Loop :=
  match s.pc with
  | .top =>
    match a with
    | .leave => some { s with pc := .ended }
    | .next => some { s with pc := .receiving s.current }
    | _ => none
  | .receiving conn =>
    match a with
    | .timeout => some (s.miss cfg conn)
    | .lost => some { s with pc := .ended }
    | .other => some { s with pc := .top }
    | .heartbeat sample => some { s with pc := .received conn ⟨sample, conn⟩ }
    | _ => none
  | .received conn b =>
    match a with
    | .service r => some { (s.serviceReload r).1 with pc := .serviced conn b (s.serviceReload r).2 }
    | _ => none
  | .serviced conn b o =>
    if a ≠ .next then none
    else
      match o with
      | .crashEquivalent => some { s with pc := .ended }
      | .serviced => some { s.reset with pc := .top }
      | .none | .noop => some { s with missed := 0, silence := [], pc := .acking conn b }
  | .acking conn b =>
    if a = .next then some { s with acks := s.acks ++ [⟨conn, b.origin, s.current⟩], pc := .classifying b } else none
  | .classifying b => if a = .next then some (s.judge b) else none
  | .ended => none

/-- The loop is entered with an instance promoted. -/
structure Start (s : Loop) : Prop where
  pc : s.pc = .top
  missed : s.missed = 0
  prev : s.prev = none
  tracker : ∃ window senderCadence, s.tracker = newWedgeTracker window senderCadence
  ghosts : s.silence = [] ∧ s.shown = [] ∧ s.changed = false ∧ s.classified = [] ∧ s.acks = [] ∧ s.verdicts = []

/-! ## Invariant -/

variable {cfg : Config} {s t : Loop} {a : Act} {w₀ : WedgeTracker}

/-- What the loop holds is the current instance's. -/
structure Pure (s : Loop) : Prop where
  settled : s.changed = false
  prev : ∀ p ∈ s.prev, p.origin = s.current
  silence : ∀ i ∈ s.silence, i = s.current
  shown : ∀ i ∈ origins s.shown, i = s.current

/-- Where the loop stands; `conn` is the local that outlives a swap. -/
def At (s : Loop) : Prop :=
  match s.pc with
  | .top => s.Pure
  | .receiving conn => s.Pure ∧ conn = s.current
  | .received conn b | .acking conn b => s.Pure ∧ conn = s.current ∧ b.origin = s.current
  | .serviced conn b o => o = .none ∨ o = .noop → s.Pure ∧ conn = s.current ∧ b.origin = s.current
  | .classifying b => s.Pure ∧ b.origin = s.current
  | .ended => True

/-- What a tracker that was fresh at `w₀` and every verdict rest on. -/
structure Logged (w₀ : WedgeTracker) (s : Loop) : Prop where
  count : s.silence.length = s.missed
  weighed : s.tracker = w₀.feed s.shown
  classified : ∀ p ∈ s.classified, p.1.origin = p.2.origin
  acks : ∀ x ∈ s.acks, x.conn = x.origin ∧ x.current = x.origin
  verdicts : ∀ v ∈ s.verdicts, v.drawn ≠ [] ∧ (∀ i ∈ v.drawn, i.generation = v.gen) ∧
    (∀ n, v.reason = .missedHeartbeats n → v.drawn.length = n) ∧
    ∀ kind, v.reason = .wedged kind → ∃ ps p, v.drawn = origins (ps ++ [p]) ∧ ((w₀.feed ps).weigh p).2 = some kind

structure Inv (w₀ : WedgeTracker) (s : Loop) : Prop where
  at_pc : s.At
  logged : s.Logged w₀

theorem Start.inv (h : s.Start) : s.Inv s.tracker := by
  obtain ⟨hsil, hsh, hch, hcl, hac, hve⟩ := h.ghosts
  refine ⟨?_, by rw [hsil, h.missed]; rfl, by rw [hsh]; rfl, by simp [hcl], by simp [hac], by simp [hve]⟩
  rw [At, h.pc]
  exact ⟨hch, by simp [h.prev], by simp [hsil], by simp [hsh, origins]⟩

theorem Start.clear (h : s.Start) : s.tracker.clear = s.tracker := by
  obtain ⟨_, _, h⟩ := h.tracker
  rw [h]
  rfl

/-- What `Logged` reads. -/
def books (s : Loop) : List Instance × Nat × WedgeTracker × List (Beat × Beat) × List (Beat × Beat) × List Ack × List Unhealthy :=
  (s.silence, s.missed, s.tracker, s.shown, s.classified, s.acks, s.verdicts)

theorem Logged.same (h : s.Logged w₀) (hb : t.books = s.books) : t.Logged w₀ := by
  simp only [books, Prod.mk.injEq] at hb
  obtain ⟨hs, hm, ht, hsh, hc, ha, hv⟩ := hb
  exact ⟨by rw [hs, hm]; exact h.count, by rw [ht, hsh]; exact h.weighed, hc ▸ h.classified, ha ▸ h.acks, hv ▸ h.verdicts⟩

/-- **A swap is reported as serviced.** -/
theorem serviceReload_cases (r : Option Request) :
    ((s.serviceReload r).2 = .none ∨ (s.serviceReload r).2 = .noop →
      (s.serviceReload r).1 = { s with generation := (s.serviceReload r).1.generation }) ∧
    (s.serviceReload r).1.books = s.books := by
  cases r with
  | none => exact ⟨fun _ => rfl, rfl⟩
  | some r =>
    simp only [serviceReload]
    split
    · exact ⟨fun _ => rfl, rfl⟩
    cases hp : r.calls.run.1 with
    | false => simp only [runReload, hp]; exact ⟨fun _ => rfl, rfl⟩
    | true =>
      simp only [runReload, hp]
      refine ⟨fun ho => ?_, rfl⟩
      rcases Calls.run_promoted hp with he | he <;> rw [he] at ho <;> simp [outcome] at ho

theorem Inv.miss {conn : Instance} (h : s.Logged w₀) (hp : s.Pure) (hc : conn = s.current) : (s.miss cfg conn).Inv w₀ := by
  have hsil : ∀ i ∈ s.silence ++ [conn], i = s.current := by
    intro i hi
    rcases List.mem_append.mp hi with hi | hi
    · exact hp.silence i hi
    · rw [List.mem_singleton.mp hi, hc]
  have hlen : (s.silence ++ [conn]).length = s.missed + 1 := by simp [h.count]
  simp only [Loop.miss]
  split
  · refine ⟨trivial, hlen, h.weighed, h.classified, h.acks, fun v hv => ?_⟩
    rcases List.mem_append.mp hv with hv | hv
    · exact h.verdicts v hv
    · rw [List.mem_singleton.mp hv]
      refine ⟨by simp, fun i hi => by rw [hsil i hi], fun n hn => ?_, nofun⟩
      cases hn
      exact hlen
  · exact ⟨⟨hp.settled, hp.prev, hsil, hp.shown⟩, hlen, h.weighed, h.classified, h.acks, h.verdicts⟩

theorem Inv.judge {b : Beat} (h : s.Logged w₀) (hp : s.Pure) (hb : b.origin = s.current) : (s.judge b).Inv w₀ := by
  have hprev : ∀ p, some b = some p → p.origin = s.current := by
    rintro p ⟨⟩
    exact hb
  cases hs : s.prev with
  | none =>
    simp only [Loop.judge, hs]
    exact ⟨⟨hp.settled, hprev, hp.silence, hp.shown⟩, h.count, h.weighed, h.classified, h.acks, h.verdicts⟩
  | some p =>
    have ho : p.origin = s.current := hp.prev p hs
    have hshown : ∀ i ∈ origins (s.shown ++ [(p, b)]), i = s.current := by
      intro i hi
      rw [origins, List.flatMap_append] at hi
      rcases List.mem_append.mp hi with hi | hi
      · exact hp.shown i hi
      · simp only [List.flatMap_singleton] at hi
        simp only [List.mem_cons, List.not_mem_nil, or_false] at hi
        rcases hi with rfl | rfl
        · exact ho
        · exact hb
    have hclass : ∀ q ∈ s.classified ++ [(p, b)], q.1.origin = q.2.origin := by
      intro q hq
      rcases List.mem_append.mp hq with hq | hq
      · exact h.classified q hq
      · rw [List.mem_singleton.mp hq]
        exact ho.trans hb.symm
    have hfed : (s.tracker.weigh (p, b)).1 = w₀.feed (s.shown ++ [(p, b)]) := by
      rw [WedgeTracker.feed, List.foldl_append, h.weighed]
      rfl
    simp only [Loop.judge, hs]
    split
    · next kind hfired =>
      refine ⟨trivial, h.count, hfed, hclass, h.acks, fun v hv => ?_⟩
      rcases List.mem_append.mp hv with hv | hv
      · exact h.verdicts v hv
      · rw [List.mem_singleton.mp hv]
        refine ⟨by simp [origins], fun i hi => by rw [hshown i hi], nofun, fun k hk => ?_⟩
        cases hk
        exact ⟨s.shown, (p, b), rfl, h.weighed ▸ hfired⟩
    · exact ⟨⟨hp.settled, hprev, hp.silence, hshown⟩, h.count, hfed, hclass, h.acks, h.verdicts⟩

theorem Inv.step (h : s.Inv w₀) (hw : w₀.clear = w₀) (hs : s.step cfg a = some t) : t.Inv w₀ := by
  have hat := h.at_pc
  have hl := h.logged
  unfold At at hat
  cases hpc : s.pc <;> rw [hpc] at hat
  case top =>
    simp only [Loop.step, hpc] at hs
    split at hs <;> cases hs
    · exact ⟨trivial, hl.same rfl⟩
    · exact ⟨⟨⟨hat.settled, hat.prev, hat.silence, hat.shown⟩, rfl⟩, hl.same rfl⟩
  case receiving conn =>
    obtain ⟨hp, hc⟩ := hat
    simp only [Loop.step, hpc] at hs
    split at hs <;> cases hs
    · exact Inv.miss hl hp hc
    · exact ⟨trivial, hl.same rfl⟩
    · exact ⟨⟨hp.settled, hp.prev, hp.silence, hp.shown⟩, hl.same rfl⟩
    · exact ⟨⟨⟨hp.settled, hp.prev, hp.silence, hp.shown⟩, hc, hc⟩, hl.same rfl⟩
  case received conn b =>
    obtain ⟨hp, hc, hb⟩ := hat
    simp only [Loop.step, hpc] at hs
    split at hs <;> cases hs
    next r =>
    obtain ⟨hsame, hb'⟩ := serviceReload_cases (s := s) r
    refine ⟨fun ho => ?_, hl.same hb'⟩
    rw [hsame ho]
    exact ⟨⟨hp.settled, hp.prev, hp.silence, hp.shown⟩, hc, hb⟩
  case serviced conn b o =>
    simp only [Loop.step, hpc] at hs
    split at hs
    · cases hs
    cases o with
    | crashEquivalent =>
      cases hs
      exact ⟨trivial, hl.same rfl⟩
    | serviced =>
      cases hs
      have hclear : s.tracker.clear = w₀ := by rw [hl.weighed, WedgeTracker.feed_clear, hw]
      exact ⟨⟨rfl, by simp [reset], by simp [reset], by simp [reset, origins]⟩, rfl, hclear, hl.classified, hl.acks, hl.verdicts⟩
    | none | noop =>
      cases hs
      obtain ⟨hp, hc, hb⟩ := hat (by simp)
      exact ⟨⟨⟨hp.settled, hp.prev, by simp, hp.shown⟩, hc, hb⟩, rfl, hl.weighed, hl.classified, hl.acks, hl.verdicts⟩
  case acking conn b =>
    obtain ⟨hp, hc, hb⟩ := hat
    simp only [Loop.step, hpc] at hs
    split at hs <;> cases hs
    refine ⟨⟨⟨hp.settled, hp.prev, hp.silence, hp.shown⟩, hb⟩, hl.count, hl.weighed, hl.classified, fun x hx => ?_, hl.verdicts⟩
    rcases List.mem_append.mp hx with hx | hx
    · exact hl.acks x hx
    · rw [List.mem_singleton.mp hx]
      exact ⟨hc.trans hb.symm, hb.symm⟩
  case classifying b =>
    simp only [Loop.step, hpc] at hs
    split at hs <;> cases hs
    exact Inv.judge hl hat.1 hat.2
  case ended =>
    simp only [Loop.step, hpc] at hs
    cases hs

/-- The reset comes whole, and nothing but a swap changes the instance. -/
theorem step_change (hs : s.step cfg a = some t) :
    (t.current ≠ s.current → t.changed = true) ∧
    (s.changed = true → t.changed = false → t.missed = 0 ∧ t.prev = none ∧ t.shown = []) := by
  have hkept : t.current = s.current → t.changed = s.changed → (t.current ≠ s.current → t.changed = true) ∧
      (s.changed = true → t.changed = false → t.missed = 0 ∧ t.prev = none ∧ t.shown = []) := by
    intro h1 h2
    refine ⟨fun h => absurd h1 h, fun h h' => ?_⟩
    rw [h2, h] at h'
    cases h'
  cases hpc : s.pc <;> simp only [step, hpc] at hs
  case top =>
    split at hs <;> cases hs <;> exact hkept rfl rfl
  case receiving conn =>
    split at hs <;> cases hs
    · apply hkept <;> (simp only [miss]; split <;> rfl)
    all_goals exact hkept rfl rfl
  case received conn b =>
    split at hs <;> cases hs
    next r =>
    cases r with
    | none => exact hkept rfl rfl
    | some r =>
      simp only [serviceReload, runReload] at hkept ⊢
      split
      · next hc =>
        rw [if_pos hc] at hkept
        exact hkept rfl rfl
      · next hc =>
        rw [if_neg hc] at hkept
        split
        · exact ⟨fun _ => rfl, nofun⟩
        · next hp =>
          rw [if_neg hp] at hkept
          exact hkept rfl rfl
  case serviced conn b o =>
    split at hs
    · cases hs
    cases o with
    | serviced =>
      cases hs
      exact ⟨fun h => absurd rfl h, fun _ _ => ⟨rfl, rfl, rfl⟩⟩
    | none | noop | crashEquivalent =>
      cases hs
      exact hkept rfl rfl
  case acking conn b =>
    split at hs <;> cases hs
    exact hkept rfl rfl
  case classifying b =>
    split at hs <;> cases hs
    apply hkept <;> (simp only [judge]; (repeat' split) <;> rfl)
  case ended =>
    cases hs

/-! ## Whole runs -/

/-- **Supervision never mixes generations**, whatever arrives and however reloads end: neither in a classified pair, nor in an
ack, nor in a verdict, which is what a fresh tracker makes of the samples it was drawn from; and after a swap nothing is
classified before the reset, which leaves the tracker the loop was entered with. -/
theorem supervision_unmixed (cfg : Config) (s t : Loop) (h0 : s.Start) (h : Reach (step cfg) Any s t) :
    (∀ p ∈ t.classified, p.1.origin = p.2.origin) ∧
    (∀ x ∈ t.acks, x.conn = x.origin ∧ x.current = x.origin) ∧
    (∀ v ∈ t.verdicts, v.drawn ≠ [] ∧ (∀ i ∈ v.drawn, i.generation = v.gen) ∧
      (∀ n, v.reason = .missedHeartbeats n → v.drawn.length = n) ∧
      ∀ kind, v.reason = .wedged kind → ∃ ps p,
        v.drawn = origins (ps ++ [p]) ∧ ((s.tracker.feed ps).weigh p).2 = some kind) ∧
    (∀ b, t.pc = .classifying b → t.changed = false ∧ b.origin = t.current) ∧
    ∀ a u, t.step cfg a = some u → (u.current ≠ t.current → u.changed = true) ∧
      (t.changed = true → u.changed = false → u.missed = 0 ∧ u.prev = none ∧ u.tracker = s.tracker) := by
  have hi : t.Inv s.tracker := h.invariant h0.inv fun hi _ hs => hi.step h0.clear hs
  refine ⟨hi.logged.classified, hi.logged.acks, hi.logged.verdicts, fun b hb => ?_, fun a u hs => ?_⟩
  · have hat := hi.at_pc
    rw [At, hb] at hat
    exact ⟨hat.1.settled, hat.2⟩
  · obtain ⟨hswap, hreset⟩ := step_change hs
    refine ⟨hswap, fun hc hc' => ?_⟩
    obtain ⟨hm, hp, hsh⟩ := hreset hc hc'
    refine ⟨hm, hp, ?_⟩
    rw [(hi.step h0.clear hs).logged.weighed, hsh]
    rfl

/-- The loop's first instance. -/
def entry : Loop where
  generation := 1
  current := ⟨0, 1⟩
  missed := 0
  prev := none
  tracker := newWedgeTracker 5 1
  pc := .top
  conns := 1
  silence := []
  shown := []
  changed := false
  classified := []
  acks := []
  verdicts := []

def sampleAt (sequence : UInt64) : HeartbeatSample := ⟨sequence, 0, 0, 0, 0, false, false⟩

def beatActs (sequence : UInt64) (r : Option Request) : List Act := [.next, .heartbeat (sampleAt sequence), .service r, .next]

/-- A reload that promotes and whose teardown times out in the join. -/
def unjoined : Request := ⟨none, ⟨none, none, false, none, none, none, none, none, none, none, false⟩⟩

/-- Two heartbeats, a reload at the third, two of the successor's, and silence. -/
def reloadedActs : List Act :=
  beatActs 1 none ++ [.next, .next] ++ beatActs 2 none ++ [.next, .next] ++ beatActs 3 (some unjoined) ++
    beatActs 1 none ++ [.next, .next] ++ beatActs 2 none ++ [.next, .next] ++ [.next, .timeout]

def reloadedEnd : Loop := (run (step ⟨1⟩) entry reloadedActs).get (by decide +kernel)

theorem supervision_unmixed_reloaded : reloadedEnd.current = ⟨1, 2⟩ ∧ reloadedEnd.classified.length = 2 ∧
    reloadedEnd.verdicts.map (·.gen) = [2] ∧ ∀ p ∈ reloadedEnd.classified, p.1.origin = p.2.origin :=
  ⟨by decide +kernel, by decide +kernel, by decide +kernel,
    (supervision_unmixed ⟨1⟩ entry reloadedEnd ⟨rfl, rfl, rfl, ⟨5, 1, rfl⟩, rfl, rfl, rfl, rfl, rfl, rfl⟩
      (Reach.of_run (Option.some_get _).symm)).1⟩

end Loop

end Supervisor

end Styx
