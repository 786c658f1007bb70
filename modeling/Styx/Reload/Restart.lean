/-
`Supervisor.Run`: one instance after another, under a restart budget, and the events it publishes. Of an instance's
heartbeat loop there remains what the events, the budget and the processes depend on: a reload runs its successor beside
the instance it replaces, until it has reaped one of the two.
-/
import Styx.Reload.Supervision

namespace Styx.Supervisor

open Machine

inductive EventKind
  | starting
  | ready
  | unhealthy
  /-- Does its error wrap an `IncompatibleError`? -/
  | crashed (incompatible : Bool)
  | restarting
  | gaveUp
  deriving DecidableEq

structure Event where
  kind : EventKind
  gen : Nat
  deriving DecidableEq

/-! ## What an attempt may publish -/

/-- Where a reader of the events stands; `idle` carries the generation the last attempt ended with. -/
inductive Attempt
  | idle (last : Nat)
  | starting (gen : Nat)
  | up (gen : Nat)
  | sick (gen : Nat)
  | down (gen : Nat) (incompatible : Bool)
  | over
  deriving DecidableEq

/-- Starting, then Ready, again for each promoted reload, then Unhealthy, then Crashed, then GaveUp or Restarting. -/
def Attempt.next : Attempt → Event → Option Attempt
  | .idle last, ⟨.starting, g⟩ => if last < g then some (.starting g) else none
  | .starting gen, ⟨.ready, g⟩ => if g = gen then some (.up g) else none
  | .up gen, ⟨.ready, g⟩ => if gen < g then some (.up g) else none
  | .up gen, ⟨.unhealthy, g⟩ => if g = gen then some (.sick g) else none
  | .starting gen, ⟨.crashed i, g⟩ | .up gen, ⟨.crashed i, g⟩ | .sick gen, ⟨.crashed i, g⟩ =>
    if g = gen then some (.down g i) else none
  | .down gen _, ⟨.gaveUp, g⟩ => if g = gen then some .over else none
  | .down gen false, ⟨.restarting, g⟩ => if g = gen then some (.idle g) else none
  | _, _ => none

/-! ## The loop -/

structure RestartConfig where
  max : Int
  resetWindow : Int
  deriving DecidableEq

def effectiveRestartsUsed (resetWindow readyDuration : Int) (restartsUsed : Nat) : Nat :=
  if resetWindow > 0 ∧ readyDuration ≥ resetWindow then 0 else restartsUsed

inductive Run.Pc
  | top
  | spawning (gen : Nat)
  | attaching (gen : Nat)
  | serving (cur : Nat)
  /-- In a reload: before its successor is spawned, with both processes running, and with the successor promoted. -/
  | reloading (cur gen : Nat) (c : Calls) (incompatible : Bool)
  | restoring (cur gen : Nat) (c : Calls) (incompatible : Bool)
  | retiring (cur gen : Nat) (c : Calls) (incompatible : Bool)
  | teardown (cur : Nat) (stopped incompatible : Bool)
  | ended (gen : Nat) (readyDuration : Int) (incompatible : Bool)
  | crashed (gen : Nat) (incompatible : Bool)
  | sleeping
  | returned
  deriving DecidableEq

structure Run where
  generation : Nat := 0
  restartsUsed : Nat := 0
  stopped : Bool := false
  pc : Run.Pc := .top
  events : List Event := []
  /-- Ghost: the generations whose process runs; what `Backoff` was called with since `restartsUsed` was last reset, and
  before each reset, with the ready duration that made it. -/
  live : List Nat := []
  round : List Nat := []
  rounds : List (List Nat × Int) := []
  deriving DecidableEq

namespace Run

inductive Act
  /-- `Stop`, or the context ends. -/
  | stop
  | go
  | spawn (ok : Bool)
  /-- The handshake's error, if any: is it an incompatibility? -/
  | attach (err : Option Bool)
  | reload (c : Calls) (incompatible : Bool)
  | unhealthy
  | lost
  | torn (readyDuration : Int)
  | slept (ok : Bool)
  deriving DecidableEq

def publish (r : Run) (kind : EventKind) (gen : Nat) : Run := { r with events := r.events ++ [⟨kind, gen⟩] }

/-- What `Transaction.Run` calls before it spawns the successor has succeeded. -/
def spawns (c : Calls) : Bool := c.close.isNone && c.ctxErr.isNone && c.drain.isNone && c.snapshot.isNone

/-- The transaction has returned, with this instance current. -/
def reloaded (r : Run) (cur : Nat) (c : Calls) (incompatible : Bool) : Run :=
  if Loop.outcome c.run.2 = .crashEquivalent then { r with pc := .teardown cur false incompatible }
  else { r with pc := .serving cur }

/-- From a crash on: the budget, the incompatibility, the restart. -/
def decide (cfg : RestartConfig) (r : Run) (gen : Nat) (incompatible : Bool) : Run :=
  if r.stopped then { r with pc := .returned }
  else if incompatible ∨ r.restartsUsed ≥ cfg.max then { r with pc := .returned }.publish .gaveUp gen
  else
    { r with restartsUsed := r.restartsUsed + 1, round := r.round ++ [r.restartsUsed], pc := .sleeping }.publish
      .restarting gen

def crash (cfg : RestartConfig) (r : Run) (gen : Nat) (readyDuration : Int) (incompatible : Bool) : Run :=
  let r := { r with pc := .crashed gen incompatible }.publish (.crashed incompatible) gen
  let used := effectiveRestartsUsed cfg.resetWindow readyDuration r.restartsUsed
  if used = r.restartsUsed then r
  else { r with restartsUsed := used, round := [], rounds := (r.round, readyDuration) :: r.rounds }

def step (cfg : RestartConfig) (r : Run) (a : Act) : Option Run :=
  match r.pc, a with
  | _, .stop => some { r with stopped := true }
  | .top, .go =>
    if r.stopped then some { r with pc := .returned }
    else
      let gen := r.generation + 1
      some ({ r with generation := gen, pc := .spawning gen }.publish .starting gen)
  | .spawning gen, .spawn ok =>
    if ok then some { r with live := gen :: r.live, pc := .attaching gen } else some { r with pc := .ended gen 0 false }
  | .attaching gen, .attach none => some ({ r with pc := .serving gen }.publish .ready gen)
  | .attaching gen, .attach (some incompatible) =>
    some { r with live := r.live.erase gen, pc := .ended gen 0 incompatible }
  | .serving cur, .go => if r.stopped then some { r with pc := .teardown cur true false } else some r
  | .serving cur, .lost => some { r with pc := .teardown cur false false }
  | .serving cur, .unhealthy => some ({ r with pc := .teardown cur false false }.publish .unhealthy cur)
  | .serving cur, .reload c incompatible =>
    let gen := r.generation + 1
    some { r with generation := gen, pc := .reloading cur gen c incompatible }
  | .reloading cur _ c incompatible, .go => if spawns c then none else some (r.reloaded cur c incompatible)
  | .reloading cur gen c incompatible, .spawn ok =>
    if ¬ spawns c then none
    else if ok then some { r with live := gen :: r.live, pc := .restoring cur gen c incompatible }
    else if c.spawnNew.isSome then some (r.reloaded cur c incompatible)
    else none
  | .restoring cur gen c incompatible, .go =>
    if c.run.1 then some { r with pc := .retiring cur gen c incompatible }
    else some ({ r with live := r.live.erase gen }.reloaded cur c incompatible)
  | .retiring cur gen c incompatible, .go =>
    some (({ r with live := r.live.erase cur }.publish .ready gen).reloaded gen c incompatible)
  | .teardown cur stopped incompatible, .torn readyDuration =>
    let r := { r with live := r.live.erase cur }
    if stopped then some { r with pc := .returned } else some { r with pc := .ended cur readyDuration incompatible }
  | .ended gen readyDuration incompatible, .go => some (r.crash cfg gen readyDuration incompatible)
  | .crashed gen incompatible, .go => some (r.decide cfg gen incompatible)
  | .sleeping, .slept ok =>
    if ok then some { r with pc := .top } else if r.stopped then some { r with pc := .returned } else none
  | _, _ => none

/-! ## Invariant -/

variable {cfg : RestartConfig} {r r' : Run} {a : Act} {q q' : Attempt} {kind : EventKind} {gen : Nat}

/-- The events read from the start. -/
def Reads (es : List Event) (q : Attempt) : Prop := es.foldlM Attempt.next (.idle 0) = some q

theorem Reads.publish (h : Reads r.events q) (hn : q.next ⟨kind, gen⟩ = some q') :
    Reads (r.publish kind gen).events q' := by
  rw [Reads] at h
  simp [Reads, Run.publish, List.foldlM_append, h, hn]

/-- Which process runs, and what the events have told, at each point of the loop. -/
def At (r : Run) (q : Attempt) : Prop :=
  match r.pc with
  | .top | .sleeping => r.live = [] ∧ ∃ last ≤ r.generation, q = .idle last
  | .spawning gen => r.live = [] ∧ gen ≤ r.generation ∧ q = .starting gen
  | .attaching gen => r.live = [gen] ∧ gen ≤ r.generation ∧ q = .starting gen
  | .serving cur => r.live = [cur] ∧ cur ≤ r.generation ∧ q = .up cur
  | .reloading cur gen _ _ => r.live = [cur] ∧ cur < gen ∧ gen ≤ r.generation ∧ q = .up cur
  | .restoring cur gen _ _ | .retiring cur gen _ _ => r.live = [gen, cur] ∧ cur < gen ∧ gen ≤ r.generation ∧ q = .up cur
  | .teardown cur _ _ => r.live = [cur] ∧ cur ≤ r.generation ∧ (q = .up cur ∨ q = .sick cur)
  | .ended gen _ _ => r.live = [] ∧ gen ≤ r.generation ∧ (q = .starting gen ∨ q = .up gen ∨ q = .sick gen)
  | .crashed gen incompatible => r.live = [] ∧ gen ≤ r.generation ∧ q = .down gen incompatible
  | .returned => r.live = []

def Stands (r : Run) : Prop := ∃ q, Reads r.events q ∧ r.At q

/-- A round of restarts spends at most the budget, from index 0 on; only a reset ends one. -/
structure Budget (cfg : RestartConfig) (r : Run) : Prop where
  round : r.round = List.range r.restartsUsed
  used : r.restartsUsed ≤ cfg.max.toNat
  rounds : ∀ x ∈ r.rounds, 0 < cfg.resetWindow ∧ cfg.resetWindow ≤ x.2 ∧ ∃ k ≤ cfg.max.toNat, x.1 = List.range k

theorem Stands.crash {readyDuration : Int} {incompatible : Bool} (h : r.Stands)
    (hpc : r.pc = .ended gen readyDuration incompatible) : (r.crash cfg gen readyDuration incompatible).Stands := by
  obtain ⟨q, hq, hat⟩ := h
  simp only [At, hpc] at hat
  obtain ⟨hlive, hgen, hq'⟩ := hat
  have hr : Reads (r.publish (.crashed incompatible) gen).events (.down gen incompatible) :=
    hq.publish (by rcases hq' with rfl | rfl | rfl <;> simp [Attempt.next])
  simp only [Run.crash]
  split <;> exact ⟨_, hr, hlive, hgen, rfl⟩

theorem Stands.decide {incompatible : Bool} (h : r.Stands) (hpc : r.pc = .crashed gen incompatible) :
    (r.decide cfg gen incompatible).Stands := by
  obtain ⟨q, hq, hat⟩ := h
  simp only [At, hpc] at hat
  obtain ⟨hlive, hgen, rfl⟩ := hat
  simp only [Run.decide]
  split
  · exact ⟨_, hq, hlive⟩
  · split
    · exact ⟨.over, hq.publish (by simp [Attempt.next]), hlive⟩
    · next hi =>
      have hfalse : incompatible = false := by simpa using fun h => hi (.inl h)
      exact ⟨.idle gen, hq.publish (by simp [Attempt.next, hfalse]), hlive, gen, hgen, rfl⟩

theorem Stands.reloaded {cur : Nat} {c : Calls} {incompatible : Bool} (hq : Reads r.events (.up cur))
    (hlive : r.live = [cur]) (hcur : cur ≤ r.generation) : (r.reloaded cur c incompatible).Stands := by
  unfold Run.reloaded
  split
  · exact ⟨_, hq, hlive, hcur, .inl rfl⟩
  · exact ⟨_, hq, hlive, hcur, rfl⟩

theorem Stands.step (h : r.Stands) (hs : r.step cfg a = some r') : r'.Stands := by
  have ⟨q, hq, hat⟩ := h
  unfold Run.step at hs
  split at hs
  · cases hs; exact ⟨q, hq, hat⟩
  all_goals try simp only [At, ‹r.pc = _›] at hat
  · obtain ⟨hlive, last, hlast, rfl⟩ := hat
    split at hs <;> cases hs
    · exact ⟨_, hq, hlive⟩
    · exact ⟨_, hq.publish (if_pos (Nat.lt_succ_of_le hlast)), hlive, Nat.le_refl _, rfl⟩
  · obtain ⟨hlive, hgen, rfl⟩ := hat
    split at hs <;> cases hs
    · exact ⟨_, hq, by rw [hlive], hgen, rfl⟩
    · exact ⟨_, hq, hlive, hgen, .inl rfl⟩
  · obtain ⟨hlive, hgen, rfl⟩ := hat
    cases hs
    exact ⟨_, hq.publish (if_pos rfl), hlive, hgen, rfl⟩
  · obtain ⟨hlive, hgen, rfl⟩ := hat
    cases hs
    exact ⟨_, hq, by simp [hlive], hgen, .inl rfl⟩
  · obtain ⟨hlive, hgen, rfl⟩ := hat
    split at hs <;> cases hs
    · exact ⟨_, hq, hlive, hgen, .inl rfl⟩
    · exact h
  · obtain ⟨hlive, hgen, rfl⟩ := hat
    cases hs
    exact ⟨_, hq, hlive, hgen, .inl rfl⟩
  · obtain ⟨hlive, hgen, rfl⟩ := hat
    cases hs
    exact ⟨_, hq.publish (if_pos rfl), hlive, hgen, .inr rfl⟩
  · obtain ⟨hlive, hcur, rfl⟩ := hat
    cases hs
    exact ⟨_, hq, hlive, Nat.lt_succ_of_le hcur, Nat.le_refl _, rfl⟩
  · obtain ⟨hlive, hlt, hgen, rfl⟩ := hat
    split at hs <;> cases hs
    exact .reloaded hq hlive (by omega)
  · obtain ⟨hlive, hlt, hgen, rfl⟩ := hat
    (repeat' split at hs) <;> cases hs
    · exact ⟨_, hq, by rw [hlive], hlt, hgen, rfl⟩
    · exact .reloaded hq hlive (by omega)
  · obtain ⟨hlive, hlt, hgen, rfl⟩ := hat
    split at hs <;> cases hs
    · exact ⟨_, hq, hlive, hlt, hgen, rfl⟩
    · exact .reloaded hq (by simp [hlive]) (show _ ≤ r.generation by omega)
  · obtain ⟨hlive, hlt, hgen, rfl⟩ := hat
    cases hs
    have hread : Reads (r.publish .ready _).events (.up _) := hq.publish (if_pos hlt)
    exact .reloaded hread (by simp [publish, hlive, Nat.ne_of_gt hlt]) hgen
  · obtain ⟨hlive, hgen, hq'⟩ := hat
    split at hs <;> cases hs
    · exact ⟨_, hq, by simp [At, hlive]⟩
    · exact ⟨_, hq, by simp [hlive], hgen, .inr hq'⟩
  · cases hs; exact h.crash ‹_›
  · cases hs; exact h.decide ‹_›
  · split at hs
    · cases hs; exact ⟨q, hq, hat⟩
    · obtain ⟨-, hs⟩ := guard_some hs
      cases hs; exact ⟨q, hq, hat.1⟩
  · cases hs

theorem Budget.crash {readyDuration : Int} {incompatible : Bool} (h : Budget cfg r) :
    Budget cfg (r.crash cfg gen readyDuration incompatible) := by
  simp only [Run.crash]
  split
  · exact ⟨h.round, h.used, h.rounds⟩
  · next hne =>
    have hreset : cfg.resetWindow > 0 ∧ readyDuration ≥ cfg.resetWindow := by
      by_contra hno
      exact hne (if_neg hno)
    refine ⟨by simp [effectiveRestartsUsed, hreset], by simp [effectiveRestartsUsed, hreset], ?_⟩
    simp only [List.forall_mem_cons]
    exact ⟨⟨hreset.1, hreset.2, _, h.used, h.round⟩, h.rounds⟩

theorem Budget.decide {incompatible : Bool} (h : Budget cfg r) : Budget cfg (r.decide cfg gen incompatible) := by
  simp only [Run.decide]
  split
  · exact ⟨h.round, h.used, h.rounds⟩
  · split
    · exact ⟨h.round, h.used, h.rounds⟩
    · next hmax =>
      refine ⟨?_, ?_, h.rounds⟩
      · simp only [publish, h.round, List.range_succ]
      · simp only [publish]
        omega

theorem Budget.reloaded {cur : Nat} {c : Calls} {incompatible : Bool} (h : Budget cfg r) :
    Budget cfg (r.reloaded cur c incompatible) := by
  unfold Run.reloaded
  split <;> exact ⟨h.round, h.used, h.rounds⟩

theorem Budget.step (h : Budget cfg r) (hs : r.step cfg a = some r') : Budget cfg r' := by
  unfold Run.step at hs
  split at hs
  all_goals repeat' split at hs
  all_goals cases hs
  all_goals first
    | exact h.crash
    | exact h.decide
    | exact Budget.reloaded ⟨h.round, h.used, h.rounds⟩
    | exact ⟨h.round, h.used, h.rounds⟩

/-- A successor is promoted and found unhealthy after its window; the next instance is incompatible. -/
def gaveUp : Run :=
  (run (step ⟨1, 5⟩) {} [.go, .spawn true, .attach none,
    .reload ⟨none, none, false, none, none, none, none, none, none, none, true⟩ false, .spawn true, .go, .go,
    .unhealthy, .torn 7, .go, .go,
    .slept true, .go, .spawn true, .attach (some true), .go, .go]).get rfl

end Run

end Styx.Supervisor
