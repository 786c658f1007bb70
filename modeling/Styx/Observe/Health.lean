/-
A plugin's health record. The event relay writes its state half and the heartbeat loops
its count half, each under the record's lock and neither waiting for the other; a
snapshot reads both.
-/
import Styx.Lib.Machine

namespace Styx

open Machine

/-- An event as the relay hands it over: its kind, time and error, and what orders it. -/
structure Transition (E : Type) where
  event : Option E := none
  origin : Nat := 0
  seq : Nat := 0
  gen : Nat := 0

/-- `healthRecord`; `last` holds `state`, `lastTransition` and `lastErr` with `lastOrigin`, `lastSeq`
and `lastEventGen`. -/
structure HealthRecord (E : Type) where
  origin : Nat := 0
  last : Transition E := {}
  rev : Nat := 0
  missed : Nat := 0
  hookOrigin : Nat := 0
  hookGen : Nat := 0

structure HealthSnapshot (E : Type) where
  state : Option E
  revision : Nat
  missedHeartbeats : Nat

namespace HealthRecord

variable {E : Type} (r : HealthRecord E)

def coherentMissed : Nat :=
  if r.last.origin > r.hookOrigin ∨ r.last.origin = r.hookOrigin ∧ r.last.gen > r.hookGen then 0 else r.missed

def health : HealthSnapshot E := ⟨r.last.event, r.rev, r.coherentMissed⟩

def nextHealthOrigin : HealthRecord E × Nat := ({ r with origin := r.origin + 1 }, r.origin + 1)

/-- With the revision assigned, or 0 for an event discarded. -/
def recordHealthEvent (e : Transition E) : HealthRecord E × Nat :=
  if e.origin < r.last.origin ∨ e.origin = r.last.origin ∧ e.seq ≤ r.last.seq then (r, 0)
  else ({ r with last := e, rev := r.rev + 1 }, r.rev + 1)

def recordHeartbeat (origin gen : Nat) (apply : Nat → Nat) : HealthRecord E :=
  if origin < r.hookOrigin ∨ origin = r.hookOrigin ∧ gen < r.hookGen then r
  else { r with hookOrigin := origin, hookGen := gen, missed := apply r.missed }

def recordHeartbeatMiss (origin gen : Nat) : HealthRecord E := r.recordHeartbeat origin gen (· + 1)

def recordHeartbeatOK (origin gen : Nat) : HealthRecord E := r.recordHeartbeat origin gen fun _ => 0

end HealthRecord

/-- The record, the heartbeat loop of each `Start` attempt (the generation it watches and its own `missed`), and the
events relayed. -/
structure Health (E : Type) where
  record : HealthRecord E := {}
  loop : Nat → Option (Nat × Nat) := fun _ => none
  relayed : List (Transition E) := []

namespace Health

variable {E : Type}

/-- `relay` takes any event, in any order; `ok` is a loop's entry, a heartbeat received or a reload serviced. -/
inductive Act (E : Type)
  | attempt
  | relay (e : Transition E)
  | ok (origin gen : Nat)
  | miss (origin : Nat)

def step (x : Health E) : Act E → Option (Health E)
  | .attempt => some { x with record := x.record.nextHealthOrigin.1 }
  | .relay e => some { x with record := (x.record.recordHealthEvent e).1, relayed := e :: x.relayed }
  | .ok o g =>
    -- Within an attempt generations only grow; a reload rolled back keeps the one it had.
    if (0 < o ∧ o ≤ x.record.origin) ∧ ∀ l ∈ x.loop o, l.1 ≤ g then
      some { x with record := x.record.recordHeartbeatOK o g, loop := Function.update x.loop o (some (g, 0)) }
    else none
  | .miss o =>
    match x.loop o with
    | some (g, n) =>
      some { x with record := x.record.recordHeartbeatMiss o g, loop := Function.update x.loop o (some (g, n + 1)) }
    | none => none

/-- The misses in a row of one instance, zero if no loop watches it. -/
def misses (x : Health E) (o g : Nat) : Nat := ((x.loop o).filter (·.1 = g)).elim 0 (·.2)

/-- The order of attempts and, within one, of sequence numbers or generations. -/
def Upto (o n o' n' : Nat) : Prop := o < o' ∨ o = o' ∧ n ≤ n'

/-- The state half is the greatest event relayed. -/
def Retained (x : Health E) : Prop :=
  x.record.last ∈ {} :: x.relayed ∧ ∀ e ∈ x.relayed, Upto e.origin e.seq x.record.last.origin x.record.last.seq

/-- The revision goes up by one with the state half, to a greater event, or both stay. -/
def Revised (r r' : HealthRecord E) : Prop :=
  r'.rev = r.rev + 1 ∧ ¬ Upto r'.last.origin r'.last.seq r.last.origin r.last.seq ∨ r'.rev = r.rev ∧ r'.last = r.last

/-- The stamp's attempt is the newest whose loop has begun, and that loop has its generation and count. -/
structure Inv (x : Health E) : Prop where
  retained : x.Retained
  stamped : ∀ o l, x.loop o = some l → o < x.record.hookOrigin ∨ o = x.record.hookOrigin ∧ l = (x.record.hookGen, x.record.missed)
  begun : x.loop x.record.hookOrigin = none → x.record.hookOrigin = 0 ∧ x.record.missed = 0

variable {x y : Health E} {a : Act E} {o g n : Nat} {apply : Nat → Nat}

theorem recordHeartbeat_last (r : HealthRecord E) :
    (r.recordHeartbeat o g apply).rev = r.rev ∧ (r.recordHeartbeat o g apply).last = r.last := by
  unfold HealthRecord.recordHeartbeat
  split <;> exact ⟨rfl, rfl⟩

theorem step_revised (hs : x.step a = some y) : Revised x.record y.record := by
  cases a with
  | attempt =>
    cases hs
    exact .inr ⟨rfl, rfl⟩
  | relay e =>
    cases hs
    unfold HealthRecord.recordHealthEvent
    split
    · exact .inr ⟨rfl, rfl⟩
    · next hnew => exact .inl ⟨rfl, hnew⟩
  | ok o g =>
    obtain ⟨-, ⟨⟩⟩ := guard_some hs
    exact .inr (recordHeartbeat_last _)
  | miss o =>
    simp only [step] at hs
    split at hs <;> cases hs
    exact .inr (recordHeartbeat_last _)

theorem Retained.relay (h : x.Retained) (e : Transition E) :
    Retained { x with record := (x.record.recordHealthEvent e).1, relayed := e :: x.relayed } := by
  obtain ⟨hmem, hmax⟩ := h
  unfold HealthRecord.recordHealthEvent
  split
  · next hold => exact ⟨by grind, List.forall_mem_cons.mpr ⟨hold, hmax⟩⟩
  · next hnew =>
    refine ⟨.tail _ (.head _), List.forall_mem_cons.mpr ⟨.inr ⟨rfl, Nat.le_refl _⟩, fun f hf => ?_⟩⟩
    have := hmax f hf
    simp only [Upto] at this ⊢
    omega

theorem Inv.hook (h : x.Inv) (hg : o = x.record.hookOrigin → x.record.hookGen ≤ g)
    (hn : o < x.record.hookOrigin ∨ apply x.record.missed = n) :
    Inv { x with record := x.record.recordHeartbeat o g apply, loop := Function.update x.loop o (some (g, n)) } := by
  refine ⟨by simpa only [Retained, (recordHeartbeat_last _).2] using h.retained, ?_, ?_⟩ <;>
    simp only [HealthRecord.recordHeartbeat] <;> split
  · next hold =>
    intro o' l hl
    obtain ⟨rfl, rfl⟩ | ⟨-, hl⟩ := update_eq_some hl
    · exact .inl (by omega)
    · exact h.stamped o' l hl
  · next hnew =>
    intro o' l hl
    obtain ⟨rfl, rfl⟩ | ⟨hne, hl⟩ := update_eq_some hl
    · exact .inr ⟨rfl, by rw [hn.resolve_left fun ho => hnew (.inl ho)]⟩
    · have := h.stamped o' l hl
      exact .inl (by show o' < o; omega)
  · next hold =>
    rw [Function.update_of_ne (by omega)]
    exact h.begun
  · simp

theorem Inv.step (h : x.Inv) (hs : x.step a = some y) : y.Inv := by
  cases a with
  | attempt =>
    cases hs
    exact ⟨h.retained, h.stamped, h.begun⟩
  | relay e =>
    cases hs
    refine ⟨h.retained.relay e, ?_, ?_⟩ <;> simp only [HealthRecord.recordHealthEvent] <;> split
    exacts [h.stamped, h.stamped, h.begun, h.begun]
  | ok o g =>
    obtain ⟨⟨ho, hg⟩, ⟨⟩⟩ := guard_some hs
    refine h.hook (fun heq => ?_) (.inr rfl)
    cases hl : x.loop o with
    | none => have := h.begun (heq ▸ hl); omega
    | some l =>
      obtain hlt | ⟨-, rfl⟩ := h.stamped o l hl
      · omega
      · exact hg _ hl
  | miss o =>
    simp only [Health.step] at hs
    split at hs <;> cases hs
    next g n hl =>
    obtain hlt | ⟨-, heq⟩ := h.stamped o _ hl
    · exact h.hook (by omega) (.inl hlt)
    · cases heq
      exact h.hook (fun _ => Nat.le_refl _) (.inr rfl)

/-- **Snapshots are coherent** unless the count half has run ahead of the state half: the state is the greatest event's,
the revision counts its changes, and the misses are those of the instance it describes. -/
theorem health_coherent (h : Reach step Any {} x) :
    x.Retained ∧ (∀ a y, x.step a = some y → Revised x.record y.record) ∧
    (Upto x.record.hookOrigin x.record.hookGen x.record.last.origin x.record.last.gen →
      x.record.health.missedHeartbeats = x.misses x.record.last.origin x.record.last.gen) := by
  have hinv : x.Inv := h.invariant ⟨⟨.head _, by simp⟩, by simp, fun _ => ⟨rfl, rfl⟩⟩ fun hx _ hs => hx.step hs
  refine ⟨hinv.retained, fun a y => step_revised, fun hle => ?_⟩
  simp only [HealthRecord.health, HealthRecord.coherentMissed, misses, Upto] at hle ⊢
  cases hl : x.loop x.record.last.origin with
  | none =>
    have hb := hinv.begun
    split
    · rfl
    · have heq : x.record.last.origin = x.record.hookOrigin := by omega
      exact (hb (heq ▸ hl)).2
  | some l =>
    obtain hlt | ⟨heq, rfl⟩ := hinv.stamped _ l hl
    · omega
    · by_cases hg : x.record.hookGen = x.record.last.gen
      · simp [heq, hg, Option.filter]
      · rw [if_pos (by omega)]
        simp [hg, Option.filter]

/-- A `Ready` is applied, and its instance misses a beat. -/
def missing : Health Unit := (run step {} [.attempt, .ok 1 1, .relay ⟨some (), 1, 2, 1⟩, .miss 1]).get rfl

theorem health_coherent_missing : missing.record.health.missedHeartbeats = 1 ∧ missing.misses 1 1 = 1 :=
  ⟨((health_coherent (x := missing) (Reach.of_run (Option.some_get _).symm)).2.2 (.inr ⟨rfl, Nat.le_refl _⟩)).trans rfl, rfl⟩

/-- The instance is reloaded, and its successor misses a beat while the successor's `Ready` is with the relay. -/
def reloaded : Health Unit := (run step {} [.attempt, .ok 1 1, .relay ⟨some (), 1, 2, 1⟩, .ok 1 2, .miss 1]).get rfl

theorem successor_misses : Reach step Any {} reloaded ∧ reloaded.record.last.gen = 1 ∧
    reloaded.record.health.missedHeartbeats = 1 ∧ reloaded.misses 1 1 = 0 ∧ reloaded.misses 1 2 = 1 :=
  ⟨Reach.of_run (Option.some_get _).symm, rfl, rfl, rfl, rfl⟩

end Health

end Styx
