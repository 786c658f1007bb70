/-
When a stream of discards poisons the region (`internal/transport/shm/recovery.go`):
`EscalationPolicy`, fed the stale-generation discards, the consume faults and the
deliveries of one attachment.

The policy keeps a sliding window of times and a run counter. The rule it is held to
(`Poisons`) is about the whole history and mentions neither: what was discarded one
generation behind since the grace window ended, and what failed since the last delivery.
-/
import Mathlib.Data.List.Induction
import Mathlib.Tactic.Ring
import Styx.Shm.Writer

namespace Styx

open scoped List

structure EscalationConfig where
  graceWindow : Int
  rateWindow : Int
  rateThreshold : Int
  consumeFaultRunThreshold : Int
  deriving DecidableEq

/-- In nanoseconds. -/
def defaultGraceWindow : Int := 5 * 1000000000

def defaultSustainedRateWindow : Int := 1000000000

def defaultSustainedRateThreshold : Int := 20

def defaultConsumeFaultRunThreshold : Int := 1024

/-- The run counter is a `uint64` in the source, the same as long as fewer than `2 ^ 64` faults come in a row. -/
structure EscalationPolicy where
  cfg : EscalationConfig
  bumpedAt : Int
  recent : List Int
  consumeFaultRun : Nat
  deriving DecidableEq

/-- The unset fields filled in; a negative run threshold stands the escalation down and stays. -/
def EscalationConfig.filled (cfg : EscalationConfig) : EscalationConfig where
  graceWindow := if cfg.graceWindow ≤ 0 then defaultGraceWindow else cfg.graceWindow
  rateWindow := if cfg.rateWindow ≤ 0 then defaultSustainedRateWindow else cfg.rateWindow
  rateThreshold := if cfg.rateThreshold ≤ 0 then defaultSustainedRateThreshold else cfg.rateThreshold
  consumeFaultRunThreshold :=
    if cfg.consumeFaultRunThreshold = 0 then defaultConsumeFaultRunThreshold else cfg.consumeFaultRunThreshold

def newEscalationPolicy (cfg : EscalationConfig) (bumpedAt : Int) : EscalationPolicy := ⟨cfg.filled, bumpedAt, [], 0⟩

/-- How many restarts `stamp` is behind, the 32-bit difference read as signed. -/
def truncatedGenerationDelta (current : UInt64) (stamp : UInt32) : Int := (current.toUInt32 - stamp).toInt32.toInt

def evictBefore (events : List Int) (cutoff : Int) : List Int := events.dropWhile (· < cutoff)

namespace EscalationPolicy

variable {p : EscalationPolicy} {cfg : EscalationConfig} {t₀ now : Int}

/-- A stale discard; with the cause poisoned for, if any. -/
def observe (p : EscalationPolicy) (now : Int) (stamp : UInt32) (current : UInt64) :
    EscalationPolicy × Option PoisonCause :=
  let delta := truncatedGenerationDelta current stamp
  if delta = 0 then (p, none)
  else if delta < 0 ∨ delta ≥ 2 then (p, some .peerCrash)
  else if now - p.bumpedAt ≥ p.cfg.graceWindow then
    let recent := evictBefore (p.recent ++ [now]) (now - p.cfg.rateWindow)
    ({ p with recent := recent }, if (recent.length : Int) ≥ p.cfg.rateThreshold then some .peerCrash else none)
  else (p, none)

def observeConsumeFault (p : EscalationPolicy) (now : Int) : EscalationPolicy × Option PoisonCause :=
  if p.cfg.consumeFaultRunThreshold < 0 then (p, none)
  else
    let run := p.consumeFaultRun + 1
    ({ p with consumeFaultRun := run },
      if (run : Int) < p.cfg.consumeFaultRunThreshold then none
      else if now - p.bumpedAt ≥ p.cfg.graceWindow then some .generic
      else none)

def observeConsumeSuccess (p : EscalationPolicy) : EscalationPolicy :=
  if p.consumeFaultRun ≠ 0 then { p with consumeFaultRun := 0 } else p

/-- What the policy is fed; a discard is of a descriptor that generation `gen` stamped. -/
inductive Event
  | discard (now : Int) (gen current : UInt64)
  | fault (now : Int)
  | success
  deriving DecidableEq

def handle (p : EscalationPolicy) : Event → EscalationPolicy × Option PoisonCause
  | .discard now gen current => p.observe now gen.toUInt32 current
  | .fault now => p.observeConsumeFault now
  | .success => (p.observeConsumeSuccess, none)

/-- The policy after a history. -/
def after (p : EscalationPolicy) (past : List Event) : EscalationPolicy := past.foldl (fun p e => (p.handle e).1) p

/-! ## The rule, over histories -/

namespace Event

def behind (gen current : UInt64) : Int := (current.toNat : Int) - gen.toNat

/-- The generations are close enough for their truncations to tell them apart. -/
def Near : Event → Prop
  | discard _ gen current => -2 ^ 31 < behind gen current ∧ behind gen current < 2 ^ 31
  | fault _ | success => True

def isDiscard : Event → Bool
  | discard .. => true
  | fault _ | success => false

def isFault : Event → Bool
  | fault _ => true
  | discard .. | success => false

def discardedAt : Event → Option Int
  | discard now _ _ => some now
  | fault _ | success => none

/-- The time of a discard one behind, once the grace window that ends at `graceEnd` is over. -/
def lateAt (graceEnd : Int) : Event → Option Int
  | discard now gen current => if behind gen current = 1 ∧ graceEnd ≤ now then some now else none
  | fault _ | success => none

end Event

def late (cfg : EscalationConfig) (t₀ : Int) (past : List Event) : List Int :=
  past.filterMap (Event.lateAt (t₀ + cfg.graceWindow))

def faultRun (past : List Event) : Nat := (past.reverse.takeWhile (· ≠ .success)).countP Event.isFault

/-- **The discard escalation rule**: what each event poisons for, after a history. -/
def Poisons (cfg : EscalationConfig) (t₀ : Int) (past : List Event) : Event → PoisonCause → Prop
  | .discard now gen current, cause => cause = .peerCrash ∧
      (Event.behind gen current < 0 ∨ 2 ≤ Event.behind gen current ∨
        Event.behind gen current = 1 ∧ t₀ + cfg.graceWindow ≤ now ∧
          cfg.rateThreshold ≤ (late cfg t₀ (past ++ [.discard now gen current])).countP
            fun t => now - cfg.rateWindow ≤ t ∧ t ≤ now)
  | .fault now, cause => cause = .generic ∧ 0 ≤ cfg.consumeFaultRunThreshold ∧ t₀ + cfg.graceWindow ≤ now ∧
      cfg.consumeFaultRunThreshold ≤ faultRun past + 1
  | .success, _ => False

/-! ## The truncated distance and the window -/

/-- **The signed 32-bit difference is the true distance**, across the wrap. -/
theorem truncatedGenerationDelta_eq {gen current : UInt64} (h : (Event.discard now gen current).Near) :
    truncatedGenerationDelta current gen.toUInt32 = Event.behind gen current := by
  obtain ⟨hlo, hhi⟩ := h
  unfold Event.behind at *
  have hdiff : (current.toUInt32 - gen.toUInt32).toNat = (2 ^ 32 - gen.toNat % 2 ^ 32 + current.toNat % 2 ^ 32) % 2 ^ 32 := by
    simp [UInt32.toNat_sub]
  have hint : truncatedGenerationDelta current gen.toUInt32 =
      ((current.toUInt32 - gen.toUInt32).toNat : Int).bmod (2 ^ 32) :=
    BitVec.toInt_eq_toNat_bmod _
  rw [hint, hdiff, Int.bmod_def]
  omega

theorem evictBefore_eq_filter {l : List Int} (hl : l.Pairwise (· ≤ ·)) (cut : Int) :
    evictBefore l cut = l.filter (cut ≤ ·) := by
  induction l with
  | nil => rfl
  | cons x l ih =>
    obtain ⟨hx, hl⟩ := List.pairwise_cons.mp hl
    by_cases hc : x < cut
    · simp only [evictBefore, List.dropWhile_cons, decide_eq_true hc, if_true]
      rw [List.filter_cons_of_neg (by simpa using hc)]
      exact ih hl
    · have hall : ∀ y ∈ l, cut ≤ y := fun y hy => (Int.not_lt.mp hc).trans (hx y hy)
      simp only [evictBefore, List.dropWhile_cons, hc, decide_false, Bool.false_eq_true, if_false]
      rw [List.filter_cons_of_pos (by simpa using hc), List.filter_eq_self.mpr (by simpa using hall)]

theorem late_sublist (past : List Event) : late cfg t₀ past <+ past.filterMap Event.discardedAt := by
  induction past with
  | nil => exact List.Sublist.refl _
  | cons e past ih =>
    cases e with
    | discard now gen current =>
      by_cases hlate : Event.behind gen current = 1 ∧ t₀ + cfg.graceWindow ≤ now
      · simpa [late, Event.lateAt, Event.discardedAt, hlate] using ih
      · simpa [late, Event.lateAt, Event.discardedAt, hlate] using ih.cons now
    | fault | success => exact ih

/-! ## The state kept and the history -/

/-- What the policy keeps of a history: of the late discards, all that any later window can
count; and the length of the run. -/
structure Tracks (cfg : EscalationConfig) (t₀ : Int) (past : List Event) (p : EscalationPolicy) : Prop where
  config : p.cfg = cfg
  start : p.bumpedAt = t₀
  sub : p.recent <+ late cfg t₀ past
  recent : ∀ now, (∀ t ∈ late cfg t₀ past, t ≤ now) →
    p.recent.filter (now - cfg.rateWindow ≤ ·) = (late cfg t₀ past).filter (now - cfg.rateWindow ≤ ·)
  run : 0 ≤ cfg.consumeFaultRunThreshold → p.consumeFaultRun = faultRun past

variable {past : List Event} {e : Event}

theorem Tracks.new : Tracks cfg.filled t₀ [] (newEscalationPolicy cfg t₀) :=
  ⟨rfl, rfl, List.Sublist.refl _, fun _ _ => rfl, fun _ => rfl⟩

theorem faultRun_snoc : faultRun (past ++ [e]) =
    match e with
    | .success => 0
    | .fault _ => faultRun past + 1
    | .discard .. => faultRun past := by
  cases e <;> simp [faultRun, List.countP_cons, Event.isFault]

theorem Tracks.evict (h : Tracks cfg t₀ past p) (hsort : (late cfg t₀ past ++ [now]).Pairwise (· ≤ ·)) :
    evictBefore (p.recent ++ [now]) (now - cfg.rateWindow) =
      (late cfg t₀ past ++ [now]).filter (now - cfg.rateWindow ≤ ·) := by
  have hmax : ∀ t ∈ late cfg t₀ past, t ≤ now := fun t ht =>
    (List.pairwise_append.mp hsort).2.2 t ht now (List.mem_singleton_self now)
  rw [evictBefore_eq_filter (hsort.sublist (h.sub.append (List.Sublist.refl _))), List.filter_append, h.recent now hmax,
    ← List.filter_append]

theorem Tracks.quiet {n : Nat} (h : Tracks cfg t₀ past p) (hlate : Event.lateAt (t₀ + cfg.graceWindow) e = none)
    (hn : 0 ≤ cfg.consumeFaultRunThreshold → n = faultRun (past ++ [e])) :
    Tracks cfg t₀ (past ++ [e]) { p with consumeFaultRun := n } := by
  have hsame : late cfg t₀ (past ++ [e]) = late cfg t₀ past := by simp [late, hlate]
  exact ⟨h.config, h.start, hsame ▸ h.sub, hsame ▸ h.recent, hn⟩

/-- **One event**: the state keeps tracking the history, and what it poisons for is the rule. -/
theorem Tracks.step (h : Tracks cfg t₀ past p) (hnear : e.Near)
    (hmono : ((past ++ [e]).filterMap Event.discardedAt).Pairwise (· ≤ ·)) :
    Tracks cfg t₀ (past ++ [e]) (p.handle e).1 ∧ ∀ cause, (p.handle e).2 = some cause ↔ Poisons cfg t₀ past e cause := by
  obtain rfl := h.config
  obtain rfl := h.start
  cases e with
  | success =>
    have hrun : p.observeConsumeSuccess = { p with consumeFaultRun := 0 } := by
      unfold observeConsumeSuccess
      split
      · rfl
      · next hz => rw [← Decidable.not_not.mp hz]
    refine ⟨?_, fun cause => by simp [handle, Poisons]⟩
    simp only [handle, hrun]
    exact h.quiet rfl fun _ => by rw [faultRun_snoc]
  | fault now =>
    simp only [handle, observeConsumeFault, Poisons]
    split
    · next hoff => exact ⟨h.quiet rfl fun hon => absurd hon (by omega), fun cause => by simp; omega⟩
    · next hon =>
      have hrun := h.run (by omega)
      rw [hrun]
      refine ⟨h.quiet (e := .fault now) rfl fun _ => by rw [faultRun_snoc], fun cause => ?_⟩
      split
      · simp; omega
      · split
        · simp [eq_comm]; omega
        · simp; omega
  | discard now gen current =>
    have hdelta := truncatedGenerationDelta_eq hnear
    have hrun : 0 ≤ p.cfg.consumeFaultRunThreshold → p.consumeFaultRun = faultRun (past ++ [.discard now gen current]) :=
      fun hon => by rw [h.run hon, faultRun_snoc]
    simp only [handle, observe, hdelta, Poisons]
    split
    · next h0 => exact ⟨h.quiet (by simp [Event.lateAt, h0]) hrun, fun cause => by simp; omega⟩
    · next h0 =>
      split
      · next hfar => exact ⟨h.quiet (by simp [Event.lateAt]; omega) hrun, fun cause => by simp [eq_comm]; omega⟩
      · next hone =>
        have h1 : Event.behind gen current = 1 := by omega
        split
        · next hgrace =>
          have hsnoc : late p.cfg p.bumpedAt (past ++ [.discard now gen current]) = late p.cfg p.bumpedAt past ++ [now] := by
            simp [late, Event.lateAt, h1, show p.bumpedAt + p.cfg.graceWindow ≤ now by omega]
          have hsort : (late p.cfg p.bumpedAt past ++ [now]).Pairwise (· ≤ ·) := hsnoc ▸ hmono.sublist (late_sublist _)
          have hmax : ∀ t ∈ late p.cfg p.bumpedAt past ++ [now], t ≤ now := by
            simpa [or_imp, forall_and] using (List.pairwise_append.mp hsort).2.2
          have hcount : (late p.cfg p.bumpedAt past ++ [now]).countP (fun t => now - p.cfg.rateWindow ≤ t ∧ t ≤ now) =
              ((late p.cfg p.bumpedAt past ++ [now]).filter (now - p.cfg.rateWindow ≤ ·)).length := by
            rw [← List.countP_eq_length_filter]
            exact List.countP_congr fun t ht => by simp [hmax t ht]
          rw [h.evict hsort, hsnoc, hcount]
          refine ⟨⟨rfl, rfl, by rw [hsnoc]; exact List.filter_sublist, fun now' hnow' => ?_, hrun⟩, fun cause => ?_⟩
          · rw [hsnoc] at hnow' ⊢
            have hle := hnow' now (by simp)
            rw [List.filter_filter]
            exact List.filter_congr fun t _ => by simp; omega
          · generalize ((late p.cfg p.bumpedAt past ++ [now]).filter _).length = n
            split
            · simp [eq_comm]; omega
            · simp; omega
        · next hgrace => exact ⟨h.quiet (by simp [Event.lateAt]; omega) hrun, fun cause => by simp; omega⟩

theorem tracks_after (hnear : ∀ x ∈ past, x.Near) (hmono : (past.filterMap Event.discardedAt).Pairwise (· ≤ ·)) :
    Tracks cfg.filled t₀ past ((newEscalationPolicy cfg t₀).after past) := by
  induction past using List.reverseRecOn with
  | nil => exact .new
  | append_singleton past e ih =>
    simp only [after, List.foldl_append, List.foldl_cons, List.foldl_nil]
    refine ((ih (fun x hx => hnear x (by simp [hx])) ?_).step (hnear e (by simp)) hmono).1
    exact hmono.sublist ((List.sublist_append_left past [e]).filterMap _)

/-! ## The arms apart -/

theorem late_filter (past : List Event) : late cfg t₀ (past.filter (·.isDiscard)) = late cfg t₀ past := by
  unfold late
  rw [List.filterMap_filter]
  exact List.filterMap_congr fun e _ => by cases e <;> rfl

theorem faultRun_filter (past : List Event) : faultRun (past.filter (!·.isDiscard)) = faultRun past := by
  induction past using List.reverseRecOn with
  | nil => rfl
  | append_singleton past e ih =>
    rw [List.filter_append, faultRun_snoc]
    cases e with
    | discard => exact (congrArg faultRun (List.append_nil _)).trans ih
    | fault => exact faultRun_snoc.trans (congrArg (· + 1) ih)
    | success => exact faultRun_snoc

/-- The rule for an event reads the events of its own arm only. -/
theorem poisons_filter {cause : PoisonCause} :
    Poisons cfg t₀ (past.filter (·.isDiscard = e.isDiscard)) e cause ↔ Poisons cfg t₀ past e cause := by
  cases he : e.isDiscard with
  | true =>
    have happ : ∀ (l : List Event) x, late cfg t₀ (l ++ [x]) = late cfg t₀ l ++ late cfg t₀ [x] := fun l x =>
      List.filterMap_append
    simp only [Bool.decide_eq_true]
    cases e with
    | discard => simp only [Poisons, happ, late_filter]
    | fault | success => cases he
  | false =>
    simp only [Bool.decide_eq_false]
    cases e with
    | discard => cases he
    | fault => simp only [Poisons, faultRun_filter]
    | success => exact Iff.rfl

theorem poisons_after (hnear : ∀ x ∈ past ++ [e], x.Near)
    (hmono : ((past ++ [e]).filterMap Event.discardedAt).Pairwise (· ≤ ·)) (cause : PoisonCause) :
    (((newEscalationPolicy cfg t₀).after past).handle e).2 = some cause ↔ Poisons cfg.filled t₀ past e cause := by
  have hpast := hmono.sublist ((List.sublist_append_left past [e]).filterMap _)
  exact ((tracks_after (fun x hx => hnear x (by simp [hx])) hpast).step (hnear e (by simp)) hmono).2 cause

/-- **The discard escalation rule**: after any history, an event poisons for what the rule says,
and decides as it would had only the events of its own arm come before. -/
theorem escalation_rule (cfg : EscalationConfig) (t₀ : Int) (past : List Event) (e : Event)
    (hnear : ∀ x ∈ past ++ [e], x.Near) (hmono : ((past ++ [e]).filterMap Event.discardedAt).Pairwise (· ≤ ·)) :
    (∀ cause, (((newEscalationPolicy cfg t₀).after past).handle e).2 = some cause ↔ Poisons cfg.filled t₀ past e cause) ∧
      (((newEscalationPolicy cfg t₀).after (past.filter (·.isDiscard = e.isDiscard))).handle e).2 =
        (((newEscalationPolicy cfg t₀).after past).handle e).2 := by
  refine ⟨poisons_after hnear hmono, Option.ext fun cause => ?_⟩
  have hsub : past.filter (·.isDiscard = e.isDiscard) ++ [e] <+ past ++ [e] := List.filter_sublist.append (List.Sublist.refl _)
  rw [poisons_after hnear hmono, poisons_after (fun x hx => hnear x (hsub.subset hx)) (hmono.sublist (hsub.filterMap _))]
  exact poisons_filter

/-- The second discard of the last generation is one too many, across a wrap of its truncation;
the fault between the two counts for nothing. -/
theorem escalation_rule_second :
    let late : Event := .discard defaultGraceWindow 4294967295 4294967296
    (((newEscalationPolicy ⟨0, 0, 2, 0⟩ 0).after [late, .fault 0]).handle late).2 = some .peerCrash :=
  ((escalation_rule ⟨0, 0, 2, 0⟩ 0 [.discard defaultGraceWindow 4294967295 4294967296, .fault 0]
    (.discard defaultGraceWindow 4294967295 4294967296) (by simp [Event.Near, Event.behind]) (by decide)).1 .peerCrash).mpr
    ⟨rfl, .inr (.inr (by decide))⟩

end EscalationPolicy

end Styx
