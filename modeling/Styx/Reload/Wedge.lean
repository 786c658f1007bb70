/-
When the wedge tracker fires (`wedgeTracker`, fed by `heartbeatLoop`), and what its
verdict proves.

A stall is a run of received samples with consecutive sequence numbers, all wedged in one
kind. Of the longest stall that ends at the last sample the tracker has the first number,
the last one and whether it has fired, and that is all a verdict needs (`Tracks`): the
span is taken in wrapping words, but it has fired before the difference could wrap.
-/
import Mathlib.Order.Bounds.Basic
import Mathlib.Tactic.Ring
import Styx.Reload.Supervision

namespace Styx

namespace Supervisor

/-! ## The window -/

variable {cadence window : Int}

theorem minHeartbeatSpacing_pos (h : 0 < cadence) : 0 < minHeartbeatSpacing cadence := by
  simp only [minHeartbeatSpacing, heartbeatSpacingToleranceDivisor, Int.tdiv_eq_ediv_of_nonneg (Int.le_of_lt h)]
  omega

theorem toNat_windowBeats (hwindow : 0 < window) (hlt : window < 2 ^ 63) (hcadence : 0 < cadence) :
    ((newWedgeTracker window cadence).windowBeats.toNat : Int) =
      (window + minHeartbeatSpacing cadence - 1) / minHeartbeatSpacing cadence := by
  have hs := minHeartbeatSpacing_pos hcadence
  generalize hsp : minHeartbeatSpacing cadence = s at hs
  have hdm := Int.mul_ediv_add_emod window s
  have hr := Int.emod_nonneg window (Int.ne_of_gt hs)
  have hrs := Int.emod_lt_of_pos window hs
  have hq : window / s ≤ window := Int.ediv_le_self s (Int.le_of_lt hwindow)
  have hq₀ : 0 ≤ window / s := Int.ediv_nonneg (Int.le_of_lt hwindow) (Int.le_of_lt hs)
  have hceil : (window + s - 1) / s = window / s + if window % s ≠ 0 then 1 else 0 := by
    split
    · next hne =>
      rw [show window + s - 1 = window % s - 1 + s * (window / s + 1) by rw [Int.mul_add]; omega,
        Int.add_mul_ediv_left _ _ (Int.ne_of_gt hs), Int.ediv_eq_zero_of_lt (by omega) (by omega), Int.zero_add]
    · next heq =>
      rw [show window + s - 1 = s - 1 + s * (window / s) by omega, Int.add_mul_ediv_left _ _ (Int.ne_of_gt hs),
        Int.ediv_eq_zero_of_lt (by omega) (by omega), Int.zero_add, Int.add_zero]
  simp only [newWedgeTracker, hsp, hwindow, hs, and_self, if_true, Int.tdiv_eq_ediv_of_nonneg (Int.le_of_lt hwindow),
    Int.tmod_eq_emod_of_nonneg (Int.le_of_lt hwindow), ← hceil]
  have hle : (window + s - 1) / s ≤ window / s + 1 := by rw [hceil]; split <;> omega
  have hge : 0 ≤ (window + s - 1) / s := by rw [hceil]; split <;> omega
  rw [UInt64.toNat_ofNat_of_lt' (by simp only [UInt64.size]; omega), Int.toNat_of_nonneg hge]

theorem le_mul_of_ceil_le {s n : Int} (hs : 0 < s) (h : (window + s - 1) / s ≤ n) : window ≤ n * s := by
  have hlt := Int.lt_ediv_add_one_mul_self (window + s - 1) hs
  have hmul : ((window + s - 1) / s + 1) * s ≤ (n + 1) * s := Int.mul_le_mul_of_nonneg_right (by omega) (Int.le_of_lt hs)
  rw [Int.add_mul n] at hmul
  omega

/-! ## The sender -/

/-- The heartbeats the sender builds on its ticks, each with the time it was built at. -/
def beats (h : HeartbeatSender) : List Int → List (UInt64 × Int)
  | [] => []
  | now :: ticks =>
    if h.due now then
      (UInt64.ofNat (h.seq + 1), now) :: beats { h with seq := h.seq + 1, lastBuilt := some now } ticks
    else beats h ticks

theorem spaced_beats (h : HeartbeatSender) (hs : 0 < minHeartbeatSpacing h.interval) (ticks : List Int) :
    (beats h ticks).Pairwise (fun a b => a.2 + minHeartbeatSpacing h.interval ≤ b.2) ∧
      ∀ last ∈ h.lastBuilt, ∀ b ∈ beats h ticks, last + minHeartbeatSpacing h.interval ≤ b.2 := by
  induction ticks generalizing h with
  | nil => exact ⟨.nil, nofun⟩
  | cons now ticks ih =>
    simp only [beats]
    split
    · next hdue =>
      obtain ⟨hpair, hlast⟩ := ih { h with seq := h.seq + 1, lastBuilt := some now } hs
      refine ⟨.cons (hlast now rfl) hpair, fun last hl b hb => ?_⟩
      have hnow : last + minHeartbeatSpacing h.interval ≤ now := by
        simp only [HeartbeatSender.due, Option.mem_def.1 hl, Option.all_some, decide_eq_true_eq] at hdue
        omega
      rcases List.mem_cons.1 hb with rfl | hb
      · exact hnow
      · have : now + minHeartbeatSpacing h.interval ≤ b.2 := hlast now rfl b hb
        have : 0 < minHeartbeatSpacing h.interval := hs
        omega
    · exact ih h hs

/-! ## Stalls -/

/-- What one instance's loop is fed. -/
structure Feed where
  window : Int
  senderCadence : Int
  highWater : UInt64
  sample : Nat → HeartbeatSample

namespace Feed

def verdict (F : Feed) (i : Nat) : HealthClass × WedgeKind := classify (F.sample i) (F.sample (i + 1)) F.highWater

/-- The tracker after the sample `i`, and whether it fires there; the first sample has none before it. -/
def tracked (F : Feed) : Nat → WedgeTracker × Option WedgeKind
  | 0 => (newWedgeTracker F.window F.senderCadence, none)
  | i + 1 => (tracked F i).1.observe (F.verdict i).1 (F.verdict i).2 (F.sample (i + 1)).sequence

def tracker (F : Feed) (i : Nat) : WedgeTracker := (F.tracked i).1

def fires (F : Feed) (i : Nat) : Option WedgeKind := (F.tracked i).2

def windowBeats (F : Feed) : UInt64 := (newWedgeTracker F.window F.senderCadence).windowBeats

def Wedged (F : Feed) (k : WedgeKind) : Nat → Prop
  | 0 => False
  | i + 1 => F.verdict i = (.wedged, k)

def Next (F : Feed) (i : Nat) : Prop := (F.sample (i + 1)).sequence = (F.sample i).sequence + 1

structure Stall (F : Feed) (k : WedgeKind) (j i : Nat) : Prop where
  le : j ≤ i
  wedged : ∀ m, j ≤ m → m ≤ i → F.Wedged k m
  next : ∀ m, j ≤ m → m < i → F.Next m

/-- The longest stall that ends at a sample. -/
def Longest (F : Feed) (k : WedgeKind) (j i : Nat) : Prop := IsLeast {j | F.Stall k j i} j

variable {F : Feed} {k k' : WedgeKind} {i j : Nat}

theorem Wedged.cases (h : F.Wedged k (i + 1)) :
    k = .transport ∧ (F.sample (i + 1)).descriptorsConsumedH2P = (F.sample i).descriptorsConsumedH2P ∧
      (F.sample (i + 1)).inboundReadable = true ∧ (F.sample (i + 1)).boundedReadActive = false ∨
    k = .dispatch ∧ (F.sample (i + 1)).descriptorsProducedP2H = (F.sample i).descriptorsProducedP2H := by
  simp only [Wedged, verdict, classify] at h
  split at h
  · next hc =>
    cases h
    simp only [Bool.and_eq_true, beq_iff_eq, Bool.not_eq_true'] at hc
    exact .inl ⟨rfl, hc.1.1, hc.1.2, hc.2⟩
  · split at h
    · next hc =>
      cases h
      simp only [Bool.and_eq_true, beq_iff_eq] at hc
      exact .inr ⟨rfl, hc.1⟩
    · split at h <;> cases h

theorem Wedged.unique (h : F.Wedged k i) (h' : F.Wedged k' i) : k = k' := by
  cases i with
  | zero => exact h.elim
  | succ i => exact congrArg Prod.snd ((h : F.verdict i = _).symm.trans h')

theorem Stall.last (h : F.Stall k j i) : F.Wedged k i := h.wedged i h.le (Nat.le_refl i)

theorem Stall.shorten (h : F.Stall k j (i + 1)) (hj : j ≤ i) : F.Stall k j i ∧ F.Next i :=
  ⟨⟨hj, fun m h₁ h₂ => h.wedged m h₁ (by omega), fun m h₁ h₂ => h.next m h₁ (by omega)⟩, h.next i hj (by omega)⟩

theorem Stall.extend (h : F.Stall k j i) (hw : F.Wedged k (i + 1)) (hs : F.Next i) : F.Stall k j (i + 1) := by
  refine ⟨by have := h.le; omega, fun m h₁ h₂ => ?_, fun m h₁ h₂ => ?_⟩
  · rcases Nat.lt_or_ge i m with hm | hm
    · obtain rfl : m = i + 1 := by omega
      exact hw
    · exact h.wedged m h₁ hm
  · rcases Nat.lt_or_ge m i with hm | hm
    · exact h.next m h₁ hm
    · obtain rfl : m = i := by omega
      exact hs

theorem Stall.sequence (h : F.Stall k j i) : (F.sample i).sequence - (F.sample j).sequence = UInt64.ofNat (i - j) := by
  have hadd : ∀ n, j + n ≤ i → (F.sample (j + n)).sequence = (F.sample j).sequence + UInt64.ofNat n := by
    intro n
    induction n with
    | zero => simp
    | succ n ih =>
      intro hn
      rw [← Nat.add_assoc, h.next (j + n) (by omega) (by omega), ih (by omega), UInt64.ofNat_add]
      exact UInt64.add_assoc _ _ _
  have := hadd (i - j) (by have := h.le; omega)
  rw [Nat.add_sub_cancel' h.le] at this
  rw [this, UInt64.add_comm, UInt64.add_sub_cancel]

theorem Longest.extend (h : F.Longest k j i) (hw : F.Wedged k (i + 1)) (hs : F.Next i) : F.Longest k j (i + 1) := by
  refine ⟨h.1.extend hw hs, fun j' hj' => ?_⟩
  rcases Nat.lt_or_ge i j' with hlt | hle
  · have := h.1.le
    omega
  · exact h.2 (Stall.shorten hj' hle).1

theorem Longest.begin (hw : F.Wedged k (i + 1)) (hnot : ∀ j, F.Stall k j i → ¬ F.Next i) : F.Longest k (i + 1) (i + 1) := by
  refine ⟨⟨Nat.le_refl _, fun m h₁ h₂ => ?_, fun m h₁ h₂ => by omega⟩, fun j' hj' => ?_⟩
  · obtain rfl : m = i + 1 := by omega
    exact hw
  · by_contra hlt
    obtain ⟨hst, hnext⟩ := Stall.shorten hj' (by omega)
    exact hnot j' hst hnext

/-! ## The tracker -/

theorem observe_wedged {w : WedgeTracker} {sequence : UInt64} (hk : k ≠ .none) : w.observe .wedged k sequence =
    if w.kind = k ∧ (w.haveSeq = true → sequence = w.lastSeq + 1) then
      if w.fired = false ∧ 0 < w.windowBeats ∧ w.windowBeats ≤ sequence - w.anchorSeq then
        ({ w with lastSeq := sequence, haveSeq := true, fired := true }, some k)
      else ({ w with lastSeq := sequence, haveSeq := true }, none)
    else ({ w with kind := k, anchorSeq := sequence, lastSeq := sequence, haveSeq := true, fired := false }, none) := by
  by_cases hgap : w.haveSeq = true ∧ sequence ≠ w.lastSeq + 1
  · simp [WedgeTracker.observe, WedgeTracker.clear, hgap.1, hgap.2, hk.symm]
  · have hnext : w.haveSeq = true → sequence = w.lastSeq + 1 := fun h => by_contra fun hs => hgap ⟨h, hs⟩
    have hcond : (w.haveSeq && sequence != w.lastSeq + 1) = false := by simpa using hnext
    by_cases hkind : w.kind = k
    · rw [if_pos ⟨hkind, hnext⟩]
      cases hf : w.fired <;> simp [WedgeTracker.observe, hcond, hkind, hf]
    · rw [if_neg (fun h => hkind h.1)]
      simp [WedgeTracker.observe, hcond, hkind]

def Fired (F : Feed) (j i : Nat) : Prop := ∃ m, j ≤ m ∧ m ≤ i ∧ F.fires m ≠ none

/-- What the tracker has of the longest stall, which began at `j`. -/
structure Tracks (F : Feed) (i j : Nat) : Prop where
  longest : F.Longest (F.tracker i).kind j i
  haveSeq : (F.tracker i).haveSeq = true
  lastSeq : (F.tracker i).lastSeq = (F.sample i).sequence
  anchorSeq : (F.tracker i).anchorSeq = (F.sample j).sequence
  fired : (F.tracker i).fired = true ↔ F.Fired j i
  short : (F.tracker i).fired = false → i - j < F.windowBeats.toNat

/-- Between stalls it has nothing. -/
def Inv (F : Feed) (i : Nat) : Prop :=
  (F.tracker i).windowBeats = F.windowBeats ∧
    ((F.tracker i).kind = .none ∧ (∀ k j, ¬ F.Stall k j i) ∨ ∃ j, F.Tracks i j)

/-- It fires at a sample iff the stall there is long enough and none of it has fired. -/
def Exact (F : Feed) (i : Nat) : Prop :=
  ∀ k, F.fires i = some k ↔ ∃ j, F.Longest k j i ∧ F.windowBeats.toNat ≤ i - j ∧ ∀ m, j ≤ m → m < i → F.fires m = none

theorem fired_succ (hj : j ≤ i + 1) : F.Fired j (i + 1) ↔ F.Fired j i ∨ F.fires (i + 1) ≠ none := by
  constructor
  · rintro ⟨m, h₁, h₂, h₃⟩
    rcases Nat.lt_or_ge i m with hm | hm
    · obtain rfl : m = i + 1 := by omega
      exact .inr h₃
    · exact .inl ⟨m, h₁, hm, h₃⟩
  · rintro (⟨m, h₁, h₂, h₃⟩ | hne)
    · exact ⟨m, h₁, by omega, h₃⟩
    · exact ⟨i + 1, hj, Nat.le_refl _, hne⟩

/-- The tracker's own test, on a stall that goes on, is the test of its length. -/
theorem Tracks.reached (h : F.Tracks i j) (hbeats : (F.tracker i).windowBeats = F.windowBeats) (hpos : 0 < F.windowBeats)
    (hlong : F.Longest (F.tracker i).kind j (i + 1)) :
    (F.tracker i).fired = false ∧ 0 < (F.tracker i).windowBeats ∧
      (F.tracker i).windowBeats ≤ (F.sample (i + 1)).sequence - (F.tracker i).anchorSeq ↔
    (F.tracker i).fired = false ∧ F.windowBeats.toNat ≤ i + 1 - j := by
  refine and_congr_right fun hf => ?_
  -- Not fired, the stall is no longer than the window, and its length is a word.
  have hshort := h.short hf
  have hlt := F.windowBeats.toNat_lt
  have hlen : (UInt64.ofNat (i + 1 - j)).toNat = i + 1 - j := UInt64.toNat_ofNat_of_lt' (by simp only [UInt64.size]; omega)
  rw [h.anchorSeq, hlong.1.sequence, hbeats, UInt64.le_iff_toNat_le, hlen]
  exact and_iff_right hpos

theorem Tracks.exact (h : F.Tracks i j)
    (hv : F.fires i = some (F.tracker i).kind ∧ F.windowBeats.toNat ≤ i - j ∧ (∀ m, j ≤ m → m < i → F.fires m = none) ∨
      F.fires i = none ∧ (F.windowBeats.toNat ≤ i - j → ∃ m, j ≤ m ∧ m < i ∧ F.fires m ≠ none)) : F.Exact i := by
  intro k
  rcases hv with ⟨hv, hlen, hno⟩ | ⟨hv, hyes⟩ <;> rw [hv]
  · refine ⟨fun hk => ⟨j, Option.some.inj hk ▸ h.longest, hlen, hno⟩, fun ⟨j', hl, _⟩ => ?_⟩
    rw [h.longest.1.last.unique hl.1.last]
  · refine ⟨nofun, fun ⟨j', hl, hlen, hno⟩ => ?_⟩
    obtain rfl := h.longest.1.last.unique hl.1.last
    obtain rfl := hl.unique h.longest
    obtain ⟨m, h₁, h₂, hm⟩ := hyes hlen
    exact absurd (hno m h₁ h₂) hm

theorem Inv.next (h : F.Inv i) (hpos : 0 < F.windowBeats) : F.Inv (i + 1) ∧ F.Exact (i + 1) := by
  obtain ⟨hbeats, hinv⟩ := h
  have htracked : F.tracked (i + 1) = (F.tracker i).observe (F.verdict i).1 (F.verdict i).2 (F.sample (i + 1)).sequence := rfl
  have hfires : F.fires (i + 1) = (F.tracked (i + 1)).2 := rfl
  rcases hcls : F.verdict i with ⟨cls, k⟩
  rw [hcls] at htracked
  by_cases hwedged : cls = .wedged
  · subst hwedged
    have hw : F.Wedged k (i + 1) := hcls
    have hk : k ≠ .none := by rcases hw.cases with ⟨rfl, -⟩ | ⟨rfl, -⟩ <;> simp
    rw [observe_wedged hk] at htracked
    by_cases hgoes : (F.tracker i).kind = k ∧
        ((F.tracker i).haveSeq = true → (F.sample (i + 1)).sequence = (F.tracker i).lastSeq + 1)
    · obtain ⟨rfl, hnext⟩ := hgoes
      obtain ⟨j, ht⟩ : ∃ j, F.Tracks i j := hinv.resolve_left fun h => hk h.1
      have hlong := ht.longest.extend hw (by rw [Next, hnext ht.haveSeq, ht.lastSeq])
      have hj : j ≤ i + 1 := hlong.1.le
      rw [if_pos ⟨rfl, hnext⟩] at htracked
      simp only [ht.reached hbeats hpos hlong] at htracked
      split at htracked
      · next hc =>
        have hv := hfires.trans (congrArg Prod.snd htracked)
        have ht' : F.Tracks (i + 1) j := by
          constructor <;> rw [tracker, htracked]
          · exact hlong
          · exact ht.anchorSeq
          · simp [fired_succ hj, hv]
          · simp
        refine ⟨⟨by rw [tracker, htracked]; exact hbeats, .inr ⟨j, ht'⟩⟩, ht'.exact (.inl ⟨?_, hc.2, fun m h₁ h₂ => ?_⟩)⟩
        · rw [hfires, tracker, htracked]
        · by_contra hm
          simp [ht.fired.2 ⟨m, h₁, by omega, hm⟩] at hc
      · next hc =>
        have hv := hfires.trans (congrArg Prod.snd htracked)
        have ht' : F.Tracks (i + 1) j := by
          constructor <;> rw [tracker, htracked]
          · exact hlong
          · exact ht.anchorSeq
          · rw [fired_succ hj, hv]
            simpa using ht.fired
          · exact fun hf => Nat.lt_of_not_le fun hle => hc ⟨hf, hle⟩
        refine ⟨⟨by rw [tracker, htracked]; exact hbeats, .inr ⟨j, ht'⟩⟩, ht'.exact (.inr ⟨hv, fun hlen => ?_⟩)⟩
        obtain ⟨m, h₁, h₂, hm⟩ := ht.fired.1 (by by_contra hf; exact hc ⟨by simpa using hf, hlen⟩)
        exact ⟨m, h₁, by omega, hm⟩
    · rw [if_neg hgoes] at htracked
      have hv := hfires.trans (congrArg Prod.snd htracked)
      have hlong : F.Longest k (i + 1) (i + 1) := by
        refine .begin hw fun j hj hs => ?_
        rcases hinv with ⟨-, hno⟩ | ⟨j', ht⟩
        · exact hno k j hj
        · exact hgoes ⟨ht.longest.1.last.unique hj.last, fun _ => ht.lastSeq ▸ hs⟩
      have hbeats' : 0 < F.windowBeats.toNat := hpos
      have ht' : F.Tracks (i + 1) (i + 1) := by
        constructor <;> rw [tracker, htracked]
        · exact hlong
        · rw [fired_succ (Nat.le_refl _), hv]
          simp only [Bool.false_eq_true, Fired, ne_eq, not_true_eq_false, or_false, false_iff, not_exists]
          omega
        · intro
          omega
      exact ⟨⟨by rw [tracker, htracked]; exact hbeats, .inr ⟨_, ht'⟩⟩, ht'.exact (.inr ⟨hv, by omega⟩)⟩
  · have hobs : F.tracked (i + 1) = ((F.tracker i).clear, none) := by
      rw [htracked]
      simp only [WedgeTracker.observe, hwedged, ne_eq, not_false_eq_true, if_true]
      split <;> rfl
    have hno : ∀ k j, ¬ F.Stall k j (i + 1) := fun k' j hst => hwedged (congrArg Prod.fst (hcls.symm.trans hst.last))
    refine ⟨⟨by rw [tracker, hobs]; exact hbeats, .inl ⟨by rw [tracker, hobs]; rfl, hno⟩⟩, fun k' => ?_⟩
    rw [hfires, hobs]
    exact ⟨nofun, fun ⟨j, hl, _⟩ => (hno k' j hl.1).elim⟩

theorem inv_tracked (hpos : 0 < F.windowBeats) : ∀ i, F.Inv i ∧ F.Exact i
  | 0 => ⟨⟨rfl, .inl ⟨rfl, fun _ _ h => h.last⟩⟩, fun _ => ⟨nofun, fun ⟨_, hl, _⟩ => hl.1.last.elim⟩⟩
  | i + 1 => (inv_tracked hpos i).1.next hpos

/-- The samples up to `n` are those of the sender's heartbeats that arrived, in the order it built
them; `built` has the sender's own times. -/
def Received (F : Feed) (ticks : List Int) (built : Nat → Int) (n : Nat) : Prop :=
  ((List.range (n + 1)).map fun m => ((F.sample m).sequence, built m)).Sublist (beats ⟨F.senderCadence, 0, none, .waiting⟩ ticks)

theorem Received.elapsed {ticks : List Int} {built : Nat → Int} (h : F.Received ticks built i) (hcadence : 0 < F.senderCadence)
    (hj : j ≤ i) : built j + (i - j : Nat) * minHeartbeatSpacing F.senderCadence ≤ built i := by
  have hpair := (spaced_beats ⟨F.senderCadence, 0, none, .waiting⟩ (minHeartbeatSpacing_pos hcadence) ticks).1.sublist h
  rw [List.pairwise_map] at hpair
  have hnext : ∀ m, m < i → built m + minHeartbeatSpacing F.senderCadence ≤ built (m + 1) := fun m hm => by
    have := List.pairwise_iff_getElem.1 hpair m (m + 1) (by simp; omega) (by simp; omega) (by omega)
    simpa using this
  have hadd : ∀ n, j + n ≤ i → built j + (n : Int) * minHeartbeatSpacing F.senderCadence ≤ built (j + n) := fun n => by
    induction n with
    | zero => simp
    | succ n ih =>
      intro hn
      have := ih (by omega)
      have := hnext (j + n) (by omega)
      rw [Int.natCast_succ, Int.add_mul, Int.one_mul, ← Nat.add_assoc]
      omega
  have := hadd (i - j) (by omega)
  rwa [Nat.add_sub_cancel' hj] at this

/-! ## Verdicts -/

/-- The counter a stall of the kind is told by. -/
def counter (F : Feed) : WedgeKind → Nat → UInt64
  | .none, _ => 0
  | .transport, m => (F.sample m).descriptorsConsumedH2P
  | .dispatch, m => (F.sample m).descriptorsProducedP2H

theorem Stall.frozen (h : F.Stall k (j + 1) i) : ∀ m, j ≤ m → m ≤ i → F.counter k m = F.counter k j := by
  intro m hj
  induction m, hj using Nat.le_induction with
  | base => exact fun _ => rfl
  | succ m hj ih =>
    intro hm
    refine Eq.trans ?_ (ih (by omega))
    rcases (h.wedged (m + 1) (by omega) hm).cases with ⟨rfl, hc, -⟩ | ⟨rfl, hc⟩ <;> exact hc

/-- **Wedge verdicts are exact and sound.** The tracker fires at a sample iff the longest stall
there spans the window, rounded up to spacings, and has not fired; then the stall lasted the
window on the sender's clock, with its counter frozen since the sample before it. -/
theorem wedge_verdicts (F : Feed) (hwindow : 0 < F.window) (hlt : F.window < 2 ^ 63) (hcadence : 0 < F.senderCadence)
    (ticks : List Int) (built : Nat → Int) (i : Nat) (k : WedgeKind) (hreceived : F.Received ticks built i) :
    (F.fires i = some k ↔ ∃ j, F.Longest k j i ∧
      (F.window + minHeartbeatSpacing F.senderCadence - 1) / minHeartbeatSpacing F.senderCadence ≤ (i - j : Nat) ∧
      ∀ m, j ≤ m → m < i → F.fires m = none) ∧
    ∀ j, F.fires i = some k → F.Longest k j i →
      F.window ≤ built i - built j ∧ 0 < j ∧ (∃ c, ∀ m, j - 1 ≤ m → m ≤ i → F.counter k m = c) ∧
      (k = .transport → ∀ m, j ≤ m → m ≤ i → (F.sample m).inboundReadable = true ∧ (F.sample m).boundedReadActive = false) := by
  have hs := minHeartbeatSpacing_pos hcadence
  have hbeats : (F.windowBeats.toNat : Int) = _ := toNat_windowBeats hwindow hlt hcadence
  have hpos : 0 < F.windowBeats := by
    by_contra hzero
    have : F.windowBeats.toNat = 0 := by simpa [UInt64.lt_iff_toNat_lt] using hzero
    have : F.window ≤ 0 * minHeartbeatSpacing F.senderCadence := le_mul_of_ceil_le hs (by omega)
    omega
  have hexact := (inv_tracked hpos i).2 k
  rw [← hbeats]
  simp only [Int.ofNat_le]
  refine ⟨hexact, fun j hfires hl => ?_⟩
  obtain ⟨j', hl', hlen, -⟩ := hexact.1 hfires
  obtain rfl : j = j' := hl.unique hl'
  obtain ⟨j, rfl⟩ : ∃ j', j = j' + 1 := by
    cases j with
    | zero => exact (hl.1.wedged 0 (Nat.le_refl _) (Nat.zero_le _)).elim
    | succ j => exact ⟨j, rfl⟩
  refine ⟨?_, Nat.succ_pos j, ⟨F.counter k j, hl.1.frozen⟩, ?_⟩
  · have helapsed := hreceived.elapsed hcadence hl.1.le
    have := le_mul_of_ceil_le hs (hbeats ▸ Int.ofNat_le.2 hlen)
    omega
  · rintro rfl m hj hm
    obtain ⟨m, rfl⟩ : ∃ m', m = m' + 1 := ⟨m - 1, by omega⟩
    rcases (hl.1.wedged (m + 1) hj hm).cases with ⟨-, -, h⟩ | ⟨h, -⟩
    · exact h
    · cases h

/-- A consumer that has stopped with input waiting. -/
def stalled : Feed := ⟨2, 1, defaultHighWaterBytes, fun m => ⟨UInt64.ofNat (m + 1), 7, 0, 0, 0, true, false⟩⟩

theorem wedge_verdicts_stalled :
    stalled.fires 3 = some .transport ∧ ∃ j, stalled.Longest .transport j 3 ∧ (2 : Int) ≤ 3 - j := by
  have hreceived : stalled.Received [0, 1, 2, 3] (fun m => m) 3 := by unfold Received; decide
  have hfires : stalled.fires 3 = some .transport := by decide
  have hv := wedge_verdicts stalled (by decide) (by decide) (by decide) [0, 1, 2, 3] (fun m => m) 3 .transport hreceived
  obtain ⟨j, hl, -⟩ := hv.1.1 hfires
  exact ⟨hfires, j, hl, (hv.2 j hfires hl).1⟩

end Feed

end Supervisor

end Styx
