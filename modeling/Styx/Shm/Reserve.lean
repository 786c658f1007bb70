/-
The lifecycle-lane reserve: `C − R` ring slots for data, `R` for CANCEL and
STREAM_ACK alone.

Attach refuses a configuration whose `MaxInflight` is above `C − R`
(`validateCapacityInvariant`), and that is the last time the number is read: the
writer pushes a data frame whenever the ring has a free slot. So the reserve is
not there by construction (`reserve_overrun`). It holds where the senders keep it: in
every run in which a data frame is handed in only while fewer than `C − R` of those
handed in before it are still to be consumed (`reserve_of_handIns`).
-/
import Styx.Shm.Traced

namespace Styx

open Sequence Machine

/-! ## The startup check -/

/-- What the capacity check reads of a region's layout. -/
structure Layout where
  ringCapacity : Nat
  lifecycleReserve : Nat
  /-- The largest slab of each direction. -/
  slabSizeLast : Bool → Nat

/-- What the capacity check reads of the negotiated configuration. -/
structure Config where
  maxInflight : Int
  maxPayload : Nat
  dataQueueDepth : Int
  lifecycleQueueDepth : Int
  checksum : Bool

/-- The check that failed; all of them are `ErrCapacity`. -/
inductive CapacityErr
  | maxInflight
  | dataQueueDepth
  | lifecycleQueueDepth
  | dataBudget (budget : Int)
  | payload (direction : Bool)
  deriving DecidableEq

def validateCapacityInvariant (cfg : Config) (layout : Layout) : Except CapacityErr Unit :=
  if cfg.maxInflight ≤ 0 then .error .maxInflight
  else if cfg.dataQueueDepth ≤ 0 then .error .dataQueueDepth
  else if cfg.lifecycleQueueDepth ≤ 0 then .error .lifecycleQueueDepth
  else
    let dataBudget : Int := layout.ringCapacity - layout.lifecycleReserve
    if cfg.maxInflight > dataBudget then .error (.dataBudget dataBudget)
    else
      let stored := cfg.maxPayload + if cfg.checksum then 4 else 0
      if stored > layout.slabSizeLast false then .error (.payload false)
      else if stored > layout.slabSizeLast true then .error (.payload true)
      else .ok ()

theorem reserve_lt_of_valid {cfg : Config} {layout : Layout} (h : validateCapacityInvariant cfg layout = .ok ()) :
    layout.lifecycleReserve < layout.ringCapacity := by
  simp only [validateCapacityInvariant] at h
  split at h
  · cases h
  split at h
  · cases h
  split at h
  · cases h
  split at h
  · cases h
  omega

/-! ## Lanes of descriptors -/

/-- The kinds that travel on the lifecycle lane. -/
def RingKind.descriptorOnly : RingKind → Bool
  | .cancel | .streamAck => true
  | _ => false

theorem mapKind_descriptorOnly {k : FrameKind} {chunking : Bool} {rk : RingKind} {b : Bool}
    (h : mapKind k chunking = some (rk, b)) : rk.descriptorOnly = b := by
  cases k <;> simp only [mapKind] at h <;> (try split at h) <;> cases h <;> rfl

namespace Ring

def dataOutstanding (r : Ring) : Nat := r.outstanding.countP (!·.kind.descriptorOnly)

def lifecycleOutstanding (r : Ring) : Nat := r.outstanding.countP (·.kind.descriptorOnly)

variable {r : Ring}

theorem lanes_add : r.dataOutstanding + r.lifecycleOutstanding = span r.head r.tail := by
  rw [← length_outstanding, List.length_eq_countP_add_countP (·.kind.descriptorOnly), Nat.add_comm]
  simp [dataOutstanding, lifecycleOutstanding]

theorem dataOutstanding_push {r' : Ring} {d : Descriptor} (h : r.push d = .ok r') :
    r'.dataOutstanding = r.dataOutstanding + if d.kind.descriptorOnly then 0 else 1 := by
  rw [dataOutstanding, outstanding_push h, List.countP_append]
  cases hd : d.kind.descriptorOnly <;> simp [dataOutstanding, hd]

theorem dataOutstanding_advance (h : r.head ≠ r.tail) :
    r.dataOutstanding = r.advance.dataOutstanding + if (r.desc r.head).kind.descriptorOnly then 0 else 1 := by
  rw [dataOutstanding, dataOutstanding, outstanding_advance h, List.countP_cons]
  cases (r.desc r.head).kind.descriptorOnly <;> rfl

end Ring

theorem BuiltFrom.descriptorOnly {ch ck : Bool} {i : Intent} {d : Descriptor} (h : BuiltFrom ch ck i d) :
    d.kind.descriptorOnly = (i.lane == .lifecycle) :=
  mapKind_descriptorOnly h.kind

/-! ## What senders are told -/

namespace Writer

variable {w w' : Writer} {i : Intent} {h : SlabHandle}

/-- The errors told so far. -/
def failures (w : Writer) : Nat := w.reports.countP (·.2.isSome)

@[simp] theorem failures_report {e : Option SendErr} : (w.report i e).failures = w.failures + e.isSome.toNat := by
  cases e <;> simp [failures, report, List.countP_append]

@[simp] theorem ring_report {e : Option SendErr} : (w.report i e).ring = w.ring := rfl

@[simp] theorem ring_setPoison {cause : PoisonCause} : (w.setPoison cause).ring = w.ring := rfl

@[simp] theorem failures_setPoison {cause : PoisonCause} : (w.setPoison cause).failures = w.failures := rfl

@[simp] theorem failures_freeSlab : (w.freeSlab h).failures = w.failures := by
  unfold freeSlab
  split <;> rfl

@[simp] theorem failures_freeSlab? {c : Option SlabHandle} : (w.freeSlab? c).failures = w.failures := by
  cases c <;> simp [freeSlab?]

theorem failures_reclaimLoop {n : Nat} : ∀ {w : Writer}, (reclaimLoop n w).failures = w.failures := by
  induction n with
  | zero => exact rfl
  | succ n ih =>
    intro w
    rw [reclaimLoop, ih, reclaimOne]
    split
    · exact failures_freeSlab
    · rfl

@[simp] theorem failures_reclaim {m : UInt64} : (w.reclaim m).failures = w.failures := by
  simp only [reclaim]
  split
  · rfl
  split
  · rfl
  · exact failures_reclaimLoop

@[simp] theorem failures_published {seq : UInt64} {ref : Option SlabHandle} :
    (w.published seq ref).failures = w.failures := by
  cases ref with
  | none => exact failures_reclaim
  | some g =>
    simp only [published]
    split
    · exact failures_freeSlab.trans failures_reclaim
    · exact failures_reclaim

/-- The frames a build gives up. -/
def BuildResult.lost : BuildResult → Nat
  | .failed => 1
  | _ => 0

/-- A build that gives a frame up tells its sender so, and no other build tells anything. -/
theorem failures_build {late : Bool} {r : BuildResult} (he : w.build i late = (w', r)) :
    w'.failures = w.failures + r.lost := by
  cases build_cases he with
  | refused => exact failures_report
  | bare | empty => rfl
  | stuck => exact failures_reclaim
  | unserved => exact failures_report.trans (congrArg (· + 1) failures_reclaim)
  | freed => exact failures_report.trans (congrArg (· + 1) (failures_freeSlab.trans failures_reclaim))
  | stamped =>
    unfold sealSlab
    split <;> exact failures_reclaim

end Writer

namespace Sys

variable {s t : Sys} {a : Act} {r : Ring} {ch ck : Bool} {C R : Nat}

/-! ## The reserve -/

/-- Data keeps to `C − R`, and a lifecycle push finds the ring full only when the
lifecycle lane itself fills its reserve. -/
def Reserved (R : Nat) (s : Sys) : Prop :=
  s.w.ring.dataOutstanding ≤ s.w.ring.capacity.toNat - R ∧
    ∀ i d, s.pc = .readyLifecycle i d → s.w.ring.push d = .error .full → R ≤ s.w.ring.lifecycleOutstanding

theorem RingStep.capacity (h : RingStep s a r) : r.capacity = s.w.ring.capacity := by
  cases h with
  | same h => rw [h]
  | consumed _ h => rw [h]; rfl
  | data d _ h | lifecycle i d _ h => rw [(Ring.push_ok h).2]; rfl

theorem RingStep.bounded (h : RingStep s a r) (hb : s.w.ring.Bounded) : r.Bounded := by
  have hpush : ∀ {d}, s.w.ring.push d = .ok r → r.Bounded := by
    intro d hp
    obtain ⟨hlt, rfl⟩ := Ring.push_ok hp
    have := s.w.ring.capacity_lt
    change span s.w.ring.head (s.w.ring.tail + 1) ≤ s.w.ring.capacity.toNat
    rw [span_succ (by omega)]
    omega
  cases h with
  | same h => rw [h]; exact hb
  | consumed hne h =>
    rw [h]
    have := span_front hne
    simp only [Ring.Bounded] at hb
    change span (s.w.ring.head + 1) s.w.ring.tail ≤ s.w.ring.capacity.toNat
    omega
  | data d _ h => exact hpush h
  | lifecycle i d _ h => exact hpush h

theorem Traced.ready_kind {Q : Intent → Prop} {c : Carry} {d : Descriptor} (hs : s.Traced Q ch ck)
    (hpc : s.pc = .ready c d) : d.kind.descriptorOnly = false := by
  obtain ⟨hl, -, -, hbf⟩ := hs.ready c d hpc
  rw [hbf.descriptorOnly]
  simpa using hl

def AnyIntent : Intent → Prop := fun _ => True

/-! ## Frames handed in -/

/-- The data frames the writer has in hand: the one set aside, and the one built. -/
def inHand (s : Sys) : Nat :=
  s.stuck.toList.length +
    match s.pc with
    | .ready _ _ => 1
    | _ => 0

/-- The data frames the writer takes from their queue; a stop drops those left in it. -/
def Act.taken : Act → Nat
  | .data _ _ => 1
  | _ => 0

def Act.dropped (queued : Nat) : Act → Nat
  | .stop => queued
  | _ => 0

/-- The data frames a step refuses: their senders are told an error. -/
def refuses (s : Sys) (a : Act) (t : Sys) : Nat :=
  match a, s.pc with
  | .lifecycle _, _ | .push, .readyLifecycle _ _ => 0
  | _, _ => t.w.failures - s.w.failures

/-- The data frames the consumer passes. -/
def consumes (s : Sys) : Act → Nat
  | .advance => if (s.w.ring.desc s.w.ring.head).kind.descriptorOnly then 0 else 1
  | _ => 0

attribute [local simp] inHand Act.taken refuses consumes

theorem Places.counts {c : Carry} {late : Bool} (hp : s.Places a c late) (hpc : s.pc = .idle) :
    s.inHand + a.taken = 1 ∧ s.consumes a = 0 ∧ ∀ t, s.refuses a t = t.w.failures - s.w.failures := by
  cases hp with
  | data hst | retry hst => simp [hst, hpc]

theorem Marked.keeps {w w' : Writer} (h : Marked w w') : w'.ring = w.ring ∧ w'.failures = w.failures := by
  rcases h with rfl | ⟨-, rfl⟩ <;> exact ⟨rfl, rfl⟩

/-- A placing step leaves its frame in hand or tells its sender. -/
theorem Places.settles {c : Carry} {late : Bool} {n : Nat} (hp : s.Places a c late) (hpc : s.pc = .idle)
    (hr : t.w.ring = s.w.ring) (hn : t.w.failures = s.w.failures + n) (hone : t.inHand + n = 1) :
    t.inHand + t.w.ring.dataOutstanding + s.refuses a t + s.consumes a =
      s.inHand + s.w.ring.dataOutstanding + a.taken := by
  obtain ⟨h1, h2, h3⟩ := hp.counts hpc
  rw [hr, h2, h3]
  omega

/-- **A step loses no data frame**: one it takes is in hand, in the ring, refused or consumed after it. -/
theorem Traced.settles (hs : s.Traced AnyIntent ch ck) (hi : s.Inv) (h : s.step a = some t) :
    t.inHand + t.w.ring.dataOutstanding + s.refuses a t + s.consumes a =
      s.inHand + s.w.ring.dataOutstanding + a.taken := by
  have halone : ∀ {c d}, s.pc = .ready c d → s.stuck = none := by
    intro c d hpc
    have := hi.slabs
    rw [hpc] at this
    exact this.1
  have hfree : ∀ (w : Writer) (c : Option SlabHandle), (w.freeSlab? c).ring = w.ring := fun _ c =>
    (Keeps.freed.freeSlab? .refl c).ring
  cases step_moves h with
  | lifecycle hpc _ hb | lifecycleFailed hpc _ hb =>
    simp [hpc, (Writer.build_frame hb).1.ring]
  | abandoned hpc hp =>
    exact hp.settles (n := 1) hpc (hfree _ _) (by simp) rfl
  | resumed hpc hp hd => exact hp.settles (n := 0) hpc rfl rfl rfl
  | failed hpc hp hd hb | waits hpc hp hd hb | built hpc hp hd hb =>
    exact hp.settles hpc (Writer.build_frame hb).1.ring (Writer.failures_build hb) rfl
  | refused e hpc hm =>
    simp [hpc, halone hpc, hm.keeps, hfree]
    omega
  | full hpc => simp [hpc, halone hpc]
  | pushed hpc hup hr =>
    have hcount := Ring.dataOutstanding_push hr
    rw [hs.ready_kind hpc] at hcount
    simp [hpc, hcount, Writer.failures]
    omega
  | refusedLifecycle e hpc hm => simp [hpc, hm.keeps]
  | pushedLifecycle hpc hup hr =>
    have hcount := Ring.dataOutstanding_push hr
    obtain ⟨hl, -, hbf⟩ := hs.readyLifecycle _ _ hpc
    have hk := hbf.descriptorOnly
    simp [hpc, hcount, hk, hl]
  | publish hpc =>
    simp [hpc, Keeps.published.ring]
  | drained hpc hst =>
    simp [hpc, hst, hfree]
    omega
  | stop hpc hst => simp [hpc, hst]
  | advance hne =>
    have hcount := Ring.dataOutstanding_advance hne
    simp [hcount, Writer.failures]
    omega
  | abandon hc => simp [hc]
  | poison cause => simp
  | shutdown => simp [Writer.failures]

end Sys

/-- The writer with its data queue and the senders that fill it. Ghost: the data frames handed in, consumed, and refused. -/
structure Senders where
  sys : Sys
  queued : Nat
  handed : Nat
  consumed : Nat
  refused : Nat

namespace Senders

inductive Act
  /-- A sender's frame enters the data queue. -/
  | handIn
  | sys (a : Sys.Act)

def step (x : Senders) : Act → Option Senders
  | .handIn => some { x with queued := x.queued + 1, handed := x.handed + 1 }
  | .sys a =>
    if a.taken ≤ x.queued then
      (x.sys.step a).map fun t =>
        { x with
          sys := t
          queued := x.queued - a.taken - a.dropped x.queued
          consumed := x.consumed + x.sys.consumes a
          refused := x.refused + x.sys.refuses a t + a.dropped x.queued }
    else none

variable {x y : Senders} {s : Sys} {a : Act} {C R : Nat}

/-- A data frame is handed in only while fewer than `C − R` of the earlier ones are neither consumed nor refused. -/
def Within (C R : Nat) (x : Senders) : Act → Prop
  | .handIn => x.handed < x.consumed + x.refused + (C - R)
  | .sys _ => True

instance : Decidable (Within C R x a) :=
  match a with
  | .handIn => inferInstanceAs (Decidable (_ < _))
  | .sys _ => inferInstanceAs (Decidable True)

/-- An attached writer before the first hand-in of a run: what its ring still holds was handed in before. -/
def start (s : Sys) : Senders := ⟨s, 0, s.w.ring.dataOutstanding, 0, 0⟩

/-- Every frame handed in is accounted for, and `C − R` at most are on their way. -/
structure Books (C R : Nat) (x : Senders) : Prop where
  traced : ∃ ch ck, x.sys.Traced Sys.AnyIntent ch ck
  inv : x.sys.Inv
  bounded : x.sys.w.ring.Bounded
  capacity : x.sys.w.ring.capacity.toNat = C
  account : x.handed = x.consumed + x.refused + x.queued + x.sys.inHand + x.sys.w.ring.dataOutstanding
  within : x.handed ≤ x.consumed + x.refused + (C - R)

theorem Books.start (h0 : s.Start) (hC : s.w.ring.capacity.toNat = C) (hd : s.w.ring.dataOutstanding ≤ C - R) :
    Books C R (start s) where
  traced := ⟨_, _, h0.traced⟩
  inv := h0.inv
  bounded := (h0.inv.between (.inl h0.pc)).bounded
  capacity := hC
  account := by simp [Senders.start, Sys.inHand, h0.stuck, h0.pc]
  within := by simpa [Senders.start] using hd

theorem Books.step (hx : Books C R x) (hg : Within C R x a) (h : x.step a = some y) : Books C R y := by
  obtain ⟨⟨ch, ck, ht⟩, hi, hb, hc, hacc, hw⟩ := hx
  cases a with
  | handIn =>
    cases h
    refine ⟨⟨ch, ck, ht⟩, hi, hb, hc, ?_, hg⟩
    simp only
    omega
  | sys a =>
    simp only [Senders.step] at h
    obtain ⟨hq, h⟩ := guard_some h
    obtain ⟨t, hstep, rfl⟩ := Option.map_eq_some_iff.mp h
    obtain ⟨hr, ht'⟩ := ht.step (fun _ _ _ _ => trivial) (fun _ _ => trivial) hstep
    have hset := ht.settles hi hstep
    have hdrop : a.taken + a.dropped x.queued ≤ x.queued := by
      cases a <;> simp_all [Sys.Act.taken, Sys.Act.dropped]
    refine ⟨⟨ch, ck, ht'⟩, hi.step hstep, hr.bounded hb, hr.capacity ▸ hc, ?_, ?_⟩
    · simp only
      omega
    · simp only
      omega

/-- The ring's data frames are among those on their way. -/
theorem Books.reserved (hx : Books C R x) (hR : R ≤ C) : x.sys.Reserved R := by
  have hd : x.sys.w.ring.dataOutstanding ≤ C - R := by
    have := hx.account
    have := hx.within
    omega
  refine ⟨by rw [hx.capacity]; exact hd, fun i d _ hp => ?_⟩
  have hfull := (Ring.push_error hx.bounded hp).2
  have hadd : x.sys.w.ring.dataOutstanding + x.sys.w.ring.lifecycleOutstanding = _ := Ring.lanes_add
  have hc := hx.capacity
  omega

/-- **The senders keep the reserve**: it holds throughout every run in which each data frame is handed in while fewer than
`C − R` of the earlier ones are unconsumed. -/
theorem reserve_of_handIns {cfg : Config} {layout : Layout} (hv : validateCapacityInvariant cfg layout = .ok ())
    (h0 : s.Start) (hC : s.w.ring.capacity.toNat = layout.ringCapacity)
    (hd : s.w.ring.dataOutstanding ≤ layout.ringCapacity - layout.lifecycleReserve)
    (hr : Reach step (Within layout.ringCapacity layout.lifecycleReserve) (start s) x) :
    x.sys.Reserved layout.lifecycleReserve := by
  have hx := hr.invariant (Books.start h0 hC hd) fun hx hg h => hx.step hg h
  exact hx.reserved (Nat.le_of_lt (reserve_lt_of_valid hv))

end Senders

namespace Sys

/-! ### The overrun -/

/-- A request without a payload: it takes no slab. -/
def emptyIntent : Intent :=
  { id := 0, lane := .data, wire := none, fill := none
    frame := { callID := 1, kind := .unaryReq, service := 2, method := 3, budget := 0, payload := [],
               status := none, control := 0 } }

def cancelIntent : Intent :=
  { id := 1, lane := .lifecycle, wire := none, fill := none
    frame := { callID := 1, kind := .cancel, service := 0, method := 0, budget := 0, payload := [],
               status := none, control := 0 } }

/-- Sixty-four slots, sixteen of them reserved, and eight frames in flight at most. -/
def smallLayout : Layout := ⟨64, 16, fun _ => 4096⟩
def smallConfig : Config := ⟨8, 4096, 1, 1, false⟩

/-- Sixty-four requests and then a CANCEL, before the consumer takes anything. -/
def overrunActs : List Act :=
  (List.replicate 64 [Act.data emptyIntent false, .push, .publish]).flatten ++ [.lifecycle cancelIntent]

def overrunEnd : Sys := (run step plainStart overrunActs).get (by decide +kernel)

/-- **The reserve is not kept**: in a run under an accepted configuration data
fills the whole ring, and the CANCEL that comes next is refused. -/
theorem reserve_overrun :
    ¬ ∀ (cfg : Config) (layout : Layout) (s t : Sys), validateCapacityInvariant cfg layout = .ok () → s.Start →
      s.w.ring.capacity.toNat = layout.ringCapacity →
      s.w.ring.dataOutstanding ≤ layout.ringCapacity - layout.lifecycleReserve →
      Reach step Any s t → Reserved layout.lifecycleReserve t := by
  intro h
  have hr : Reach step Any plainStart overrunEnd := Reach.of_run (Option.some_get _).symm
  have := (h smallConfig smallLayout plainStart overrunEnd (by decide) plainStart_start (by decide) (by decide) hr).1
  exact absurd this (by decide +kernel)

example : overrunEnd.w.ring.len = overrunEnd.w.ring.capacity ∧ overrunEnd.w.ring.lifecycleOutstanding = 0 := by
  decide +kernel

end Sys

/-- One request, handed in, published and consumed. -/
def handInActs : List Senders.Act :=
  .handIn :: [Sys.Act.data Sys.emptyIntent false, .push, .publish, .advance].map .sys

def handInEnd : Senders :=
  (run (guarded Senders.step (Senders.Within 64 16)) (.start Sys.plainStart) handInActs).get (by decide +kernel)

theorem reserve_of_handIns_sample : handInEnd.sys.Reserved 16 ∧ handInEnd.handed = 1 ∧ handInEnd.consumed = 1 :=
  ⟨Senders.reserve_of_handIns (show validateCapacityInvariant Sys.smallConfig Sys.smallLayout = .ok () by decide)
    Sys.plainStart_start (by decide) (by decide) (Reach.of_guarded (Option.some_get _).symm), by decide +kernel⟩

end Styx
