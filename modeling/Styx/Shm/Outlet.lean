/-
One frame across one direction of a region: what `build` puts into a slot and a slab, and
what the peer at the other end makes of it.

The two ways a payload reaches its slab (the wire's bytes copied, or a fill callback
writing in place) are one here: `build_live` shows that a build that is not abandoned is
`buildBody`, which knows of the frame only.
-/
import Styx.Shm.Receive
import Styx.Shm.Slabs

namespace Styx

open ByteMem Sequence

/-! ## What a direction carries -/

/-- What arrives of a frame: the two payload-less kinds bring their call, kind and
control word; an error kind its status (nil as the zero one), every other kind its payload. -/
def Frame.carried (f : Frame) : Frame :=
  if laneOf f.kind = .lifecycle then
    { callID := f.callID, kind := f.kind, service := 0, method := 0, budget := 0, payload := [], status := none,
      control := f.control }
  else if carriesStatusBody f.kind then { f with payload := [], status := some (f.status.getD .zero) }
  else { f with status := none }

/-- The `Frame` contract: a status on the error kinds, a payload on every other. -/
def Frame.OneBody (f : Frame) : Prop :=
  if carriesStatusBody f.kind then f.payload = [] ∧ f.status.isSome else f.status = none

theorem Frame.carried_eq {f : Frame} (h : f.OneBody) (hl : laneOf f.kind ≠ .lifecycle) : f.carried = f := by
  obtain ⟨callID, kind, service, method, budget, payload, status, control⟩ := f
  simp only [OneBody] at h
  simp only [carried]
  rw [if_neg hl]
  split at h
  · next hs =>
    obtain ⟨rfl, hst⟩ := h
    obtain ⟨st, rfl⟩ := Option.isSome_iff_exists.mp hst
    simp [hs]
  · next hs => simp [hs, h]

/-! ## The two ends of a direction -/

/-- The settings both sides share, and the sender's own ceiling. -/
structure Settings where
  checksum : Bool
  chunkingActive : Bool
  maxPayload : UInt32

/-- The largest slab of a direction; a validated table is not empty. -/
def slabSizeLast (g : Region.ArenaGeometry) : UInt32 :=
  match g.classes[g.classes.length - 1]? with
  | some c => c.slabSize
  | none => 0

namespace Settings

def overhead (cfg : Settings) : UInt32 := if cfg.checksum then 4 else 0

def sendLimit (cfg : Settings) (g : Region.ArenaGeometry) : UInt32 :=
  let maxPayload := slabSizeLast g - cfg.overhead
  if cfg.maxPayload ≠ 0 ∧ cfg.maxPayload < maxPayload then cfg.maxPayload else maxPayload

def inlet (cfg : Settings) (g : Region.ArenaGeometry) (gen : UInt32) : Inlet where
  classes := g.classes.map Region.SizeClass.toArena
  gen := gen
  checksum := cfg.checksum
  chunkingActive := cfg.chunkingActive
  maxRecvPayload := slabSizeLast g - cfg.overhead

end Settings

/-- The sending end: a writer over a direction's arena. -/
structure Writer.Outlet (cfg : Settings) (g : Region.ArenaGeometry) (w : Writer) : Prop where
  checksum : w.checksum = cfg.checksum
  chunkingActive : w.chunkingActive = cfg.chunkingActive
  maxStored : w.maxStored = slabSizeLast g
  classes : w.arena.table.classes = g.classes.map Region.SizeClass.toArena
  generation : w.arena.generation = w.gen
  zero : w.arena.ZeroKept

/-- An intent for a frame of an implemented kind on its own lane, within the
limit, its budget not negative; a fill callback writes the frame's wire bytes. -/
structure Intent.Conveys (cfg : Settings) (g : Region.ArenaGeometry) (i : Intent) : Prop where
  kind : (mapKind i.frame.kind cfg.chunkingActive).isSome
  lane : i.lane = laneOf i.frame.kind
  limit : (wirePayload i.frame).length ≤ (cfg.sendLimit g).toNat
  budget : 0 ≤ i.frame.budget
  duration : IsInt64 i.frame.budget
  wire : ∀ b ∈ i.wire, b = wirePayload i.frame
  fill : ∀ p ∈ i.fill, i.lane ≠ .lifecycle ∧ p.size = (wirePayload i.frame).length ∧
    (wirePayload i.frame ≠ [] → p.fn (wirePayload i.frame).length = (wirePayload i.frame, .ok))

/-! ### Limits -/

namespace Region.ArenaRules

variable {g : ArenaGeometry}

theorem last (h : ArenaRules g) : ∃ c, g.classes[g.classes.length - 1]? = some c ∧ slabSizeLast g = c.slabSize ∧
    4096 ≤ c.slabSize.toNat := by
  have hpos : 0 < g.classes.length := List.length_pos_of_ne_nil h.slabs.nonempty
  obtain ⟨c, hc⟩ : ∃ c, g.classes[g.classes.length - 1]? = some c := ⟨_, List.getElem?_eq_getElem (by omega)⟩
  exact ⟨c, hc, by simp only [slabSizeLast, hc], UInt32.le_iff_toNat_le.mp (h.slabs.largest c hc)⟩

theorem overhead_le (h : ArenaRules g) (cfg : Settings) :
    (slabSizeLast g - cfg.overhead).toNat + cfg.overhead.toNat = (slabSizeLast g).toNat := by
  obtain ⟨c, -, hlast, hc⟩ := h.last
  have hle : cfg.overhead.toNat ≤ 4 := by
    simp only [Settings.overhead]
    split <;> simp
  rw [UInt32.toNat_sub_of_le _ _ (UInt32.le_iff_toNat_le.mpr (by rw [hlast]; omega)), hlast]
  omega

/-- What `Send` admits fits the largest slab, trailer and all. -/
theorem sendLimit_le (cfg : Settings) :
    (cfg.sendLimit g).toNat ≤ (slabSizeLast g - cfg.overhead).toNat := by
  simp only [Settings.sendLimit]
  split
  · next hlt => exact Nat.le_of_lt (UInt32.lt_iff_toNat_lt.mp hlt.2)
  · exact Nat.le_refl _

theorem serves (h : ArenaRules g) {n : Nat} (hn : n ≤ (slabSizeLast g).toNat) :
    ∃ ci, selectClass (g.classes.map SizeClass.toArena) n = some ci := by
  obtain ⟨c, hc, hlast, -⟩ := h.last
  rw [← Option.isSome_iff_exists, selectClass, List.findIdx?_isSome, List.any_eq_true]
  refine ⟨c.toArena, List.mem_map_of_mem (List.mem_of_getElem? hc), decide_eq_true ?_⟩
  rw [hlast] at hn
  exact hn

end Region.ArenaRules

/-! ## A slab the peer accepts -/

namespace Inlet

variable {c : Inlet} {mem : Nat → UInt8} {d : Descriptor}

theorem slab_eq_some {ci idx : Nat} {sc : SizeClass} (hpos : ∀ sc ∈ c.classes, 0 < sc.slabSize)
    (hoff : d.payloadOffset ≠ 0) (hseq : d.allocSeq ≠ 0) (hlen : d.storedLen ≠ 0) (hlt : d.storedLen < 2 ^ 32)
    (hmax : d.payloadLength ≤ c.maxRecvPayload)
    (hs : SlabAt c.classes d.payloadOffset.toNat d.storedLen ci idx sc) :
    c.slab d = .ok (some d.payloadOffset.toNat) :=
  slab_some_iff.mpr ⟨rfl, hlen, hoff, hseq, hmax, (slabInClass_iff hpos).mpr ⟨hlt, ci, idx, sc, hs⟩⟩

theorem payloadBytes_of {off : Nat} {body : Bytes} (hs : c.slab d = .ok (some off))
    (hlen : d.payloadLength.toNat = body.length) (hread : readBytes mem off body.length = body)
    (hcrc : d.hasCRC = true → getLE mem (off + body.length) crc32TrailerLen = (crc32c body).toNat) (view : Bool) :
    ∃ span, c.payloadBytes mem d view = .ok span ∧ span.bytes mem = body := by
  simp only [payloadBytes, hs, hlen, hread]
  by_cases hc : d.hasCRC = true
  · rw [hcrc hc]
    exact ⟨.copied body, by simp [hc], rfl⟩
  · cases view with
    | true => exact ⟨.view off body.length, by simp [hc], hread⟩
    | false => exact ⟨.copied body, by simp [hc], rfl⟩

end Inlet

/-! ## Build, without the payload's mode -/

/-- The intent after its fill was claimed. -/
def Intent.claimed (i : Intent) : Intent := { i with fill := i.fill.map fun p => { p with state := .filling } }

namespace Arena

variable {a : Arena} {off : Nat} {bytes : Bytes}

theorem store_outside {x : Nat} (h : x < off ∨ off + bytes.length ≤ x) : (a.store off bytes).mem x = a.mem x := by
  simp only [store]
  split
  · rw [List.getD_eq_getElem?_getD, List.getElem?_eq_none (by omega), Option.getD_none]
  · rfl

theorem store_inside {k : Nat} {b : UInt8} (h : bytes[k]? = some b) : (a.store off bytes).mem (off + k) = b := by
  simp [store, List.getD_eq_getElem?_getD, h]

theorem readBytes_store : readBytes (a.store off bytes).mem off bytes.length = bytes := by
  refine List.ext_getElem? fun k => ?_
  by_cases hk : k < bytes.length
  · have hb : bytes[k]? = some bytes[k] := List.getElem?_eq_getElem hk
    rw [readBytes, List.getElem?_map, List.getElem?_range hk, hb, Option.map_some, store_inside hb]
  · rw [List.getElem?_eq_none (by simpa using hk), List.getElem?_eq_none (by omega)]

end Arena

theorem getLE_trailer {a : Arena} {off : Nat} {n : UInt32} :
    getLE (a.store off (putUint32LE n)).mem off crc32TrailerLen = n.toNat := by
  have h : ∀ k b, (putUint32LE n)[k]? = some b → (a.store off (putUint32LE n)).mem (off + k) = b :=
    fun k b hb => Arena.store_inside hb
  have h0 := h 0 _ rfl
  have h1 := h 1 _ rfl
  have h2 := h 2 _ rfl
  have h3 := h 3 _ rfl
  simp only [crc32TrailerLen, getLE, Nat.add_assoc, Nat.reduceAdd]
  rw [Nat.add_zero] at h0
  rw [h0, h1, h2, h3]
  have hn := n.toNat_lt
  simp only [UInt32.toNat_toUInt8, UInt32.toNat_shiftRight, UInt32.reduceToNat, Nat.reduceMod,
    Nat.shiftRight_eq_div_pow]
  omega

namespace Writer

variable {w w' : Writer} {i : Intent} {late ch : Bool} {cfg : Settings} {g : Region.ArenaGeometry} {h : SlabHandle} {n : Nat}
  {d : Descriptor} {carried : Option SlabHandle} {p : PayloadFill} {rk : RingKind} {body : Bytes}

/-- `stampPayload` of a message that fits and is not abandoned: `none` without a free slab. -/
def stampBody (w : Writer) (d : Descriptor) (body : Bytes) : Writer × Option Descriptor :=
  let w := w.reclaim w.ring.capacity
  match w.arena.alloc (body.length + w.crcTrailer) with
  | .error _ => (w, none)
  | .ok (h, a) =>
    let w : Writer := { w with arena := a.store h.offset body }
    ({ w.sealSlab h body.length with pendingSlab := some h }, some (w.stamped d h body.length))

/-- `build` of a frame, whichever way its bytes come. -/
def buildBody (w : Writer) (f : Frame) : Writer × Option Descriptor :=
  let w := { w with pendingSlab := none }
  match mapKind f.kind w.chunkingActive with
  | none => (w, none)
  | some (rk, descriptorOnly) =>
    let d : Descriptor := { Descriptor.zero with kind := rk, callID := f.callID, generation := w.gen, reserved := f.control }
    if descriptorOnly then (w, some d)
    else
      let d := { d with serviceID := f.service, methodID := f.method, budgetNS := f.budget }
      if wirePayload f = [] ∧ w.checksum = false then (w, some d) else w.stampBody d (wirePayload f)

/-- What `build` says of it: backpressure, or the frame ready with its fill claimed. -/
def built (i : Intent) (r : Writer × Option Descriptor) : Writer × BuildResult :=
  match r.2 with
  | none => (r.1, .stuck)
  | some d => (r.1, .ok i.claimed d)

theorem claim_live (hl : i.Live late) (hp : i.fill = some p) :
    (if late then p.abandon else p).claim = some { p with state := .filling } := by
  obtain ⟨rfl, hst⟩ := hl p hp
  simp [PayloadFill.claim, hst]

theorem claimed_none (h : i.fill = none) : i.claimed = i := by
  obtain ⟨id, frame, lane, wire, fill⟩ := i
  simp only at h
  subst h
  rfl

theorem claimed_some (h : i.fill = some p) : i.claimed = { i with fill := some { p with state := .filling } } := by
  simp [Intent.claimed, h]

theorem writePayload_live
    (hc : i.Conveys cfg g) (hl : i.Live late) :
    w.writePayload i h (payloadOf i).1 (wirePayload i.frame).length late =
      ({ w with arena := w.arena.store h.offset (wirePayload i.frame) }, some i.claimed) := by
  cases hp : i.fill with
  | none =>
    have hwire : i.wire.getD (wirePayload i.frame) = wirePayload i.frame := by
      cases hw : i.wire with
      | none => rfl
      | some b => exact hc.wire b hw
    simp only [writePayload, payloadOf, hp, hwire, claimed_none hp]
  | some p =>
    obtain ⟨-, -, hfn⟩ := hc.fill p hp
    simp only [writePayload, hp, fillSlab, claim_live hl hp]
    by_cases hn : wirePayload i.frame = []
    · simp [hn, claimed_some hp]
    · rw [if_neg (by simpa using hn), hfn hn]
      simp [claimed_some hp]

theorem payloadOf_length (hc : i.Conveys cfg g) :
    (payloadOf i).2 = (wirePayload i.frame).length := by
  cases hp : i.fill with
  | none =>
    have hwire : i.wire.getD (wirePayload i.frame) = wirePayload i.frame := by
      cases hw : i.wire with
      | none => rfl
      | some b => exact hc.wire b hw
    simp only [payloadOf, hp, hwire]
  | some p =>
    simp only [payloadOf, hp]
    exact (hc.fill p hp).2.1

/-! ### What the reclaim before an allocation leaves alone -/

theorem Outlet.freeSlab (ho : w.Outlet cfg g) :
    (w.freeSlab h).Outlet cfg g := by
  unfold Writer.freeSlab
  split
  · next a ha =>
    have hz := ho.zero.freed ha
    obtain ⟨sc, -, -, -, -, -, -, rfl⟩ := Arena.free_eq_ok ha
    exact ⟨ho.checksum, ho.chunkingActive, ho.maxStored, ho.classes, ho.generation, hz⟩
  · exact ⟨ho.checksum, ho.chunkingActive, ho.maxStored, ho.classes, ho.generation, ho.zero⟩

theorem Outlet.freed : Freed (Writer.Outlet cfg g) where
  free _ ho := ho.freeSlab
  poison _ ho := ⟨ho.checksum, ho.chunkingActive, ho.maxStored, ho.classes, ho.generation, ho.zero⟩
  blind _ _ _ _ _ ho := ⟨ho.checksum, ho.chunkingActive, ho.maxStored, ho.classes, ho.generation, ho.zero⟩

theorem Outlet.reclaim (ho : w.Outlet cfg g) {m : UInt64} : (w.reclaim m).Outlet cfg g := Outlet.freed.reclaim ho m

/-! ### The equation -/

theorem Outlet.crcTrailer (ho : w.Outlet cfg g) :
    w.crcTrailer = cfg.overhead.toNat := by
  simp only [Writer.crcTrailer, ho.checksum, Settings.overhead]
  split <;> rfl

theorem Outlet.stored_le (ho : w.Outlet cfg g)
    (hg : Region.ArenaRules g) (hc : i.Conveys cfg g) :
    (wirePayload i.frame).length + w.crcTrailer ≤ (slabSizeLast g).toNat := by
  have h1 := hc.limit
  have h2 := Region.ArenaRules.sendLimit_le (g := g) cfg
  have h3 := hg.overhead_le cfg
  rw [ho.crcTrailer]
  omega

theorem Outlet.wire_lt (ho : w.Outlet cfg g)
    (hg : Region.ArenaRules g) (hc : i.Conveys cfg g) : (wirePayload i.frame).length < 2 ^ 32 := by
  have hle := ho.stored_le hg hc
  have hlast := (slabSizeLast g).toNat_lt
  omega

/-- An allocation within the limit fails for want of a free slab only. -/
theorem Outlet.alloc_error (ho : w.Outlet cfg g)
    (hg : Region.ArenaRules g) (hpos : n ≠ 0) (hn : n ≤ (slabSizeLast g).toNat) {e : AllocErr}
    (he : w.arena.alloc n = .error e) : e = .exhausted := by
  obtain ⟨ci, hci⟩ := hg.serves hn
  simp only [Arena.alloc, hpos, if_false, ho.classes, hci] at he
  split at he
  · cases he
  · exact (Except.error.inj he).symm

theorem stampPayload_live
    (ho : w.Outlet cfg g) (hg : Region.ArenaRules g) (hc : i.Conveys cfg g) (hl : i.Live late)
    (hne : ¬ (wirePayload i.frame = [] ∧ w.checksum = false)) :
    w.stampPayload i d (payloadOf i).1 (wirePayload i.frame).length late =
      built i (w.stampBody d (wirePayload i.frame)) := by
  have hle := ho.stored_le hg hc
  have hmax : w.maxMsg = (slabSizeLast g).toNat - w.crcTrailer := by
    have hpos : w.maxStored ≠ 0 := by
      obtain ⟨c, -, hlast, hc⟩ := hg.last
      rw [ho.maxStored, hlast]
      rintro h0
      rw [h0] at hc
      simp at hc
    rw [maxMsg, if_pos hpos, ho.maxStored]
  have hrec : (w.reclaim w.ring.capacity).Outlet cfg g := ho.reclaim
  have htr : (w.reclaim w.ring.capacity).crcTrailer = w.crcTrailer := by rw [hrec.crcTrailer, ho.crcTrailer]
  have hsize : (wirePayload i.frame).length + w.crcTrailer ≠ 0 := by
    intro h0
    have h1 : wirePayload i.frame = [] := List.length_eq_zero_iff.mp (by omega)
    refine hne ⟨h1, ?_⟩
    cases hck : w.checksum with
    | false => rfl
    | true => simp [Writer.crcTrailer, hck, crc32TrailerLen] at h0
  simp only [stampPayload, stampBody, htr, Int.toNat_natCast]
  rw [if_neg (by omega)]
  split
  · next he => simp [he, built]
  · next he => cases hrec.alloc_error hg hsize hle he
  · next he => cases hrec.alloc_error hg hsize hle he
  next h a ha =>
  have hgen : h.generation = w.gen := by
    obtain ⟨ci, sc, idx, rest, -, -, -, -, rfl, -⟩ := Arena.alloc_eq_ok ha
    have hk : Keeps w (w.reclaim w.ring.capacity) := Keeps.reclaim
    rw [← hk.gen]
    exact hrec.generation
  have hk : (w.reclaim w.ring.capacity).gen = w.gen := (Keeps.reclaim (w := w)).gen
  rw [if_neg (by simp [hk, hgen])]
  rw [writePayload_live hc hl, ha]
  rfl

theorem mapKind_lane {k : FrameKind} {b : Bool} (h : mapKind k ch = some (rk, b)) :
    laneOf k = if b then .lifecycle else .data := by
  cases k with
  | streamChunk =>
    obtain ⟨-, h⟩ := Machine.guard_some h
    cases h; rfl
  | unassigned k => cases h
  | _ => cases h; rfl

/-- **Without an abandonment `build` is `buildBody`**: the payload's mode changes
nothing but the claimed fill. -/
theorem build_live (ho : w.Outlet cfg g)
    (hg : Region.ArenaRules g) (hc : i.Conveys cfg g) (hl : i.Live late) :
    w.build i late = built i (w.buildBody i.frame) := by
  obtain ⟨⟨rk, b⟩, hk⟩ := Option.isSome_iff_exists.mp hc.kind
  have hlane : i.lane = if b then .lifecycle else .data := hc.lane.trans (mapKind_lane hk)
  rw [← ho.chunkingActive] at hk
  cases b with
  | true =>
    have hfill : i.fill = none := by
      cases hp : i.fill with
      | none => rfl
      | some p => exact absurd hlane (hc.fill p hp).1
    simp [build, buildBody, hlane, hk, hfill, built, claimed_none]
  | false =>
    have ho' : ({ w with pendingSlab := none } : Writer).Outlet cfg g :=
      ⟨ho.checksum, ho.chunkingActive, ho.maxStored, ho.classes, ho.generation, ho.zero⟩
    have hlane : i.lane = .data := hlane
    have hlen := payloadOf_length hc
    have hzero : (payloadOf i).2 = 0 ↔ wirePayload i.frame = [] := by rw [hlen]; simp
    simp only [build, buildBody, hlane, hk]
    by_cases hn : wirePayload i.frame = [] ∧ w.checksum = false
    · cases hp : i.fill with
      | none => simp [hn, hzero, hp, built, claimed_none]
      | some p => simp [hn, hzero, claim_live hl hp, built, claimed_some hp, hlane]
    · have hstamp := stampPayload_live (d := { Descriptor.zero with
        kind := rk, callID := i.frame.callID, generation := w.gen, reserved := i.frame.control,
        serviceID := i.frame.service, methodID := i.frame.method, budgetNS := i.frame.budget }) ho' hg hc hl hn
      rw [← hlen] at hstamp
      simpa [hn, hzero] using hstamp

/-! ## The round trip -/

theorem sealSlab_reads (hb : readBytes w.arena.mem h.offset body.length = body) :
    readBytes (w.sealSlab h body.length).arena.mem h.offset body.length = body ∧
      (w.checksum = true → getLE (w.sealSlab h body.length).arena.mem (h.offset + body.length) crc32TrailerLen =
        (crc32c body).toNat) := by
  simp only [sealSlab]
  split
  · refine ⟨?_, fun _ => ?_⟩
    · rw [readBytes_congr fun x h1 h2 => Arena.store_outside (by omega), hb]
    · rw [getLE_trailer]
      exact congrArg (fun b => (crc32c b).toNat) hb
  · next hck => exact ⟨hb, fun h => absurd h hck⟩

theorem stamped_fields (hflags : d.flags = 0) (ho : h.offset < 2 ^ 32)
    (hn : n < 2 ^ 32) :
    (w.stamped d h n).payloadOffset.toNat = h.offset ∧ (w.stamped d h n).payloadLength.toNat = n ∧
      (w.stamped d h n).allocSeq = h.sequence ∧ (w.stamped d h n).hasCRC = w.checksum ∧
      (w.stamped d h n).storedLen = n + w.crcTrailer := by
  have hlen : (w.stamped d h n).payloadLength.toNat = n := UInt32.toNat_ofNat_of_lt' hn
  have hcrc : (w.stamped d h n).hasCRC = w.checksum := by
    simp only [Descriptor.hasCRC, stamped, hflags]
    cases w.checksum <;> decide
  exact ⟨UInt32.toNat_ofNat_of_lt' ho, hlen, rfl, hcrc, by simp only [Descriptor.storedLen, hlen, hcrc]; rfl⟩

/-- **The peer finds the slab an allocation took**, in the class it recomputes. -/
theorem Outlet.slab_stamped (ho : w.Outlet cfg g) (hg : Region.ArenaRules g)
    (hw : w.arena.WF) (hle : n + w.crcTrailer ≤ (slabSizeLast g).toNat) {a : Arena}
    (ha : w.arena.alloc (n + w.crcTrailer) = .ok (h, a)) (hflags : d.flags = 0) (gen : UInt32) :
    (cfg.inlet g gen).slab (w.stamped d h n) = .ok (some h.offset) := by
  have hlast := (slabSizeLast g).toNat_lt
  obtain ⟨h1, h2, h3, -, h5⟩ := stamped_fields (w := w) hflags (alloc_offset_lt ha) (n := n) (by omega)
  obtain ⟨-, hne⟩ := ho.zero.alloc ha
  obtain ⟨ci, sc, idx, rest, hsize, hci, hsc, hfree, rfl, -⟩ := Arena.alloc_eq_ok ha
  have hidx : idx < sc.slabCount := hw.inRange ci sc hsc idx (by simp [hfree])
  obtain ⟨hoff, -⟩ := w.arena.table.offsetOf_eq (List.mem_of_getElem? hsc) hidx
  have hpos := w.arena.table.offsetOf_pos hsc hidx hne
  have hsizes := w.arena.table.slabSize_pos
  rw [ho.classes] at hci hsc hsizes
  have hslab := Inlet.slab_eq_some (c := cfg.inlet g gen) (d := w.stamped d _ n) hsizes
    (fun h0 => by rw [h0] at h1; simp at h1; omega) (by rw [h3]; exact hw.nextSeq) (by omega) (by omega)
    (UInt32.le_iff_toNat_le.mpr (by
      have := hg.overhead_le cfg
      rw [h2, Settings.inlet]
      rw [ho.crcTrailer] at hle
      simp only
      omega))
    (⟨by rw [h5]; exact hci, hsc, hidx, by rw [h1, hoff], hne⟩ : SlabAt _ _ _ ci idx sc)
  rw [hslab, h1]

/-- **The slab passes the peer's checks and reads back**, whether copied or viewed. -/
theorem Outlet.stampBody {d' : Descriptor}
    (ho : w.Outlet cfg g) (hg : Region.ArenaRules g) (hw : (w.reclaim w.ring.capacity).arena.WF)
    (hflags : d.flags = 0) (hle : body.length + w.crcTrailer ≤ (slabSizeLast g).toNat)
    (he : w.stampBody d body = (w', some d')) : d'.generation = w.gen ∧ ∀ gen view, ∃ span,
      (cfg.inlet g gen).payloadBytes w'.arena.mem d' view = .ok span ∧ span.bytes w'.arena.mem = body := by
  have hrec : (w.reclaim w.ring.capacity).Outlet cfg g := ho.reclaim
  have hk : Keeps w (w.reclaim w.ring.capacity) := Keeps.reclaim
  have hlast := (slabSizeLast g).toNat_lt
  rw [ho.crcTrailer, ← hrec.crcTrailer] at hle
  simp only [Writer.stampBody] at he
  generalize w.reclaim w.ring.capacity = v at hw hrec hk hle he
  split at he
  · cases he
  next h a ha =>
  cases he
  obtain ⟨-, h2, -, h4, -⟩ := stamped_fields (w := v) hflags (alloc_offset_lt ha) (n := body.length) (by omega)
  have hslab := fun gen => hrec.slab_stamped hg hw hle ha hflags gen
  obtain ⟨hread, htrail⟩ := sealSlab_reads (w := { v with arena := a.store h.offset body }) (h := h) Arena.readBytes_store
  have hgen : h.generation = w.gen := by
    obtain ⟨ci, sc, idx, rest, -, -, -, -, rfl, -⟩ := Arena.alloc_eq_ok ha
    exact hrec.generation.trans hk.gen
  exact ⟨hgen, fun gen view => Inlet.payloadBytes_of (hslab gen) h2 hread (fun hc => htrail (h4 ▸ hc)) view⟩

theorem Outlet.payloadBytes_build (ho : w.Outlet cfg g) (hg : Region.ArenaRules g) (hi : w.Inv none carried)
    (hc : i.Conveys cfg g) (hl : i.lane ≠ .lifecycle) (he : w.buildBody i.frame = (w', some d)) :
    d.generation = w.gen ∧ ∀ gen view, ∃ span,
      (cfg.inlet g gen).payloadBytes w'.arena.mem d view = .ok span ∧
        span.bytes w'.arena.mem = wirePayload i.frame := by
  obtain ⟨⟨rk, b⟩, hk⟩ := Option.isSome_iff_exists.mp hc.kind
  have hlane : i.lane = if b then .lifecycle else .data := hc.lane.trans (mapKind_lane hk)
  rw [← ho.chunkingActive] at hk
  cases b with
  | true => exact absurd hlane hl
  | false =>
    simp only [buildBody, hk] at he
    split at he
    · next h => cases h
    split at he
    · next hn =>
      cases he
      refine ⟨rfl, fun _ _ => ⟨.copied [], ?_, hn.1.symm⟩⟩
      simp [Inlet.payloadBytes, Inlet.slab, Descriptor.storedLen, Descriptor.hasCRC, Descriptor.zero]
    · have ho' : ({ w with pendingSlab := none } : Writer).Outlet cfg g :=
        ⟨ho.checksum, ho.chunkingActive, ho.maxStored, ho.classes, ho.generation, ho.zero⟩
      have hi' : ({ w with pendingSlab := none } : Writer).Inv none carried := hi.congr rfl rfl rfl rfl rfl
      exact ho'.stampBody hg (hi'.reclaim (by simp)).1.custody.wf rfl (ho'.stored_le hg hc) he

theorem decodeFrame_builtFrom {ck : Bool} (hb : BuiltFrom ch ck i d)
    (hlane : i.lane = laneOf i.frame.kind) (hl : i.lane ≠ .lifecycle) (hlen : (wirePayload i.frame).length < 2 ^ 32) :
    decodeFrame d i.frame.kind (wirePayload i.frame) = .ok i.frame.carried := by
  obtain ⟨h1, h2, h3⟩ := hb.fields hl
  rw [hlane] at hl
  simp only [decodeFrame, Frame.carried, if_neg hl]
  by_cases hs : carriesStatusBody i.frame.kind = true
  · have hwire : wirePayload i.frame = encodeStatus i.frame.status := if_pos hs
    rw [hwire] at hlen ⊢
    simp only [hs, if_true, decodeStatus_encodeStatus hlen, decodedFrame, hb.callID, h1, h2, h3, hb.reserved]
  · have hwire : wirePayload i.frame = i.frame.payload := if_neg hs
    simp only [hwire, hs, Bool.false_eq_true, if_false, decodedFrame, hb.callID, h1, h2, h3, hb.reserved]

theorem lifecycle_generation {f : Frame}
    (hk : mapKind f.kind w.chunkingActive = some (rk, true)) (he : w.buildBody f = (w', some d)) : d.generation = w.gen := by
  simp only [buildBody, hk, if_true] at he
  cases he
  rfl

/-- **What a build puts down is what the peer takes up**: past every check, copied
or viewed, under the live generation. -/
theorem Outlet.receive_build {i' : Intent} (ho : w.Outlet cfg g) (hg : Region.ArenaRules g) (hi : w.Inv none carried)
    (hc : i.Conveys cfg g) (hl : i.Live late) (he : w.build i late = (w', .ok i' d)) :
    d.generation = w.gen ∧ ∀ gen view, (cfg.inlet g gen).receive w'.arena.mem d.raw view = .ok i.frame.carried := by
  have hb := ((build_frame he).2 i' d rfl).2
  rw [ho.chunkingActive, ho.checksum] at hb
  rw [build_live ho hg hc hl] at he
  have hbody : w.buildBody i.frame = (w', some d) := by
    simp only [built] at he
    split at he
    · cases he
    · next hd =>
      cases he
      rw [← hd]
  have hcls := classify_builtFrom hb
  by_cases hlane : i.lane = .lifecycle
  · obtain ⟨hbud, -⟩ := hb.bare hlane
    have hkind : laneOf i.frame.kind = .lifecycle := hc.lane ▸ hlane
    have hmap := hb.kind
    rw [hlane, ← ho.chunkingActive] at hmap
    have hint : IsInt64 d.budgetNS := by rw [hbud]; exact isInt64_zero
    rw [hbud, if_neg (by omega), hlane, beq_self_eq_true] at hcls
    refine ⟨lifecycle_generation hmap hbody, fun gen view => ?_⟩
    rw [Inlet.receive_bare (c := cfg.inlet g gen) (Descriptor.descriptor?_raw_eq hint) hcls]
    simp only [descriptorOnlyFrame, Frame.carried, hkind, if_true, hb.callID, hb.reserved]
  · obtain ⟨hgen, hpay⟩ := ho.payloadBytes_build hg hi hc hlane hbody
    have hbud := (hb.fields hlane).2.2
    have hint : IsInt64 d.budgetNS := by rw [hbud]; exact hc.duration
    have hne : (i.lane == .lifecycle) = false := by simpa using hlane
    rw [hbud, if_neg (by have := hc.budget; omega), hne] at hcls
    refine ⟨hgen, fun gen view => ?_⟩
    obtain ⟨span, hp, hspan⟩ := hpay gen view
    refine Inlet.receive_payload (Descriptor.descriptor?_raw_eq hint) hcls hp ?_
    rw [hspan]
    exact decodeFrame_builtFrom hb hc.lane hlane (ho.wire_lt hg hc)

end Writer

end Styx
