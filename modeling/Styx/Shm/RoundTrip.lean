/-
The round trip over whole runs of a writer of conveying intents.

A build writes into the slab it takes and nowhere else (`build_wrote`); custody
says that slab was nobody's. So what a slot makes the consumer read stays as it
was put down until the consumer is past it, and `Loaded` carries the round trip
of one build through every later step.
-/
import Styx.Shm.Outlet

namespace Styx

open Sequence Machine

namespace Writer

variable {w w' : Writer} {late : Bool} {h : SlabHandle} {i : Intent} {n x : Nat} {d : Descriptor} {r : BuildResult}
  {carried : Option SlabHandle} {cfg : Settings} {g : Region.ArenaGeometry} {gen : UInt32} {f : Frame}

/-! ## Abandoned builds, and what a build writes -/

theorem build_ok_live {i' : Intent} (he : w.build i late = (w', .ok i' d)) : i.Live late := by
  cases build_cases he with
  | bare _ _ hlive | empty _ _ _ hlive | stamped _ _ _ _ hlive => exact hlive

@[simp] theorem freeSlab_mem : (w.freeSlab h).arena.mem = w.arena.mem := by
  unfold freeSlab
  split
  · next a ha =>
    obtain ⟨sc, -, -, -, -, -, -, rfl⟩ := Arena.free_eq_ok ha
    rfl
  · rfl

theorem mem_freed {mem : Nat → UInt8} : Freed fun w => w.arena.mem = mem where
  free _ h := freeSlab_mem.trans h
  poison _ h := h
  blind _ _ _ _ _ h := h

@[simp] theorem reclaim_mem {m : UInt64} : (w.reclaim m).arena.mem = w.arena.mem := mem_freed.reclaim rfl m

def Outside (h : SlabHandle) (n x : Nat) : Prop := x < h.offset ∨ h.offset + n ≤ x

theorem sealSlab_outside (hx : Outside h (n + w.crcTrailer) x) : (w.sealSlab h n).arena.mem x = w.arena.mem x := by
  simp only [Outside, crcTrailer] at hx
  simp only [sealSlab]
  split
  · next hck =>
    rw [if_pos hck] at hx
    exact Arena.store_outside (by simp only [putUint32LE, List.length_cons, List.length_nil, crc32TrailerLen] at hx ⊢; omega)
  · rfl

/-- A build wrote nothing, or only inside the slab it took. -/
def Wrote (w w' : Writer) : Prop :=
  w'.arena.mem = w.arena.mem ∨ ∃ h a n, (w.reclaim w.ring.capacity).arena.alloc n = .ok (h, a) ∧
    ∀ x, Outside h n x → w'.arena.mem x = w.arena.mem x

theorem alloc_mem {a a' : Arena} (ha : a.alloc n = .ok (h, a')) : a'.mem = a.mem := by
  obtain ⟨ci, sc, idx, rest, -, -, -, -, -, rfl⟩ := Arena.alloc_eq_ok ha
  rfl

/-- **A build writes into no slab but the one it takes.** -/
theorem build_wrote (he : w.build i late = (w', r)) :
    Wrote { w with pendingSlab := none } w' := by
  cases build_cases he with
  | refused | bare | empty => exact .inl rfl
  | stuck | unserved => exact .inl reclaim_mem
  | @freed h a n bytes e _ ha hlen =>
    refine .inr ⟨h, a, n, ha, fun x hout => ?_⟩
    simp only [Outside] at hout
    rw [report, freeSlab_mem]
    exact (Arena.store_outside (by omega)).trans (congrFun ((alloc_mem ha).trans reclaim_mem) x)
  | @stamped rk h a n _ bytes _ _ _ _ ha hlen =>
    refine .inr ⟨h, a, _, ha, fun x hout => ?_⟩
    have htr : (reclaim { w with pendingSlab := none } w.ring.capacity).crcTrailer =
        crcTrailer { w with pendingSlab := none } := by
      simp only [crcTrailer, (Keeps.reclaim (w := { w with pendingSlab := none })).checksum]
    refine (sealSlab_outside (by rw [← htr] at hout; exact hout)).trans ?_
    simp only [Outside] at hout
    exact (Arena.store_outside (by omega)).trans (congrFun ((alloc_mem ha).trans reclaim_mem) x)

/-! ## What a slot makes the consumer read -/

theorem Inv.backed_owned {pend : Pend} (hi : w.Inv pend carried)
    (hd : d ∈ w.ring.outstanding) (hne : d.allocSeq ≠ 0) :
    ∃ h, w.arena.Owns h ∧ d.payloadOffset.toNat = h.offset := by
  obtain ⟨h, hm, hoff⟩ := hi.backed_list d hd hne
  refine ⟨h, hi.custody.owns h ?_, hoff⟩
  rcases List.mem_append.mp hm with hm | hm
  · exact List.mem_append_left _ (List.mem_append_right _ hm)
  · obtain ⟨q, hq, hq'⟩ := List.mem_filterMap.mp hm
    exact List.mem_append_right _ (List.mem_filterMap.mpr ⟨q, (hi.mem_window hq).1, hq'⟩)

theorem Outlet.reads_in_slab (ho : w.Outlet cfg g) (hx : (cfg.inlet g gen).Reads d.raw x) :
    d.allocSeq ≠ 0 ∧ ∀ h, w.arena.Owns h → d.payloadOffset.toNat = h.offset →
      ∃ sc, w.arena.table.classes[h.cls]? = some sc ∧ h.offset ≤ x ∧ x < h.offset + sc.slabSize := by
  obtain ⟨d₀, off, hd, hslab, hlo, hhi⟩ := hx
  rw [Descriptor.descriptor?_raw] at hd
  cases hd
  obtain ⟨rfl, hseq, hin⟩ := Inlet.slab_some hslab
  refine ⟨hseq, fun h hown hoff => ?_⟩
  have hsizes := w.arena.table.slabSize_pos
  rw [ho.classes] at hsizes
  obtain ⟨-, ci, idx, sc, hs⟩ := (slabInClass_iff hsizes).mp hin
  have hfits := selectClass_fits hs.serving hs.entry
  have hentry : w.arena.table.classes[ci]? = some sc := by
    rw [ho.classes]
    exact hs.entry
  obtain ⟨sc', hsc', hidx', hoff'⟩ := hown.located
  -- one offset, one slab: the class the consumer computes is the handle's
  have hexact := (w.arena.table.offsetOf_eq (List.mem_of_getElem? hentry) hs.index).1
  have hoffset := hs.offset
  obtain ⟨rfl, rfl⟩ := w.arena.table.offsetOf_inj hentry hsc' hs.index hidx' (by
    rw [hexact, ← hoff', ← hoff]
    exact hoffset.symm)
  rw [hentry] at hsc'
  cases hsc'
  refine ⟨sc, hentry, ?_, ?_⟩
  · simp only at hlo
    omega
  · simp only at hhi hfits
    omega

/-- **A build leaves every outstanding payload as it was put down.** -/
theorem Outlet.reads_kept (ho : w.Outlet cfg g) (hi : w.Inv none carried) (hw : Wrote w w') (hd : d ∈ w.ring.outstanding)
    (hx : (cfg.inlet g gen).Reads d.raw x) : w'.arena.mem x = w.arena.mem x := by
  rcases hw with hmem | ⟨h, a, n, ha, hout⟩
  · rw [hmem]
  obtain ⟨hi', -, hring⟩ := hi.reclaim (m := w.ring.capacity) (by simp)
  have ho' : (w.reclaim w.ring.capacity).Outlet cfg g := ho.reclaim
  rw [← hring] at hd
  obtain ⟨hseq, hslab⟩ := ho'.reads_in_slab hx
  obtain ⟨f, hf, hoff⟩ := hi'.backed_owned hd hseq
  obtain ⟨sc, hsc, hlo, hhi⟩ := hslab f hf hoff
  -- the slab just taken was not live, and the one read is
  obtain ⟨-, -, hfresh, -, -, -, -⟩ := Arena.alloc_ok hi'.custody.wf ha
  have hne : (f.cls, f.index) ≠ (h.cls, h.index) := by
    intro he
    refine hfresh ?_
    rw [SlabHandle.slab, ← he]
    exact fun h0 => hf.sequence (hf.live ▸ h0)
  obtain ⟨ci, sc', idx, rest, -, hci, hsc', hfree, rfl, -⟩ := Arena.alloc_eq_ok ha
  have hidx := hi'.custody.wf.inRange ci sc' hsc' idx (by simp [hfree])
  have hfits := selectClass_fits hci hsc'
  obtain ⟨sc₀, hsc₀, hidx₀, hoff₀⟩ := hf.located
  rw [hsc] at hsc₀
  cases hsc₀
  have := (w.reclaim w.ring.capacity).arena.table.offsetOf_disjoint hsc hsc' hidx₀ hidx hne
  refine hout x ?_
  simp only [Outside]
  omega

theorem Outlet.closed : Closed fun w _ => w.Outlet cfg g := by
  refine Outlet.freed.closed (fun ho ha => ?_) fun off bytes ho =>
    ⟨ho.checksum, ho.chunkingActive, ho.maxStored, ho.classes, ho.generation, ho.zero.store off bytes⟩
  obtain ⟨hz, -⟩ := ho.zero.alloc ha
  obtain ⟨ci, sc, idx, rest, -, -, -, -, -, rfl⟩ := Arena.alloc_eq_ok ha
  exact ⟨ho.checksum, ho.chunkingActive, ho.maxStored, ho.classes, ho.generation, hz⟩

/-- The peer takes this descriptor, and takes it for the frame. -/
structure Carries (w : Writer) (cfg : Settings) (g : Region.ArenaGeometry) (d : Descriptor) (f : Frame) : Prop where
  generation : d.generation = w.gen
  receive : ∀ view, (cfg.inlet g w.gen).receive w.arena.mem d.raw view = .ok f.carried

theorem Carries.congr (h : w.Carries cfg g d f)
    (hgen : w'.gen = w.gen) (hmem : ∀ x, (cfg.inlet g w.gen).Reads d.raw x → w'.arena.mem x = w.arena.mem x) :
    w'.Carries cfg g d f := by
  refine ⟨h.generation.trans hgen.symm, fun view => ?_⟩
  rw [hgen, ← h.receive view]
  exact Inlet.receive_congr hmem

theorem Carries.same (h : w.Carries cfg g d f)
    (hgen : w'.gen = w.gen) (hmem : w'.arena.mem = w.arena.mem) : w'.Carries cfg g d f :=
  h.congr hgen fun x _ => congrFun hmem x

theorem Outlet.build (ho : w.Outlet cfg g) (hg : Region.ArenaRules g) (hi : w.Inv none carried)
    (hc : i.Conveys cfg g) (he : w.build i late = (w', r)) :
    w'.Outlet cfg g ∧ (∀ d f, d ∈ w.ring.outstanding → w.Carries cfg g d f → w'.Carries cfg g d f) ∧
      ∀ i' d, r = .ok i' d → i' = i.claimed ∧ w'.Carries cfg g d i.frame := by
  have hk := (build_frame he).1
  have hi' : ({ w with pendingSlab := none } : Writer).Inv none carried := hi.congr rfl rfl rfl rfl rfl
  have ho' : ({ w with pendingSlab := none } : Writer).Outlet cfg g := Outlet.closed.pending (c := none) none ho
  refine ⟨Outlet.closed.build ho he, fun d f hd hcar => ?_, fun i' d hr => ?_⟩
  · exact hcar.congr hk.gen fun x hx => ho'.reads_kept hi' (build_wrote he) hd hx
  · subst hr
    have hlive := build_ok_live he
    obtain ⟨hgen, hrec⟩ := ho.receive_build hg hi hc hlive he
    refine ⟨?_, hgen.trans hk.gen.symm, hrec _⟩
    rw [build_live ho hg hc hlive] at he
    simp only [built] at he
    split at he
    · cases he
    · cases he
      rfl

end Writer

variable {cfg : Settings} {g : Region.ArenaGeometry} {i : Intent} {w w' : Writer}

theorem Intent.Conveys.claimed (hc : i.Conveys cfg g) : i.claimed.Conveys cfg g := by
  refine ⟨hc.kind, hc.lane, hc.limit, hc.budget, hc.duration, hc.wire, fun p hp => ?_⟩
  obtain ⟨q, hq, rfl⟩ := Option.mem_map.mp hp
  exact hc.fill q hq

theorem Intent.Conveys.abandon (hc : i.Conveys cfg g) :
    ({ i with fill := i.fill.map (·.abandon) } : Intent).Conveys cfg g := by
  refine ⟨hc.kind, hc.lane, hc.limit, hc.budget, hc.duration, hc.wire, fun p hp => ?_⟩
  obtain ⟨q, hq, rfl⟩ := Option.mem_map.mp hp
  have := hc.fill q hq
  simp only [PayloadFill.abandon]
  split
  · exact this
  · exact this

/-! ## Over the writer's states -/

/-- A frame under way: one of those handed in, and if it is built the peer takes it. -/
structure Carry.Loaded (cfg : Settings) (g : Region.ArenaGeometry) (F : Set Frame) (w : Writer) (c : Carry) : Prop where
  conveys : c.i.Conveys cfg g
  sent : c.i.frame ∈ F
  carries : ∀ d ∈ c.d, w.Carries cfg g d c.i.frame

/-- The arena's bytes and the generation are as they were. -/
structure SameBytes (w w' : Writer) : Prop where
  gen : w'.gen = w.gen
  mem : w'.arena.mem = w.arena.mem

theorem Writer.Rests.sameBytes (h : w.Rests w') : SameBytes w w' :=
  ⟨(h _ Keeps.freed Keeps.refl).gen, h _ Writer.mem_freed rfl⟩

theorem Carry.Loaded.same {F : Set Frame} {c : Carry}
    (h : c.Loaded cfg g F w) (hs : SameBytes w w') :
    c.Loaded cfg g F w' :=
  ⟨h.conveys, h.sent, fun d hd => (h.carries d hd).same hs.gen hs.mem⟩

namespace Sys

variable {cfg : Settings} {g : Region.ArenaGeometry} {F : Set Frame} {s t : Sys} {d : Descriptor} {w : Writer} {a : Act}
  {c : Carry} {late : Bool}

/-- Every descriptor the writer holds or has out is one the peer takes for a frame of `F`. -/
structure Loaded (cfg : Settings) (g : Region.ArenaGeometry) (F : Set Frame) (s : Sys) : Prop where
  outlet : s.w.Outlet cfg g
  stuck : ∀ c ∈ s.stuck, c.Loaded cfg g F s.w
  ready : ∀ c d, s.pc = .ready c d → c.d = some d ∧ c.Loaded cfg g F s.w
  readyLifecycle : ∀ i d, s.pc = .readyLifecycle i d → i.frame ∈ F ∧ s.w.Carries cfg g d i.frame
  out : ∀ d ∈ s.w.ring.outstanding, ∃ f ∈ F, s.w.Carries cfg g d f

theorem Loaded.out_same (hl : s.Loaded cfg g F) (hs : SameBytes s.w w)
    (hout : w.ring.outstanding ⊆ s.w.ring.outstanding) : ∀ d ∈ w.ring.outstanding, ∃ f ∈ F, w.Carries cfg g d f := by
  intro d hd
  obtain ⟨f, hf, hcar⟩ := hl.out d (hout hd)
  exact ⟨f, hf, hcar.same hs.gen hs.mem⟩

theorem Loaded.mapWriter (hl : s.Loaded cfg g F) (ho : w.Outlet cfg g) (hs : SameBytes s.w w)
    (hout : w.ring.outstanding ⊆ s.w.ring.outstanding) : Loaded cfg g F { s with w } := by
  refine ⟨ho, fun c hc => (hl.stuck c hc).same hs, fun c d hpc => ?_, fun i d hpc => ?_, hl.out_same hs hout⟩
  · obtain ⟨hd, hc⟩ := hl.ready c d hpc
    exact ⟨hd, hc.same hs⟩
  · obtain ⟨hf, hcar⟩ := hl.readyLifecycle i d hpc
    exact ⟨hf, hcar.same hs.gen hs.mem⟩

/-- The writer is fed conveying intents, for frames of `F`. -/
def Feeds (cfg : Settings) (g : Region.ArenaGeometry) (F : Set Frame) (a : Act) : Prop :=
  ∀ i ∈ a.fed, i.Conveys cfg g ∧ i.frame ∈ F

theorem Loaded.placed (hl : s.Loaded cfg g F) (hfed : Feeds cfg g F a) (hp : s.Places a c late) : c.Loaded cfg g F s.w := by
  cases hp with
  | data => exact ⟨(hfed _ rfl).1, (hfed _ rfl).2, by simp⟩
  | retry hst => exact hl.stuck c hst

theorem Loaded.tried {r : Writer.BuildResult} {carried : Option SlabHandle}
    (hl : s.Loaded cfg g F) (hg : Region.ArenaRules g) (hi : s.w.Inv none carried) (hc : c.Loaded cfg g F s.w)
    (hx : s.w.build c.i late = (w, r)) : ∀ d ∈ w.ring.outstanding, ∃ f ∈ F, w.Carries cfg g d f := by
  intro d hm
  rw [(Writer.build_frame hx).1.ring] at hm
  obtain ⟨f, hf, hcar⟩ := hl.out d hm
  exact ⟨f, hf, (hl.outlet.build hg hi hc.conveys hx).2.1 d f hm hcar⟩

theorem Seen.outlet (h : s.Seen a t) : s.w.Outlet cfg g → t.w.Outlet cfg g :=
  h.keeps Writer.Outlet.freed Writer.Outlet.closed
    fun _ ho => ⟨ho.checksum, ho.chunkingActive, ho.maxStored, ho.classes, ho.generation, ho.zero⟩

/-- **Every step keeps what is out readable**, and what it adds is read as it was sent. -/
theorem Loaded.step (hl : s.Loaded cfg g F) (hg : Region.ArenaRules g) (hi : s.Inv)
    (hfed : Feeds cfg g F a) (h : s.step a = some t) : t.Loaded cfg g F := by
  have hslabs := hi.slabs
  have ho := hl.outlet
  have ho' := (seen_step h).outlet ho
  cases seen_step h with
  | @rest w stuck pc hpc hw hst =>
    have hring := (hw _ Keeps.freed Keeps.refl).ring
    refine ⟨ho', fun c hc => ?_, fun _ _ h => ?_, fun _ _ h => ?_,
      hl.out_same hw.sameBytes (by rw [hring]; exact List.Subset.refl _)⟩
    · rcases hst c hc with hc | ⟨d, hc⟩
      · exact (hl.stuck c hc).same hw.sameBytes
      · exact (hl.ready c d hc).2.same hw.sameBytes
    all_goals rcases hpc with rfl | rfl <;> cases h
  | same hw =>
    have hring := (hw _ Keeps.freed Keeps.refl).ring
    exact hl.mapWriter ho' hw.sameBytes (by rw [hring]; exact List.Subset.refl _)
  | resumed hp hd =>
    refine ⟨ho, by simp, fun c' d' h => ?_, fun _ _ h => (by cases h), hl.out⟩
    cases h
    exact ⟨hd, hl.placed hfed hp⟩
  | tried hpc hp hd hx hst =>
    rw [hpc] at hslabs
    have hc := hl.placed hfed hp
    refine ⟨ho', fun c' hc' => ?_, by simp, by simp, hl.tried hg hslabs hc hx⟩
    rw [hst c' hc']
    exact ⟨hc.conveys, hc.sent, by simp [hd]⟩
  | @built c late w i d hpc hp hd hx =>
    rw [hpc] at hslabs
    have hc := hl.placed hfed hp
    obtain ⟨rfl, hcar⟩ := (ho.build hg hslabs hc.conveys hx).2.2 i d rfl
    refine ⟨ho', by simp, fun c' d' h => ?_, fun _ _ h => (by cases h), hl.tried hg hslabs hc hx⟩
    cases h
    refine ⟨rfl, hc.conveys.claimed, hc.sent, fun d' hd' => ?_⟩
    obtain rfl := Option.mem_some_iff.mp hd'
    exact hcar
  | @lifecycle i i' w d hpc hi hlane hb =>
    obtain ⟨hc, hf⟩ := hfed i hi
    rw [hpc] at hslabs
    obtain ⟨rfl, hcar⟩ := (ho.build hg hslabs hc hb).2.2 i' d rfl
    have hw := Writer.Rests.buildLifecycle hlane hb
    have hring := (hw _ Keeps.freed Keeps.refl).ring
    refine ⟨ho', fun c hc => (hl.stuck c hc).same hw.sameBytes, fun _ _ h => (by cases h), fun i'' d' h => ?_,
      hl.out_same hw.sameBytes (by rw [hring]; exact List.Subset.refl _)⟩
    cases h
    exact ⟨hf, hcar⟩
  | @pushed i d r ref _ _ hpc hr =>
    have hcar : i.frame ∈ F ∧ s.w.Carries cfg g d i.frame := by
      rcases hpc with ⟨c, hpc, rfl⟩ | hpc
      · obtain ⟨hd, hc⟩ := hl.ready c d hpc
        exact ⟨hc.sent, hc.carries d hd⟩
      · exact hl.readyLifecycle i d hpc
    refine ⟨ho', fun c hc => (hl.stuck c hc).same ⟨rfl, rfl⟩, fun _ _ h => (by cases h), fun _ _ h => (by cases h), fun d' hm => ?_⟩
    have hout : ({ s.w with ring := r } : Writer).ring.outstanding = s.w.ring.outstanding ++ [d] :=
      Ring.outstanding_push hr
    rw [hout, List.mem_append, List.mem_singleton] at hm
    rcases hm with hm | rfl
    · obtain ⟨f', hf', hcar'⟩ := hl.out d' hm
      exact ⟨f', hf', hcar'.same rfl rfl⟩
    · exact ⟨_, hcar.1, hcar.2.same rfl rfl⟩
  | advance hne =>
    refine hl.mapWriter ho' ⟨rfl, rfl⟩ fun d hd => ?_
    rw [Ring.outstanding_advance hne]
    exact List.mem_cons_of_mem _ hd
  | @abandon c hc =>
    refine ⟨ho, fun c' hc' => ?_, hl.ready, hl.readyLifecycle, hl.out⟩
    obtain rfl := Option.mem_some_iff.mp hc'
    have hload := hl.stuck c hc
    exact ⟨hload.conveys.abandon, hload.sent, hload.carries⟩

/-- A writer as `newTransport` leaves it on one direction of a region: a fresh
arena over the direction's classes, an empty ring, the settings of the connection. -/
structure Attached (cfg : Settings) (g : Region.ArenaGeometry) (s : Sys) : Prop where
  start : s.Start
  empty : s.w.ring.head = s.w.ring.tail
  checksum : s.w.checksum = cfg.checksum
  chunkingActive : s.w.chunkingActive = cfg.chunkingActive
  maxStored : s.w.maxStored = slabSizeLast g
  classes : s.w.arena.table.classes = g.classes.map Region.SizeClass.toArena
  generation : s.w.arena.generation = s.w.gen

theorem Attached.loaded (h : s.Attached cfg g) : s.Loaded cfg g F := by
  obtain ⟨t, mem, generation, id, ha⟩ := h.start.arena
  refine ⟨⟨h.checksum, h.chunkingActive, h.maxStored, h.classes, h.generation, ?_⟩, ?_, ?_, ?_, ?_⟩
  · rw [ha]
    exact Arena.new_zeroKept
  · simp [h.start.stuck]
  · simp [h.start.pc]
  · simp [h.start.pc]
  · simp [Ring.outstanding, h.empty]

theorem Attached.reach (h : s.Attached cfg g) (hg : Region.ArenaRules g)
    (hr : Reach step (fun _ => Feeds cfg g F) s t) : t.Inv ∧ t.Loaded cfg g F := by
  induction hr with
  | refl => exact ⟨h.start.inv, h.loaded⟩
  | tail _ hfed hs ih => exact ⟨ih.1.step hs, ih.2.step hg ih.1 hfed hs⟩

/-! ## The result -/

/-- The slot as the peer reads it, whatever its bytes were before. -/
def peerSlot (raw : Nat → UInt8) (d : Descriptor) : RawDescriptor := RawDescriptor.load (RawDescriptor.store raw d.raw)

/-- The descriptor of a build that made one. -/
def descOf : Writer.BuildResult → Option Descriptor
  | .ok _ d => some d
  | _ => none

structure RoundTrips (cfg : Settings) (g : Region.ArenaGeometry) (F : Set Frame) (t : Sys) : Prop where
  /-- A build that nobody abandons does not fail, and the peer takes what it makes for the frame. -/
  built : t.pc = .idle → ∀ i late w r, i.Conveys cfg g → t.w.build i late = (w, r) →
    (i.Live late → r ≠ .failed) ∧ ∀ d, descOf r = some d → d.generation = t.w.gen ∧
      ∀ raw view, (cfg.inlet g t.w.gen).receive w.arena.mem (peerSlot raw d) view = .ok i.frame.carried
  /-- Which is the frame itself, for the kinds with a payload. -/
  exact : ∀ f : Frame, f.OneBody → laneOf f.kind ≠ .lifecycle → f.carried = f
  /-- Two intents for one frame, by wire or by fill, give one descriptor and one arena. -/
  modes : t.pc = .idle → ∀ i j, i.frame = j.frame → i.Conveys cfg g → j.Conveys cfg g → i.Live false → j.Live false →
    descOf (t.w.build i false).2 = descOf (t.w.build j false).2 ∧
      (t.w.build i false).1.arena = (t.w.build j false).1.arena
  /-- Whatever is out, the peer takes: for a frame that was sent, and without a fault. -/
  arrives : ∀ d ∈ t.w.ring.outstanding, d.generation = t.w.gen ∧ ∃ f ∈ F,
    ∀ raw view, (cfg.inlet g t.w.gen).receive t.w.arena.mem (peerSlot raw d) view = .ok f.carried

/-- **The shared-memory round trip**, over either direction of any layout `DeriveLayout` accepts: what `build` puts into slot
and slab passes the peer's checks and is read as the frame, and stays so until the peer has consumed it. -/
theorem round_trip (input l : Region.Layout) (log : List Exact) (hl : Region.deriveLayout input [] = .ok (l, log))
    (g : Region.ArenaGeometry) (hdir : g = l.arenaHP ∨ g = l.arenaPH) (cfg : Settings) (F : Set Frame) (s t : Sys)
    (h0 : s.Attached cfg g) (hr : Reach step (fun _ => Feeds cfg g F) s t) : RoundTrips cfg g F t := by
  obtain ⟨hgeo, -⟩ := (Region.deriveLayout_safe.of_ok hl).1
  have hg : Region.ArenaRules g := by
    rcases hdir with rfl | rfl
    · exact hgeo.arenaHP
    · exact hgeo.arenaPH
  obtain ⟨hi, hload⟩ := h0.reach hg hr
  have hslabs := hi.slabs
  refine ⟨fun hpc i late w r hc hb => ⟨fun hlive => ?_, fun d hd => ?_⟩, fun f => Frame.carried_eq,
    fun hpc i j hij hci hcj hli hlj => ?_, fun d hd => ?_⟩
  · rw [Writer.build_live hload.outlet hg hc hlive] at hb
    simp only [Writer.built] at hb
    split at hb <;> (cases hb; simp)
  · rw [hpc] at hslabs
    cases r with
    | failed => cases hd
    | stuck => cases hd
    | ok i' d' =>
      cases hd
      obtain ⟨hgen, hrec⟩ := hload.outlet.receive_build hg hslabs hc (Writer.build_ok_live hb) hb
      refine ⟨hgen, fun raw view => ?_⟩
      rw [peerSlot, RawDescriptor.load_store]
      exact hrec _ view
  · rw [Writer.build_live hload.outlet hg hci hli, Writer.build_live hload.outlet hg hcj hlj, hij]
    simp only [Writer.built]
    split <;> exact ⟨rfl, rfl⟩
  · obtain ⟨f, hf, hcar⟩ := hload.out d hd
    refine ⟨hcar.generation, f, hf, fun raw view => ?_⟩
    rw [peerSlot, RawDescriptor.load_store]
    exact hcar.receive view

def smallStart : Sys :=
  { sampleStart with w := { sampleStart.w with arena := Arena.new Calls.smallTable (fun _ => 0) 7 1, maxStored := 4096 } }

def smallSettings : Settings := ⟨true, false, 0⟩

def fillIntent : Intent := { sampleIntent with fill := some ⟨3, fun _ => ([1, 2, 3], .ok), .pending⟩ }

theorem smallStart_attached : smallStart.Attached smallSettings Region.smallLayout.arenaHP where
  start :=
    { pc := rfl
      stuck := rfl
      arena := ⟨Calls.smallTable, fun _ => 0, 7, 1, rfl⟩
      table := fun _ => rfl
      frees := rfl
      order := by decide
      fits := by decide
      unread := fun _ _ => rfl }
  empty := rfl
  checksum := rfl
  chunkingActive := rfl
  maxStored := rfl
  classes := rfl
  generation := rfl

theorem fillIntent_conveys : fillIntent.Conveys smallSettings Region.smallLayout.arenaHP where
  kind := rfl
  lane := rfl
  limit := by decide
  budget := Int.le_refl 0
  duration := isInt64_zero
  wire := by simp [fillIntent, sampleIntent]
  fill := by simp [fillIntent, sampleIntent, wirePayload, carriesStatusBody]

def smallEnd : Sys := (run step smallStart [.data fillIntent false, .push]).get (by decide +kernel)

theorem round_trip_small : ∃ log, Region.deriveLayout Region.smallInput [] = .ok (Region.smallLayout, log) ∧
    smallEnd.w.ring.outstanding.length = 1 ∧
      smallEnd.RoundTrips smallSettings Region.smallLayout.arenaHP {fillIntent.frame} := by
  obtain ⟨log, hl⟩ := Region.smallInput_derives
  have hfed : ∀ a ∈ [Act.data fillIntent false, .push],
      Feeds smallSettings Region.smallLayout.arenaHP {fillIntent.frame} a := by
    simp only [List.mem_cons, List.not_mem_nil, or_false, forall_eq_or_imp, forall_eq]
    refine ⟨fun i hi => ?_, by simp [Feeds, Act.fed]⟩
    cases hi
    exact ⟨fillIntent_conveys, rfl⟩
  exact ⟨log, hl, by decide +kernel, round_trip _ _ log hl _ (.inl rfl) smallSettings {fillIntent.frame} smallStart smallEnd
    smallStart_attached (Reach.of_run_of (Option.some_get _).symm hfed)⟩

end Sys

end Styx
