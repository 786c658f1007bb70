/-
The length and class checks of the peer, over whole runs: whatever a writer is fed, every
descriptor it puts out is one `payloadBytes` finds a slab for.

`Loaded` says more of frames that convey; this says of every frame that its slab is in
bounds, since what the peer checks of a slab is in the descriptor alone and is fixed by the
build.
-/
import Styx.Shm.RoundTrip

namespace Styx

open Sequence Machine

namespace Writer

variable {w w' : Writer} {cfg : Settings} {g : Region.ArenaGeometry} {d : Descriptor}

theorem Outlet.maxMsg (ho : w.Outlet cfg g) (hg : Region.ArenaRules g) :
    w.maxMsg = (slabSizeLast g).toNat - (w.crcTrailer : Int) := by
  obtain ⟨c, -, hlast, hsize⟩ := hg.last
  rw [Writer.maxMsg, ho.maxStored, if_pos]
  intro h0
  rw [← hlast, h0] at hsize
  simp at hsize

/-- The peer's length and class checks pass. -/
def Fits (cfg : Settings) (g : Region.ArenaGeometry) (d : Descriptor) : Prop :=
  ∀ gen, ∃ off, (cfg.inlet g gen).slab d = .ok off

theorem Fits.bare (hlen : d.payloadLength = 0)
    (hflags : d.flags = 0) (hoff : d.payloadOffset = 0) (hseq : d.allocSeq = 0) : Fits cfg g d := by
  have hstored : d.storedLen = 0 := by simp [Descriptor.storedLen, Descriptor.hasCRC, hlen, hflags]
  exact fun gen => ⟨none, by simp [Inlet.slab, hstored, hoff, hseq]⟩

/-- **Whatever is built passes the peer's length and class checks.** -/
theorem Outlet.fits_build {i i' : Intent} {late : Bool}
    {carried : Option SlabHandle} (ho : w.Outlet cfg g) (hg : Region.ArenaRules g) (hi : w.Inv none carried)
    (he : w.build i late = (w', .ok i' d)) : Fits cfg g d := by
  have ho' : ({ w with pendingSlab := none } : Writer).Outlet cfg g := Outlet.closed.pending (c := none) none ho
  have hi' : ({ w with pendingSlab := none } : Writer).Inv none carried := hi.congr rfl rfl rfl rfl rfl
  cases build_cases he with
  | bare | empty => exact .bare rfl rfl rfl rfl
  | @stamped rk h a n _ _ _ _ _ hn ha =>
    have hrec : (Writer.reclaim { w with pendingSlab := none } w.ring.capacity).Outlet cfg g := ho'.reclaim
    have htr := ho'.crcTrailer.trans hrec.crcTrailer.symm
    rw [ho'.maxMsg hg, htr] at hn
    rw [htr] at ha
    exact fun gen => ⟨_, hrec.slab_stamped hg (hi'.reclaim (by simp)).1.custody.wf (by omega) ha rfl gen⟩

end Writer

namespace Sys

open Writer (Fits)

variable {cfg : Settings} {g : Region.ArenaGeometry} {s t : Sys} {d : Descriptor} {a : Act}

/-- Every descriptor the writer holds or has out fits. -/
structure Fitting (cfg : Settings) (g : Region.ArenaGeometry) (s : Sys) : Prop where
  outlet : s.w.Outlet cfg g
  stuck : ∀ c ∈ s.stuck, ∀ d ∈ c.d, Fits cfg g d
  ready : ∀ c d, s.pc = .ready c d → c.d = some d ∧ Fits cfg g d
  readyLifecycle : ∀ i d, s.pc = .readyLifecycle i d → Fits cfg g d
  out : ∀ d ∈ s.w.ring.outstanding, Fits cfg g d

theorem Fitting.placed {c : Carry} {late : Bool} (hf : s.Fitting cfg g) (hp : s.Places a c late) :
    ∀ d ∈ c.d, Fits cfg g d := by
  cases hp with
  | data => simp
  | retry hst => exact hf.stuck c hst

/-- **Every step keeps what is out within the peer's checks**, whatever the writer is fed. -/
theorem Fitting.step (hf : s.Fitting cfg g) (hg : Region.ArenaRules g) (hi : s.Inv) (h : s.step a = some t) :
    t.Fitting cfg g := by
  have hslabs := hi.slabs
  have ho := hf.outlet
  have ho' := (seen_step h).outlet ho
  cases seen_step h with
  | rest hpc hw hst =>
    refine ⟨ho', fun c hc => ?_, fun _ _ h => ?_, fun _ _ h => ?_,
      (hw _ Keeps.freed Keeps.refl).ring ▸ hf.out⟩
    · rcases hst c hc with hc | ⟨d, hc⟩
      · exact hf.stuck c hc
      · obtain ⟨hd, hfits⟩ := hf.ready c d hc
        exact fun d' hd' => Option.some.inj (hd.symm.trans hd') ▸ hfits
    all_goals rcases hpc with rfl | rfl <;> cases h
  | same hw =>
    exact ⟨ho', hf.stuck, hf.ready, hf.readyLifecycle,
      (hw _ Keeps.freed Keeps.refl).ring ▸ hf.out⟩
  | resumed hp hd =>
    refine ⟨ho, by simp, fun c' d' h => ?_, fun _ _ h => (by cases h), hf.out⟩
    cases h
    exact ⟨hd, hf.placed hp _ hd⟩
  | tried _ hp _ hx hst =>
    exact ⟨ho', fun c' hc' => hst c' hc' ▸ hf.placed hp, fun _ _ h => (by cases h),
      fun _ _ h => (by cases h), (Writer.build_frame hx).1.ring ▸ hf.out⟩
  | built hpc _ _ hx =>
    rw [hpc] at hslabs
    refine ⟨ho', by simp, fun c' d' h => ?_, fun _ _ h => (by cases h),
      (Writer.build_frame hx).1.ring ▸ hf.out⟩
    cases h
    exact ⟨rfl, ho.fits_build hg hslabs hx⟩
  | lifecycle hpc _ _ hx =>
    rw [hpc] at hslabs
    refine ⟨ho', hf.stuck, fun _ _ h => (by cases h), fun i'' d' h => ?_,
      (Writer.build_frame hx).1.ring ▸ hf.out⟩
    cases h
    exact ho.fits_build hg hslabs hx
  | @pushed i d r ref _ _ hpc hr =>
    have hfits : Fits cfg g d := by
      rcases hpc with ⟨c, hpc, -⟩ | hpc
      · exact (hf.ready c d hpc).2
      · exact hf.readyLifecycle i d hpc
    refine ⟨ho', hf.stuck, fun _ _ h => (by cases h), fun _ _ h => (by cases h), fun d' hm => ?_⟩
    rw [show ({ s.w with ring := r } : Writer).ring.outstanding = s.w.ring.outstanding ++ [d] from Ring.outstanding_push hr,
      List.mem_append, List.mem_singleton] at hm
    rcases hm with hm | rfl
    · exact hf.out d' hm
    · exact hfits
  | advance hne =>
    refine ⟨ho', hf.stuck, hf.ready, hf.readyLifecycle, fun d hd => hf.out d ?_⟩
    rw [Ring.outstanding_advance hne]
    exact List.mem_cons_of_mem _ hd
  | @abandon c hc =>
    refine ⟨ho, fun c' hc' => ?_, hf.ready, hf.readyLifecycle, hf.out⟩
    obtain rfl := Option.mem_some_iff.mp hc'
    exact hf.stuck c hc

theorem Attached.fitting (h : s.Attached cfg g) : s.Fitting cfg g := by
  have hl : s.Loaded cfg g ∅ := h.loaded
  refine ⟨hl.outlet, ?_, ?_, ?_, ?_⟩
  · simp [h.start.stuck]
  · simp [h.start.pc]
  · simp [h.start.pc]
  · simp [Ring.outstanding, h.empty]

end Sys

end Styx
