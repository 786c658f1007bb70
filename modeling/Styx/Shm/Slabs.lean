/-
Runs of `Alloc` and `Free` over one arena, with arbitrary sizes and arbitrary
handles: stale, forged, repeated or foreign.

Beside the arena a run keeps what its callers were given: every handle `Alloc`
returned (`issued`) and those whose slab no later `Free` took back (`out`). The
invariant `Tracked` says the arena's books agree with them; `Sound` is what
follows for a caller. The guard of the runs stops before the 64-bit allocation
sequence would repeat.
-/
import Mathlib.Algebra.BigOperators.Group.List.Basic
import Mathlib.Algebra.Order.BigOperators.Group.Finset
import Mathlib.Order.Interval.Finset.Nat
import Styx.Lib.Lists
import Styx.Lib.Machine
import Styx.Shm.Attach

namespace Styx

open Machine

namespace Region.ArenaRules

variable {g : ArenaGeometry}

theorem toArena_ne_nil (h : ArenaRules g) : g.classes.map SizeClass.toArena ≠ [] := by
  simpa using h.slabs.nonempty

theorem toArena_pos (h : ArenaRules g) :
    ∀ c ∈ g.classes.map SizeClass.toArena, 0 < c.slabSize ∧ 0 < c.slabCount := by
  intro c hc
  obtain ⟨c', hc', rfl⟩ := List.mem_map.mp hc
  have h1 := h.slabs.size_ge hc'
  have h2 := h.slabs.count_pos hc'
  simp only [SizeClass.toArena]
  omega

theorem toArena_fits (h : ArenaRules g) : classTotal (g.classes.map SizeClass.toArena) ≤ Styx.maxArenaBytes :=
  Nat.le_trans h.bounded.pad h.bounded.ceiling

/-- The class table an arena is built over, from the direction's validated geometry. -/
def table (h : ArenaRules g) : ClassTable where
  classes := g.classes.map SizeClass.toArena
  nonempty := h.toArena_ne_nil
  slabSize_pos := fun c hc => (h.toArena_pos c hc).1
  slabCount_pos := fun c hc => (h.toArena_pos c hc).2
  contiguous := h.contiguous
  fits := h.toArena_fits

end Region.ArenaRules

namespace Arena

def slabSize (t : ClassTable) (h : SlabHandle) : Nat :=
  match t.classes[h.cls]? with
  | some sc => sc.slabSize
  | none => 0

/-- The handle names the same allocation as far as `Free` looks. -/
def Names (g h : SlabHandle) : Prop :=
  g.owner = h.owner ∧ g.generation = h.generation ∧ g.cls = h.cls ∧ g.index = h.index ∧ g.sequence = h.sequence

theorem free_of_names {a : Arena} {g h : SlabHandle} (hg : a.Owns g) (hn : Names g h) : ∃ a', a.free h = .ok a' := by
  obtain ⟨sc, hsc, hi, -⟩ := hg.located
  obtain ⟨h1, h2, h3, h4, h5⟩ := hn
  refine ⟨a.release h sc, ?_⟩
  have hlive := hg.live
  have hne := hg.sequence
  have howner := hg.owner
  have hgen := hg.generation
  rw [h3, h4, h5] at hlive
  rw [h5] at hne
  rw [h1] at howner
  rw [h2] at hgen
  rw [h3] at hsc
  rw [h4] at hi
  simp [free, howner, hgen, locate, hsc, hi, hlive, hne]

end Arena

/-! ## Runs of calls -/

/-- An arena with what its callers hold. -/
structure Calls where
  arena : Arena
  /-- Every handle returned so far, newest first. -/
  issued : List SlabHandle
  /-- The handles whose slab has not been freed since. -/
  out : List SlabHandle

namespace Calls

inductive Call
  | alloc (size : Nat)
  | free (h : SlabHandle)

def step (s : Calls) : Call → Option Calls
  | .alloc size =>
    match s.arena.alloc size with
    | .ok r => some ⟨r.2, r.1 :: s.issued, r.1 :: s.out⟩
    | .error _ => some s
  | .free h =>
    match s.arena.free h with
    | .ok a => some { s with arena := a, out := s.out.filter fun g => decide (g.slab ≠ h.slab) }
    | .error _ => some s

/-- The allocation sequence has not wrapped. -/
def NotWrapped (s : Calls) (_ : Call) : Prop := s.issued.length < 2 ^ 64 - 1

instance {s : Calls} {c : Call} : Decidable (NotWrapped s c) := inferInstanceAs (Decidable (_ < _))

def start (t : ClassTable) (mem : Nat → UInt8) (generation : UInt32) (id : UInt64) : Calls :=
  ⟨Arena.new t mem generation id, [], []⟩

theorem step_cases {s s' : Calls} {c : Call} (h : step s c = some s') :
    s' = s ∨
      (∃ size g a, c = .alloc size ∧ s.arena.alloc size = .ok (g, a) ∧ s' = ⟨a, g :: s.issued, g :: s.out⟩) ∨
      ∃ f a, c = .free f ∧ s.arena.free f = .ok a ∧
        s' = { s with arena := a, out := s.out.filter fun g => decide (g.slab ≠ f.slab) } := by
  cases c with
  | alloc size =>
    simp only [step] at h
    split at h
    · next r hr => exact .inr (.inl ⟨size, r.1, r.2, rfl, hr, (Option.some.inj h).symm⟩)
    · exact .inl (Option.some.inj h).symm
  | free f =>
    simp only [step] at h
    split at h
    · next a ha => exact .inr (.inr ⟨f, a, rfl, ha, (Option.some.inj h).symm⟩)
    · exact .inl (Option.some.inj h).symm

/-- The arena's books agree with what its callers hold. -/
structure Tracked (t : ClassTable) (s : Calls) : Prop where
  table : s.arena.table = t
  wf : s.arena.WF
  /-- Every slab but the reserved one is free or live. -/
  cover : ∀ c sc, t.classes[c]? = some sc → ∀ i < sc.slabCount, ¬ (c = 0 ∧ i = 0) →
    i ∈ (s.arena.pools c).free ∨ (s.arena.pools c).liveSeq i ≠ 0
  reserved : s.arena.ZeroKept
  owned : ∀ g ∈ s.out, s.arena.Owns g
  nodup : (s.out.map SlabHandle.slab).Nodup
  live : ∀ x ∈ s.arena.live, ∃ g ∈ s.out, g.slab = x
  occupancy : s.arena.occupancy = UInt64.ofNat ((s.out.map (Arena.slabSize t)).sum)
  sub : ∀ g ∈ s.out, g ∈ s.issued
  next : s.issued.length < 2 ^ 64 - 1 → s.arena.nextSeq.toNat = s.issued.length + 1
  older : s.issued.Pairwise fun g h => h.sequence.toNat < g.sequence.toNat
  bounded : ∀ g ∈ s.issued, g.sequence.toNat ≤ s.issued.length

theorem Tracked.start {t : ClassTable} {mem : Nat → UInt8} {generation : UInt32} {id : UInt64} :
    Tracked t (start t mem generation id) := by
  have hlive : (Arena.new t mem generation id).live = ∅ := Arena.new_live
  refine ⟨rfl, Arena.new_wf, fun c sc hsc i hi hz => .inl ?_, Arena.new_zeroKept, by simp [Calls.start], by simp [Calls.start],
    fun x hx => ?_, rfl, by simp [Calls.start], fun _ => rfl, .nil, by simp [Calls.start]⟩
  · simp only [Calls.start, Arena.new, hsc, newClassState]
    by_cases hc : c = 0
    · subst hc
      rw [List.mem_iff_getElem]
      refine ⟨i - 1, by simp; omega, ?_⟩
      simp
      omega
    · simp [hc, hi]
  · rw [Calls.start, hlive] at hx
    exact hx.elim

variable {a : Arena} {g f : SlabHandle}

theorem Tracked.alloc {t : ClassTable} {s : Calls} {size : Nat} (h : Tracked t s)
    (hn : s.issued.length < 2 ^ 64 - 1) (he : s.arena.alloc size = .ok (g, a)) :
    Tracked t ⟨a, g :: s.issued, g :: s.out⟩ := by
  obtain ⟨ho, -, hfresh, hlive, hwf, hkeep, htable⟩ := Arena.alloc_ok h.wf he
  have hzero := (h.reserved.alloc he).1
  obtain ⟨ci, sc, idx, rest, -, -, hsc, hfree, rfl, rfl⟩ := Arena.alloc_eq_ok he
  rw [h.table] at hsc
  have hnext := h.next hn
  refine ⟨htable.trans h.table, hwf, fun c sc' hsc' i hi hz => ?_, hzero, ?_, ?_, ?_, ?_, ?_, ?_, ?_, ?_⟩
  · have hold := h.cover c sc' hsc' i hi hz
    by_cases hc : c = ci
    · subst hc
      by_cases hidx : i = idx
      · subst hidx
        exact .inr (by simp [Arena.setPool, h.wf.nextSeq])
      · rw [hfree, List.mem_cons] at hold
        simpa [Arena.setPool, hidx] using hold
    · simpa [Arena.setPool, hc] using hold
  · exact List.forall_mem_cons.mpr ⟨ho, fun x hx => hkeep x (h.owned x hx)⟩
  · rw [List.map_cons, List.nodup_cons]
    refine ⟨fun hm => ?_, h.nodup⟩
    obtain ⟨x, hx, hslab⟩ := List.mem_map.mp hm
    have hx := h.owned x hx
    rw [← hslab] at hfresh
    exact hfresh (by simpa [Arena.live, SlabHandle.slab, hx.live] using hx.sequence)
  · intro x hx
    rw [hlive] at hx
    rcases hx with rfl | hx
    · exact ⟨_, by simp, rfl⟩
    · obtain ⟨y, hy, rfl⟩ := h.live x hx
      exact ⟨y, by simp [hy], rfl⟩
  · simp only [List.map_cons, List.sum_cons, UInt64.ofNat_add, Arena.slabSize, hsc]
    rw [h.occupancy, UInt64.add_comm]
  · exact List.forall_mem_cons.mpr ⟨by simp, fun x hx => by simp [h.sub x hx]⟩
  · intro hlt
    simp only [List.length_cons] at hlt ⊢
    have hone : (s.arena.nextSeq + 1).toNat = s.issued.length + 2 := by
      rw [UInt64.toNat_add, hnext]
      exact Nat.mod_eq_of_lt (by change _ + 1 + 1 < 2 ^ 64; omega)
    have hne : s.arena.nextSeq + 1 ≠ 0 := fun h0 => by
      rw [h0] at hone
      simp at hone
    rw [Arena.succSeq, if_neg hne, hone]
  · refine .cons (fun x hx => ?_) h.older
    have := h.bounded x hx
    simp only
    omega
  · refine List.forall_mem_cons.mpr ⟨?_, fun x hx => ?_⟩
    · simp only [List.length_cons]
      omega
    · have := h.bounded x hx
      simp only [List.length_cons]
      omega

theorem Tracked.names_of_free {t : ClassTable} {s : Calls} (h : Tracked t s)
    (he : s.arena.free f = .ok a) : ∃ g ∈ s.out, Arena.Names g f := by
  obtain ⟨sc, howner, hgen, -, -, hlive, hne, -⟩ := Arena.free_eq_ok he
  obtain ⟨g, hg, hslab⟩ := h.live (f.cls, f.index) (by simp [Arena.live, hlive, hne])
  have ho := h.owned g hg
  have hcls : g.cls = f.cls := congrArg Prod.fst hslab
  have hidx : g.index = f.index := congrArg Prod.snd hslab
  refine ⟨g, hg, ho.owner.trans howner.symm, ho.generation.trans hgen.symm, hcls, hidx, ?_⟩
  rw [← ho.live, hcls, hidx, hlive]

theorem Tracked.free {t : ClassTable} {s : Calls} (h : Tracked t s)
    (he : s.arena.free f = .ok a) :
    Tracked t { s with arena := a, out := s.out.filter fun g => decide (g.slab ≠ f.slab) } := by
  obtain ⟨g, hg, -, -, hcls, hidx, -⟩ := h.names_of_free he
  have hzero := h.reserved.freed he
  obtain ⟨sc, -, -, hsc, hi, -, -, rfl⟩ := Arena.free_eq_ok he
  -- `Free` acts on the class and index only, so it did what freeing `g` would do
  have hrel : s.arena.release f sc = s.arena.release g sc := by simp only [Arena.release, hcls, hidx]
  have hslab : f.slab = g.slab := by simp [SlabHandle.slab, hcls, hidx]
  have ho := h.owned g hg
  rw [hrel] at hzero ⊢
  rw [hslab]
  rw [← hcls, h.table] at hsc
  refine ⟨h.table, h.wf.release ho, fun c sc' hsc' i hi hz => ?_, hzero, fun x hx => ?_, ?_, fun x hx => ?_, ?_,
    fun x hx => ?_, h.next, h.older, h.bounded⟩
  · have hold := h.cover c sc' hsc' i hi hz
    by_cases hc : c = g.cls
    · subst hc
      by_cases hidx : i = g.index
      · subst hidx
        exact .inl (by simp [Arena.release, Arena.setPool])
      · simpa [Arena.release, Arena.setPool, hidx] using hold
    · simpa [Arena.release, Arena.setPool, hc] using hold
  · obtain ⟨hx, hne⟩ := List.mem_filter.mp hx
    exact (h.owned x hx).release (by simpa using hne)
  · exact h.nodup.sublist (List.filter_sublist.map _)
  · rw [Arena.release_live] at hx
    obtain ⟨y, hy, rfl⟩ := h.live x hx.1
    exact ⟨y, List.mem_filter.mpr ⟨hy, by simpa using hx.2⟩, rfl⟩
  · have hperm := Lists.perm_cons_filter h.nodup hg
    have hsum := (hperm.map (Arena.slabSize t)).sum_eq
    simp only [Arena.release]
    rw [h.occupancy, hsum, List.map_cons, List.sum_cons, UInt64.ofNat_add, Arena.slabSize, hsc]
    simp only
    rw [UInt64.add_comm, UInt64.add_sub_cancel]
  · exact h.sub x (List.mem_of_mem_filter hx)

theorem Tracked.step {t : ClassTable} {s s' : Calls} {c : Call} (h : Tracked t s) (hn : NotWrapped s c)
    (he : Calls.step s c = some s') : Tracked t s' := by
  rcases step_cases he with rfl | ⟨size, g, a, rfl, ha, rfl⟩ | ⟨f, a, rfl, ha, rfl⟩
  · exact h
  · exact h.alloc hn ha
  · exact h.free ha

/-! ## What a caller relies on -/

/-- Class `c` is the smallest that fits `size`. -/
def Smallest (t : ClassTable) (size c : Nat) : Prop :=
  ∃ sc, t.classes[c]? = some sc ∧ size ≤ sc.slabSize ∧
    ∀ (c' : Nat) (sc' : SizeClass), t.classes[c']? = some sc' → size ≤ sc'.slabSize → sc.slabSize ≤ sc'.slabSize

/-- The allocator invariant, over the handles its callers hold. -/
structure Sound (t : ClassTable) (bytes : Nat) (s : Calls) : Prop where
  /-- Per class the free list and the live indices share nothing, repeat nothing, and are
  together every index but index 0 of class 0. -/
  partition : ∀ c sc, t.classes[c]? = some sc →
    (s.arena.pools c).free.Nodup ∧
      ∀ i, (¬ (i ∈ (s.arena.pools c).free ∧ (c, i) ∈ s.arena.live)) ∧
        (i ∈ (s.arena.pools c).free ∨ (c, i) ∈ s.arena.live ↔ i < sc.slabCount ∧ ¬ (c = 0 ∧ i = 0))
  /-- A live slab has exactly one handle out. -/
  handles : (s.out.map SlabHandle.slab).Nodup ∧ ∀ x, x ∈ s.arena.live ↔ x ∈ s.out.map SlabHandle.slab
  disjoint : s.out.Pairwise fun g h =>
    g.offset + Arena.slabSize t g ≤ h.offset ∨ h.offset + Arena.slabSize t h ≤ g.offset
  inside : ∀ g ∈ s.out, 0 < g.offset ∧ g.offset + Arena.slabSize t g ≤ bytes
  /-- The 32-bit offset is the exact one, and so is its slab's end. -/
  exact : ∀ g ∈ s.out, ∃ sc, t.classes[g.cls]? = some sc ∧ g.offset = sc.classBaseOffset + g.index * sc.slabSize ∧
    g.offset + sc.slabSize < 2 ^ 32
  occupancy : s.arena.occupancy.toNat = (s.out.map (Arena.slabSize t)).sum
  alloc : ∀ size, (∃ h a, s.arena.alloc size = .ok (h, a)) ↔
    size ≠ 0 ∧ ∃ c, Smallest t size c ∧ (s.arena.pools c).free ≠ []
  free : ∀ h, (∃ a, s.arena.free h = .ok a) ↔ ∃ g ∈ s.out, Arena.Names g h
  /-- A handle `Alloc` returned is accepted until its slab is freed, and never after. -/
  freeIssued : ∀ h ∈ s.issued, (∃ a, s.arena.free h = .ok a) ↔ h ∈ s.out

variable {t : ClassTable} {s : Calls}

theorem mem_live_iff {c i : Nat} : (c, i) ∈ a.live ↔ (a.pools c).liveSeq i ≠ 0 := Iff.rfl

theorem Tracked.mem_live (h : Tracked t s) {x : Nat × Nat} : x ∈ s.arena.live ↔ x ∈ s.out.map SlabHandle.slab := by
  constructor
  · intro hx
    obtain ⟨g, hg, rfl⟩ := h.live x hx
    exact List.mem_map_of_mem hg
  · intro hx
    obtain ⟨g, hg, rfl⟩ := List.mem_map.mp hx
    have ho := h.owned g hg
    exact mem_live_iff.mpr (by rw [ho.live]; exact ho.sequence)

theorem Tracked.partition (h : Tracked t s) {c : Nat} {sc : SizeClass} (hsc : t.classes[c]? = some sc) (i : Nat) :
    (i ∈ (s.arena.pools c).free ∨ (c, i) ∈ s.arena.live) ↔ i < sc.slabCount ∧ ¬ (c = 0 ∧ i = 0) := by
  constructor
  · intro hi
    constructor
    · rcases hi with hi | hi
      · exact h.wf.inRange c sc (by rw [h.table]; exact hsc) i hi
      · obtain ⟨g, hg, hslab⟩ := h.live _ hi
        obtain ⟨sc', hsc', hlt, -⟩ := (h.owned g hg).located
        obtain ⟨rfl, rfl⟩ := Prod.mk.inj hslab
        rw [h.table, hsc] at hsc'
        obtain rfl := Option.some.inj hsc'
        exact hlt
    · rintro ⟨rfl, rfl⟩
      rcases hi with hi | hi
      · exact h.reserved.free hi
      · exact hi h.reserved.live
  · rintro ⟨hi, hz⟩
    exact h.cover c sc hsc i hi hz

theorem Tracked.placed (h : Tracked t s) (hg : g ∈ s.out) :
    ∃ sc, t.classes[g.cls]? = some sc ∧ g.index < sc.slabCount ∧ Arena.slabSize t g = sc.slabSize ∧
      g.offset = sc.classBaseOffset + g.index * sc.slabSize ∧
      g.offset + sc.slabSize ≤ sc.classBaseOffset + sc.slabSize * sc.slabCount ∧ 0 < g.offset := by
  have ho := h.owned g hg
  obtain ⟨sc, hsc, hi, hoff⟩ := ho.located
  rw [h.table] at hsc
  have hmem := List.mem_of_getElem? hsc
  obtain ⟨hexact, hend⟩ := t.offsetOf_eq hmem hi
  have hne : g.cls ≠ 0 ∨ g.index ≠ 0 := by
    by_contra h0
    rw [not_or, not_not, not_not] at h0
    exact ho.sequence (by rw [← ho.live, h0.1, h0.2, h.reserved.live])
  exact ⟨sc, hsc, hi, by simp [Arena.slabSize, hsc], by rw [hoff, hexact], by rw [hoff]; exact hend,
    by rw [hoff]; exact t.offsetOf_pos hsc hi hne⟩

theorem Tracked.disjoint (h : Tracked t s) (hg : g ∈ s.out) (hf : f ∈ s.out)
    (hne : g.slab ≠ f.slab) :
    g.offset + Arena.slabSize t g ≤ f.offset ∨ f.offset + Arena.slabSize t f ≤ g.offset := by
  obtain ⟨sc, hsc, hi, hoff⟩ := (h.owned g hg).located
  obtain ⟨sc', hsc', hi', hoff'⟩ := (h.owned f hf).located
  rw [h.table] at hsc hsc'
  simp only [Arena.slabSize, hsc, hsc', hoff, hoff']
  exact t.offsetOf_disjoint hsc hsc' hi hi' fun he => hne (by simpa [SlabHandle.slab] using he)

/-- Held slabs are disjoint ranges of the arena, so their sizes add up to no more than it. -/
theorem Tracked.occupancy_le (h : Tracked t s) : (s.out.map (Arena.slabSize t)).sum ≤ classTotal t.classes := by
  have hnd : s.out.Nodup := h.nodup.of_map
  let range : SlabHandle → Finset Nat := fun g => Finset.Ico g.offset (g.offset + Arena.slabSize t g)
  have hdisj : ∀ g ∈ s.out.toFinset, ∀ f ∈ s.out.toFinset, g ≠ f → Disjoint (range g) (range f) := by
    intro g hg f hf hne
    rw [List.mem_toFinset] at hg hf
    have hslab : g.slab ≠ f.slab := fun he => hne (List.inj_on_of_nodup_map h.nodup hg hf he)
    have := h.disjoint hg hf hslab
    rw [Finset.disjoint_left]
    intro x hx hx'
    simp only [range, Finset.mem_Ico] at hx hx'
    omega
  have hsub : s.out.toFinset.biUnion range ⊆ Finset.range (classTotal t.classes) := by
    intro x hx
    obtain ⟨g, hg, hx⟩ := Finset.mem_biUnion.mp hx
    obtain ⟨sc, hsc, -, hsize, -, hend, -⟩ := h.placed (List.mem_toFinset.mp hg)
    have hlast := t.contiguous.end_le sc (List.mem_of_getElem? hsc)
    simp only [range, Finset.mem_Ico] at hx
    rw [Finset.mem_range]
    omega
  calc (s.out.map (Arena.slabSize t)).sum = ∑ g ∈ s.out.toFinset, Arena.slabSize t g := (List.sum_toFinset _ hnd).symm
    _ = ∑ g ∈ s.out.toFinset, (range g).card := by simp [range]
    _ = (s.out.toFinset.biUnion range).card := (Finset.card_biUnion hdisj).symm
    _ ≤ (Finset.range (classTotal t.classes)).card := Finset.card_le_card hsub
    _ = classTotal t.classes := Finset.card_range _

/-- In a table of ascending sizes the first class that fits is the smallest that does. -/
theorem selectClass_iff_smallest (hasc : t.classes.Pairwise fun c c' => c.slabSize < c'.slabSize) {size c : Nat} :
    selectClass t.classes size = some c ↔ Smallest t size c := by
  have hasc := List.pairwise_iff_getElem.mp hasc
  unfold selectClass
  rw [List.findIdx?_eq_some_iff_getElem]
  constructor
  · rintro ⟨hc, hfit, hfirst⟩
    refine ⟨t.classes[c], List.getElem?_eq_getElem hc, by simpa using hfit, fun c' sc' hsc' hfit' => ?_⟩
    obtain ⟨hc', rfl⟩ := List.getElem?_eq_some_iff.mp hsc'
    rcases Nat.lt_trichotomy c c' with hlt | rfl | hgt
    · exact Nat.le_of_lt (hasc c c' hc hc' hlt)
    · exact Nat.le_refl _
    · exact absurd (by simpa using hfit') (hfirst c' hgt)
  · rintro ⟨sc, hsc, hfit, hmin⟩
    obtain ⟨hc, rfl⟩ := List.getElem?_eq_some_iff.mp hsc
    refine ⟨hc, by simpa using hfit, fun j hj hfit' => ?_⟩
    have hle := hmin j _ (List.getElem?_eq_getElem (by omega)) (by simpa using hfit')
    have hlt := hasc j c (by omega) hc hj
    omega

theorem Tracked.alloc_iff (h : Tracked t s) (hasc : t.classes.Pairwise fun c c' => c.slabSize < c'.slabSize)
    (size : Nat) : (∃ g a, s.arena.alloc size = .ok (g, a)) ↔
      size ≠ 0 ∧ ∃ c, Smallest t size c ∧ (s.arena.pools c).free ≠ [] := by
  constructor
  · rintro ⟨g, a, he⟩
    obtain ⟨ci, sc, idx, rest, hsize, hsel, -, hfree, -, -⟩ := Arena.alloc_eq_ok he
    rw [h.table] at hsel
    exact ⟨hsize, ci, (selectClass_iff_smallest hasc).mp hsel, by simp [hfree]⟩
  · rintro ⟨hsize, c, hsm, hfree⟩
    have hsel := (selectClass_iff_smallest hasc).mpr hsm
    obtain ⟨sc, hsc, -⟩ := hsm
    obtain ⟨idx, rest, hpool⟩ := List.exists_cons_of_ne_nil hfree
    simp [Arena.alloc, hsize, h.table, hsel, hsc, hpool]

theorem Tracked.free_iff (h : Tracked t s) (f : SlabHandle) :
    (∃ a, s.arena.free f = .ok a) ↔ ∃ g ∈ s.out, Arena.Names g f := by
  constructor
  · rintro ⟨a, he⟩
    exact h.names_of_free he
  · rintro ⟨g, hg, hn⟩
    exact Arena.free_of_names (h.owned g hg) hn

theorem Tracked.sequence_inj (h : Tracked t s) (hg : g ∈ s.issued) (hf : f ∈ s.issued)
    (he : g.sequence = f.sequence) : g = f := by
  have hnd : (s.issued.map SlabHandle.sequence).Nodup := by
    rw [List.Nodup, List.pairwise_map]
    refine h.older.imp fun {a b} hlt heq => ?_
    rw [heq] at hlt
    omega
  exact List.inj_on_of_nodup_map hnd hg hf he

theorem Tracked.free_issued_iff (h : Tracked t s) (hf : f ∈ s.issued) :
    (∃ a, s.arena.free f = .ok a) ↔ f ∈ s.out := by
  rw [h.free_iff]
  constructor
  · rintro ⟨g, hg, hn⟩
    rw [← h.sequence_inj (h.sub g hg) hf hn.2.2.2.2]
    exact hg
  · intro hf
    exact ⟨f, hf, rfl, rfl, rfl, rfl, rfl⟩

theorem Tracked.sound (h : Tracked t s) (hasc : t.classes.Pairwise fun c c' => c.slabSize < c'.slabSize)
    {bytes : Nat} (hb : classTotal t.classes ≤ bytes) : Sound t bytes s := by
  have hfits : classTotal t.classes ≤ 2 ^ 32 - 1 := t.fits
  refine ⟨fun c sc hsc => ⟨h.wf.nodup c, fun i => ⟨?_, h.partition hsc i⟩⟩, ⟨h.nodup, fun x => h.mem_live⟩, ?_,
    fun g hg => ?_, fun g hg => ?_, ?_, h.alloc_iff hasc, h.free_iff, fun f hf => h.free_issued_iff hf⟩
  · rintro ⟨hf, hl⟩
    exact hl (h.wf.dead c i hf)
  · refine List.Pairwise.imp_of_mem (fun hg hf hne => h.disjoint hg hf hne) (List.pairwise_map.mp h.nodup)
  · obtain ⟨sc, hsc, -, hsize, -, hend, hpos⟩ := h.placed hg
    have hlast := t.contiguous.end_le sc (List.mem_of_getElem? hsc)
    rw [hsize]
    exact ⟨hpos, by omega⟩
  · obtain ⟨sc, hsc, -, -, hoff, hend, -⟩ := h.placed hg
    have hlast := t.contiguous.end_le sc (List.mem_of_getElem? hsc)
    exact ⟨sc, hsc, hoff, by omega⟩
  · have hle := h.occupancy_le
    rw [h.occupancy]
    exact UInt64.toNat_ofNat_of_lt' (by change _ < 2 ^ 64; omega)

/-- **The allocator invariant.** Over either class table of a derived layout and any calls before
the allocation sequence wraps, every state is sound. -/
theorem run_sound (input l : Region.Layout) (log : List Exact) (hl : Region.deriveLayout input [] = .ok (l, log))
    (g : Region.ArenaGeometry) (hg : g = l.arenaHP ∨ g = l.arenaPH) (t : ClassTable)
    (ht : t.classes = g.classes.map Region.SizeClass.toArena) (mem : Nat → UInt8) (generation : UInt32) (id : UInt64)
    (s : Calls) (hs : Reach step NotWrapped (start t mem generation id) s) : Sound t g.bytes.toNat s := by
  have hrules : Region.ArenaRules g := by
    obtain ⟨hgeo, -⟩ := (Region.deriveLayout_safe.of_ok hl).1
    rcases hg with rfl | rfl
    · exact hgeo.arenaHP
    · exact hgeo.arenaPH
  have htracked : Tracked t s := hs.invariant .start fun ht hn he => ht.step hn he
  refine htracked.sound ?_ ?_
  · rw [ht, List.pairwise_map]
    exact hrules.slabs.ascending.imp fun hlt => UInt32.lt_iff_toNat_lt.mp hlt
  · rw [ht]
    exact hrules.bounded.pad

def smallTable : ClassTable where
  classes := [⟨64, 3, 0⟩, ⟨4096, 1, 192⟩]
  nonempty := by decide
  slabSize_pos := by decide
  slabCount_pos := by decide
  contiguous := by decide
  fits := by decide

def tenBytes : Calls := ((start smallTable (fun _ => 0) 7 1).step (.alloc 10)).get (by decide)

theorem reach_tenBytes : Reach step NotWrapped (start smallTable (fun _ => 0) 7 1) tenBytes :=
  .tail .refl (by decide) (Option.some_get _).symm

theorem run_sound_small :
    ∃ log, Region.deriveLayout Region.smallInput [] = .ok (Region.smallLayout, log) ∧
      Reach step NotWrapped (start smallTable (fun _ => 0) 7 1) tenBytes ∧ tenBytes.out.length = 1 ∧
      Sound smallTable 8192 tenBytes := by
  obtain ⟨log, h⟩ := Region.smallInput_derives
  exact ⟨log, h, reach_tenBytes, by decide,
    run_sound Region.smallInput Region.smallLayout log h Region.smallLayout.arenaHP (.inl rfl) smallTable rfl
      (fun _ => 0) 7 1 tenBytes reach_tenBytes⟩

/-- The handle of that allocation with another length written into it. -/
def relabelled : SlabHandle := { (tenBytes.out.head (by decide)) with length := 11 }

/-- `Alloc(0)` fails with a slab of the smallest class free, and `Free` takes a handle no `Alloc` returned. -/
theorem alloc_zero_free_relabelled :
    Reach step NotWrapped (start smallTable (fun _ => 0) 7 1) tenBytes ∧
      (Smallest smallTable 0 0 ∧ (tenBytes.arena.pools 0).free ≠ [] ∧
        ¬ ∃ h a, tenBytes.arena.alloc 0 = .ok (h, a)) ∧
      (relabelled ∉ tenBytes.issued ∧ ∃ a, tenBytes.arena.free relabelled = .ok a) := by
  refine ⟨reach_tenBytes, ⟨⟨⟨64, 3, 0⟩, rfl, by decide, ?_⟩, by decide, ?_⟩, by decide, _, rfl⟩
  · intro c' sc' hsc' _
    have : sc' ∈ smallTable.classes := List.mem_of_getElem? hsc'
    simp only [smallTable, List.mem_cons, List.not_mem_nil, or_false] at this
    rcases this with rfl | rfl <;> decide
  · rintro ⟨h, a, he⟩
    cases he

end Calls

end Styx
