/-
The slab arena of `internal/arena`: size classes, a free stack and a table of live
allocation sequences per class, and handles that name one allocation.

The class table is a structure with the layout rules as fields: it is what `internal/shm`
derives or validates before an arena is built over it, and the arena trusts it.
-/
import Mathlib.Tactic.Ring
import Styx.Transport.Frame

namespace Styx

open Function

structure SizeClass where
  slabSize : Nat
  slabCount : Nat
  classBaseOffset : Nat
  deriving DecidableEq

/-- Bases run contiguously from `b`: each class starts where the one before it ends. -/
def contiguousFrom : Nat → List SizeClass → Prop
  | _, [] => True
  | b, c :: cs => c.classBaseOffset = b ∧ contiguousFrom (b + c.slabSize * c.slabCount) cs

instance : ∀ {b : Nat} {cs : List SizeClass}, Decidable (contiguousFrom b cs)
  | _, [] => inferInstanceAs (Decidable True)
  | b, c :: cs =>
    have : Decidable (contiguousFrom (b + c.slabSize * c.slabCount) cs) := instDecidableContiguousFrom
    inferInstanceAs (Decidable (_ ∧ _))

def classTotal (cs : List SizeClass) : Nat := (cs.map fun c => c.slabSize * c.slabCount).sum

/-- The arena ceiling: 4 GiB − 1. -/
def maxArenaBytes : Nat := 2 ^ 32 - 1

/-- A direction's size-class table as a region carries it. -/
structure ClassTable where
  classes : List SizeClass
  nonempty : classes ≠ []
  slabSize_pos : ∀ c ∈ classes, 0 < c.slabSize
  slabCount_pos : ∀ c ∈ classes, 0 < c.slabCount
  contiguous : contiguousFrom 0 classes
  fits : classTotal classes ≤ maxArenaBytes

variable {cs : List SizeClass} {b : Nat}

theorem contiguousFrom.base_ge (h : contiguousFrom b cs) : ∀ c ∈ cs, b ≤ c.classBaseOffset := by
  induction cs generalizing b with
  | nil => simp
  | cons c cs ih =>
    intro x hx
    simp only [contiguousFrom] at h
    rcases List.mem_cons.mp hx with rfl | hx
    · omega
    · exact Nat.le_trans (Nat.le_add_right _ _) (ih h.2 x hx)

theorem contiguousFrom.ordered (h : contiguousFrom b cs) :
    cs.Pairwise fun c c' => c.classBaseOffset + c.slabSize * c.slabCount ≤ c'.classBaseOffset := by
  induction cs generalizing b with
  | nil => exact .nil
  | cons c cs ih =>
    simp only [contiguousFrom] at h
    refine .cons (fun x hx => ?_) (ih h.2)
    rw [h.1]
    exact h.2.base_ge x hx

theorem contiguousFrom.end_le (h : contiguousFrom b cs) :
    ∀ c ∈ cs, c.classBaseOffset + c.slabSize * c.slabCount ≤ b + classTotal cs := by
  induction cs generalizing b with
  | nil => simp
  | cons c cs ih =>
    intro x hx
    simp only [contiguousFrom] at h
    simp only [classTotal, List.map_cons, List.sum_cons]
    rcases List.mem_cons.mp hx with rfl | hx
    · omega
    · have := ih h.2 x hx
      simp only [classTotal] at this
      omega

/-- Where a slab of a class starts, computed in 32 bits as `Alloc` does. -/
def SizeClass.offsetOf (c : SizeClass) (idx : Nat) : Nat := (c.classBaseOffset + idx * c.slabSize) % 2 ^ 32

namespace ClassTable

variable {c c' : SizeClass} {i n n' i' : Nat}

theorem offsetOf_eq (t : ClassTable) (hc : c ∈ t.classes) (hi : i < c.slabCount) :
    c.offsetOf i = c.classBaseOffset + i * c.slabSize ∧
      c.offsetOf i + c.slabSize ≤ c.classBaseOffset + c.slabSize * c.slabCount := by
  have hend := t.contiguous.end_le c hc
  have hfits := t.fits
  have hmul : i * c.slabSize + c.slabSize ≤ c.slabSize * c.slabCount := by
    calc i * c.slabSize + c.slabSize = (i + 1) * c.slabSize := by ring
      _ ≤ c.slabCount * c.slabSize := Nat.mul_le_mul_right _ hi
      _ = c.slabSize * c.slabCount := Nat.mul_comm _ _
  have hpos := t.slabSize_pos c hc
  simp only [maxArenaBytes] at hfits
  have heq : c.offsetOf i = c.classBaseOffset + i * c.slabSize := Nat.mod_eq_of_lt (by omega)
  exact ⟨heq, by omega⟩

/-- **Two slabs of a table do not overlap.** -/
theorem offsetOf_disjoint (t : ClassTable) (hc : t.classes[n]? = some c)
    (hc' : t.classes[n']? = some c') (hi : i < c.slabCount) (hi' : i' < c'.slabCount) (hne : (n, i) ≠ (n', i')) :
    c.offsetOf i + c.slabSize ≤ c'.offsetOf i' ∨ c'.offsetOf i' + c'.slabSize ≤ c.offsetOf i := by
  have ho := t.offsetOf_eq (List.mem_of_getElem? hc) hi
  have ho' := t.offsetOf_eq (List.mem_of_getElem? hc') hi'
  have hord := List.pairwise_iff_getElem.mp t.contiguous.ordered
  obtain ⟨hn, hcn⟩ := List.getElem?_eq_some_iff.mp hc
  obtain ⟨hn', hcn'⟩ := List.getElem?_eq_some_iff.mp hc'
  rcases Nat.lt_trichotomy n n' with hlt | rfl | hgt
  · have := hord n n' hn hn' hlt
    rw [hcn, hcn'] at this
    omega
  · rw [hc] at hc'
    obtain rfl := Option.some.inj hc'
    have hstep : ∀ {j k : Nat}, j < k → j * c.slabSize + c.slabSize ≤ k * c.slabSize := by
      intro j k hjk
      calc j * c.slabSize + c.slabSize = (j + 1) * c.slabSize := by ring
        _ ≤ k * c.slabSize := Nat.mul_le_mul_right _ hjk
    rcases Nat.lt_trichotomy i i' with hlt | rfl | hgt
    · have := hstep hlt
      omega
    · exact absurd rfl hne
    · have := hstep hgt
      omega
  · have := hord n' n hn' hn hgt
    rw [hcn, hcn'] at this
    omega

/-- **Distinct slabs start at distinct offsets.** -/
theorem offsetOf_inj (t : ClassTable) (hc : t.classes[n]? = some c)
    (hc' : t.classes[n']? = some c') (hi : i < c.slabCount) (hi' : i' < c'.slabCount)
    (h : c.offsetOf i = c'.offsetOf i') : n = n' ∧ i = i' := by
  have hpos := t.slabSize_pos c (List.mem_of_getElem? hc)
  have hpos' := t.slabSize_pos c' (List.mem_of_getElem? hc')
  by_contra hne
  have := t.offsetOf_disjoint hc hc' hi hi' fun he => hne (Prod.mk.inj he)
  omega

theorem offsetOf_pos (t : ClassTable) (hc : t.classes[n]? = some c) (hi : i < c.slabCount)
    (hne : n ≠ 0 ∨ i ≠ 0) : 0 < c.offsetOf i := by
  have hmem := List.mem_of_getElem? hc
  rw [(t.offsetOf_eq hmem hi).1]
  by_cases hidx : i = 0
  · -- the classes before this one have room
    have hcls : 0 < n := Nat.pos_of_ne_zero (hne.resolve_right (not_not.mpr hidx))
    obtain ⟨hn, hget⟩ := List.getElem?_eq_some_iff.mp hc
    have hord := List.pairwise_iff_getElem.mp t.contiguous.ordered 0 n (by omega) hn hcls
    have h0 := t.slabSize_pos _ (List.getElem_mem (by omega : 0 < t.classes.length))
    have h1 := t.slabCount_pos _ (List.getElem_mem (by omega : 0 < t.classes.length))
    rw [hget] at hord
    have := Nat.mul_pos h0 h1
    omega
  · have := Nat.mul_pos (Nat.pos_of_ne_zero hidx) (t.slabSize_pos c hmem)
    omega

end ClassTable

/-! ## The allocator -/

/-- A handle: where an allocation is, and which allocation it was. -/
structure SlabHandle where
  offset : Nat
  length : Nat
  generation : UInt32
  sequence : UInt64
  cls : Nat
  index : Nat
  owner : UInt64
  deriving DecidableEq

def SlabHandle.zero : SlabHandle := ⟨0, 0, 0, 0, 0, 0, 0⟩

def SlabHandle.slab (h : SlabHandle) : Nat × Nat := (h.cls, h.index)

structure ClassState where
  /-- The free stack, its top first. -/
  free : List Nat
  /-- The sequence of the live allocation of each slab, `0` where there is none. -/
  liveSeq : Nat → UInt64

structure Arena where
  table : ClassTable
  mem : Nat → UInt8
  pools : Nat → ClassState
  generation : UInt32
  nextSeq : UInt64
  id : UInt64
  occupancy : UInt64

inductive AllocErr
  | zeroLength
  | tooLarge
  | exhausted
  deriving DecidableEq

/-- The reasons `Free` refuses a handle; all of them are `ErrInvalidFree`. -/
inductive FreeErr
  | foreign
  | staleGeneration
  | outOfRange
  | doubleFree
  | stale
  deriving DecidableEq

/-- The first class whose slabs hold `size` bytes. -/
def selectClass (classes : List SizeClass) (size : Nat) : Option Nat :=
  classes.findIdx? fun c => size ≤ c.slabSize

/-- Indices are pushed highest first, so the lowest is on top; class 0 keeps
index 0 out, whose offset 0 marks a descriptor without a payload. -/
def newClassState (c : SizeClass) (reserveZero : Bool) : ClassState :=
  { free := (List.range c.slabCount).drop (if reserveZero then 1 else 0), liveSeq := fun _ => 0 }

namespace Arena

def new (table : ClassTable) (mem : Nat → UInt8) (generation : UInt32) (id : UInt64) : Arena :=
  { table, mem, generation, id
    pools := fun i =>
      match table.classes[i]? with
      | some c => newClassState c (i == 0)
      | none => ⟨[], fun _ => 0⟩
    nextSeq := 1
    occupancy := 0 }

/-- The sequence after `seq`, skipping the reserved `0` when the counter wraps. -/
def succSeq (seq : UInt64) : UInt64 := if seq + 1 = 0 then 1 else seq + 1

def setPool (a : Arena) (ci : Nat) (p : ClassState) : Arena := { a with pools := Function.update a.pools ci p }

def alloc (a : Arena) (size : Nat) : Except AllocErr (SlabHandle × Arena) :=
  if size = 0 then .error .zeroLength
  else
    match selectClass a.table.classes size with
    | none => .error .tooLarge
    | some ci =>
      match a.table.classes[ci]?, (a.pools ci).free with
      | some sc, idx :: rest =>
        let seq := a.nextSeq
        let h : SlabHandle :=
          { offset := sc.offsetOf idx, length := size, generation := a.generation, sequence := seq,
            cls := ci, index := idx, owner := a.id }
        .ok (h, { a.setPool ci ⟨rest, Function.update (a.pools ci).liveSeq idx seq⟩ with
          nextSeq := succSeq seq, occupancy := a.occupancy + UInt64.ofNat sc.slabSize })
      | _, _ => .error .exhausted

/-- The class of a handle whose class and index are in range. -/
def locate (a : Arena) (h : SlabHandle) : Option SizeClass :=
  match a.table.classes[h.cls]? with
  | some sc => if h.index < sc.slabCount then some sc else none
  | none => none

def release (a : Arena) (h : SlabHandle) (sc : SizeClass) : Arena :=
  { a.setPool h.cls ⟨h.index :: (a.pools h.cls).free, Function.update (a.pools h.cls).liveSeq h.index 0⟩ with
    occupancy := a.occupancy - UInt64.ofNat sc.slabSize }

def free (a : Arena) (h : SlabHandle) : Except FreeErr Arena :=
  if h.owner ≠ a.id then .error .foreign
  else if h.generation ≠ a.generation then .error .staleGeneration
  else
    match a.locate h with
    | none => .error .outOfRange
    | some sc =>
      let live := (a.pools h.cls).liveSeq h.index
      if live = 0 then .error .doubleFree
      else if live ≠ h.sequence then .error .stale
      else .ok (a.release h sc)

def store (a : Arena) (off : Nat) (bytes : Bytes) : Arena :=
  { a with mem := fun x => if off ≤ x then bytes.getD (x - off) (a.mem x) else a.mem x }

@[simp] theorem store_nil {a : Arena} {off : Nat} : a.store off [] = a := by
  simp [store]

def live (a : Arena) : Set (Nat × Nat) := {x | (a.pools x.1).liveSeq x.2 ≠ 0}

/-- The handle names a live allocation of this arena. -/
structure Owns (a : Arena) (h : SlabHandle) : Prop where
  owner : h.owner = a.id
  generation : h.generation = a.generation
  located : ∃ sc, a.table.classes[h.cls]? = some sc ∧ h.index < sc.slabCount ∧ h.offset = sc.offsetOf h.index
  live : (a.pools h.cls).liveSeq h.index = h.sequence
  sequence : h.sequence ≠ 0

/-- A free stack holds each of its indices once, in range and not live. -/
structure WF (a : Arena) : Prop where
  nextSeq : a.nextSeq ≠ 0
  nodup : ∀ c, (a.pools c).free.Nodup
  dead : ∀ c, ∀ i ∈ (a.pools c).free, (a.pools c).liveSeq i = 0
  inRange : ∀ c sc, a.table.classes[c]? = some sc → ∀ i ∈ (a.pools c).free, i < sc.slabCount

theorem succSeq_ne_zero {seq : UInt64} : succSeq seq ≠ 0 := by
  unfold succSeq
  split
  · decide
  · assumption

/-! ### What an allocation does -/

variable {a a' : Arena} {h g : SlabHandle} {sc : SizeClass} {generation : UInt32} {mem : Nat → UInt8} {t : ClassTable}
  {size : Nat} {id : UInt64}

theorem alloc_eq_ok (he : a.alloc size = .ok (h, a')) :
    ∃ ci sc idx rest, size ≠ 0 ∧ selectClass a.table.classes size = some ci ∧ a.table.classes[ci]? = some sc ∧
      (a.pools ci).free = idx :: rest ∧ h = ⟨sc.offsetOf idx, size, a.generation, a.nextSeq, ci, idx, a.id⟩ ∧
      a' = { a.setPool ci ⟨rest, update (a.pools ci).liveSeq idx a.nextSeq⟩ with
        nextSeq := succSeq a.nextSeq, occupancy := a.occupancy + UInt64.ofNat sc.slabSize } := by
  simp only [alloc] at he
  split at he
  · cases he
  next hsize =>
  split at he
  · cases he
  next ci hci =>
  split at he
  · next sc idx rest hsc hfree =>
    obtain ⟨rfl, rfl⟩ := Prod.mk.inj (Except.ok.inj he)
    exact ⟨ci, sc, idx, rest, hsize, hci, hsc, hfree, rfl, rfl⟩
  · cases he

/-- Everything a successful `Alloc` says about its handle and the arena after it. -/
theorem alloc_ok (hw : a.WF) (he : a.alloc size = .ok (h, a')) :
    a'.Owns h ∧ h.generation = a.generation ∧ h.slab ∉ a.live ∧ a'.live = insert h.slab a.live ∧ a'.WF ∧
      (∀ g, a.Owns g → a'.Owns g) ∧ a'.table = a.table := by
  obtain ⟨ci, sc, idx, rest, -, -, hsc, hfree, rfl, rfl⟩ := alloc_eq_ok he
  have hdead : (a.pools ci).liveSeq idx = 0 := hw.dead ci idx (by simp [hfree])
  have hnd := hw.nodup ci
  rw [hfree, List.nodup_cons] at hnd
  have hout : (ci, idx) ∉ a.live := by simp [live, hdead]
  refine ⟨?_, rfl, hout, ?_, ?_, ?_, rfl⟩
  · refine ⟨rfl, rfl, ⟨sc, hsc, hw.inRange ci sc hsc idx (by simp [hfree]), rfl⟩, ?_, hw.nextSeq⟩
    simp [setPool]
  · ext ⟨c, i⟩
    by_cases hc : c = ci
    · subst hc
      by_cases hi : i = idx
      · subst hi; simp [live, setPool, SlabHandle.slab, hw.nextSeq]
      · simp [live, setPool, SlabHandle.slab, hi]
    · simp [live, setPool, SlabHandle.slab, hc]
  · refine ⟨succSeq_ne_zero, fun c => ?_, fun c i hi => ?_, fun c sc' hsc' i hi => ?_⟩
    · by_cases hc : c = ci
      · subst hc; simpa [setPool] using hnd.2
      · simpa [setPool, hc] using hw.nodup c
    · by_cases hc : c = ci
      · subst hc
        simp only [setPool, update_self] at hi ⊢
        rw [update_of_ne (by rintro rfl; exact hnd.1 hi)]
        exact hw.dead c i (by simp [hfree, hi])
      · simp only [setPool, update_of_ne hc] at hi ⊢
        exact hw.dead c i hi
    · by_cases hc : c = ci
      · subst hc
        simp only [setPool, update_self] at hi
        exact hw.inRange c sc' hsc' i (by simp [hfree, hi])
      · simp only [setPool, update_of_ne hc] at hi
        exact hw.inRange c sc' hsc' i hi
  · intro g hg
    refine ⟨hg.owner, hg.generation, hg.located, ?_, hg.sequence⟩
    have hne : g.slab ≠ (ci, idx) := by
      intro he
      have h1 : g.cls = ci := congrArg Prod.fst he
      have h2 : g.index = idx := congrArg Prod.snd he
      have := hg.live
      rw [h1, h2, hdead] at this
      exact hg.sequence this.symm
    by_cases hc : g.cls = ci
    · have hi : g.index ≠ idx := fun hi => hne (by simp [SlabHandle.slab, hc, hi])
      simpa [setPool, hc, update_of_ne hi] using hc ▸ hg.live
    · simpa [setPool, update_of_ne hc] using hg.live

/-! ### What a free does -/

theorem free_eq_ok (he : a.free h = .ok a') :
    ∃ sc, h.owner = a.id ∧ h.generation = a.generation ∧ a.table.classes[h.cls]? = some sc ∧
      h.index < sc.slabCount ∧ (a.pools h.cls).liveSeq h.index = h.sequence ∧ h.sequence ≠ 0 ∧
      a' = a.release h sc := by
  simp only [free] at he
  split at he
  · cases he
  next howner =>
  split at he
  · cases he
  next hgen =>
  split at he
  · cases he
  next sc hloc =>
  split at he
  · cases he
  next hlive =>
  split at he
  · cases he
  next hseq =>
  simp only [locate] at hloc
  split at hloc
  · next sc' hsc =>
    split at hloc
    · next hi =>
      obtain rfl := Option.some.inj hloc
      rw [not_not] at howner hgen hseq
      exact ⟨sc', howner, hgen, hsc, hi, hseq, fun h0 => hlive (hseq.trans h0), (Except.ok.inj he).symm⟩
    · cases hloc
  · cases hloc

theorem locate_of_owns (ho : a.Owns h) : ∃ sc, a.locate h = some sc := by
  obtain ⟨sc, hsc, hi, -⟩ := ho.located
  exact ⟨sc, by simp [locate, hsc, hi]⟩

theorem free_of_owns (ho : a.Owns h) : ∃ sc, a.free h = .ok (a.release h sc) := by
  obtain ⟨sc, hsc⟩ := locate_of_owns ho
  exact ⟨sc, by simp [free, ho.owner, ho.generation, hsc, ho.live, ho.sequence]⟩

theorem release_live :
    (a.release h sc).live = a.live \ {h.slab} := by
  ext ⟨c, i⟩
  by_cases hc : c = h.cls
  · subst hc
    by_cases hi : i = h.index
    · subst hi; simp [live, release, setPool, SlabHandle.slab]
    · simp [live, release, setPool, SlabHandle.slab, hi]
  · simp [live, release, setPool, SlabHandle.slab, hc]

theorem WF.release (hw : a.WF) (ho : a.Owns h) :
    (a.release h sc).WF := by
  have hlive : (a.pools h.cls).liveSeq h.index ≠ 0 := ho.live ▸ ho.sequence
  have hnot : h.index ∉ (a.pools h.cls).free := fun hm => hlive (hw.dead _ _ hm)
  refine ⟨hw.nextSeq, fun c => ?_, fun c i hi => ?_, fun c sc' hsc' i hi => ?_⟩
  · by_cases hc : c = h.cls
    · subst hc
      simp only [Arena.release, setPool, update_self, List.nodup_cons]
      exact ⟨hnot, hw.nodup _⟩
    · simpa [Arena.release, setPool, hc] using hw.nodup c
  · by_cases hc : c = h.cls
    · subst hc
      simp only [Arena.release, setPool, update_self] at hi ⊢
      by_cases hi' : i = h.index
      · subst hi'; simp
      · rw [update_of_ne hi']
        exact hw.dead _ i (by simpa [hi'] using hi)
    · simp only [Arena.release, setPool, update_of_ne hc] at hi ⊢
      exact hw.dead c i hi
  · by_cases hc : c = h.cls
    · subst hc
      simp only [Arena.release, setPool, update_self, List.mem_cons] at hi
      rcases hi with rfl | hi
      · obtain ⟨sc'', hsc'', hlt, -⟩ := ho.located
        rw [show a.table.classes[h.cls]? = some sc' from hsc'] at hsc''
        exact Option.some.inj hsc'' ▸ hlt
      · exact hw.inRange _ sc' hsc' i hi
    · simp only [Arena.release, setPool, update_of_ne hc] at hi
      exact hw.inRange c sc' hsc' i hi

theorem Owns.release (hg : a.Owns g) (hne : g.slab ≠ h.slab) : (a.release h sc).Owns g := by
  refine ⟨hg.owner, hg.generation, hg.located, ?_, hg.sequence⟩
  by_cases hc : g.cls = h.cls
  · have hi : g.index ≠ h.index := fun hi => hne (by simp [SlabHandle.slab, hc, hi])
    simpa [Arena.release, setPool, hc, update_of_ne hi] using hc ▸ hg.live
  · simpa [Arena.release, setPool, update_of_ne hc] using hg.live

/-! ### Bytes and the fresh arena -/

theorem WF.store (hw : a.WF) (off : Nat) (bytes : Bytes) : (a.store off bytes).WF :=
  ⟨hw.nextSeq, hw.nodup, hw.dead, hw.inRange⟩

theorem Owns.store (ho : a.Owns h) (off : Nat) (bytes : Bytes) :
    (a.store off bytes).Owns h :=
  ⟨ho.owner, ho.generation, ho.located, ho.live, ho.sequence⟩

theorem new_wf : (new t mem generation id).WF := by
  refine ⟨by simp [new], fun c => ?_, fun c i _ => ?_, fun c sc hsc i hi => ?_⟩
  · simp only [new]
    split
    · exact (List.nodup_range).sublist (List.drop_sublist _ _)
    · exact List.nodup_nil
  · simp only [new]
    split <;> rfl
  · simp only [new] at hsc hi
    rw [hsc] at hi
    exact List.mem_range.mp (List.mem_of_mem_drop hi)

theorem new_live : (new t mem generation id).live = ∅ := by
  ext ⟨c, i⟩
  simp only [live, new, Set.mem_ofPred_eq, Set.mem_empty_iff_false, iff_false, ne_eq, not_not]
  split <;> rfl

/-! ### The reserved slab -/

/-- Slab 0 of class 0 is neither free nor live: no payload is ever at offset 0. -/
structure ZeroKept (a : Arena) : Prop where
  free : 0 ∉ (a.pools 0).free
  live : (a.pools 0).liveSeq 0 = 0

theorem new_zeroKept : (new t mem generation id).ZeroKept := by
  cases hc : t.classes[0]? with
  | none => exact ⟨by simp [new, hc], by simp [new, hc]⟩
  | some c =>
    refine ⟨?_, by simp [new, hc, newClassState]⟩
    cases hn : c.slabCount with
    | zero => simp [new, hc, newClassState, hn]
    | succ n => simp [new, hc, newClassState, hn, List.range_succ_eq_map]

theorem ZeroKept.store (h : a.ZeroKept) (off : Nat) (bytes : Bytes) : (a.store off bytes).ZeroKept :=
  ⟨h.free, h.live⟩

theorem ZeroKept.alloc (hz : a.ZeroKept) (he : a.alloc size = .ok (h, a')) : a'.ZeroKept ∧ (h.cls ≠ 0 ∨ h.index ≠ 0) := by
  obtain ⟨ci, sc, idx, rest, -, -, -, hfree, rfl, rfl⟩ := alloc_eq_ok he
  by_cases hc : ci = 0
  · subst hc
    have hidx : idx ≠ 0 := by
      intro h0
      exact hz.free (by simp [hfree, h0])
    refine ⟨⟨?_, ?_⟩, .inr hidx⟩
    · have := hz.free
      rw [hfree, List.mem_cons, not_or] at this
      simpa [setPool] using this.2
    · simpa [setPool, update_of_ne (Ne.symm hidx)] using hz.live
  · exact ⟨⟨by simpa [setPool, update_of_ne (Ne.symm hc)] using hz.free,
      by simpa [setPool, update_of_ne (Ne.symm hc)] using hz.live⟩, .inl hc⟩

theorem ZeroKept.freed (hz : a.ZeroKept) (he : a.free h = .ok a') : a'.ZeroKept := by
  obtain ⟨sc, -, -, -, -, hlive, hseq, rfl⟩ := free_eq_ok he
  by_cases hc : h.cls = 0
  · have hidx : h.index ≠ 0 := by
      intro h0
      rw [hc, h0, hz.live] at hlive
      exact hseq hlive.symm
    exact ⟨by simpa [release, setPool, hc, Ne.symm hidx] using hz.free,
      by simpa [release, setPool, hc, update_of_ne (Ne.symm hidx)] using hz.live⟩
  · exact ⟨by simpa [release, setPool, update_of_ne (Ne.symm hc)] using hz.free,
      by simpa [release, setPool, update_of_ne (Ne.symm hc)] using hz.live⟩

/-- Two live allocations at one offset are allocations of one slab. -/
theorem slab_of_offset (hg : a.Owns g) (hh : a.Owns h) (he : g.offset = h.offset) : g.slab = h.slab := by
  obtain ⟨sc, hsc, hi, ho⟩ := hg.located
  obtain ⟨sc', hsc', hi', ho'⟩ := hh.located
  obtain ⟨h1, h2⟩ := a.table.offsetOf_inj hsc hsc' hi hi' (by rw [← ho, ← ho', he])
  simp [SlabHandle.slab, h1, h2]

end Arena

end Styx
