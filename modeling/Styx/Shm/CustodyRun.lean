/-
Custody over whole runs of one writer and an honest consumer.

`Sys.Inv` says where each slab is at every point of the writer's code: with the
set-aside frame, with the frame about to be pushed, with the frame pushed and not
yet recorded, or on the table. Every action keeps it (`Sys.custody_bijOn`).
-/
import Styx.Lib.Lists
import Styx.Shm.Custody

namespace Styx

open Sequence Machine Writer

def Carry.OK (c : Carry) : Prop :=
  match c.d with
  | none => c.slab = none
  | some d => DescOK d c.slab

variable {c : Carry}

theorem Carry.OK.unbuilt (h : c.OK) (hd : c.d = none) : c.slab = none := by
  simpa only [Carry.OK, hd] using h

theorem Carry.OK.built {d : Descriptor} (h : c.OK) (hd : c.d = some d) : DescOK d c.slab := by
  simpa only [Carry.OK, hd] using h

namespace Sys

def stuckSlab (s : Sys) : Option SlabHandle := s.stuck.bind (·.slab)

/-- Where the slabs are, by the writer's program counter. -/
def InvAt (s : Sys) : Pc → Prop
  | .idle | .stopped => s.w.Inv none s.stuckSlab
  | .ready c d => s.stuck = none ∧ c.d = some d ∧ DescOK d c.slab ∧ s.w.Inv none c.slab
  | .readyLifecycle _ d => d.allocSeq = 0 ∧ s.w.Inv none s.stuckSlab
  | .pushed seq ref _ => s.w.Inv (some (seq, ref)) s.stuckSlab

structure Inv (s : Sys) : Prop where
  stuck : ∀ c ∈ s.stuck, c.OK
  slabs : s.InvAt s.pc

/-- A writer over a fresh arena and an empty handle table, its three words at any
value: `lastReclaimed`, `head` and `tail` in that order, within a capacity, and
whatever is still unread carries no slab. -/
structure Start (s : Sys) : Prop where
  pc : s.pc = .idle
  stuck : s.stuck = none
  arena : ∃ t mem generation id, s.w.arena = Arena.new t mem generation id
  table : ∀ x, s.w.handleTable x = none
  frees : s.w.frees = []
  order : span s.w.lastReclaimed s.w.ring.head ≤ span s.w.lastReclaimed s.w.ring.tail
  fits : span s.w.lastReclaimed s.w.ring.tail ≤ s.w.ring.capacity.toNat
  unread : ∀ q ∈ s.w.unread, (s.w.ring.desc q).allocSeq = 0

theorem Start.inv {s : Sys} (h : s.Start) : s.Inv := by
  obtain ⟨t, mem, generation, id, ha⟩ := h.arena
  have hnone : ∀ q, s.w.handleAt q = none := fun q => h.table _
  refine ⟨by simp [h.stuck], ?_⟩
  rw [h.pc]
  refine ⟨h.order, ?_, by simpa using h.fits, by simp, fun x g hx => ?_, ?_, fun q hq => ?_, ?_⟩
  · have := span_add h.order
    have := h.fits
    simp only [Ring.Bounded]
    omega
  · rw [h.table x] at hx
    cases hx
  · have hempty : s.w.window.filterMap (s.w.tableAt none) = [] := by
      rw [List.filterMap_eq_nil_iff]
      intro q _
      rw [tableAt_none, hnone q]
    rw [hempty, stuckSlab, h.stuck, ha]
    exact Custody.new
  · have hof : s.w.slabOf none q = none := by simp [slabOf, hnone q]
    rw [hof]
    exact h.unread q hq
  · simp [FreesOk, h.frees]

/-! ## Steps -/

variable {s t : Sys} {P Q : Pend → Option SlabHandle → Writer → Prop} {pc : Pc} {w : Writer} {a : Act} {h : SlabHandle}

/-- Books that speak of the frame just pushed and the slab in hand, by the program counter. -/
def BooksAt (P : Pend → Option SlabHandle → Writer → Prop) (s : Sys) : Pc → Prop
  | .idle | .stopped => P none s.stuckSlab s.w
  | .ready c d => s.stuck = none ∧ c.d = some d ∧ DescOK d c.slab ∧ P none c.slab s.w
  | .readyLifecycle _ d => d.allocSeq = 0 ∧ P none s.stuckSlab s.w
  | .pushed seq ref _ => P (some (seq, ref)) s.stuckSlab s.w

/-- What the parts of a step make of the books `P`, a `published` apart. -/
structure Booking (P Q : Pend → Option SlabHandle → Writer → Prop) (w : Writer) : Prop where
  quiet : ∀ {w' : Writer} {pend : Pend} {c : Option SlabHandle}, w'.ring = w.ring → w'.arena = w.arena →
    w'.handleTable = w.handleTable → w'.lastReclaimed = w.lastReclaimed → w'.frees = w.frees → P pend c w → Q pend c w'
  free : ∀ {w' : Writer} {c : Option SlabHandle} (i : Intent) (e : Option SendErr), Marked w w' → P none c w →
    Q none none ((w'.freeSlab? c).report i e)
  build : ∀ {i : Intent} {late : Bool} {w' : Writer} {r : BuildResult}, P none none w → w.build i late = (w', r) →
    Q none (w'.inHand r) w'
  push : ∀ {carried c ref : Option SlabHandle} {d : Descriptor} {r : Ring}, P none carried w →
    carried.toList = c.toList ++ ref.toList → DescOK d ref → w.ring.push d = .ok r →
    Q (some (w.ring.tail, ref)) c { w with ring := r }
  advance : ∀ {pend : Pend} {c : Option SlabHandle}, w.ring.head ≠ w.ring.tail → P pend c w →
    Q pend c { w with ring := w.ring.advance }

theorem BooksAt.mapWriter (h : s.BooksAt P pc) (hw : ∀ pend c, P pend c s.w → Q pend c w) : BooksAt Q { s with w } pc := by
  cases pc with
  | idle | stopped => exact hw _ _ h
  | ready c d => exact ⟨h.1, h.2.1, h.2.2.1, hw _ _ h.2.2.2⟩
  | readyLifecycle i d => exact ⟨h.1, hw _ _ h.2⟩
  | pushed seq ref i => exact hw _ _ h

theorem Places.held {c : Carry} {late : Bool} (hp : s.Places a c late) (hok : ∀ c ∈ s.stuck, c.OK)
    (h : s.BooksAt P .idle) : c.OK ∧ P none c.slab s.w := by
  cases hp with
  | data hst _ => exact ⟨rfl, by simpa [BooksAt, stuckSlab, hst] using h⟩
  | retry hst => exact ⟨hok c hst, by simpa [BooksAt, stuckSlab, hst] using h⟩

/-- **A step keeps any books its parts keep.** -/
theorem Booking.step (hb : Booking P Q s.w) (hok : ∀ c ∈ s.stuck, c.OK) (h : s.BooksAt P s.pc)
    (hne : a ≠ .publish) (hs : s.step a = some t) : (∀ c ∈ t.stuck, c.OK) ∧ t.BooksAt Q t.pc := by
  have hsame : ∀ {w : Writer}, Marked s.w w → ∀ {pend c} (i : Intent) (e : Option SendErr), P pend c s.w →
      Q pend c (w.report i e) := by
    rintro w (rfl | ⟨-, rfl⟩) pend c i e hp
    all_goals exact hb.quiet rfl rfl rfl rfl rfl hp
  have hat : ∀ {pc}, s.pc = pc → s.BooksAt P pc := fun hpc => hpc ▸ h
  cases step_moves hs with
  | lifecycle hpc hl hx =>
    obtain ⟨hq, hd⟩ := buildLifecycle_quiet hl hx
    exact ⟨hok, hd _ _ rfl, hb.quiet hq.ring hq.arena hq.handleTable hq.lastReclaimed hq.frees (hat hpc)⟩
  | lifecycleFailed hpc hl hx =>
    obtain ⟨hq, -⟩ := buildLifecycle_quiet hl hx
    exact ⟨hok, hb.quiet hq.ring hq.arena hq.handleTable hq.lastReclaimed hq.frees (hat hpc)⟩
  | abandoned hpc hp => exact ⟨by simp, hb.free _ _ (.inl rfl) (hp.held hok (hat hpc)).2⟩
  | resumed hpc hp hd =>
    obtain ⟨hc, hw⟩ := hp.held hok (hat hpc)
    exact ⟨by simp, rfl, hd, hc.built hd, hb.quiet rfl rfl rfl rfl rfl hw⟩
  | failed hpc hp hd hx =>
    obtain ⟨hc, hw⟩ := hp.held hok (hat hpc)
    rw [hc.unbuilt hd] at hw
    exact ⟨by simp, hb.build hw hx⟩
  | @waits _ c _ w hpc hp hd hx =>
    obtain ⟨hc, hw⟩ := hp.held hok (hat hpc)
    rw [hc.unbuilt hd] at hw
    have hq : Q none none w := hb.build hw hx
    exact ⟨by simpa using hc, by simpa [BooksAt, stuckSlab, hc.unbuilt hd] using hq⟩
  | built hpc hp hd hx =>
    obtain ⟨hc, hw⟩ := hp.held hok (hat hpc)
    rw [hc.unbuilt hd] at hw
    exact ⟨by simp, rfl, rfl, build_descOK hx, hb.build hw hx⟩
  | refused e hpc hm =>
    obtain ⟨hst, -, -, hw⟩ := hat hpc
    exact ⟨hok, by simpa [BooksAt, stuckSlab, hst] using hb.free _ _ hm hw⟩
  | full hpc =>
    obtain ⟨-, hcd, hd, hw⟩ := hat hpc
    exact ⟨by simpa [Carry.OK, hcd] using hd, hb.quiet rfl rfl rfl rfl rfl hw⟩
  | pushed hpc _ hr =>
    obtain ⟨hst, -, hd, hw⟩ := hat hpc
    exact ⟨hok, by simpa [BooksAt, stuckSlab, hst] using hb.push (c := none) hw (by simp) hd hr⟩
  | refusedLifecycle e hpc hm => exact ⟨hok, hsame hm _ _ (hat hpc).2⟩
  | pushedLifecycle hpc _ hr => exact ⟨hok, hb.push (hat hpc).2 (List.append_nil _).symm (hat hpc).1 hr⟩
  | publish => exact absurd rfl hne
  | drained hpc hst => exact ⟨by simp, hb.free _ _ (.inl rfl) (by simpa [BooksAt, stuckSlab, hst] using hat hpc)⟩
  | stop hpc hst => exact ⟨hok, hb.quiet rfl rfl rfl rfl rfl (hat hpc)⟩
  | advance hht => exact ⟨hok, h.mapWriter fun _ _ hw => hb.advance hht hw⟩
  | @abandon c hc =>
    refine ⟨fun c' hc' => Option.mem_some_iff.mp hc' ▸ hok c hc, ?_⟩
    have hq : s.BooksAt Q s.pc := h.mapWriter fun _ _ hw => hb.quiet rfl rfl rfl rfl rfl hw
    cases hpc : s.pc <;> rw [hpc] at hq <;> simp_all [BooksAt, stuckSlab]
  | poison cause | shutdown => exact ⟨hok, h.mapWriter fun _ _ hw => hb.quiet rfl rfl rfl rfl rfl hw⟩

theorem invAt_iff : s.InvAt pc ↔ s.BooksAt (fun pend c w => w.Inv pend c) pc := by
  cases pc <;> rfl

theorem Inv.booking : Booking (fun pend c w => w.Inv pend c) (fun pend c w => w.Inv pend c) w where
  quiet hr ha ht hl hf hi := hi.congr hr ha ht hl hf
  free i e hm hi := by
    rcases hm with rfl | ⟨-, rfl⟩
    · exact hi.freeCarried.report i e
    · exact (hi.setPoison _).freeCarried.report i e
  build hi he := Inv.closed.build hi he
  push hi hs hd hr := hi.push hs hd hr
  advance hne hi := hi.advance hne

/-- **Every action keeps custody.** -/
theorem Inv.step (hi : s.Inv) (h : s.step a = some t) : t.Inv := by
  by_cases hne : a = .publish
  · subst hne
    have hs := hi.slabs
    cases step_moves h with
    | publish hpc =>
      rw [hpc] at hs
      exact ⟨hi.stuck, hs.published.report _ _⟩
    | abandoned _ hp | resumed _ hp | failed _ hp | waits _ hp | built _ hp => cases hp
  · obtain ⟨hok, hb⟩ := Inv.booking.step hi.stuck (invAt_iff.mp hi.slabs) hne h
    exact ⟨hok, invAt_iff.mpr hb⟩

theorem Start.reach (h0 : s.Start) (hr : Reach step Any s t) : t.Inv :=
  hr.invariant h0.inv fun hi _ hs => hi.step hs

/-! ## The bijection -/

/-- Who can hold a slab between writer steps. -/
inductive Holder
  | carry
  | seq (q : UInt64)
  deriving DecidableEq

/-- The slab a holder has: the set-aside frame's, or the table's for a sequence
of `[lastReclaimed, tail)`. -/
def held (s : Sys) : Holder → Option SlabHandle
  | .carry => s.stuckSlab
  | .seq q => if Mem s.w.lastReclaimed s.w.ring.tail q then s.w.handleAt q else none

def Between (s : Sys) : Prop := s.pc = .idle ∨ s.pc = .stopped

/-- The slab (class and index) a holder has, where it has one. -/
def slabOf (s : Sys) (x : Holder) : Nat × Nat := ((s.held x).getD SlabHandle.zero).slab

theorem Inv.between (hi : s.Inv) (hb : s.Between) : s.w.Inv none s.stuckSlab := by
  have hs := hi.slabs
  rcases hb with hpc | hpc <;> rw [hpc] at hs <;> exact hs

theorem held_seq {q : UInt64} (hh : s.held (.seq q) = some h) : q ∈ s.w.window ∧ s.w.tableAt none q = some h := by
  obtain ⟨hm, hh⟩ := guard_some hh
  exact ⟨mem_seqs_span.mpr hm, by rw [tableAt_none]; exact hh⟩

theorem held_mem {x : Holder} (hh : s.held x = some h) :
    h ∈ s.stuckSlab.toList ++ s.w.window.filterMap (s.w.tableAt none) := by
  cases x with
  | carry => exact List.mem_append_left _ (Option.mem_toList.mpr hh)
  | seq q =>
    obtain ⟨hq, ht⟩ := held_seq hh
    exact List.mem_append_right _ (List.mem_filterMap.mpr ⟨q, hq, ht⟩)

theorem Inv.custody (hi : s.Inv) (hb : s.Between) :
    Custody s.w.arena (s.stuckSlab.toList ++ s.w.window.filterMap (s.w.tableAt none)) := by
  simpa [Pend.slab] using (hi.between hb).custody

theorem Inv.mapsTo (hi : s.Inv) (hb : s.Between) : Set.MapsTo s.slabOf {x | (s.held x).isSome} s.w.arena.live := by
  intro x hx
  obtain ⟨h, hh⟩ := Option.isSome_iff_exists.mp hx
  have ho := (hi.custody hb).owns h (held_mem hh)
  have hl : (s.w.arena.pools h.cls).liveSeq h.index ≠ 0 := ho.live ▸ ho.sequence
  simpa [slabOf, hh, Arena.live, SlabHandle.slab] using hl

theorem Inv.injOn (hi : s.Inv) (hb : s.Between) : Set.InjOn s.slabOf {x | (s.held x).isSome} := by
  have hn := (hi.custody hb).nodup
  rw [List.map_append, List.nodup_append] at hn
  obtain ⟨-, hseq, hdisj⟩ := hn
  -- The set-aside slab is not on the table.
  have hcarry : ∀ {q h h'}, s.held .carry = some h → s.held (.seq q) = some h' → h.slab ≠ h'.slab := by
    intro q h h' hh hh'
    obtain ⟨hq, ht⟩ := held_seq hh'
    exact hdisj _ (List.mem_map_of_mem (Option.mem_toList.mpr hh)) _
      (List.mem_map_of_mem (List.mem_filterMap.mpr ⟨q, hq, ht⟩))
  intro x hx y hy he
  obtain ⟨h, hh⟩ := Option.isSome_iff_exists.mp hx
  obtain ⟨h', hh'⟩ := Option.isSome_iff_exists.mp hy
  simp only [slabOf, hh, hh', Option.getD_some] at he
  cases x with
  | carry =>
    cases y with
    | carry => rfl
    | seq q => exact absurd he (hcarry hh hh')
  | seq q =>
    cases y with
    | carry => exact absurd he.symm (hcarry hh' hh)
    | seq q' =>
      obtain ⟨hq, ht⟩ := held_seq hh
      obtain ⟨hq', ht'⟩ := held_seq hh'
      rw [Lists.filterMap_inj hseq hq hq' ht ht' he]

theorem Inv.surjOn (hi : s.Inv) (hb : s.Between) : Set.SurjOn s.slabOf {x | (s.held x).isSome} s.w.arena.live := by
  intro x hx
  obtain ⟨h, hm, rfl⟩ := List.mem_map.mp ((hi.custody hb).covers x hx)
  rcases List.mem_append.mp hm with hm | hm
  · have hh : s.held .carry = some h := Option.mem_toList.mp hm
    exact ⟨.carry, by simp [hh], by simp [slabOf, hh]⟩
  · obtain ⟨q, hq, ht⟩ := List.mem_filterMap.mp hm
    have hh : s.held (.seq q) = some h := by
      rw [tableAt_none] at ht
      simpa [held, mem_seqs_span.mp hq] using ht
    exact ⟨.seq q, by simp [hh], by simp [slabOf, hh]⟩

/-- **Slab custody**, with an honest consumer: between writer steps the holders and the live slabs are in bijection, every
outstanding descriptor is stamped with its slab, and every `Free` was of one that none was stamped with. -/
theorem custody_bijOn (h0 : s.Start) (hr : Reach step Any s t) :
    (t.Between → Set.BijOn t.slabOf {x | (t.held x).isSome} t.w.arena.live ∧
      ∀ q, Mem t.w.ring.head t.w.ring.tail q → DescOK (t.w.ring.desc q) (t.held (.seq q))) ∧
    FreesOk t.w.frees := by
  have hi := h0.reach hr
  refine ⟨fun hb => ⟨⟨hi.mapsTo hb, hi.injOn hb, hi.surjOn hb⟩, fun q hq => ?_⟩, ?_⟩
  · have hw := hi.between hb
    have hu : q ∈ t.w.unread := mem_seqs_span.mpr hq
    have hst := hw.stamped q hu
    have hm : Mem t.w.lastReclaimed t.w.ring.tail q := mem_seqs_span.mp (hw.mem_window hu).1
    simpa [held, hm, Writer.slabOf] using hst
  · have hs := hi.slabs
    cases hpc : t.pc with
    | idle | stopped | pushed seq ref i => rw [hpc] at hs; exact hs.frees
    | ready c d => rw [hpc] at hs; exact hs.2.2.2.frees
    | readyLifecycle i d => rw [hpc] at hs; exact hs.2.frees

def sampleTable : ClassTable where
  classes := [⟨64, 4, 0⟩]
  nonempty := by decide
  slabSize_pos := by decide
  slabCount_pos := by decide
  contiguous := by decide
  fits := by decide

/-- A writer at the last sequence before the words wrap. -/
def sampleStart : Sys where
  w :=
    { ring := { slots := fun _ => Descriptor.zero, head := 0xFFFFFFFFFFFFFFFF, tail := 0xFFFFFFFFFFFFFFFF,
                capacity := 64, valid := ⟨6, by decide⟩ }
      arena := Arena.new sampleTable (fun _ => 0) 7 1
      gen := 7, checksum := true, chunkingActive := false, maxStored := 64
      handleTable := fun _ => none, lastReclaimed := 0xFFFFFFFFFFFFFFFF, pendingSlab := none
      poison := none, shutdown := false, reports := [], frees := [] }
  stuck := none
  pc := .idle

def sampleIntent : Intent :=
  { id := 0, lane := .data, wire := none, fill := none
    frame := { callID := 1, kind := .unaryReq, service := 2, method := 3, budget := 0, payload := [1, 2, 3],
               status := none, control := 0 } }

def sampleActs : List Act :=
  [.data sampleIntent false, .push, .publish, .data sampleIntent false, .push, .advance, .advance, .publish]

theorem sampleStart_start : sampleStart.Start where
  pc := rfl
  stuck := rfl
  arena := ⟨sampleTable, fun _ => 0, 7, 1, rfl⟩
  table _ := rfl
  frees := rfl
  order := by decide
  fits := by decide
  unread _ _ := rfl

def sampleEnd : Sys := (run step sampleStart sampleActs).get (by decide +kernel)

theorem custody_bijOn_sample :
    sampleEnd.w.ring.tail = 1 ∧ sampleEnd.w.frees.length = 2 ∧
      Set.BijOn sampleEnd.slabOf {x | (sampleEnd.held x).isSome} sampleEnd.w.arena.live ∧
      FreesOk sampleEnd.w.frees :=
  have h := custody_bijOn sampleStart_start (Reach.of_run (Option.some_get _).symm : Reach _ _ _ sampleEnd)
  ⟨by decide +kernel, by decide +kernel, (h.1 (.inl rfl)).1, h.2⟩

/-- The same without checksums, for runs that are long. -/
def plainStart : Sys := { sampleStart with w := { sampleStart.w with checksum := false } }

theorem plainStart_start : plainStart.Start where
  pc := rfl
  stuck := rfl
  arena := ⟨sampleTable, fun _ => 0, 7, 1, rfl⟩
  table _ := rfl
  frees := rfl
  order := by decide
  fits := by decide
  unread _ _ := rfl

end Sys

end Styx
