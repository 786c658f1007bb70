/-
Slab custody: who holds each live slab of a writer's arena.

A slab is in the hands of the frame being placed, of the set-aside frame, or of the handle
table under the sequence its descriptor was pushed at; the ledger (`Custody`) says these
hands and the arena's live slabs match one to one. The table has one slot for every
`capacity` sequences, and between the tail store and `published` the window
`[lastReclaimed, tail)` is one longer than the table. The frame in that gap is the `pend`
below: its slab is not on the table yet, so no slot is claimed twice.
-/
import Styx.Shm.Writer

namespace Styx

open Function Sequence

/-! ## The ledger -/

/-- `held` lists the live allocations of `a`, each slab once. -/
structure Custody (a : Arena) (held : List SlabHandle) : Prop where
  wf : a.WF
  owns : ∀ h ∈ held, a.Owns h
  nodup : (held.map SlabHandle.slab).Nodup
  covers : ∀ x ∈ a.live, x ∈ held.map SlabHandle.slab

namespace Custody

variable {a a' : Arena} {held : List SlabHandle} {h g : SlabHandle}

theorem perm {held' : List SlabHandle} (hc : Custody a held) (hp : held.Perm held') : Custody a held' :=
  ⟨hc.wf, fun h hm => hc.owns h (hp.mem_iff.mpr hm), (hp.map _).nodup_iff.mp hc.nodup,
    fun x hx => (hp.map _).mem_iff.mp (hc.covers x hx)⟩

theorem new {t : ClassTable} {mem : Nat → UInt8} {generation : UInt32} {id : UInt64} :
    Custody (Arena.new t mem generation id) [] :=
  ⟨Arena.new_wf, by simp, by simp, by simp [Arena.new_live]⟩

theorem store (hc : Custody a held) (off : Nat) (bytes : Bytes) : Custody (a.store off bytes) held :=
  ⟨hc.wf.store off bytes, fun h hm => (hc.owns h hm).store off bytes, hc.nodup, hc.covers⟩

theorem alloc {size : Nat} (hc : Custody a held) (he : a.alloc size = .ok (h, a')) : Custody a' (h :: held) := by
  obtain ⟨ho, -, hnew, hlive, hwf, hkeep, -⟩ := Arena.alloc_ok hc.wf he
  refine ⟨hwf, fun g hg => ?_, ?_, fun x hx => ?_⟩
  · rcases List.mem_cons.mp hg with rfl | hg
    · exact ho
    · exact hkeep g (hc.owns g hg)
  · rw [List.map_cons, List.nodup_cons]
    refine ⟨fun hm => hnew ?_, hc.nodup⟩
    obtain ⟨g, hg, hgs⟩ := List.mem_map.mp hm
    rw [← hgs]
    have hgo := hc.owns g hg
    exact fun h0 => hgo.sequence (hgo.live.symm.trans h0)
  · rw [hlive] at hx
    rcases hx with rfl | hx
    · simp
    · exact List.mem_cons_of_mem _ (hc.covers x hx)

theorem slab_ne (hc : Custody a (h :: held)) (hg : g ∈ held) : g.slab ≠ h.slab := by
  have hn := hc.nodup
  rw [List.map_cons, List.nodup_cons] at hn
  exact fun he => hn.1 (he ▸ List.mem_map_of_mem hg)

theorem offset_ne (hc : Custody a (h :: held)) (hg : g ∈ held) : g.offset ≠ h.offset :=
  fun he => hc.slab_ne hg
    (Arena.slab_of_offset (hc.owns g (List.mem_cons_of_mem _ hg)) (hc.owns h List.mem_cons_self) he)

theorem free (hc : Custody a (h :: held)) : ∃ a', a.free h = .ok a' ∧ Custody a' held := by
  have ho := hc.owns h List.mem_cons_self
  obtain ⟨sc, hf⟩ := Arena.free_of_owns ho
  refine ⟨_, hf, hc.wf.release ho, fun g hg => ?_, ?_, fun x hx => ?_⟩
  · exact (hc.owns g (List.mem_cons_of_mem _ hg)).release (hc.slab_ne hg)
  · have hn := hc.nodup
    rw [List.map_cons, List.nodup_cons] at hn
    exact hn.2
  · rw [Arena.release_live] at hx
    have := hc.covers x hx.1
    rw [List.map_cons, List.mem_cons] at this
    exact this.resolve_left hx.2

end Custody

/-! ## The writer's share -/

/-- A frame pushed and not yet recorded: its sequence and its slab. -/
abbrev Pend := Option (UInt64 × Option SlabHandle)

def Pend.slab (p : Pend) : Option SlabHandle := p.bind (·.2)

/-- The descriptor is stamped with this slab, or with none. -/
def DescOK (d : Descriptor) : Option SlabHandle → Prop
  | none => d.allocSeq = 0
  | some h => d.payloadOffset.toNat = h.offset ∧ d.allocSeq = h.sequence

/-- Every `Free` so far succeeded, on a slab no outstanding descriptor pointed at. -/
def FreesOk (frees : List FreeCall) : Prop :=
  ∀ f ∈ frees, f.err = none ∧ ∀ d ∈ f.outstanding, d.allocSeq ≠ 0 → d.payloadOffset.toNat ≠ f.h.offset

/-- Every outstanding descriptor with a payload points at one of these slabs. -/
def Backed (r : Ring) (held : List SlabHandle) : Prop :=
  ∀ d ∈ r.outstanding, d.allocSeq ≠ 0 → ∃ g ∈ held, d.payloadOffset.toNat = g.offset

theorem Backed.mono {r : Ring} {held held' : List SlabHandle} (hb : Backed r held) (hs : held ⊆ held') :
    Backed r held' := by
  intro d hd hne
  obtain ⟨g, hg, ho⟩ := hb d hd hne
  exact ⟨g, hs hg, ho⟩

namespace Writer

/-- The handle the table holds for a sequence; the pending one is not there yet. -/
def tableAt (w : Writer) (pend : Pend) (q : UInt64) : Option SlabHandle :=
  if pend.any (·.1 == q) then none else w.handleAt q

/-- The slab of a pushed sequence, on the table or pending. -/
def slabOf (w : Writer) (pend : Pend) (q : UInt64) : Option SlabHandle :=
  if pend.any (·.1 == q) then pend.slab else w.handleAt q

def unread (w : Writer) : List UInt64 := seqs w.ring.head (span w.ring.head w.ring.tail)

def window (w : Writer) : List UInt64 := seqs w.lastReclaimed (span w.lastReclaimed w.ring.tail)

structure Inv (w : Writer) (pend : Pend) (carried : Option SlabHandle) : Prop where
  order : span w.lastReclaimed w.ring.head ≤ span w.lastReclaimed w.ring.tail
  bounded : w.ring.Bounded
  fits : span w.lastReclaimed w.ring.tail ≤ w.ring.capacity.toNat + pend.toList.length
  last : ∀ p ∈ pend, p.1 + 1 = w.ring.tail
  clean : ∀ x h, w.handleTable x = some h → ∃ q ∈ w.window, w.tableAt pend q = some h ∧ x = slot w.ring.capacity q
  custody : Custody w.arena (carried.toList ++ pend.slab.toList ++ w.window.filterMap (w.tableAt pend))
  stamped : ∀ q ∈ w.unread, DescOK (w.ring.desc q) (w.slabOf pend q)
  frees : FreesOk w.frees

variable {w w' : Writer} {pend : Pend} {carried ref c : Option SlabHandle} {h : SlabHandle} {q seq : UInt64} {d : Descriptor} {i : Intent} {late : Bool} {r : BuildResult} {n : Nat}
  {a : Arena}

theorem Inv.congr (hi : w.Inv pend carried) (hr : w'.ring = w.ring) (ha : w'.arena = w.arena)
    (ht : w'.handleTable = w.handleTable) (hl : w'.lastReclaimed = w.lastReclaimed) (hf : w'.frees = w.frees) :
    w'.Inv pend carried := by
  have hat : w'.tableAt pend = w.tableAt pend := by
    funext q
    simp only [tableAt, handleAt, hr, ht]
  have hof : w'.slabOf pend = w.slabOf pend := by
    funext q
    simp only [slabOf, handleAt, hr, ht]
  have hwin : w'.window = w.window := by simp only [window, hr, hl]
  exact ⟨by rw [hl, hr]; exact hi.order, by rw [hr]; exact hi.bounded, by rw [hl, hr]; exact hi.fits,
    by rw [hr]; exact hi.last, by rw [ht, hat, hwin, hr]; exact hi.clean, by rw [ha, hat, hwin]; exact hi.custody,
    by rw [unread, hr, hof]; exact hi.stamped, by rw [hf]; exact hi.frees⟩

theorem Inv.report (hi : w.Inv pend carried) (i : Intent) (e : Option SendErr) : (w.report i e).Inv pend carried :=
  hi.congr rfl rfl rfl rfl rfl

theorem Inv.setPoison (hi : w.Inv pend carried) (c : PoisonCause) : (w.setPoison c).Inv pend carried :=
  hi.congr rfl rfl rfl rfl rfl

theorem Inv.near (hi : w.Inv pend carried) (hq : q ∈ w.window)
    (ht : w.tableAt pend q = some h) : span w.lastReclaimed q < w.ring.capacity.toNat := by
  have hq' := (mem_seqs (Nat.le_of_lt (span_lt _ _))).mp hq
  have hf := hi.fits
  cases hp : pend with
  | none => simp only [hp, Option.toList_none, List.length_nil] at hf; omega
  | some p =>
    subst hp
    have hl := hi.last p rfl
    have hne : p.1 ≠ q := by
      rintro rfl
      simp [tableAt] at ht
    simp only [Option.toList_some, List.length_singleton] at hf
    -- The pending sequence is the window's last, so a sequence on the table is before it.
    have hne' : span w.lastReclaimed q ≠ span w.lastReclaimed p.1 := fun he => hne (eq_of_span_eq he).symm
    have hopen : w.lastReclaimed ≠ p.1 + 1 := by
      intro he
      rw [← hl, ← he, span_self] at hq'
      omega
    have hsucc : span w.lastReclaimed w.ring.tail = span w.lastReclaimed p.1 + 1 := hl ▸ span_succ_of_ne hopen
    omega

theorem Inv.slot_ne (hi : w.Inv pend carried) {q' : UInt64} (hq : q ∈ w.window) (hq' : q' ∈ w.window)
    {h' : SlabHandle} (ht : w.tableAt pend q = some h) (ht' : w.tableAt pend q' = some h')
    (he : slot w.ring.capacity q = slot w.ring.capacity q') : q = q' :=
  w.ring.slot_inj w.lastReclaimed (hi.near hq ht) (hi.near hq' ht') he

theorem slabOf_congr (h : w'.tableAt pend q = w.tableAt pend q) :
    w'.slabOf pend q = w.slabOf pend q := by
  simp only [tableAt] at h
  simp only [slabOf]
  split at h <;> simp_all

theorem Inv.mem_window (hi : w.Inv pend carried) (hq : q ∈ w.unread) :
    q ∈ w.window ∧ (w.lastReclaimed ≠ w.ring.head → q ≠ w.lastReclaimed) := by
  have hq' := span_lt_of_mid hi.order ((mem_seqs (Nat.le_of_lt (span_lt _ _))).mp hq)
  refine ⟨(mem_seqs (Nat.le_of_lt (span_lt _ _))).mpr hq'.1, fun hne he => ?_⟩
  rw [he, span_self, Nat.le_zero] at hq'
  exact hne (span_eq_zero.mp hq'.2)

theorem Inv.backed_list (hi : w.Inv pend carried) :
    Backed w.ring (pend.slab.toList ++ w.unread.filterMap (w.tableAt pend)) := by
  intro d hd hne
  obtain ⟨q, hq, rfl⟩ := List.mem_map.mp hd
  have hst := hi.stamped q hq
  cases hg : w.slabOf pend q with
  | none => rw [hg] at hst; exact absurd hst hne
  | some g =>
    rw [hg] at hst
    refine ⟨g, ?_, hst.1⟩
    simp only [slabOf] at hg
    split at hg
    · simp [hg]
    · next hp =>
      exact List.mem_append_right _ (List.mem_filterMap.mpr ⟨q, hq, by simp only [tableAt, hp]; exact hg⟩)

theorem freeSlab_spec {others : List SlabHandle} (hc : Custody w.arena (h :: others))
    (hb : Backed w.ring others) (hf : FreesOk w.frees) :
    ∃ a fs, w.freeSlab h = { w with arena := a, frees := fs } ∧ Custody a others ∧ FreesOk fs := by
  obtain ⟨a, ha, hc'⟩ := hc.free
  refine ⟨a, w.frees ++ [⟨h, none, w.ring.outstanding⟩], by simp only [freeSlab, ha], hc', fun f hm => ?_⟩
  rcases List.mem_append.mp hm with hm | hm
  · exact hf f hm
  · obtain rfl := List.mem_singleton.mp hm
    refine ⟨rfl, fun d hd hne => ?_⟩
    obtain ⟨g, hg, ho⟩ := hb d hd hne
    rw [ho]
    exact hc.offset_ne hg

theorem Inv.freeCarried (hi : w.Inv none c) : (w.freeSlab? c).Inv none none := by
  cases c with
  | none => exact hi
  | some h =>
    have hsub : w.unread.filterMap (w.tableAt none) ⊆ w.window.filterMap (w.tableAt none) := by
      intro g hg
      obtain ⟨q, hq, hgq⟩ := List.mem_filterMap.mp hg
      exact List.mem_filterMap.mpr ⟨q, (hi.mem_window hq).1, hgq⟩
    obtain ⟨a, fs, he, hc, hf⟩ := freeSlab_spec hi.custody (hi.backed_list.mono hsub) hi.frees
    rw [freeSlab?, he]
    exact ⟨hi.order, hi.bounded, hi.fits, hi.last, hi.clean, hc, hi.stamped, hf⟩

/-! ### Reclaim -/

/-- The reclaim loop's reading of the table is the window's: what a slot holds
is the handle of the window's front, and a pending front has none. -/
theorem Inv.front (hi : w.Inv pend carried) (hne : w.lastReclaimed ≠ w.ring.tail) :
    w.handleAt w.lastReclaimed = w.tableAt pend w.lastReclaimed := by
  have hmem : w.lastReclaimed ∈ w.window := by
    refine (mem_seqs (Nat.le_of_lt (span_lt _ _))).mpr ?_
    rw [span_self]
    exact Nat.pos_of_ne_zero fun h0 => hne (span_eq_zero.mp h0)
  cases hh : w.handleAt w.lastReclaimed with
  | none => simp [tableAt, hh]
  | some h =>
    obtain ⟨q, hq, hqt, hqs⟩ := hi.clean _ h hh
    have hcap := w.ring.capacity_pos
    have : w.lastReclaimed = q :=
      w.ring.slot_inj w.lastReclaimed (by rw [span_self]; exact hcap) (hi.near hq hqt) hqs
    rw [this]
    exact hqt.symm

theorem Inv.tableAt_clear (hi : w.Inv pend carried) (hf : w.tableAt pend w.lastReclaimed = some h)
    (hm : w.lastReclaimed ∈ w.window) (hq : q ∈ w.window) (hne : q ≠ w.lastReclaimed) :
    (w.setSlot w.lastReclaimed none).tableAt pend q = w.tableAt pend q := by
  simp only [tableAt, handleAt, setSlot]
  split
  · rfl
  · next hp =>
    by_cases hs : slot w.ring.capacity q = slot w.ring.capacity w.lastReclaimed
    · cases hg : w.handleTable (slot w.ring.capacity q) with
      | none => simp [hs]
      | some g =>
        have hqt : w.tableAt pend q = some g := by simp only [tableAt, hp]; exact hg
        exact absurd (hi.slot_ne hq hm hqt hf hs) hne
    · simp [update_of_ne hs]

theorem window_front (hne : w.lastReclaimed ≠ w.ring.tail) :
    w.window = w.lastReclaimed :: seqs (w.lastReclaimed + 1) (span (w.lastReclaimed + 1) w.ring.tail) := by
  rw [window, span_front hne, seqs_succ]

theorem Inv.reclaimOne (hi : w.Inv pend carried) (hne : w.lastReclaimed ≠ w.ring.head) :
    w.reclaimOne.Inv pend carried := by
  have hpos : 0 < span w.lastReclaimed w.ring.head :=
    Nat.pos_of_ne_zero fun h0 => hne (span_eq_zero.mp h0)
  have hnt : w.lastReclaimed ≠ w.ring.tail := by
    intro he
    have := hi.order
    rw [← he, span_self] at this
    omega
  have hwin := window_front hnt
  have horder : span (w.lastReclaimed + 1) w.ring.head ≤ span (w.lastReclaimed + 1) w.ring.tail := by
    have := hi.order
    rw [span_front hne, span_front hnt] at this
    omega
  have hfits : span (w.lastReclaimed + 1) w.ring.tail ≤ w.ring.capacity.toNat + pend.toList.length := by
    have := hi.fits
    rw [span_front hnt] at this
    omega
  have hnd : w.window.Nodup := nodup_seqs (Nat.le_of_lt (span_lt _ _))
  rw [hwin, List.nodup_cons] at hnd
  simp only [Writer.reclaimOne, hi.front hnt]
  split
  · next h hf =>
    have hm : w.lastReclaimed ∈ w.window := hwin ▸ List.mem_cons_self
    have hclear : ∀ q ∈ w.window, q ≠ w.lastReclaimed →
        (w.setSlot w.lastReclaimed none).tableAt pend q = w.tableAt pend q :=
      fun q hq hqn => hi.tableAt_clear hf hm hq hqn
    have hrest : (seqs (w.lastReclaimed + 1) (span (w.lastReclaimed + 1) w.ring.tail)).filterMap
          ((w.setSlot w.lastReclaimed none).tableAt pend) =
        (seqs (w.lastReclaimed + 1) (span (w.lastReclaimed + 1) w.ring.tail)).filterMap (w.tableAt pend) :=
      List.filterMap_congr fun q hq =>
        hclear q (hwin ▸ List.mem_cons_of_mem _ hq) (by rintro rfl; exact hnd.1 hq)
    have hcust := hi.custody
    rw [hwin, List.filterMap_cons_some hf] at hcust
    have hcust := hcust.perm List.perm_middle
    have hback : Backed w.ring (carried.toList ++ pend.slab.toList ++
        (seqs (w.lastReclaimed + 1) (span (w.lastReclaimed + 1) w.ring.tail)).filterMap (w.tableAt pend)) := by
      refine hi.backed_list.mono fun g hg => ?_
      rcases List.mem_append.mp hg with hg | hg
      · exact List.mem_append_left _ (List.mem_append_right _ hg)
      · obtain ⟨q, hq, hgq⟩ := List.mem_filterMap.mp hg
        have hqw := hi.mem_window hq
        rw [hwin, List.mem_cons] at hqw
        exact List.mem_append_right _ (List.mem_filterMap.mpr ⟨q, hqw.1.resolve_left (hqw.2 hne), hgq⟩)
    obtain ⟨a, fs, he, hc, hfs⟩ := freeSlab_spec hcust hback hi.frees
    rw [he]
    refine ⟨horder, hi.bounded, hfits, hi.last, fun x g hx => ?_, ?_, ?_, hfs⟩
    · have hxs : x ≠ slot w.ring.capacity w.lastReclaimed := by
        rintro rfl
        simp [setSlot] at hx
      simp only [setSlot, update_of_ne hxs] at hx
      obtain ⟨q, hq, hqt, rfl⟩ := hi.clean x g hx
      have hqn : q ≠ w.lastReclaimed := by
        rintro rfl
        exact hxs rfl
      have hq' := hq
      rw [hwin, List.mem_cons] at hq'
      exact ⟨q, hq'.resolve_left hqn, (hclear q hq hqn).trans hqt, rfl⟩
    · exact hrest ▸ hc
    · intro q hq
      have hqw := hi.mem_window hq
      have hst := hi.stamped q hq
      rw [← slabOf_congr (hclear q hqw.1 (hqw.2 hne))] at hst
      exact hst
  · next hf =>
    refine ⟨horder, hi.bounded, hfits, hi.last, fun x g hx => ?_, ?_, hi.stamped, hi.frees⟩
    · obtain ⟨q, hq, hqt, hxq⟩ := hi.clean x g hx
      rw [hwin, List.mem_cons] at hq
      refine ⟨q, hq.resolve_left ?_, hqt, hxq⟩
      rintro rfl
      rw [hf] at hqt
      cases hqt
    · have hcust := hi.custody
      rw [hwin, List.filterMap_cons_none hf] at hcust
      exact hcust

@[simp] theorem freeSlab_ring : (w.freeSlab h).ring = w.ring := by
  unfold freeSlab
  split <;> rfl

@[simp] theorem reclaimOne_ring : w.reclaimOne.ring = w.ring := by
  unfold Writer.reclaimOne
  split
  · exact freeSlab_ring
  · rfl

@[simp] theorem reclaimOne_lastReclaimed : w.reclaimOne.lastReclaimed = w.lastReclaimed + 1 := by
  unfold Writer.reclaimOne
  split <;> rfl

theorem Inv.reclaimLoop : ∀ {w : Writer}, w.Inv pend carried → span w.lastReclaimed w.ring.head = n →
    (reclaimLoop n w).Inv pend carried ∧ (reclaimLoop n w).lastReclaimed = w.ring.head ∧ (reclaimLoop n w).ring = w.ring := by
  induction n with
  | zero => intro w hi hs; exact ⟨hi, span_eq_zero.mp hs, rfl⟩
  | succ n ih =>
    intro w hi hs
    have hne : w.lastReclaimed ≠ w.ring.head := by
      intro he
      rw [he, span_self] at hs
      omega
    have hs' : span w.reclaimOne.lastReclaimed w.reclaimOne.ring.head = n := by
      rw [reclaimOne_lastReclaimed, reclaimOne_ring]
      have := span_front hne
      omega
    obtain ⟨h1, h2, h3⟩ := ih (hi.reclaimOne hne) hs'
    rw [reclaimOne_ring] at h2 h3
    exact ⟨h1, h2, h3⟩

/-- **An honest head never trips a bound**: under a reconcile bound that covers
the window, reclaim is its loop, and it runs to the head. -/
theorem Inv.reclaim (hi : w.Inv pend carried) {m : UInt64}
    (hm : w.ring.capacity.toNat + pend.toList.length ≤ m.toNat) :
    (w.reclaim m).Inv pend carried ∧ (w.reclaim m).lastReclaimed = w.ring.head ∧ (w.reclaim m).ring = w.ring := by
  have hdepth : ¬ w.ring.len > w.ring.capacity := by
    have := hi.bounded
    simp only [Ring.Bounded, span] at this
    rw [gt_iff_lt, UInt64.lt_iff_toNat_lt, Ring.len]
    omega
  have hhead : w.ring.tail - w.ring.len = w.ring.head := by
    rw [Ring.len]
    grind
  have hsteps : ¬ w.ring.tail - w.ring.len - w.lastReclaimed > m := by
    have h1 := hi.order
    have h2 := hi.fits
    simp only [span] at h1 h2
    rw [hhead, gt_iff_lt, UInt64.lt_iff_toNat_lt]
    omega
  simp only [Writer.reclaim, hdepth, hsteps, if_false]
  rw [hhead]
  exact hi.reclaimLoop rfl

/-! ### Publishing -/

theorem tableAt_none : w.tableAt none q = w.handleAt q := by simp [tableAt]

theorem tableAt_pend :
    w.tableAt (some (seq, ref)) q = if q = seq then none else w.handleAt q := by
  by_cases h : q = seq
  · simp [tableAt, h]
  · simp [tableAt, h, Ne.symm h]

theorem Inv.published_passed (hi : w.Inv (some (seq, ref)) carried)
    (hl : w.lastReclaimed = w.ring.head) (ht : w.ring.head = w.ring.tail) :
    (match ref with
      | some h => ((w.setSlot seq ref).freeSlab h).setSlot seq none
      | none => w.setSlot seq ref).Inv none carried := by
  have hempty : w.window = [] := by rw [window, hl, ht, span_self, seqs_zero]
  have hnone : ∀ x, w.handleTable x = none := by
    intro x
    cases hx : w.handleTable x with
    | none => rfl
    | some h =>
      obtain ⟨q, hq, -⟩ := hi.clean x h hx
      simp [hempty] at hq
  have hcust := hi.custody
  have hout : w.ring.outstanding = [] := by simp [Ring.outstanding, ht]
  have hback : ∀ held, Backed w.ring held := by simp [Backed, hout]
  have hunread : w.unread = [] := by simp [unread, ht]
  rw [hempty, List.filterMap_nil, List.append_nil] at hcust
  have hfit : span w.lastReclaimed w.ring.tail = 0 := by rw [hl, ht, span_self]
  cases ref with
  | none =>
    refine ⟨hi.order, hi.bounded, ?_, by simp, fun x h hx => ?_, ?_, fun q hq => ?_, hi.frees⟩
    · simp only [setSlot, hfit]; omega
    · simp only [setSlot, update_apply, hnone] at hx
      obtain ⟨-, ⟨⟩⟩ := Machine.guard_some hx
    · simpa [Pend.slab, window, setSlot, hfit] using hcust
    · exact absurd (hunread ▸ hq) List.not_mem_nil
  | some h =>
    have hc' : Custody w.arena (h :: carried.toList) := hcust.perm (by simp [Pend.slab, List.perm_append_singleton])
    obtain ⟨a, fs, he, hc, hfs⟩ :=
      freeSlab_spec (w := w.setSlot seq (some h)) hc' (hback _) hi.frees
    simp only [he]
    refine ⟨hi.order, hi.bounded, ?_, by simp, fun x g hx => ?_, ?_, fun q hq => ?_, hfs⟩
    · simp only [setSlot, hfit]; omega
    · simp only [setSlot, update_apply, hnone] at hx
      split at hx <;> cases hx
    · simpa [Pend.slab, window, setSlot, hfit] using hc
    · exact absurd (hunread ▸ hq) List.not_mem_nil

theorem Inv.published_outstanding (hi : w.Inv (some (seq, ref)) carried)
    (hl : w.lastReclaimed = w.ring.head) (ht : w.ring.head ≠ w.ring.tail) : (w.setSlot seq ref).Inv none carried := by
  have hseq : seq + 1 = w.ring.tail := hi.last (seq, ref) rfl
  have hcap : span w.ring.head w.ring.tail ≤ w.ring.capacity.toNat := hi.bounded
  have hspan : span w.ring.head w.ring.tail = span w.ring.head seq + 1 :=
    hseq ▸ span_succ_of_ne (hseq ▸ ht)
  have hwin : w.window = seqs w.ring.head (span w.ring.head seq) ++ [seq] := by
    rw [window, hl, hspan]
    exact seqs_back rfl
  -- Off the pushed sequence the table reads as before; at it, it reads `ref`.
  have hother : ∀ q ∈ w.window, q ≠ seq → (w.setSlot seq ref).tableAt none q = w.tableAt (some (seq, ref)) q := by
    intro q hq hne
    have hq' : span w.ring.head q < span w.ring.head w.ring.tail :=
      hl ▸ (mem_seqs (Nat.le_of_lt (span_lt _ _))).mp hq
    have hs : slot w.ring.capacity q ≠ slot w.ring.capacity seq := fun he =>
      hne (w.ring.slot_inj w.ring.head (by omega) (by omega) he)
    rw [tableAt_none, tableAt_pend, if_neg hne]
    simp [handleAt, setSlot, update_of_ne hs]
  have hself : (w.setSlot seq ref).tableAt none seq = ref := by
    rw [tableAt_none]
    simp [handleAt, setSlot]
  have hnd : w.window.Nodup := nodup_seqs (Nat.le_of_lt (span_lt _ _))
  have hpre : ∀ q ∈ seqs w.ring.head (span w.ring.head seq), q ∈ w.window ∧ q ≠ seq := by
    intro q hq
    refine ⟨hwin ▸ List.mem_append_left _ hq, ?_⟩
    rintro rfl
    rw [hwin] at hnd
    exact (List.disjoint_of_nodup_append hnd hq) (List.mem_singleton.mpr rfl)
  have hentries : w.window.filterMap ((w.setSlot seq ref).tableAt none) =
      w.window.filterMap (w.tableAt (some (seq, ref))) ++ ref.toList := by
    have hpend : w.tableAt (some (seq, ref)) seq = none := by rw [tableAt_pend, if_pos rfl]
    rw [hwin, List.filterMap_append, List.filterMap_append, List.filterMap_cons_none hpend, List.filterMap_nil,
      List.append_nil]
    congr 1
    · exact List.filterMap_congr fun q hq => hother q (hpre q hq).1 (hpre q hq).2
    · cases ref with
      | none => rw [List.filterMap_cons_none hself]; rfl
      | some h => rw [List.filterMap_cons_some hself]; rfl
  have hwin' : seqs w.ring.head (span w.ring.head w.ring.tail) = w.window := by rw [window, hl]
  refine ⟨hi.order, hi.bounded, ?_, by simp, fun x h hx => ?_, ?_, ?_, hi.frees⟩
  · simp only [setSlot, hl]
    exact Nat.le_add_right_of_le hcap
  · by_cases hxs : x = slot w.ring.capacity seq
    · subst hxs
      have : ref = some h := by simpa [setSlot] using hx
      exact ⟨seq, hwin ▸ List.mem_append_right _ (List.mem_singleton.mpr rfl), hself.trans this, rfl⟩
    · simp only [setSlot, update_of_ne hxs] at hx
      obtain ⟨q, hq, hqt, rfl⟩ := hi.clean x h hx
      have hne : q ≠ seq := by
        rintro rfl
        exact hxs rfl
      exact ⟨q, hq, (hother q hq hne).trans hqt, rfl⟩
  · have hcust := hi.custody
    change Custody w.arena (carried.toList ++ [] ++ w.window.filterMap ((w.setSlot seq ref).tableAt none))
    rw [hentries]
    refine hcust.perm ?_
    rw [List.append_nil, List.append_assoc]
    exact (List.perm_append_comm).append_left _
  · intro q hq
    have hst := hi.stamped q hq
    have hof : (w.setSlot seq ref).slabOf none q = w.slabOf (some (seq, ref)) q := by
      by_cases hqs : q = seq
      · subst hqs
        simpa [slabOf, Pend.slab, tableAt] using hself
      · have h1 := hother q (hwin' ▸ hq) hqs
        rw [tableAt_none, tableAt_pend, if_neg hqs] at h1
        simpa [slabOf, Ne.symm hqs] using h1
    rw [← hof] at hst
    exact hst

/-- **`published` settles the pushed frame**, wherever the consumer has got to. -/
theorem Inv.published (hi : w.Inv (some (seq, ref)) carried) :
    (w.published seq ref).Inv none carried := by
  have hcap := w.ring.capacity_lt
  obtain ⟨h1, h2, h3⟩ := hi.reclaim (m := w.ring.capacity + 1) (by
    rw [UInt64.toNat_add]
    simp only [UInt64.reduceToNat, Option.toList_some, List.length_singleton]
    omega)
  have hseq : seq + 1 = w.ring.tail := hi.last (seq, ref) rfl
  have hl : (w.reclaim (w.ring.capacity + 1)).lastReclaimed = (w.reclaim (w.ring.capacity + 1)).ring.head := by
    rw [h2, h3]
  by_cases ht : w.ring.head = w.ring.tail
  · have hp := h1.published_passed hl (by rw [h3]; exact ht)
    cases ref with
    | none => exact hp
    | some h =>
      have : (w.reclaim (w.ring.capacity + 1)).lastReclaimed = seq + 1 := by rw [h2, hseq, ht]
      simpa only [Writer.published, setSlot, this, if_true] using hp
  · have hp := h1.published_outstanding hl (by rw [h3]; exact ht)
    cases ref with
    | none => exact hp
    | some h =>
      have : (w.reclaim (w.ring.capacity + 1)).lastReclaimed ≠ seq + 1 := by rw [h2, hseq]; exact ht
      simpa only [Writer.published, setSlot, this, if_false] using hp

/-! ### Pushing and consuming -/

theorem Inv.push {r : Ring} (hi : w.Inv none carried)
    (hs : carried.toList = c.toList ++ ref.toList) (hd : DescOK d ref) (hp : w.ring.push d = .ok r) :
    ({ w with ring := r } : Writer).Inv (some (w.ring.tail, ref)) c := by
  have hout := Ring.outstanding_push hp
  obtain ⟨hlt, rfl⟩ := Ring.push_ok hp
  have hcap := w.ring.capacity_lt
  have hfits := hi.fits
  simp only [Option.toList_none, List.length_nil, Nat.add_zero] at hfits
  have hspan : span w.lastReclaimed (w.ring.tail + 1) = span w.lastReclaimed w.ring.tail + 1 := span_succ (by omega)
  have hspan' : span w.ring.head (w.ring.tail + 1) = span w.ring.head w.ring.tail + 1 := span_succ (by omega)
  have hwin : seqs w.lastReclaimed (span w.lastReclaimed (w.ring.tail + 1)) = w.window ++ [w.ring.tail] := by
    rw [hspan]
    exact seqs_back rfl
  have hunread : seqs w.ring.head (span w.ring.head (w.ring.tail + 1)) = w.unread ++ [w.ring.tail] := by
    rw [hspan']
    exact seqs_back rfl
  let w' : Writer := { w with ring := { w.ring.write w.ring.tail d with tail := w.ring.tail + 1 } }
  have hne : ∀ q ∈ w.window, q ≠ w.ring.tail := by
    rintro q hq rfl
    exact absurd ((mem_seqs (Nat.le_of_lt (span_lt _ _))).mp hq) (Nat.lt_irrefl _)
  have hat : ∀ q ∈ w.window, w'.tableAt (some (w.ring.tail, ref)) q = w.tableAt none q := by
    intro q hq
    rw [tableAt_pend, if_neg (hne q hq), tableAt_none]
    rfl
  have hself : w'.tableAt (some (w.ring.tail, ref)) w.ring.tail = none := by rw [tableAt_pend, if_pos rfl]
  refine ⟨?_, ?_, ?_, ?_, fun x h hx => ?_, ?_, ?_, hi.frees⟩
  · have := hi.order
    change span w.lastReclaimed w.ring.head ≤ span w.lastReclaimed (w.ring.tail + 1)
    omega
  · change span w.ring.head (w.ring.tail + 1) ≤ w.ring.capacity.toNat
    omega
  · change span w.lastReclaimed (w.ring.tail + 1) ≤ w.ring.capacity.toNat + 1
    omega
  · intro p hp
    obtain rfl := Option.mem_some_iff.mp hp
    rfl
  · obtain ⟨q, hq, hqt, hxq⟩ := hi.clean x h hx
    refine ⟨q, ?_, (hat q hq).trans hqt, hxq⟩
    change q ∈ seqs w.lastReclaimed (span w.lastReclaimed (w.ring.tail + 1))
    exact hwin ▸ List.mem_append_left _ hq
  · change Custody w.arena (c.toList ++ ref.toList ++
      (seqs w.lastReclaimed (span w.lastReclaimed (w.ring.tail + 1))).filterMap (w'.tableAt _))
    rw [hwin, List.filterMap_append, List.filterMap_cons_none hself, List.filterMap_nil, List.append_nil,
      List.filterMap_congr hat, ← hs]
    simpa [Pend.slab] using hi.custody
  · intro q hq
    change q ∈ seqs w.ring.head (span w.ring.head (w.ring.tail + 1)) at hq
    change DescOK (w'.ring.desc q) (w'.slabOf (some (w.ring.tail, ref)) q)
    rw [hunread, List.mem_append, List.mem_singleton] at hq
    by_cases hqt : q = w.ring.tail
    · subst hqt
      have hdq : w'.ring.desc w.ring.tail = d := by simp [w', Ring.desc, Ring.write]
      have hof : w'.slabOf (some (w.ring.tail, ref)) w.ring.tail = ref := by simp [slabOf, Pend.slab]
      rw [hdq, hof]
      exact hd
    · have hq := hq.resolve_right hqt
      have hsl : slot w.ring.capacity q ≠ slot w.ring.capacity w.ring.tail := by
        have hq' := (mem_seqs (Nat.le_of_lt (span_lt _ _))).mp hq
        exact fun he => hqt (w.ring.slot_inj w.ring.head (by omega) hlt he)
      have hdq : w'.ring.desc q = w.ring.desc q := by simp [w', Ring.desc, Ring.write, update_of_ne hsl]
      have hof : w'.slabOf (some (w.ring.tail, ref)) q = w.slabOf none q := by
        simp only [slabOf, Option.any_some, beq_iff_eq, Ne.symm hqt, Option.any_none, Bool.false_eq_true, if_false]
        rfl
      rw [hdq, hof]
      exact hi.stamped q hq

theorem Inv.advance (hi : w.Inv pend carried) (hne : w.ring.head ≠ w.ring.tail) :
    ({ w with ring := w.ring.advance } : Writer).Inv pend carried := by
  have hf := span_front hne
  have hadd := span_add hi.order
  have hsucc : span w.lastReclaimed (w.ring.head + 1) = span w.lastReclaimed w.ring.head + 1 := by
    have := span_lt w.lastReclaimed w.ring.tail
    exact span_succ (by omega)
  refine ⟨?_, ?_, hi.fits, hi.last, hi.clean, hi.custody, fun q hq => hi.stamped q ?_, hi.frees⟩
  · change span w.lastReclaimed (w.ring.head + 1) ≤ span w.lastReclaimed w.ring.tail
    omega
  · have := hi.bounded
    simp only [Ring.Bounded] at this
    change span (w.ring.head + 1) w.ring.tail ≤ w.ring.capacity.toNat
    omega
  · rw [unread, hf, seqs_succ]
    exact List.mem_cons_of_mem _ hq

/-! ### Building -/

/-- A property of a writer and the slab in hand that survives each thing a build does. -/
structure Closed (P : Writer → Option SlabHandle → Prop) : Prop where
  report : ∀ {w : Writer} {c : Option SlabHandle} (i : Intent) (e : Option SendErr), P w c → P (w.report i e) c
  pending : ∀ {w : Writer} {c : Option SlabHandle} (slab : Option SlabHandle), P w c → P { w with pendingSlab := slab } c
  reclaim : ∀ {w : Writer}, P w none → P (w.reclaim w.ring.capacity) none
  alloc : ∀ {w : Writer} {size : Nat} {h : SlabHandle} {a : Arena}, P w none → w.arena.alloc size = .ok (h, a) →
    P { w with arena := a } (some h)
  store : ∀ {w : Writer} {c : Option SlabHandle} (off : Nat) (bytes : Bytes), P w c →
    P { w with arena := w.arena.store off bytes } c
  free : ∀ {w : Writer} {h : SlabHandle}, P w (some h) → P (w.freeSlab h) none

theorem Freed.closed {P : Writer → Prop} (hP : Freed P)
    (halloc : ∀ {w : Writer} {size : Nat} {h : SlabHandle} {a : Arena}, P w → w.arena.alloc size = .ok (h, a) →
      P { w with arena := a })
    (hstore : ∀ {w : Writer} (off : Nat) (bytes : Bytes), P w → P { w with arena := w.arena.store off bytes }) :
    Closed fun w _ => P w where
  report i e h := hP.report h i e
  pending _ h := hP.blind _ _ _ _ _ h
  reclaim h := hP.reclaim h _
  alloc := halloc
  store := hstore
  free h := hP.free _ h

def inHand (w : Writer) : BuildResult → Option SlabHandle
  | .failed | .stuck => none
  | .ok _ _ => w.pendingSlab

/-- **A build keeps what each of its parts keeps.** -/
theorem Closed.build {P : Writer → Option SlabHandle → Prop} (hP : Closed P) (hi : P w none)
    (he : w.build i late = (w', r)) : P w' (w'.inHand r) := by
  have h0 : P { w with pendingSlab := none } none := hP.pending none hi
  cases build_cases he with
  | refused => exact hP.report _ _ h0
  | bare => exact h0
  | empty => exact h0
  | stuck => exact hP.reclaim h0
  | unserved => exact hP.report _ _ (hP.reclaim h0)
  | freed bytes e _ ha => exact hP.report _ _ (hP.free (hP.store _ bytes (hP.alloc (hP.reclaim h0) ha)))
  | @stamped _ h _ _ fill bytes _ _ _ _ ha =>
    have hst : P _ (some h) := hP.store h.offset bytes (hP.alloc (hP.reclaim h0) ha)
    refine hP.pending _ ?_
    unfold sealSlab
    split
    · exact hP.store _ _ hst
    · exact hst

structure Quiet (w w' : Writer) : Prop where
  ring : w'.ring = w.ring
  arena : w'.arena = w.arena
  handleTable : w'.handleTable = w.handleTable
  lastReclaimed : w'.lastReclaimed = w.lastReclaimed
  frees : w'.frees = w.frees
  poison : w'.poison = w.poison

theorem buildLifecycle_quiet (hl : i.lane = .lifecycle)
    (he : w.build i late = (w', r)) : Quiet w w' ∧ ∀ i' d, r = .ok i' d → d.allocSeq = 0 := by
  cases build_cases he with
  | refused => exact ⟨⟨rfl, rfl, rfl, rfl, rfl, rfl⟩, fun _ _ h => by cases h⟩
  | bare => exact ⟨⟨rfl, rfl, rfl, rfl, rfl, rfl⟩, fun _ _ h => by cases h; rfl⟩
  | empty _ hne | stuck hne | unserved _ hne | freed _ _ hne | stamped _ _ hne => exact absurd hl hne

theorem alloc_offset_lt {a' : Arena} (ha : a.alloc n = .ok (h, a')) : h.offset < 2 ^ 32 := by
  obtain ⟨ci, sc, idx, rest, -, -, -, -, rfl, -⟩ := Arena.alloc_eq_ok ha
  exact Nat.mod_lt _ (by decide)

theorem build_descOK {i' : Intent} (he : w.build i late = (w', .ok i' d)) : DescOK d w'.pendingSlab := by
  cases build_cases he with
  | bare => rfl
  | empty => rfl
  | stamped _ _ _ _ _ _ ha => exact ⟨UInt32.toNat_ofNat_of_lt' (alloc_offset_lt ha), rfl⟩

theorem Inv.alloc {size : Nat} (hi : w.Inv none none)
    (ha : w.arena.alloc size = .ok (h, a)) : ({ w with arena := a } : Writer).Inv none (some h) :=
  ⟨hi.order, hi.bounded, hi.fits, hi.last, hi.clean, hi.custody.alloc ha, hi.stamped, hi.frees⟩

theorem Inv.store (hi : w.Inv pend carried) (off : Nat) (bytes : Bytes) :
    ({ w with arena := w.arena.store off bytes } : Writer).Inv pend carried :=
  ⟨hi.order, hi.bounded, hi.fits, hi.last, hi.clean, hi.custody.store off bytes, hi.stamped, hi.frees⟩

theorem Inv.closed : Closed fun w c => w.Inv none c where
  report i e hi := hi.report i e
  pending _ hi := hi.congr rfl rfl rfl rfl rfl
  reclaim hi := (hi.reclaim (by simp)).1
  alloc hi ha := hi.alloc ha
  store off bytes hi := hi.store off bytes
  free hi := hi.freeCarried

end Writer

end Styx
