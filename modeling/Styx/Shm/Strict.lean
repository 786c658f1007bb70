/-
STRICT capacity certification, against the arena it speaks of: the startup check counts the slabs of every class, and
a writer with fewer payloads outstanding than it certified finds a slab for the next one.
-/
import Styx.Shm.RoundTrip

namespace Styx

open Function Sequence Machine

/-! ## The startup check -/

/-- The check that failed; `strict` is `ErrStrictCapacity`, with the binding class. -/
inductive StartupErr
  | maxInflight
  | noClasses (direction : Bool)
  | dataBudget (budget : Int)
  | largestSlab (direction : Bool)
  | strict (direction : Bool) (cls : Nat) (usable : Int)
  deriving DecidableEq

/-- Class 0 keeps one slab back. -/
def usableSlabs (c : Region.SizeClass) (classIndex : Nat) : Int :=
  if classIndex = 0 then c.slabCount.toNat - 1 else c.slabCount.toNat

/-- The class with the fewest usable slabs, the first of them. -/
def bindClass : List Region.SizeClass → Nat → Nat × Int → Nat × Int
  | [], _, b => b
  | c :: cs, ci, b => bindClass cs (ci + 1) (if usableSlabs c ci < b.2 then (ci, usableSlabs c ci) else b)

def certify (maxInflight : Int) (direction : Bool) : List Region.SizeClass → Except StartupErr Unit
  | [] => .ok ()
  | c :: cs =>
    let b := bindClass cs 1 (0, usableSlabs c 0)
    if maxInflight > b.2 then .error (.strict direction b.1 b.2) else .ok ()

def validateStartupCapacity (layout : Region.Layout) (maxInflight : Int) (checksum strict : Bool) :
    Except StartupErr Unit :=
  let budget : Int := layout.ringCapacity.toNat - layout.lifecycleReserve.toNat
  let overhead := if checksum then crc32TrailerLen else 0
  if maxInflight ≤ 0 then .error .maxInflight
  else if layout.arenaHP.classes = [] then .error (.noClasses false)
  else if layout.arenaPH.classes = [] then .error (.noClasses true)
  else if maxInflight > budget then .error (.dataBudget budget)
  else if (slabSizeLast layout.arenaHP).toNat ≤ overhead then .error (.largestSlab false)
  else if (slabSizeLast layout.arenaPH).toNat ≤ overhead then .error (.largestSlab true)
  else if strict then
    match certify maxInflight false layout.arenaHP.classes with
    | .error e => .error e
    | .ok () => certify maxInflight true layout.arenaPH.classes
  else .ok ()

theorem bindClass_le (cs : List Region.SizeClass) (ci : Nat) (b : Nat × Int) : (bindClass cs ci b).2 ≤ b.2 ∧
    ∀ j c, cs[j]? = some c → (bindClass cs ci b).2 ≤ usableSlabs c (ci + j) := by
  induction cs generalizing ci b with
  | nil => exact ⟨Int.le_refl _, by simp⟩
  | cons c cs ih =>
    obtain ⟨h1, h2⟩ := ih (ci + 1) (if usableSlabs c ci < b.2 then (ci, usableSlabs c ci) else b)
    have hb : (bindClass (c :: cs) ci b).2 ≤ b.2 ∧ (bindClass (c :: cs) ci b).2 ≤ usableSlabs c ci := by
      rw [bindClass]
      split at h1
      · next hlt => rw [if_pos hlt]; simp only at h1; omega
      · next hlt => rw [if_neg hlt]; omega
    refine ⟨hb.1, fun j x hj => ?_⟩
    cases j with
    | zero => cases hj; exact hb.2
    | succ j => rw [show ci + (j + 1) = ci + 1 + j by omega]; exact h2 j x hj

theorem certify_ok {maxInflight : Int} {direction : Bool} {cs : List Region.SizeClass}
    (h : certify maxInflight direction cs = .ok ()) {ci : Nat} {c : Region.SizeClass} (hc : cs[ci]? = some c) :
    maxInflight ≤ usableSlabs c ci := by
  cases cs with
  | nil => cases hc
  | cons c₀ cs =>
    simp only [certify] at h
    split at h
    · cases h
    next hle =>
    obtain ⟨h1, h2⟩ := bindClass_le cs 1 (0, usableSlabs c₀ 0)
    cases ci with
    | zero => cases hc; simp only at h1; omega
    | succ ci => have := h2 ci c hc; rw [Nat.add_comm] at this; omega

/-- **A certified bound is within every class of either direction.** -/
theorem validateStartupCapacity_ok {l : Region.Layout} {maxInflight : Int} {checksum : Bool} {g : Region.ArenaGeometry}
    (h : validateStartupCapacity l maxInflight checksum true = .ok ()) (hdir : g = l.arenaHP ∨ g = l.arenaPH)
    {ci : Nat} {c : Region.SizeClass} (hc : g.classes[ci]? = some c) : maxInflight ≤ usableSlabs c ci := by
  simp only [validateStartupCapacity] at h
  generalize (if checksum = true then crc32TrailerLen else 0) = overhead at h
  iterate 6
    split at h
    · cases h
  rw [if_pos trivial] at h
  split at h
  · cases h
  next hp =>
  rcases hdir with rfl | rfl
  · exact certify_ok hp hc
  · exact certify_ok h hc

/-! ## The arena -/

namespace Arena

variable {a a' : Arena} {held : List SlabHandle} {h : SlabHandle}

/-- Every slab but the reserved one is free or live. -/
structure Covered (a : Arena) : Prop where
  nextSeq : a.nextSeq ≠ 0
  cover : ∀ c sc, a.table.classes[c]? = some sc → ∀ i < sc.slabCount, ¬ (c = 0 ∧ i = 0) →
    i ∈ (a.pools c).free ∨ (c, i) ∈ a.live

theorem Covered.alloc {size : Nat} (hc : a.Covered) (he : a.alloc size = .ok (h, a')) : a'.Covered := by
  obtain ⟨ci, sc, idx, rest, -, -, -, hfree, -, rfl⟩ := alloc_eq_ok he
  refine ⟨succSeq_ne_zero, fun c sc' hsc i hi hz => ?_⟩
  have hold := hc.cover c sc' hsc i hi hz
  by_cases hci : c = ci
  · subst hci
    rw [hfree, List.mem_cons] at hold
    by_cases hidx : i = idx
    · exact .inr (by simp [live, setPool, hidx, hc.nextSeq])
    · simpa [live, setPool, hidx] using hold
  · simpa [live, setPool, hci] using hold

theorem Covered.free (hc : a.Covered) (he : a.free h = .ok a') : a'.Covered := by
  obtain ⟨sc, -, -, -, -, -, -, rfl⟩ := free_eq_ok he
  refine ⟨hc.nextSeq, fun c sc' hsc i hi hz => ?_⟩
  have hold := hc.cover c sc' hsc i hi hz
  by_cases hch : c = h.cls
  · subst hch
    by_cases hidx : i = h.index
    · exact .inl (by simp [release, setPool, hidx])
    · simpa [live, release, setPool, hidx] using hold
  · simpa [live, release, setPool, hch] using hold

/-- **A slab is left** in a class with more usable slabs than are held. -/
theorem Covered.free_ne_nil (hc : a.Covered) (hcust : Custody a held) {c : Nat} {sc : SizeClass}
    (hsc : a.table.classes[c]? = some sc) (hlt : held.length + (if c = 0 then 1 else 0) < sc.slabCount) :
    (a.pools c).free ≠ [] := by
  intro hnil
  generalize hk : (if c = 0 then 1 else 0) = k at hlt
  have hsub : (List.range' k (sc.slabCount - k)).map (Prod.mk c) ⊆ held.map SlabHandle.slab := by
    intro x hx
    obtain ⟨i, hi, rfl⟩ := List.mem_map.mp hx
    rw [List.mem_range'_1] at hi
    have hz : ¬ (c = 0 ∧ i = 0) := by
      rintro ⟨rfl, rfl⟩
      simp at hk
      omega
    have hold := hc.cover c sc hsc i (by omega) hz
    rw [hnil] at hold
    exact hcust.covers _ (hold.resolve_left List.not_mem_nil)
  have hnd : ((List.range' k (sc.slabCount - k)).map (Prod.mk c)).Nodup :=
    List.Nodup.map (Prod.mk_right_injective c) List.nodup_range'
  have hlen := (hnd.subperm hsub).length_le
  simp only [List.length_map, List.length_range'] at hlen
  omega

end Arena

/-! ## The writer -/

namespace Writer

variable {w : Writer}

theorem covered_freed : Freed fun w => w.arena.Covered where
  free h hc := by
    unfold freeSlab
    split
    · next a ha => exact hc.free ha
    · exact hc
  poison _ hc := hc
  blind _ _ _ _ _ hc := hc

theorem covered_closed : Closed fun w _ => w.arena.Covered :=
  covered_freed.closed (fun hc ha => hc.alloc ha) fun _ _ hc => ⟨hc.nextSeq, hc.cover⟩

/-- Reclaimed to the head, the writer holds a slab for each outstanding descriptor that has one. -/
theorem Inv.length_held (hi : w.Inv none none) (hl : w.lastReclaimed = w.ring.head) :
    (w.window.filterMap (w.tableAt none)).length = w.ring.outstanding.countP (·.allocSeq ≠ 0) := by
  rw [List.length_filterMap_eq_countP, Ring.outstanding, List.countP_map]
  have hwin : w.window = w.unread := by rw [window, hl, unread]
  rw [hwin]
  refine List.countP_congr fun q hq => ?_
  have hst := hi.stamped q hq
  have hof : w.slabOf none q = w.tableAt none q := rfl
  rw [hof] at hst
  cases hg : w.tableAt none q with
  | none => rw [hg] at hst; simpa [DescOK] using hst
  | some g =>
    rw [hg] at hst
    have hown := hi.custody.owns g (List.mem_append_right _ (List.mem_filterMap.mpr ⟨q, hwin ▸ hq, hg⟩))
    simpa [hst.2] using hown.sequence

/-- Reclaimed to the head, it allocates where every class has more usable slabs than are outstanding. -/
theorem Inv.allocates {cfg : Settings} {g : Region.ArenaGeometry} {n : Nat} (hi : w.Inv none none)
    (hl : w.lastReclaimed = w.ring.head) (hc : w.arena.Covered) (ho : w.Outlet cfg g) (hg : Region.ArenaRules g)
    (hroom : ∀ ci c, g.classes[ci]? = some c → (w.ring.outstanding.countP (·.allocSeq ≠ 0) : Int) < usableSlabs c ci)
    (hpos : 0 < n) (hn : n ≤ (slabSizeLast g).toNat) : ∃ h a, w.arena.alloc n = .ok (h, a) := by
  obtain ⟨ci, hsel⟩ := hg.serves hn
  obtain ⟨hlt, -⟩ := List.findIdx?_eq_some_iff_getElem.mp hsel
  rw [List.length_map] at hlt
  have hcls := List.getElem?_eq_getElem hlt
  have hsc : w.arena.table.classes[ci]? = some g.classes[ci].toArena := by rw [ho.classes, List.getElem?_map, hcls]; rfl
  have hfree : (w.arena.pools ci).free ≠ [] := by
    refine hc.free_ne_nil hi.custody hsc ?_
    have := hroom ci _ hcls
    rw [← hi.length_held hl, usableSlabs] at this
    change (w.window.filterMap (w.tableAt none)).length + _ < g.classes[ci].slabCount.toNat
    split at this
    · next h0 => rw [if_pos h0]; omega
    · next h0 => rw [if_neg h0]; omega
  obtain ⟨idx, rest, hpool⟩ := List.exists_cons_of_ne_nil hfree
  rw [← ho.classes] at hsel
  simp [Arena.alloc, Nat.pos_iff_ne_zero.mp hpos, hsel, hsc, hpool]

end Writer

namespace Sys

variable {cfg : Settings} {g : Region.ArenaGeometry} {s t : Sys}

theorem Attached.covered (h0 : s.Attached cfg g) (hr : Reach step Any s t) :
    t.Inv ∧ t.w.Outlet cfg g ∧ t.w.arena.Covered := by
  induction hr with
  | refl =>
    obtain ⟨t, mem, generation, id, ha⟩ := h0.start.arena
    exact ⟨h0.start.inv, (h0.loaded (F := ∅)).outlet, ha ▸ ⟨Arena.new_wf.nextSeq, Calls.Tracked.start.cover⟩⟩
  | tail _ _ hs ih =>
    exact ⟨ih.1.step hs, (seen_step hs).outlet ih.2.1,
      (seen_step hs).keeps Writer.covered_freed Writer.covered_closed (fun _ h => h) ih.2.2⟩

/-- The books after the reclaim a build starts with. -/
theorem Attached.reclaimed (h0 : s.Attached cfg g) (hr : Reach step Any s t) (hpc : t.pc = .idle)
    (hstuck : t.stuckSlab = none) {w : Writer} (hw : t.w.reclaim t.w.ring.capacity = w) :
    w.Inv none none ∧ w.lastReclaimed = w.ring.head ∧ w.ring = t.w.ring ∧ w.Outlet cfg g ∧ w.arena.Covered := by
  obtain ⟨hi, ho, hc⟩ := h0.covered hr
  have hslabs := hi.slabs
  rw [hpc] at hslabs
  obtain ⟨hi, hlast, hring⟩ :=
    Writer.Inv.reclaim (hstuck ▸ hslabs : t.w.Inv none none) (m := t.w.ring.capacity) (by simp)
  subst hw
  exact ⟨hi, hlast.trans (by rw [hring]), hring, ho.reclaim, Writer.covered_freed.reclaim hc _⟩

/-- **STRICT means no arena backpressure**: with fewer slabs outstanding than certified, and none set aside, the leading
reclaim of a build leaves a slab for any payload up to the direction's limit. -/
theorem strict_allocates (input l : Region.Layout) (log : List Exact) (hl : Region.deriveLayout input [] = .ok (l, log))
    (hdir : g = l.arenaHP ∨ g = l.arenaPH) {maxInflight : Int}
    (hv : validateStartupCapacity l maxInflight cfg.checksum true = .ok ()) (h0 : s.Attached cfg g)
    (hr : Reach step Any s t) (hpc : t.pc = .idle) (hstuck : t.stuckSlab = none)
    (hM : (t.w.ring.outstanding.countP (·.allocSeq ≠ 0) : Int) < maxInflight) (n : Nat)
    (hpos : 0 < n + t.w.crcTrailer) (hn : n ≤ (slabSizeLast g - cfg.overhead).toNat) :
    ∃ h a, (t.w.reclaim t.w.ring.capacity).arena.alloc (n + t.w.crcTrailer) = .ok (h, a) := by
  obtain ⟨hgeo, -⟩ := (Region.deriveLayout_safe.of_ok hl).1
  have hg : Region.ArenaRules g := by
    rcases hdir with rfl | rfl
    · exact hgeo.arenaHP
    · exact hgeo.arenaPH
  obtain ⟨hi, hlast, hring, ho, hc⟩ := h0.reclaimed hr hpc hstuck rfl
  have hover := hg.overhead_le cfg
  rw [(h0.covered hr).2.1.crcTrailer] at hpos ⊢
  refine hi.allocates hlast hc ho hg (fun ci c hcls => ?_) (by omega) (by omega)
  rw [hring]
  exact Int.lt_of_lt_of_le hM (validateStartupCapacity_ok hv hdir hcls)

theorem strict_allocates_small : ∃ log, Region.deriveLayout Region.smallInput [] = .ok (Region.smallLayout, log) ∧
    ∃ h a, (smallStart.w.reclaim smallStart.w.ring.capacity).arena.alloc (4092 + smallStart.w.crcTrailer) =
      .ok (h, a) :=
  let ⟨log, hl⟩ := Region.smallInput_derives
  ⟨log, hl, strict_allocates _ _ log hl (.inl rfl) (by decide : validateStartupCapacity _ 1 _ true = _)
    smallStart_attached .refl rfl rfl (by decide) 4092 (by decide) (by decide)⟩

/-- **Every slab comes back**: with the ring empty and no frame set aside, the reclaim leaves none out. -/
theorem slabs_return (h0 : s.Attached cfg g) (hr : Reach step Any s t) (hpc : t.pc = .idle) (hstuck : t.stuckSlab = none)
    (hempty : t.w.ring.head = t.w.ring.tail) {c i : Nat} {sc : SizeClass} (hsc : t.w.arena.table.classes[c]? = some sc)
    (hlt : i < sc.slabCount) (hz : ¬ (c = 0 ∧ i = 0)) :
    i ∈ ((t.w.reclaim t.w.ring.capacity).arena.pools c).free := by
  obtain ⟨hi, hlast, hring, ho, hc⟩ := h0.reclaimed hr hpc hstuck rfl
  have hwin : (t.w.reclaim t.w.ring.capacity).window = [] := by
    rw [Writer.window, hlast, hring, hempty, span_self, seqs_zero]
  refine (hc.cover c sc ?_ i hlt hz).resolve_right fun hlive => ?_
  · rw [ho.classes, ← (h0.covered hr).2.1.classes, hsc]
  · simpa [hwin, Pend.slab] using hi.custody.covers _ hlive

/-- One frame, sent and consumed. -/
def returned : Sys := (run step smallStart [.data fillIntent false, .push, .publish, .advance]).get (by decide +kernel)

theorem slabs_return_small : returned.w.frees = [] ∧ 1 ∈ ((returned.w.reclaim returned.w.ring.capacity).arena.pools 0).free :=
  ⟨by decide +kernel, slabs_return smallStart_attached (.of_run (Option.some_get _).symm) rfl rfl (by decide +kernel) rfl
    (by decide +kernel) (by decide)⟩

end Sys

end Styx
