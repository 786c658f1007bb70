/-
What the geometry checks of a region establish, and when they pass.

Each checking function gets a `Safe` lemma (what holds of the values it lets
through, as exact integers) and a `Returns` lemma (which values it lets
through). The host's derivation and the peer's parser both end in
`Layout.Geometry`: ring rules, class rules with contiguous bases, and spans laid
end to end from 0.
-/
import Styx.Shm.Layout

namespace Styx.Region

open ByteMem Checked

def SizeClass.toArena (c : SizeClass) : Styx.SizeClass :=
  ⟨c.slabSize.toNat, c.slabCount.toNat, c.classBaseOffset.toNat⟩

def total (cs : List SizeClass) : Nat := classTotal (cs.map SizeClass.toArena)

@[simp] theorem total_nil : total [] = 0 := rfl

variable {cs : List SizeClass} {b n t a base bytesHP bytesPH : UInt64} {c r prev : UInt32} {i : Nat} {us : List UInt64} {bases : List UInt64}

@[simp] theorem total_cons {c : SizeClass} :
    total (c :: cs) = c.slabSize.toNat * c.slabCount.toNat + total cs := by
  simp [total, classTotal, SizeClass.toArena]

/-- The next multiple of the page size. -/
def roundup (n : Nat) : Nat := (n + 4095) / 4096 * 4096

theorem le_roundup {n : Nat} : n ≤ roundup n := by
  unfold roundup
  omega

theorem roundup_mod {n : Nat} : roundup n % 4096 = 0 := by
  unfold roundup
  omega

/-! ## Sums and rounding -/

theorem addOverflowSafe_safe : Safe (addOverflowSafe a b) fun r => r.toNat = a.toNat + b.toNat := by
  have ha := a.toNat_lt
  have hb := b.toNat_lt
  have hsum : (a + b).toNat = (a.toNat + b.toNat) % 2 ^ 64 := UInt64.toNat_add a b
  by_cases hlt : a + b < a
  · have hrun : ∀ log, addOverflowSafe a b log = .error (.err .overflow) := by
      intro log
      change (refuse (a + b < a) GeometryErr.overflow >>= fun _ => pure (a + b)) _ = _
      rw [refuse, if_pos hlt]
      rfl
    constructor
    · intro log _ _ h
      rw [hrun log] at h
      cases h
    · intro log h
      rw [hrun log] at h
      cases h
  · -- the machine sum did not drop below `a`, so nothing was carried out
    rw [UInt64.lt_iff_toNat_lt] at hlt
    refine (Safe.addU64 (by omega)).bind fun r hr => Safe.refuse.bind fun _ _ => .pure hr

theorem addOverflowSafe_returns {r : UInt64} (h : r.toNat = a.toNat + b.toNat) : Returns (addOverflowSafe a b) r := by
  have hr := r.toNat_lt
  obtain rfl : a + b = r := UInt64.toNat_inj.mp (by rw [UInt64.toNat_add, h, Nat.mod_eq_of_lt (by omega)])
  refine Returns.addU64.bind (Returns.bind (.refuse ?_) .pure)
  rw [UInt64.lt_iff_toNat_lt]
  omega

theorem toNat_mod_page : (n % pageSize).toNat = n.toNat % 4096 := UInt64.toNat_mod n pageSize

theorem toNat_page_sub : (pageSize - n % pageSize).toNat = 4096 - n.toNat % 4096 := by
  have hle : n % pageSize ≤ pageSize := by
    rw [UInt64.le_iff_toNat_le, toNat_mod_page]
    exact Nat.le_of_lt (Nat.mod_lt _ (by decide))
  rw [UInt64.toNat_sub_of_le _ _ hle, toNat_mod_page]
  rfl

theorem roundupPageSize_safe : Safe (roundupPageSize n) fun r => r.toNat = roundup n.toNat := by
  refine Safe.ite (fun h => .pure ?_) (fun h => addOverflowSafe_safe.mono fun r hr => ?_)
  · have h0 : n.toNat % 4096 = 0 := by rw [← toNat_mod_page, h]; rfl
    unfold roundup
    omega
  · have h0 : n.toNat % 4096 ≠ 0 := fun h0 => h (UInt64.toNat_inj.mp (by rw [toNat_mod_page, h0]; rfl))
    rw [hr, toNat_page_sub]
    unfold roundup
    omega

theorem roundupPageSize_returns {r : UInt64} (h : r.toNat = roundup n.toNat) :
    Returns (roundupPageSize n) r := by
  unfold roundupPageSize
  simp only
  split
  · next h0 =>
    have h1 : n.toNat % 4096 = 0 := by rw [← toNat_mod_page, h0]; rfl
    obtain rfl : n = r := UInt64.toNat_inj.mp (by rw [h]; unfold roundup; omega)
    exact .pure
  · next h0 =>
    have h1 : n.toNat % 4096 ≠ 0 := fun h1 => h0 (UInt64.toNat_inj.mp (by rw [toNat_mod_page, h1]; rfl))
    refine addOverflowSafe_returns ?_
    rw [h, toNat_page_sub]
    unfold roundup
    omega

/-! ## Ring rules -/

structure RingRules (c r : UInt32) : Prop where
  ge : 64 ≤ c.toNat
  le : c.toNat ≤ 2 ^ 20
  pow : ∃ k, c.toNat = 2 ^ k
  mask : c &&& (c - 1) = 0
  reserve_pos : 0 < r.toNat
  reserve_lt : r.toNat < c.toNat

/-- A word that shares no bit with the word below it is a power of two. -/
theorem pow_of_mask (h0 : 0 < c.toNat) (h : c &&& (c - 1) = 0) : ∃ k, c.toNat = 2 ^ k := by
  have hle : (1 : UInt32) ≤ c := by
    rw [UInt32.le_iff_toNat_le]
    exact h0
  have hand : c.toNat &&& (c.toNat - 1) = 0 := by
    have := congrArg UInt32.toNat h
    rwa [UInt32.toNat_and, UInt32.toNat_sub_of_le _ _ hle] at this
  by_contra hpow
  have hbit := Nat.and_sub_one_testBit_log2 (n := c.toNat) (by omega) (fun h => hpow h)
  rw [hand] at hbit
  simp at hbit

theorem validateRingCapacity_safe :
    Safe (validateRingCapacity c) fun _ => 64 ≤ c.toNat ∧ c.toNat ≤ 2 ^ 20 ∧ c &&& (c - 1) = 0 := by
  refine Safe.refuse.bind fun _ h1 => Safe.refuse.mono fun _ h2 => ?_
  simp only [not_or, minRingCapacity, maxRingCapacity, UInt32.lt_iff_toNat_lt, gt_iff_lt, not_lt, ne_eq,
    not_not] at h1 h2
  exact ⟨h1.1, h1.2, h2⟩

theorem validateLifecycleReserve_safe (h : 64 ≤ c.toNat ∧ c.toNat ≤ 2 ^ 20 ∧ c &&& (c - 1) = 0) :
    Safe (validateLifecycleReserve r c) fun _ => RingRules c r := by
  refine Safe.refuse.mono fun _ h3 => ?_
  rw [not_or, ge_iff_le, UInt32.le_iff_toNat_le, not_le] at h3
  have hr : 0 < r.toNat := Nat.pos_of_ne_zero fun h => h3.1 (UInt32.toNat_inj.mp h)
  exact ⟨h.1, h.2.1, pow_of_mask (by omega) h.2.2, h.2.2, hr, h3.2⟩

theorem RingRules.capacity_returns (h : RingRules c r) : Returns (validateRingCapacity c) () := by
  refine (Returns.refuse ?_).bind (.refuse fun hn => hn h.mask)
  simp only [minRingCapacity, maxRingCapacity, UInt32.lt_iff_toNat_lt, gt_iff_lt, not_or, not_lt]
  exact ⟨h.ge, h.le⟩

theorem RingRules.reserve_returns (h : RingRules c r) : Returns (validateLifecycleReserve r c) () := by
  refine .refuse ?_
  have hpos := h.reserve_pos
  rw [not_or, ge_iff_le, UInt32.le_iff_toNat_le, not_le]
  exact ⟨fun h0 => by rw [h0] at hpos; simp at hpos, h.reserve_lt⟩

/-! ## Slab rules -/

structure SlabRules (cs : List SizeClass) : Prop where
  nonempty : cs ≠ []
  size : ∀ c ∈ cs, c.slabSize ≠ 0 ∧ c.slabSize % cacheLine = 0
  count : ∀ c ∈ cs, c.slabCount ≠ 0
  ascending : cs.Pairwise fun c c' => c.slabSize < c'.slabSize
  largest : ∀ c, cs[cs.length - 1]? = some c → minLargestSlabSize ≤ c.slabSize

/-- What the loop has seen to of the entries from `i` on. -/
structure SlabsFrom (i : Nat) (prev : UInt32) (cs : List SizeClass) : Prop where
  size : ∀ c ∈ cs, c.slabSize ≠ 0 ∧ c.slabSize % cacheLine = 0
  count : ∀ c ∈ cs, c.slabCount ≠ 0
  ascending : cs.Pairwise fun c c' => c.slabSize < c'.slabSize
  above : 0 < i → ∀ c ∈ cs, prev < c.slabSize

theorem SlabsFrom.cons {c : SizeClass}
    (hsize : ¬ (c.slabSize = 0 ∨ c.slabSize % cacheLine ≠ 0)) (hord : ¬ (i > 0 ∧ c.slabSize ≤ prev))
    (hcount : ¬ c.slabCount = 0) (h : SlabsFrom (i + 1) c.slabSize cs) : SlabsFrom i prev (c :: cs) := by
  rw [not_or, not_not] at hsize
  refine ⟨?_, ?_, .cons (h.above (by omega)) h.ascending, fun hi x hx => ?_⟩
  · exact List.forall_mem_cons.mpr ⟨hsize, h.size⟩
  · exact List.forall_mem_cons.mpr ⟨hcount, h.count⟩
  · have hc : prev < c.slabSize := UInt32.not_le.mp fun hle => hord ⟨hi, hle⟩
    rcases List.mem_cons.mp hx with rfl | hx
    · exact hc
    · exact UInt32.lt_trans hc (h.above (by omega) x hx)

theorem slabBoundsFrom_safe : Safe (slabBoundsFrom i prev cs) fun _ => SlabsFrom i prev cs := by
  induction cs generalizing i prev with
  | nil => exact .pure ⟨by simp, by simp, .nil, by simp⟩
  | cons c cs ih =>
    refine Safe.refuse.bind fun _ h1 => Safe.refuse.bind fun _ h2 => Safe.refuse.bind fun _ h3 => ?_
    exact ih.mono fun _ h => .cons h1 h2 h3 h

theorem SlabsFrom.returns (h : SlabsFrom i prev cs) : Returns (slabBoundsFrom i prev cs) () := by
  induction cs generalizing i prev with
  | nil => exact .pure
  | cons c cs ih =>
    have hsize := h.size c (by simp)
    obtain ⟨habove, hasc⟩ := List.pairwise_cons.mp h.ascending
    refine (Returns.refuse ?_).bind ((Returns.refuse ?_).bind ((Returns.refuse (h.count c (by simp))).bind ?_))
    · rw [not_or, not_not]
      exact hsize
    · rintro ⟨hi, hle⟩
      exact UInt32.not_le.mpr (h.above hi c (by simp)) hle
    · exact ih ⟨fun x hx => h.size x (by simp [hx]), fun x hx => h.count x (by simp [hx]), hasc, fun _ => habove⟩

theorem validateSlabBounds_safe : Safe (validateSlabBounds cs) fun _ => SlabRules cs := by
  refine Safe.refuse.bind fun _ hlen => slabBoundsFrom_safe.bind fun _ h => ?_
  refine (Safe.index (by omega)).bind fun last hlast => Safe.refuse.mono fun _ hlarge => ?_
  refine ⟨fun hnil => hlen (by simp [hnil]), h.size, h.count, h.ascending, fun c hc => ?_⟩
  rw [hlast] at hc
  obtain rfl := Option.some.inj hc
  exact UInt32.not_lt.mp hlarge

theorem SlabRules.returns (h : SlabRules cs) : Returns (validateSlabBounds cs) () := by
  have hpos : 0 < cs.length := List.length_pos_iff.mpr h.nonempty
  have hlast : cs[cs.length - 1]? = some (cs[cs.length - 1]) := List.getElem?_eq_getElem (by omega)
  refine (Returns.refuse (by omega)).bind (Returns.bind (SlabsFrom.returns ?_) ?_)
  · exact ⟨h.size, h.count, h.ascending, fun hi => absurd hi (by omega)⟩
  · refine (Returns.index hlast).bind (.refuse ?_)
    exact UInt32.not_lt.mpr (h.largest _ hlast)

/-! ## Base offsets -/

/-- The bases run contiguously from `b` along the classes. -/
def BasesFrom : Nat → List SizeClass → List UInt64 → Prop
  | _, [], us => us = []
  | _, _ :: _, [] => False
  | b, c :: cs, u :: us => u.toNat = b ∧ BasesFrom (b + c.slabSize.toNat * c.slabCount.toNat) cs us

theorem extent_lt {c : SizeClass} : c.slabSize.toUInt64.toNat * c.slabCount.toUInt64.toNat < 2 ^ 64 := by
  rw [UInt32.toNat_toUInt64, UInt32.toNat_toUInt64]
  have h1 := c.slabSize.toNat_lt
  have h2 := c.slabCount.toNat_lt
  calc c.slabSize.toNat * c.slabCount.toNat ≤ (2 ^ 32 - 1) * (2 ^ 32 - 1) := Nat.mul_le_mul (by omega) (by omega)
    _ < 2 ^ 64 := by omega

theorem basesFrom_safe :
    Safe (basesFrom base cs) fun bt => bt.2.toNat = base.toNat + total cs ∧ BasesFrom base.toNat cs bt.1 := by
  induction cs generalizing base with
  | nil => exact .pure ⟨by simp, rfl⟩
  | cons c cs ih =>
    refine (Safe.mulU64 extent_lt).bind fun e he => addOverflowSafe_safe.bind fun n hn => ih.bind fun bt hbt => ?_
    rw [UInt32.toNat_toUInt64, UInt32.toNat_toUInt64] at he
    rw [hn, he] at hbt
    refine .pure ⟨?_, rfl, hbt.2⟩
    rw [hbt.1, total_cons]
    omega

theorem basesFrom_returns (h : t.toNat = base.toNat + total cs) :
    ∃ us, Returns (basesFrom base cs) (us, t) ∧ BasesFrom base.toNat cs us := by
  induction cs generalizing base with
  | nil =>
    obtain rfl : base = t := UInt64.toNat_inj.mp (by simp [h])
    exact ⟨[], .pure, rfl⟩
  | cons c cs ih =>
    rw [total_cons] at h
    have ht := t.toNat_lt
    have he : (c.slabSize.toUInt64 * c.slabCount.toUInt64).toNat = c.slabSize.toNat * c.slabCount.toNat := by
      rw [UInt64.toNat_mul, Nat.mod_eq_of_lt extent_lt, UInt32.toNat_toUInt64, UInt32.toNat_toUInt64]
    have hnext : (base + c.slabSize.toUInt64 * c.slabCount.toUInt64).toNat =
        base.toNat + c.slabSize.toNat * c.slabCount.toNat := by
      rw [UInt64.toNat_add, he, Nat.mod_eq_of_lt (by omega)]
    have hrest : t.toNat = (base + c.slabSize.toUInt64 * c.slabCount.toUInt64).toNat + total cs := by omega
    obtain ⟨us, hus, hb⟩ := ih hrest
    rw [hnext] at hb
    exact ⟨base :: us, Returns.mulU64.bind ((addOverflowSafe_returns (by rw [hnext, he])).bind (hus.bind .pure)),
      rfl, hb⟩

theorem BasesFrom.length_eq {b : Nat} (h : BasesFrom b cs us) :
    us.length = cs.length := by
  induction cs generalizing b us with
  | nil => simp only [BasesFrom] at h; simp [h]
  | cons c cs ih =>
    cases us with
    | nil => exact h.elim
    | cons u us => simp [ih h.2]

theorem BasesFrom.fill {b : Nat} (h : BasesFrom b cs us)
    (hfit : b + total cs < 2 ^ 32) :
    contiguousFrom b ((fillBases cs us).map SizeClass.toArena) ∧ total (fillBases cs us) = total cs := by
  induction cs generalizing b us with
  | nil => simp [fillBases, contiguousFrom]
  | cons c cs ih =>
    cases us with
    | nil => exact h.elim
    | cons u us =>
      obtain ⟨hu, h⟩ := h
      rw [total_cons] at hfit
      obtain ⟨hcont, htot⟩ := ih h (by omega)
      have hcut : u.toUInt32.toNat = b := by
        rw [UInt64.toNat_toUInt32, hu]
        exact Nat.mod_eq_of_lt (by omega)
      simp only [fillBases, List.zipWith_cons_cons, List.map_cons, contiguousFrom, total_cons] at hcont htot ⊢
      exact ⟨⟨hcut, hcont⟩, by rw [htot]⟩

theorem basesMatchFrom_safe {b : Nat} (h : BasesFrom b cs (bases.drop i)) :
    Safe (basesMatchFrom bases i cs) fun _ => contiguousFrom b (cs.map SizeClass.toArena) := by
  induction cs generalizing i b with
  | nil => exact .pure trivial
  | cons c cs ih =>
    have hi : i < bases.length := by
      have := h.length_eq
      simp at this
      omega
    rw [List.drop_eq_getElem_cons hi] at h
    refine (Safe.index hi).bind fun want hwant => Safe.refuse.bind fun _ heq => (ih h.2).mono fun _ hrest => ?_
    rw [List.getElem?_eq_getElem hi] at hwant
    obtain rfl := Option.some.inj hwant
    rw [not_not] at heq
    refine ⟨?_, hrest⟩
    change c.classBaseOffset.toNat = b
    rw [← h.1, ← heq, UInt32.toNat_toUInt64]

theorem basesMatchFrom_returns {b : Nat}
    (h : BasesFrom b cs (bases.drop i)) (hc : contiguousFrom b (cs.map SizeClass.toArena)) :
    Returns (basesMatchFrom bases i cs) () := by
  induction cs generalizing i b with
  | nil => exact .pure
  | cons c cs ih =>
    have hi : i < bases.length := by
      have := h.length_eq
      simp at this
      omega
    rw [List.drop_eq_getElem_cons hi] at h
    refine (Returns.index (List.getElem?_eq_getElem hi)).bind ((Returns.refuse ?_).bind (ih h.2 hc.2))
    rw [not_not]
    refine UInt64.toNat_inj.mp ?_
    rw [UInt32.toNat_toUInt64, h.1]
    exact hc.1

theorem checkClassBaseOffsets_safe :
    Safe (checkClassBaseOffsets cs) fun t =>
      t.toNat = total cs ∧ contiguousFrom 0 (cs.map SizeClass.toArena) := by
  refine basesFrom_safe.bind fun bt hbt => (basesMatchFrom_safe (b := 0) ?_).bind fun _ hc => .pure ⟨?_, hc⟩
  · exact hbt.2
  · rw [hbt.1]
    simp

theorem checkClassBaseOffsets_returns (ht : t.toNat = total cs)
    (hc : contiguousFrom 0 (cs.map SizeClass.toArena)) : Returns (checkClassBaseOffsets cs) t := by
  have ht' : t.toNat = (0 : UInt64).toNat + total cs := by rw [ht, UInt64.toNat_zero, Nat.zero_add]
  obtain ⟨us, hus, hb⟩ := basesFrom_returns ht'
  have hb : BasesFrom 0 cs (us.drop 0) := hb
  exact hus.bind ((basesMatchFrom_returns hb hc).bind .pure)

/-! ## Arenas and spans -/

/-- The rules one direction's arena obeys. -/
structure ArenaRules (g : ArenaGeometry) : Prop where
  slabs : SlabRules g.classes
  contiguous : contiguousFrom 0 (g.classes.map SizeClass.toArena)
  bytes : g.bytes.toNat = roundup (total g.classes)
  ceiling : g.bytes.toNat ≤ 2 ^ 32 - 1

theorem SlabRules.size_ge (h : SlabRules cs) {c : SizeClass} (hc : c ∈ cs) :
    64 ≤ c.slabSize.toNat := by
  obtain ⟨h0, hmod⟩ := h.size c hc
  have hpos : c.slabSize.toNat ≠ 0 := fun h => h0 (UInt32.toNat_inj.mp h)
  have hdvd : c.slabSize.toNat % 64 = 0 := by
    have := congrArg UInt32.toNat hmod
    rwa [UInt32.toNat_mod] at this
  omega

theorem SlabRules.count_pos (h : SlabRules cs) {c : SizeClass} (hc : c ∈ cs) :
    0 < c.slabCount.toNat :=
  Nat.pos_of_ne_zero fun h0 => h.count c hc (UInt32.toNat_inj.mp h0)

theorem SlabRules.length_le (h : SlabRules cs) : 64 * cs.length ≤ total cs := by
  have hsize : ∀ c ∈ cs, 64 ≤ c.slabSize.toNat * c.slabCount.toNat := fun c hc =>
    Nat.le_trans (h.size_ge hc) (Nat.le_mul_of_pos_right _ (h.count_pos hc))
  clear h
  induction cs with
  | nil => simp
  | cons c cs ih =>
    have h1 := hsize c (by simp)
    have h2 := ih fun x hx => hsize x (by simp [hx])
    rw [total_cons, List.length_cons]
    omega

theorem SlabRules.fill (h : SlabRules cs) (hl : us.length = cs.length) :
    SlabRules (fillBases cs us) := by
  have hlen : (fillBases cs us).length = cs.length := by simp [fillBases, hl]
  have hget : ∀ i (hi : i < cs.length), ∃ b, (fillBases cs us)[i]? = some { cs[i] with classBaseOffset := b } := by
    intro i hi
    refine ⟨(us[i]).toUInt32, ?_⟩
    rw [List.getElem?_eq_getElem (by omega)]
    simp [fillBases]
  have hmem : ∀ c ∈ fillBases cs us, ∃ c' ∈ cs, c.slabSize = c'.slabSize ∧ c.slabCount = c'.slabCount := by
    intro c hc
    obtain ⟨i, hi, rfl⟩ := List.getElem_of_mem hc
    obtain ⟨b, hb⟩ := hget i (by omega)
    rw [List.getElem?_eq_getElem hi] at hb
    rw [Option.some.inj hb]
    exact ⟨cs[i], List.getElem_mem _, rfl, rfl⟩
  refine ⟨?_, fun c hc => ?_, fun c hc => ?_, ?_, fun c hc => ?_⟩
  · rw [← List.length_pos_iff, hlen]
    exact List.length_pos_iff.mpr h.nonempty
  · obtain ⟨c', hc', hs, -⟩ := hmem c hc
    rw [hs]
    exact h.size c' hc'
  · obtain ⟨c', hc', -, hn⟩ := hmem c hc
    rw [hn]
    exact h.count c' hc'
  · rw [List.pairwise_iff_getElem]
    intro i j hi hj hij
    have hasc := List.pairwise_iff_getElem.mp h.ascending i j (by omega) (by omega) hij
    simpa [fillBases] using hasc
  · have hpos : 0 < cs.length := List.length_pos_iff.mpr h.nonempty
    rw [hlen] at hc
    obtain ⟨b, hb⟩ := hget (cs.length - 1) (by omega)
    rw [hb] at hc
    obtain rfl := Option.some.inj hc
    exact h.largest cs[cs.length - 1] (List.getElem?_eq_getElem (by omega))

theorem not_gt_maxArenaBytes (h : ¬ b > maxArenaBytes) : b.toNat ≤ 2 ^ 32 - 1 := by
  rw [gt_iff_lt, UInt64.lt_iff_toNat_lt, not_lt] at h
  exact h

theorem buildArenaGeometry_safe :
    Safe (buildArenaGeometry cs) fun r => ∀ off table, ArenaRules ⟨off, r.2, table, r.1⟩ := by
  refine validateSlabBounds_safe.bind fun _ hs => basesFrom_safe.bind fun bt hbt =>
    roundupPageSize_safe.bind fun bytes hbytes => Safe.refuse.bind fun _ hmax => .pure fun off table => ?_
  rw [UInt64.toNat_zero, Nat.zero_add] at hbt
  rw [hbt.1] at hbytes
  have hceil := not_gt_maxArenaBytes hmax
  obtain ⟨hcont, htot⟩ := hbt.2.fill (by have := le_roundup (n := total cs); omega)
  exact ⟨hs.fill hbt.2.length_eq, hcont, by rw [htot]; exact hbytes, hceil⟩

theorem checkArenaTotal_safe {stored : UInt64} :
    Safe (checkArenaTotal t stored) fun b => b.toNat = roundup t.toNat ∧ b.toNat ≤ 2 ^ 32 - 1 := by
  refine roundupPageSize_safe.bind fun b hb => Safe.refuse.bind fun _ hmax => Safe.refuse.bind fun _ _ => ?_
  exact .pure ⟨hb, not_gt_maxArenaBytes hmax⟩

theorem checkArenaTotal_returns (hb : b.toNat = roundup t.toNat) (hc : b.toNat ≤ 2 ^ 32 - 1) :
    Returns (checkArenaTotal t b) b := by
  refine (roundupPageSize_returns hb).bind ((Returns.refuse ?_).bind ((Returns.refuse (by simp)).bind .pure))
  rw [gt_iff_lt, UInt64.lt_iff_toNat_lt, not_lt]
  exact hc

/-- The spans laid end to end: layout page, sync page, two rings, two arenas. -/
structure Spans (c : UInt32) (bytesHP bytesPH : UInt64) (g : DerivedGeometry) : Prop where
  sync : g.syncPageOffset.toNat = 4096
  ringHP : g.ringHPOffset.toNat = 8192
  ringPH : g.ringPHOffset.toNat = 8192 + 64 * c.toNat
  arenaHP : g.arenaHPOffset.toNat = 8192 + 64 * c.toNat + 64 * c.toNat
  arenaPH : g.arenaPHOffset.toNat = g.arenaHPOffset.toNat + bytesHP.toNat
  region : g.regionSize.toNat = g.arenaPHOffset.toNat + bytesPH.toNat
  ceiling : g.regionSize.toNat ≤ 2 ^ 40
  bytesHP : g.arenaBytesHP = bytesHP
  bytesPH : g.arenaBytesPH = bytesPH

theorem ringSpan_lt : c.toUInt64.toNat * descriptorSize.toNat < 2 ^ 64 := by
  have := c.toNat_lt
  rw [UInt32.toNat_toUInt64]
  change c.toNat * 64 < 2 ^ 64
  omega

theorem deriveSpans_safe : Safe (deriveSpans c bytesHP bytesPH) (Spans c bytesHP bytesPH) := by
  refine (Safe.mulU64 ringSpan_lt).bind fun span hspan => addOverflowSafe_safe.bind fun o1 h1 =>
    addOverflowSafe_safe.bind fun o2 h2 => addOverflowSafe_safe.bind fun o3 h3 => addOverflowSafe_safe.bind fun o4 h4 =>
    addOverflowSafe_safe.bind fun o5 h5 => Safe.refuse.bind fun _ hmax => .pure ?_
  have hspan : span.toNat = 64 * c.toNat := by
    rw [hspan, UInt32.toNat_toUInt64]
    exact Nat.mul_comm _ _
  have h1 : o1.toNat = 8192 := h1
  have h2 : o2.toNat = 8192 + 64 * c.toNat := by omega
  have h3 : o3.toNat = 8192 + 64 * c.toNat + 64 * c.toNat := by omega
  rw [gt_iff_lt, UInt64.lt_iff_toNat_lt, not_lt] at hmax
  exact ⟨rfl, h1, h2, h3, h4, h5, hmax, rfl, rfl⟩

theorem Spans.returns {g : DerivedGeometry} (h : Spans c bytesHP bytesPH g) : Returns (deriveSpans c bytesHP bytesPH) g := by
  have hspan : (c.toUInt64 * descriptorSize).toNat = 64 * c.toNat := by
    rw [UInt64.toNat_mul, Nat.mod_eq_of_lt ringSpan_lt, UInt32.toNat_toUInt64]
    exact Nat.mul_comm _ _
  have hsync : pageSize = g.syncPageOffset := UInt64.toNat_inj.mp h.sync.symm
  have hg : g = ⟨pageSize, g.ringHPOffset, g.ringPHOffset, g.arenaHPOffset, g.arenaPHOffset, bytesHP, bytesPH,
      g.regionSize⟩ := by
    rw [hsync, ← h.bytesHP, ← h.bytesPH]
  have hmax : ¬ g.regionSize > maxRegionSize := by
    rw [gt_iff_lt, UInt64.lt_iff_toNat_lt, not_lt]
    exact h.ceiling
  rw [hg]
  refine Returns.mulU64.bind ((addOverflowSafe_returns h.ringHP).bind ((addOverflowSafe_returns ?_).bind
    ((addOverflowSafe_returns ?_).bind ((addOverflowSafe_returns h.arenaPH).bind
      ((addOverflowSafe_returns h.region).bind ((Returns.refuse hmax).bind .pure))))))
  · rw [hspan, h.ringPH, h.ringHP]
  · rw [hspan, h.arenaHP, h.ringPH]

/-! ## Layouts -/

namespace Layout

def spans (l : Layout) : DerivedGeometry :=
  { syncPageOffset := l.syncPageOffset, ringHPOffset := l.ringHP, ringPHOffset := l.ringPH,
    arenaHPOffset := l.arenaHP.offset, arenaPHOffset := l.arenaPH.offset, arenaBytesHP := l.arenaHP.bytes,
    arenaBytesPH := l.arenaPH.bytes, regionSize := l.regionSize }

/-- The geometry a region may have. -/
structure Geometry (l : Layout) : Prop where
  ring : RingRules l.ringCapacity l.lifecycleReserve
  arenaHP : ArenaRules l.arenaHP
  arenaPH : ArenaRules l.arenaPH
  spans : Spans l.ringCapacity l.arenaHP.bytes l.arenaPH.bytes l.spans

end Layout

/-- A class table of `n` entries lies in the layout page, behind the header. -/
structure TableIn (off : UInt64) (n : Nat) : Prop where
  pos : 1 ≤ n
  ge : 256 ≤ off.toNat
  align : off.toNat % 4 = 0
  le : off.toNat + 16 * n ≤ 4096

/-- Both class tables lie in the page and share no byte. -/
structure Layout.Tables (l : Layout) : Prop where
  hp : TableIn l.arenaHP.classTableOffset l.arenaHP.classes.length
  ph : TableIn l.arenaPH.classTableOffset l.arenaPH.classes.length
  disjoint : l.arenaHP.classTableOffset.toNat + 16 * l.arenaHP.classes.length ≤ l.arenaPH.classTableOffset.toNat ∨
    l.arenaPH.classTableOffset.toNat + 16 * l.arenaPH.classes.length ≤ l.arenaHP.classTableOffset.toNat

theorem tableBytes_safe (h : n.toNat < 2 ^ 32) : Safe (tableBytes n) fun r => r.toNat = 16 * n.toNat := by
  have h16 : (UInt64.ofNat sizeClassEntrySize).toNat = 16 := by decide
  refine (Safe.mulU64 ?_).mono fun r hr => ?_
  · rw [h16]
    omega
  · rw [hr, h16, Nat.mul_comm]

theorem ArenaRules.length_lt {g : ArenaGeometry} (h : ArenaRules g) : g.classes.length < 2 ^ 26 := by
  have h1 := h.slabs.length_le
  have h2 := h.bytes
  have h3 := h.ceiling
  have h4 := le_roundup (n := total g.classes)
  omega

/-- **What `DeriveLayout` accepts has a region's geometry**, with both tables in the page. -/
theorem deriveLayout_safe {input : Layout} :
    Safe (deriveLayout input) fun l => l.Geometry ∧ l.Tables ∧ l.headerFlags = input.headerFlags ∧
      l.generation = input.generation := by
  refine validateRingCapacity_safe.bind fun _ hcap => (validateLifecycleReserve_safe hcap).bind fun _ hring =>
    buildArenaGeometry_safe.bind fun hp hhp => buildArenaGeometry_safe.bind fun ph hph =>
    deriveSpans_safe.bind fun g hg => ?_
  have hlenHP : hp.1.length < 2 ^ 26 := (hhp 0 0).length_lt
  have hlenPH : ph.1.length < 2 ^ 26 := (hph 0 0).length_lt
  have htoHP : (UInt64.ofNat hp.1.length).toNat = hp.1.length := UInt64.toNat_ofNat_of_lt' (by change _ < 2 ^ 64; omega)
  have htoPH : (UInt64.ofNat ph.1.length).toNat = ph.1.length := UInt64.toNat_ofNat_of_lt' (by change _ < 2 ^ 64; omega)
  have hhead : headerSize.toNat = 256 := rfl
  refine (tableBytes_safe (by omega)).bind fun b1 hb1 => (Safe.addU64 (by omega)).bind fun t1 ht1 =>
    (tableBytes_safe (by omega)).bind fun b2 hb2 => (Safe.addU64 (by omega)).bind fun t2 ht2 =>
    Safe.refuse.bind fun _ hpage => .pure ?_
  rw [gt_iff_lt, UInt64.lt_iff_toNat_lt, not_lt] at hpage
  have hpage : t2.toNat ≤ 4096 := hpage
  have hposHP : 0 < hp.1.length := List.length_pos_iff.mpr (hhp 0 0).slabs.nonempty
  have hposPH : 0 < ph.1.length := List.length_pos_iff.mpr (hph 0 0).slabs.nonempty
  refine ⟨⟨hring, hhp _ _, hph _ _, ?_⟩, ⟨⟨hposHP, ?_, ?_, ?_⟩, ⟨hposPH, ?_, ?_, ?_⟩, .inl ?_⟩, rfl, rfl⟩
  · have : g = ⟨g.syncPageOffset, g.ringHPOffset, g.ringPHOffset, g.arenaHPOffset, g.arenaPHOffset, hp.2, ph.2,
        g.regionSize⟩ := by rw [← hg.bytesHP, ← hg.bytesPH]
    rw [this] at hg
    exact hg
  all_goals simp only; omega

end Styx.Region
