/-
Attaching to a region: what the parser of the layout page establishes over
arbitrary bytes (`parseLayoutPhase2_bounded`), and that it accepts every page the
host writes (`parseLayoutPhase2_createRegion`).
-/
import Styx.Shm.Geometry

namespace Styx.Region

open ByteMem Checked

/-! ## Reads -/

section Reads

variable {data : Mapping} {off n start stop : Nat}

theorem readWord_safe (h : off + n ≤ data.len) : Safe (readWord data off n) fun w => w = getLE data.byte off n := by
  have hlen := data.len_lt
  refine (Safe.addInt (by omega)).bind fun stop hstop => ?_
  rw [if_pos (by omega)]
  exact .pure rfl

theorem readWord_returns (h : off + n ≤ data.len) : Returns (readWord data off n) (getLE data.byte off n) := by
  have hlen := data.len_lt
  refine (Returns.addInt (by omega)).bind ?_
  rw [if_pos (by omega)]
  exact .pure

theorem readU32_safe (h : off + 4 ≤ data.len) : Safe (readU32 data off) fun _ => True :=
  (readWord_safe h).bind fun _ _ => .pure trivial

theorem readU64_safe (h : off + 8 ≤ data.len) : Safe (readU64 data off) fun _ => True :=
  (readWord_safe h).bind fun _ _ => .pure trivial

theorem readU32_returns {v : UInt32} (h : off + 4 ≤ data.len) (hv : getLE data.byte off 4 = v.toNat) :
    Returns (readU32 data off) v := by
  refine (readWord_returns h).bind ?_
  rw [hv, UInt32.ofNat_toNat]
  exact .pure

theorem readU64_returns {v : UInt64} (h : off + 8 ≤ data.len) (hv : getLE data.byte off 8 = v.toNat) :
    Returns (readU64 data off) v := by
  refine (readWord_returns h).bind ?_
  rw [hv, UInt64.ofNat_toNat]
  exact .pure

theorem isZero_safe (h : start ≤ stop ∧ stop ≤ data.len) : Safe (isZero data start stop) fun _ => True := by
  unfold isZero
  rw [if_pos h]
  exact .pure trivial

theorem isZero_returns (h : start ≤ stop ∧ stop ≤ data.len)
    (hz : ∀ x, start ≤ x → x < stop → data.byte x = 0) : Returns (isZero data start stop) true := by
  unfold isZero
  rw [if_pos h]
  have hall : ((List.range (stop - start)).all fun k => data.byte (start + k) == 0) = true := by
    rw [List.all_eq_true]
    intro k hk
    have := List.mem_range.mp hk
    rw [hz (start + k) (by omega) (by omega)]
    rfl
  rw [hall]
  exact .pure

end Reads

/-! ## What the parser establishes -/

section Hostile

variable {data : Mapping} {off declared : UInt64} {n : UInt32} {i : Nat} {g : DerivedGeometry}

theorem checkHeaderScalars_safe (h : 8192 ≤ data.len) : Safe (checkHeaderScalars data) fun _ => True := by
  refine (readU64_safe (by omega)).bind fun _ _ => Safe.refuse.bind fun _ _ =>
    (readU32_safe (by omega)).bind fun _ _ => Safe.refuse.bind fun _ _ =>
    (readU32_safe (by omega)).bind fun _ _ => Safe.refuse.bind fun _ _ =>
    (readU32_safe (by omega)).bind fun _ _ => Safe.refuse.bind fun _ _ =>
    (readU64_safe (by omega)).bind fun _ _ => Safe.refuse.bind fun _ _ =>
    (readU32_safe (by omega)).bind fun _ _ => Safe.refuse.mono fun _ _ => trivial

theorem checkRingReservation_safe (h : 8192 ≤ data.len) :
    Safe (checkRingReservation data) fun r => RingRules r.1 r.2 :=
  (readU32_safe (by omega)).bind fun _ _ => validateRingCapacity_safe.bind fun _ hcap =>
    (readU32_safe (by omega)).bind fun _ _ => (validateLifecycleReserve_safe hcap).bind fun _ hring => .pure hring

theorem checkOneClassTableRange_safe : Safe (checkOneClassTableRange n off) fun _ => TableIn off n.toNat := by
  refine Safe.refuse.bind fun _ hn => Safe.refuse.bind fun _ hoff => Safe.refuse.bind fun _ halign => ?_
  have hn : 1 ≤ n.toNat := by
    rw [UInt32.lt_iff_toNat_lt, not_lt] at hn
    exact hn
  rw [not_or, UInt64.lt_iff_toNat_lt, ge_iff_le, UInt64.le_iff_toNat_le, not_lt, not_le] at hoff
  have hge : 256 ≤ off.toNat := hoff.1
  have hlt : off.toNat < 4096 := hoff.2
  have halign : off.toNat % 4 = 0 := by
    rw [not_not] at halign
    have := congrArg UInt64.toNat halign
    rwa [UInt64.toNat_mod] at this
  have hn32 := n.toNat_lt
  have hn64 := UInt32.toNat_toUInt64 n
  refine (tableBytes_safe (by omega)).bind fun b hb => (Safe.addU64 (by omega)).bind fun stop hstop =>
    Safe.refuse.mono fun _ hpage => ?_
  rw [gt_iff_lt, UInt64.lt_iff_toNat_lt, not_lt] at hpage
  have hpage : stop.toNat ≤ 4096 := hpage
  exact ⟨hn, hge, halign, by omega⟩

theorem checkClassTableRanges_safe {numHP numPH : UInt32} {offHP offPH : UInt64} :
    Safe (checkClassTableRanges numHP numPH offHP offPH) fun _ =>
      TableIn offHP numHP.toNat ∧ TableIn offPH numPH.toNat ∧
        (offHP.toNat + 16 * numHP.toNat ≤ offPH.toNat ∨ offPH.toNat + 16 * numPH.toNat ≤ offHP.toNat) := by
  refine checkOneClassTableRange_safe.bind fun _ hhp => checkOneClassTableRange_safe.bind fun _ hph => ?_
  have h1 := hhp.le
  have h2 := hph.le
  have h3 := UInt32.toNat_toUInt64 numHP
  have h4 := UInt32.toNat_toUInt64 numPH
  refine (tableBytes_safe (by omega)).bind fun b1 hb1 => (Safe.addU64 (by omega)).bind fun e1 he1 =>
    (tableBytes_safe (by omega)).bind fun b2 hb2 => (Safe.addU64 (by omega)).bind fun e2 he2 =>
    Safe.refuse.mono fun _ hov => ⟨hhp, hph, ?_⟩
  simp only [overlaps, UInt64.lt_iff_toNat_lt, not_and, not_lt] at hov
  by_cases hlt : offHP.toNat < e2.toNat
  · have := hov hlt
    omega
  · omega

theorem entryOffset_safe (h : off.toNat + 16 * i ≤ 4096) : Safe (entryOffset off i) fun e => e = off.toNat + 16 * i := by
  have h16 : i * sizeClassEntrySize = 16 * i := Nat.mul_comm _ _
  refine (Safe.mulInt (by omega)).bind fun d hd => (Safe.addInt (by omega)).mono fun e he => ?_
  omega

section

variable (hlen : 8192 ≤ data.len)
include hlen

theorem readClass_safe (h : off.toNat + 16 * (i + 1) ≤ 4096) : Safe (readClass data off i) fun _ => True := by
  refine (entryOffset_safe (by omega)).bind fun e he => (readU32_safe (by omega)).bind fun _ _ =>
    (Safe.addInt (by omega)).bind fun a ha => (readU32_safe (by omega)).bind fun _ _ =>
    (Safe.addInt (by omega)).bind fun b hb => (readU32_safe (by omega)).bind fun _ _ => .pure trivial

theorem readClasses_safe {n : Nat} (h : off.toNat + 16 * (i + n) ≤ 4096) :
    Safe (readClasses data off i n) fun cs => cs.length = n := by
  induction n generalizing i with
  | zero => exact .pure rfl
  | succ n ih =>
    refine (readClass_safe hlen (by omega)).bind fun c _ => (ih (by omega)).bind fun cs hcs => .pure ?_
    simp [hcs]

theorem checkClassRules_safe (h : TableIn off n.toNat) :
    Safe (checkClassRules data off n) fun r => r.1.length = n.toNat ∧ SlabRules r.1 ∧
      contiguousFrom 0 (r.1.map SizeClass.toArena) ∧ r.2.toNat = total r.1 := by
  have := h.le
  refine (readClasses_safe hlen (by omega)).bind fun cs hcs => validateSlabBounds_safe.bind fun _ hs =>
    checkClassBaseOffsets_safe.bind fun t ht => .pure ⟨hcs, hs, ht.2, ht.1⟩

theorem checkSpans_safe {fs : List (Nat × UInt64)} (h : ∀ f ∈ fs, f.1 ≤ 256) : Safe (checkSpans data fs) fun _ => True := by
  induction fs with
  | nil => exact .pure trivial
  | cons f fs ih =>
    have := h f (by simp)
    exact (readU64_safe (by omega)).bind fun _ _ => Safe.refuse.bind fun _ _ => ih fun g hg => h g (by simp [hg])

theorem checkSpansAndCoverage_safe : Safe (checkSpansAndCoverage data g declared) fun _ =>
      g.regionSize = declared ∧ data.len = g.regionSize.toNat := by
  refine (checkSpans_safe hlen (by simp)).bind fun _ _ => Safe.refuse.bind fun _ hd => Safe.refuse.mono fun _ hl => ?_
  rw [not_not] at hd hl
  have hto : (UInt64.ofNat data.len).toNat = data.len :=
    UInt64.toNat_ofNat_of_lt' (by have := data.len_lt; change _ < 2 ^ 64; omega)
  exact ⟨hd, by rw [← hl, hto]⟩

theorem entriesReservedZeroFrom_safe {n : Nat}
    (h : off.toNat + 16 * (i + n) ≤ 4096) : Safe (entriesReservedZeroFrom data off i n) fun _ => True := by
  induction n generalizing i with
  | zero => exact .pure trivial
  | succ n ih =>
    refine (entryOffset_safe (by omega)).bind fun e he => (Safe.addInt (by omega)).bind fun a ha =>
      (readU32_safe (by omega)).bind fun _ _ => Safe.refuse.bind fun _ _ => ih (by omega)

theorem checkSyncPageReservedTailZero_safe
    (hg : g.syncPageOffset.toNat = 4096) : Safe (checkSyncPageReservedTailZero data g) fun _ => True := by
  have hstart : Safe (addU64 g.syncPageOffset syncPageReservedTailOffset : Geo UInt64) fun r => r.toNat = 4608 :=
    .addU64_of hg rfl (by decide)
  have hstop : Safe (addU64 g.syncPageOffset pageSize : Geo UInt64) fun r => r.toNat = 8192 :=
    .addU64_of hg rfl (by decide)
  exact hstart.bind fun a ha => hstop.bind fun b hb => (isZero_safe (by omega)).bind fun _ _ =>
    Safe.refuse.mono fun _ _ => trivial

end

theorem checkArenaPadZero_safe {t bytes : UInt64} (ht : t.toNat ≤ bytes.toNat)
    (hb : off.toNat + bytes.toNat ≤ data.len) : Safe (checkArenaPadZero data off t bytes) fun _ => True := by
  have hlen := data.len_lt
  exact (Safe.addU64 (by omega)).bind fun a ha => (Safe.addU64 (by omega)).bind fun b hb =>
    (isZero_safe (by omega)).bind fun _ _ => Safe.refuse.mono fun _ _ => trivial

/-- What a parsed layout is known to be. -/
structure Accepted (data : Mapping) (declared : UInt64) (l : Layout) : Prop where
  geometry : l.Geometry
  tables : l.Tables
  declared : l.regionSize = declared
  length : data.len = l.regionSize.toNat

theorem parseLayoutPhase2_safe (hlen : 8192 ≤ data.len) :
    Safe (parseLayoutPhase2 data declared) (Accepted data declared) := by
  refine (checkHeaderScalars_safe hlen).bind fun _ _ => (checkRingReservation_safe hlen).bind fun ring hring =>
    (readU32_safe (by omega)).bind fun numHP _ => (readU32_safe (by omega)).bind fun numPH _ =>
    (readU64_safe (by omega)).bind fun offHP _ => (readU64_safe (by omega)).bind fun offPH _ =>
    checkClassTableRanges_safe.bind fun _ htab => (checkClassRules_safe hlen htab.1).bind fun hp hhp =>
    (checkClassRules_safe hlen htab.2.1).bind fun ph hph =>
    (readU64_safe (by omega)).bind fun _ _ => checkArenaTotal_safe.bind fun bytesHP hbHP =>
    (readU64_safe (by omega)).bind fun _ _ => checkArenaTotal_safe.bind fun bytesPH hbPH =>
    deriveSpans_safe.bind fun g hg => (checkSpansAndCoverage_safe hlen).bind fun _ hcov => ?_
  have hpadHP : hp.2.toNat ≤ bytesHP.toNat := by rw [hbHP.1]; exact le_roundup
  have hpadPH : ph.2.toNat ≤ bytesPH.toNat := by rw [hbPH.1]; exact le_roundup
  have h1 := hg.arenaPH
  have h2 := hg.region
  have h3 := htab.1.le
  have h4 := htab.2.1.le
  have hreserved : Safe (checkReservedZero data g offHP numHP offPH numPH hp.2 ph.2) fun _ => True := by
    refine (readU32_safe (by omega)).bind fun _ _ => Safe.refuse.bind fun _ _ =>
      (isZero_safe (by omega)).bind fun _ _ => Safe.refuse.bind fun _ _ =>
      (checkSyncPageReservedTailZero_safe hlen hg.sync).bind fun _ _ =>
      (entriesReservedZeroFrom_safe hlen (by omega)).bind fun _ _ =>
      (entriesReservedZeroFrom_safe hlen (by omega)).bind fun _ _ =>
      (checkArenaPadZero_safe ?_ ?_).bind fun _ _ => checkArenaPadZero_safe ?_ ?_
    all_goals simp only [hg.bytesHP, hg.bytesPH]; omega
  refine hreserved.bind fun _ _ => (readU64_safe (by omega)).bind fun _ _ =>
    (readU32_safe (by omega)).bind fun _ _ => (readU32_safe (by omega)).bind fun _ _ =>
    (readU64_safe (by omega)).bind fun _ _ => .pure ?_
  have hgeq : g = ⟨g.syncPageOffset, g.ringHPOffset, g.ringPHOffset, g.arenaHPOffset, g.arenaPHOffset, bytesHP,
      bytesPH, g.regionSize⟩ := by rw [← hg.bytesHP, ← hg.bytesPH]
  rw [hgeq] at hg
  refine ⟨⟨hring, ⟨hhp.2.1, hhp.2.2.1, ?_, hbHP.2⟩, ⟨hph.2.1, hph.2.2.1, ?_, hbPH.2⟩, hg⟩, ⟨?_, ?_, ?_⟩, hcov.1, hcov.2⟩
  · rw [hbHP.1, hhp.2.2.2]
  · rw [hbPH.1, hph.2.2.2]
  all_goals simp only [hhp.1, hph.1]
  · exact htab.1
  · exact htab.2.1
  · exact htab.2.2

end Hostile

/-! ## Where an accepted layout puts its spans and slabs -/

/-- The spans of a layout in the order they are mapped, each with its end. -/
def Layout.extents (l : Layout) : List (Nat × Nat) :=
  [(0, 4096),
   (l.syncPageOffset.toNat, l.syncPageOffset.toNat + 4096),
   (l.ringHP.toNat, l.ringHP.toNat + 64 * l.ringCapacity.toNat),
   (l.ringPH.toNat, l.ringPH.toNat + 64 * l.ringCapacity.toNat),
   (l.arenaHP.offset.toNat, l.arenaHP.offset.toNat + l.arenaHP.bytes.toNat),
   (l.arenaPH.offset.toNat, l.arenaPH.offset.toNat + l.arenaPH.bytes.toNat)]

/-- The spans tile a mapping of `len` bytes, page by page. -/
structure Layout.Tiles (l : Layout) (len : Nat) : Prop where
  aligned : ∀ s ∈ l.extents, s.1 % 4096 = 0 ∧ s.2 % 4096 = 0
  disjoint : l.extents.Pairwise fun s t => s.2 ≤ t.1
  contiguous : l.extents.IsChain fun s t => s.2 = t.1
  starts : l.extents.head?.map Prod.fst = some 0
  ends : l.extents.getLast?.map Prod.snd = some len

/-- One direction's classes, slabs and pad inside its arena. -/
structure ArenaBounded (g : ArenaGeometry) : Prop where
  ascending : g.classes.Pairwise fun c c' => c.slabSize < c'.slabSize
  contiguous : contiguousFrom 0 (g.classes.map SizeClass.toArena)
  slabs : ∀ c ∈ g.classes, ∀ i < c.slabCount.toNat,
    c.classBaseOffset.toNat + i * c.slabSize.toNat + c.slabSize.toNat ≤ total g.classes
  pad : total g.classes ≤ g.bytes.toNat
  ceiling : g.bytes.toNat ≤ 2 ^ 32 - 1

theorem RingRules.dvd {c r : UInt32} (h : RingRules c r) : c.toNat % 64 = 0 := by
  obtain ⟨k, hk⟩ := h.pow
  have hge := h.ge
  have hk6 : 6 ≤ k := by
    by_contra hlt
    have := Nat.pow_le_pow_right (n := 2) (by omega) (show k ≤ 5 by omega)
    omega
  rw [hk]
  exact Nat.mod_eq_zero_of_dvd (Nat.pow_dvd_pow 2 hk6)

variable {l : Layout}

theorem Layout.Geometry.tiles (h : l.Geometry) : l.Tiles l.regionSize.toNat := by
  have hsync : l.syncPageOffset.toNat = 4096 := h.spans.sync
  have hhp : l.ringHP.toNat = 8192 := h.spans.ringHP
  have hph : l.ringPH.toNat = 8192 + 64 * l.ringCapacity.toNat := h.spans.ringPH
  have hahp : l.arenaHP.offset.toNat = 8192 + 64 * l.ringCapacity.toNat + 64 * l.ringCapacity.toNat := h.spans.arenaHP
  have haph : l.arenaPH.offset.toNat = l.arenaHP.offset.toNat + l.arenaHP.bytes.toNat := h.spans.arenaPH
  have hreg : l.regionSize.toNat = l.arenaPH.offset.toNat + l.arenaPH.bytes.toNat := h.spans.region
  have hcap := h.ring.dvd
  have hbh : l.arenaHP.bytes.toNat % 4096 = 0 := by rw [h.arenaHP.bytes]; exact roundup_mod
  have hbp : l.arenaPH.bytes.toNat % 4096 = 0 := by rw [h.arenaPH.bytes]; exact roundup_mod
  refine ⟨?_, ?_, ?_, ?_, ?_⟩
  · simp only [extents, List.forall_mem_cons]
    refine ⟨by simp, ?_, ?_, ?_, ?_, ?_, by simp⟩ <;> constructor <;> omega
  · simp only [extents, List.pairwise_cons, List.forall_mem_cons]
    simp
    omega
  · simp [extents]
    omega
  · simp [extents]
  · simp [extents, hreg]

theorem ArenaRules.bounded {g : ArenaGeometry} (h : ArenaRules g) : ArenaBounded g := by
  refine ⟨h.slabs.ascending, h.contiguous, fun c hc i hi => ?_, by rw [h.bytes]; exact le_roundup, h.ceiling⟩
  have hend := h.contiguous.end_le c.toArena (List.mem_map_of_mem hc)
  have hmul : i * c.slabSize.toNat + c.slabSize.toNat ≤ c.slabSize.toNat * c.slabCount.toNat := by
    calc i * c.slabSize.toNat + c.slabSize.toNat = (i + 1) * c.slabSize.toNat := by ring
      _ ≤ c.slabCount.toNat * c.slabSize.toNat := Nat.mul_le_mul_right _ hi
      _ = c.slabSize.toNat * c.slabCount.toNat := Nat.mul_comm _ _
  simp only [SizeClass.toArena] at hend
  change _ ≤ classTotal (g.classes.map SizeClass.toArena)
  omega

/-! ## What the host writes is accepted -/

section Written

variable {cs : List SizeClass} {f : Field} {i : Nat} {off v : UInt64} {c : SizeClass} {n : UInt32}

theorem tableFields_within {off : Nat} (hf : f ∈ tableFields off cs) :
    off ≤ f.off ∧ f.off + f.size ≤ off + 16 * cs.length := by
  induction cs generalizing off with
  | nil => simp [tableFields] at hf
  | cons c cs ih =>
    rw [tableFields, List.mem_append] at hf
    rw [List.length_cons]
    rcases hf with hf | hf
    · simp only [entryFields, List.mem_cons, List.not_mem_nil, or_false] at hf
      rcases hf with rfl | rfl | rfl | rfl <;> simp only <;> omega
    · have := ih hf
      simp only [sizeClassEntrySize] at this
      omega

theorem tableFields_disjoint {off : Nat} : (tableFields off cs).Pairwise Field.Disjoint := by
  induction cs generalizing off with
  | nil => exact .nil
  | cons c cs ih =>
    rw [tableFields, List.pairwise_append]
    refine ⟨?_, ih, fun f hf g hg => ?_⟩
    · simp [entryFields, Field.Disjoint]
    · have := tableFields_within hg
      simp only [sizeClassEntrySize] at this
      simp only [entryFields, List.mem_cons, List.not_mem_nil, or_false] at hf
      rcases hf with rfl | rfl | rfl | rfl <;> exact .inl (by simp only; omega)

theorem entryFields_mem {off : Nat} (hc : cs[i]? = some c)
    (hf : f ∈ entryFields (off + 16 * i) c) : f ∈ tableFields off cs := by
  induction cs generalizing off i with
  | nil => simp at hc
  | cons c' cs ih =>
    rw [tableFields, List.mem_append]
    cases i with
    | zero =>
      simp only [List.getElem?_cons_zero, Option.some.injEq] at hc
      subst hc
      exact .inl hf
    | succ i =>
      refine .inr (ih (by simpa using hc) ?_)
      have : off + 16 * (i + 1) = off + sizeClassEntrySize + 16 * i := by simp only [sizeClassEntrySize]; omega
      rwa [this] at hf

theorem headerFields_within (hf : f ∈ headerFields l) : f.off + f.size ≤ 256 := by
  have hall : ((headerFields l).map fun f => f.off + f.size).all (· ≤ 256) = true := by
    simp only [headerFields, List.map_cons, List.map_nil]
    decide
  have := List.all_eq_true.mp hall _ (List.mem_map_of_mem hf)
  simpa using this

theorem headerFields_disjoint : (headerFields l).Pairwise Field.Disjoint := by
  -- the offsets and sizes are constants: only the values depend on the layout
  have hspans : ((headerFields l).map fun f => (f.off, f.size)).Pairwise
      (fun a b => a.1 + a.2 ≤ b.1 ∨ b.1 + b.2 ≤ a.1) := by
    simp only [headerFields, List.map_cons, List.map_nil]
    decide
  rwa [List.pairwise_map] at hspans

theorem pageFields_disjoint (h : l.Tables) : (pageFields l).Pairwise Field.Disjoint := by
  rw [pageFields, List.pairwise_append, List.pairwise_append]
  refine ⟨headerFields_disjoint, ⟨tableFields_disjoint, tableFields_disjoint, fun f hf g hg => ?_⟩, fun f hf g hg => ?_⟩
  · have h1 := tableFields_within hf
    have h2 := tableFields_within hg
    have h3 := h.disjoint
    simp only [Field.Disjoint]
    omega
  · have h1 := headerFields_within hf
    have hhp := h.hp.ge
    have hph := h.ph.ge
    refine .inl ?_
    rcases List.mem_append.mp hg with hg | hg
    · have := tableFields_within hg
      omega
    · have := tableFields_within hg
      omega

theorem pageFields_within (h : l.Tables) (hf : f ∈ pageFields l) : f.off + f.size ≤ 4096 := by
  have hhp := h.hp.le
  have hph := h.ph.le
  simp only [pageFields, List.mem_append] at hf
  rcases hf with hf | hf | hf
  · have := headerFields_within hf
    omega
  · have := tableFields_within hf
    omega
  · have := tableFields_within hf
    omega

/-- A mapping whose bytes are a layout's page over zeroes. -/
structure Written (data : Mapping) (l : Layout) : Prop where
  tables : l.Tables
  len : 8192 ≤ data.len
  byte : data.byte = writeLayoutPage (fun _ => 0) l

variable {data : Mapping} {l : Layout}

theorem Written.get (h : Written data l) (hf : f ∈ pageFields l) (hv : f.value < 256 ^ f.size) :
    getLE data.byte f.off f.size = f.value := by
  rw [h.byte]
  exact getLE_putAll (pageFields_disjoint h.tables) hf hv

theorem Written.zero (h : Written data l) {x : Nat} (hx : 4096 ≤ x) : data.byte x = 0 := by
  rw [h.byte]
  refine putAll_of_outside fun f hf => .inr ?_
  have := pageFields_within h.tables hf
  omega

theorem Written.u32 (h : Written data l) {off : Nat} {v : UInt32} (hf : ⟨off, 4, v.toNat⟩ ∈ pageFields l) :
    Returns (readU32 data off) v := by
  have hin := pageFields_within h.tables hf
  have hlen := h.len
  simp only at hin
  exact readU32_returns (by omega) (h.get hf v.toNat_lt)

theorem Written.u64 (h : Written data l) {off : Nat} (hf : ⟨off, 8, v.toNat⟩ ∈ pageFields l) :
    Returns (readU64 data off) v := by
  have hin := pageFields_within h.tables hf
  have hlen := h.len
  simp only at hin
  exact readU64_returns (by omega) (h.get hf v.toNat_lt)

theorem mem_page_of_header (hf : f ∈ headerFields l) : f ∈ pageFields l :=
  List.mem_append_left _ hf

theorem Written.header_u32 (h : Written data l) {off : Nat} {v : UInt32} (hf : ⟨off, 4, v.toNat⟩ ∈ headerFields l) :
    Returns (readU32 data off) v :=
  h.u32 (mem_page_of_header hf)

theorem Written.header_u64 (h : Written data l) {off : Nat} (hf : ⟨off, 8, v.toNat⟩ ∈ headerFields l) :
    Returns (readU64 data off) v :=
  h.u64 (mem_page_of_header hf)

/-! ### Class tables read back -/

theorem entryOffset_returns (h : off.toNat + 16 * i ≤ 4096) :
    Returns (entryOffset off i) (off.toNat + 16 * i) := by
  have h16 : i * sizeClassEntrySize = 16 * i := Nat.mul_comm _ _
  rw [← h16]
  exact (Returns.mulInt (by omega)).bind (.addInt (by omega))

/-- A class table of the page: where it is, and its entries' fields. -/
structure TableOf (data : Mapping) (l : Layout) (off : UInt64) (cs : List SizeClass) : Prop where
  written : Written data l
  le : off.toNat + 16 * cs.length ≤ 4096
  mem : ∀ f ∈ tableFields off.toNat cs, f ∈ pageFields l

theorem TableOf.readClass (h : TableOf data l off cs) (hc : cs[i]? = some c) : Returns (readClass data off i) c := by
  obtain ⟨hi, -⟩ := List.getElem?_eq_some_iff.mp hc
  have hle := h.le
  have hmem : ∀ f ∈ entryFields (off.toNat + 16 * i) c, f ∈ pageFields l := fun f hf => h.mem f (entryFields_mem hc hf)
  refine (entryOffset_returns (by omega)).bind ((h.written.u32 (hmem _ (by simp [entryFields]))).bind
    ((Returns.addInt (by omega)).bind ((h.written.u32 (hmem _ (by simp [entryFields]))).bind
      ((Returns.addInt (by omega)).bind ((h.written.u32 (hmem _ (by simp [entryFields]))).bind .pure)))))

theorem TableOf.readClasses (h : TableOf data l off cs) {n : Nat}
    (hn : i + n = cs.length) : Returns (readClasses data off i n) (cs.drop i) := by
  induction n generalizing i with
  | zero =>
    rw [List.drop_eq_nil_of_le (by omega)]
    exact .pure
  | succ n ih =>
    rw [List.drop_eq_getElem_cons (by omega)]
    exact (h.readClass (List.getElem?_eq_getElem (by omega))).bind ((ih (by omega)).bind .pure)

theorem TableOf.entriesReservedZero (h : TableOf data l off cs) {n : Nat}
    (hn : i + n = cs.length) : Returns (entriesReservedZeroFrom data off i n) () := by
  induction n generalizing i with
  | zero => exact .pure
  | succ n ih =>
    have hle := h.le
    have hi : cs[i]? = some cs[i] := List.getElem?_eq_getElem (by omega)
    have hmem : ⟨off.toNat + 16 * i + 12, 4, (0 : UInt32).toNat⟩ ∈ pageFields l :=
      h.mem _ (entryFields_mem hi (by simp [entryFields]))
    exact (entryOffset_returns (by omega)).bind ((Returns.addInt (by omega)).bind ((h.written.u32 hmem).bind
      ((Returns.refuse (by simp)).bind (ih (by omega)))))

/-! ### The checks pass -/

theorem TableIn.stop_returns (h : TableIn off n.toNat) :
    ∃ b e : UInt64, Returns (tableBytes n.toUInt64) b ∧ Returns (addU64 off b : Geo UInt64) e ∧
      e.toNat = off.toNat + 16 * n.toNat := by
  have hle := h.le
  have hn := UInt32.toNat_toUInt64 n
  have hbytes : Returns (tableBytes n.toUInt64) (n.toUInt64 * UInt64.ofNat sizeClassEntrySize) := .mulU64
  have hb := hbytes.post (tableBytes_safe (by omega))
  have hsum : Returns (addU64 off _ : Geo UInt64) (off + n.toUInt64 * UInt64.ofNat sizeClassEntrySize) := .addU64
  have he := hsum.post (Safe.addU64 (by omega))
  exact ⟨_, _, hbytes, hsum, by omega⟩

theorem TableIn.returns (h : TableIn off n.toNat) : Returns (checkOneClassTableRange n off) () := by
  obtain ⟨b, e, hb, he, hev⟩ := h.stop_returns
  have hpos := h.pos
  have hge := h.ge
  have hle := h.le
  refine (Returns.refuse ?_).bind ((Returns.refuse ?_).bind ((Returns.refuse ?_).bind
    (hb.bind (he.bind (.refuse ?_)))))
  · rw [UInt32.lt_iff_toNat_lt, not_lt]
    exact hpos
  · rw [not_or, UInt64.lt_iff_toNat_lt, ge_iff_le, UInt64.le_iff_toNat_le, not_lt, not_le]
    exact ⟨hge, show off.toNat < 4096 by omega⟩
  · rw [not_not]
    refine UInt64.toNat_inj.mp ?_
    rw [UInt64.toNat_mod]
    exact h.align
  · rw [gt_iff_lt, UInt64.lt_iff_toNat_lt, not_lt]
    exact show e.toNat ≤ 4096 by omega

theorem checkClassTableRanges_returns {numHP numPH : UInt32} {offHP offPH : UInt64} (hhp : TableIn offHP numHP.toNat)
    (hph : TableIn offPH numPH.toNat)
    (hd : offHP.toNat + 16 * numHP.toNat ≤ offPH.toNat ∨ offPH.toNat + 16 * numPH.toNat ≤ offHP.toNat) :
    Returns (checkClassTableRanges numHP numPH offHP offPH) () := by
  obtain ⟨b1, e1, hb1, he1, hv1⟩ := hhp.stop_returns
  obtain ⟨b2, e2, hb2, he2, hv2⟩ := hph.stop_returns
  refine hhp.returns.bind (hph.returns.bind (hb1.bind (he1.bind (hb2.bind (he2.bind (.refuse ?_))))))
  simp only [overlaps, UInt64.lt_iff_toNat_lt]
  omega

theorem ArenaRules.toNat_total {g : ArenaGeometry} (h : ArenaRules g) :
    (UInt64.ofNat (total g.classes)).toNat = total g.classes := by
  refine UInt64.toNat_ofNat_of_lt' ?_
  have h1 := h.bytes
  have h2 := h.ceiling
  have h3 := le_roundup (n := total g.classes)
  change _ < 2 ^ 64
  omega

theorem ArenaRules.classRules {g : ArenaGeometry} (h : ArenaRules g)
    (hn : n.toNat = g.classes.length) (ht : TableOf data l off g.classes) :
    Returns (checkClassRules data off n) (g.classes, UInt64.ofNat (total g.classes)) := by
  have hread := ht.readClasses (i := 0) (n := n.toNat) (by omega)
  exact hread.bind (h.slabs.returns.bind ((checkClassBaseOffsets_returns h.toNat_total h.contiguous).bind .pure))

section

variable (h : Written data l)
include h

theorem checkSpans_returns :
    Returns (checkSpans data
      [(56, l.syncPageOffset), (64, l.ringHP), (72, l.ringPH), (80, l.arenaHP.offset), (88, l.arenaPH.offset),
       (24, l.regionSize)]) () := by
  have hread : ∀ {off : Nat} {v : UInt64} {fs : List (Nat × UInt64)}, ⟨off, 8, v.toNat⟩ ∈ headerFields l →
      Returns (checkSpans data fs) () → Returns (checkSpans data ((off, v) :: fs)) () := fun hf hfs =>
    (h.header_u64 hf).bind ((Returns.refuse (by simp)).bind hfs)
  exact hread (by simp [headerFields]) (hread (by simp [headerFields]) (hread (by simp [headerFields])
    (hread (by simp [headerFields]) (hread (by simp [headerFields]) (hread (by simp [headerFields]) .pure)))))

theorem checkArenaPadZero_returns {t bytes : UInt64} (hoff : 8192 ≤ off.toNat)
    (ht : t.toNat ≤ bytes.toNat) (hb : off.toNat + bytes.toNat ≤ data.len) :
    Returns (checkArenaPadZero data off t bytes) () := by
  have hlen := data.len_lt
  have hstart : Returns (addU64 off t : Geo UInt64) (off + t) := .addU64
  have hstop : Returns (addU64 off bytes : Geo UInt64) (off + bytes) := .addU64
  have h1 := hstart.post (Safe.addU64 (by omega))
  have h2 := hstop.post (Safe.addU64 (by omega))
  have hzero : Returns (isZero data (off + t).toNat (off + bytes).toNat) true :=
    isZero_returns (by omega) fun x hx _ => h.zero (by omega)
  exact hstart.bind (hstop.bind (hzero.bind (.refuse (by simp))))

theorem checkSyncPageReservedTailZero_returns (hg : l.syncPageOffset.toNat = 4096) :
    Returns (checkSyncPageReservedTailZero data l.spans) () := by
  have hlen := h.len
  have hg : l.syncPageOffset = 4096 := UInt64.toNat_inj.mp hg
  have hstart : Returns (addU64 l.spans.syncPageOffset syncPageReservedTailOffset : Geo UInt64) 4608 := by
    have : (4608 : UInt64) = l.spans.syncPageOffset + syncPageReservedTailOffset := by
      change _ = l.syncPageOffset + _
      rw [hg]
      rfl
    rw [this]
    exact .addU64
  have hstop : Returns (addU64 l.spans.syncPageOffset pageSize : Geo UInt64) 8192 := by
    have : (8192 : UInt64) = l.spans.syncPageOffset + pageSize := by
      change _ = l.syncPageOffset + _
      rw [hg]
      rfl
    rw [this]
    exact .addU64
  have hzero : Returns (isZero data (4608 : UInt64).toNat (8192 : UInt64).toNat) true :=
    isZero_returns ⟨by decide, hlen⟩ fun x hx _ => h.zero (Nat.le_trans (by decide) hx)
  exact hstart.bind (hstop.bind (hzero.bind (.refuse (by simp))))

theorem reservedHdr_returns : Returns (isZero data 140 (140 + 116)) true := by
  have hlen := h.len
  have hword := h.get (f := ⟨140, 116, 0⟩) (mem_page_of_header (by simp [headerFields])) (Nat.pow_pos (by decide))
  exact isZero_returns ⟨by omega, by omega⟩ fun x hx hx' => eq_zero_of_getLE hword hx hx'

theorem checkHeaderScalars_returns (hm : l.magic = layoutMagic) (hv : l.layoutVersion = 1) :
    Returns (checkHeaderScalars data) () := by
  refine (h.header_u64 (v := layoutMagic) (by simp [headerFields, hm])).bind ((Returns.refuse (by simp)).bind
    ((h.header_u32 (v := 1) (by simp [headerFields, hv])).bind ((Returns.refuse (by simp)).bind
    ((h.header_u32 (v := pageSize.toUInt32) (by simp [headerFields, pageSize])).bind ((Returns.refuse (by simp)).bind
    ((h.header_u32 (v := descriptorSize.toUInt32) (by simp [headerFields, descriptorSize])).bind
      ((Returns.refuse (by simp)).bind
    ((h.header_u64 (v := 1) (by simp [headerFields])).bind ((Returns.refuse (by simp)).bind
    ((h.header_u32 (v := 0) (by simp [headerFields])).bind (.refuse (by simp))))))))))))

/-- **A written page parses back to the layout it was written from.** -/
theorem Written.parse (hg : l.Geometry) (hm : l.magic = layoutMagic) (hv : l.layoutVersion = 1)
    (hf : l.headerFlags = 0) (hlen : data.len = l.regionSize.toNat) :
    Returns (parseLayoutPhase2 data l.regionSize) l := by
  have hhp := h.tables.hp.le
  have hph := h.tables.ph.le
  have hnHP : (UInt32.ofNat l.arenaHP.classes.length).toNat = l.arenaHP.classes.length :=
    UInt32.toNat_ofNat_of_lt' (by change _ < 2 ^ 32; omega)
  have hnPH : (UInt32.ofNat l.arenaPH.classes.length).toNat = l.arenaPH.classes.length :=
    UInt32.toNat_ofNat_of_lt' (by change _ < 2 ^ 32; omega)
  have htHP : TableOf data l l.arenaHP.classTableOffset l.arenaHP.classes :=
    ⟨h, hhp, fun f hf => by simp [pageFields, hf]⟩
  have htPH : TableOf data l l.arenaPH.classTableOffset l.arenaPH.classes :=
    ⟨h, hph, fun f hf => by simp [pageFields, hf]⟩
  have harena : ∀ {g : ArenaGeometry}, ArenaRules g →
      Returns (checkArenaTotal (UInt64.ofNat (total g.classes)) g.bytes) g.bytes := fun hr =>
    checkArenaTotal_returns (by rw [hr.toNat_total, hr.bytes]) hr.ceiling
  have hcoverage : Returns (checkSpansAndCoverage data l.spans l.regionSize) () := by
    refine (checkSpans_returns h).bind ((Returns.refuse (by simp [Layout.spans])).bind (.refuse ?_))
    rw [not_not, hlen, UInt64.ofNat_toNat]
    rfl
  have hsync : l.syncPageOffset.toNat = 4096 := hg.spans.sync
  have hahp : l.arenaHP.offset.toNat = 8192 + 64 * l.ringCapacity.toNat + 64 * l.ringCapacity.toNat := hg.spans.arenaHP
  have haph : l.arenaPH.offset.toNat = l.arenaHP.offset.toNat + l.arenaHP.bytes.toNat := hg.spans.arenaPH
  have hreg : l.regionSize.toNat = l.arenaPH.offset.toNat + l.arenaPH.bytes.toNat := hg.spans.region
  have hpad : ∀ {g : ArenaGeometry}, ArenaRules g → 8192 ≤ g.offset.toNat → g.offset.toNat + g.bytes.toNat ≤ data.len →
      Returns (checkArenaPadZero data g.offset (UInt64.ofNat (total g.classes)) g.bytes) () := fun hr h1 h2 =>
    checkArenaPadZero_returns h h1 (by rw [hr.toNat_total, hr.bytes]; exact le_roundup) h2
  have hreserved : Returns (checkReservedZero data l.spans l.arenaHP.classTableOffset
      (UInt32.ofNat l.arenaHP.classes.length) l.arenaPH.classTableOffset (UInt32.ofNat l.arenaPH.classes.length)
      (UInt64.ofNat (total l.arenaHP.classes)) (UInt64.ofNat (total l.arenaPH.classes))) () := by
    refine (h.header_u32 (v := 0) (by simp [headerFields, hf])).bind ((Returns.refuse (by simp)).bind
      ((reservedHdr_returns h).bind ((Returns.refuse (by simp)).bind
      ((checkSyncPageReservedTailZero_returns h hsync).bind
      ((htHP.entriesReservedZero (by omega)).bind ((htPH.entriesReservedZero (by omega)).bind
      ((hpad hg.arenaHP (by omega) (by omega)).bind (hpad hg.arenaPH (by omega) (by omega)))))))))
  have hring : Returns (checkRingReservation data) (l.ringCapacity, l.lifecycleReserve) :=
    (h.header_u32 (by simp [headerFields])).bind (hg.ring.capacity_returns.bind
      ((h.header_u32 (by simp [headerFields])).bind (hg.ring.reserve_returns.bind .pure)))
  have hranges : Returns (checkClassTableRanges (UInt32.ofNat l.arenaHP.classes.length)
      (UInt32.ofNat l.arenaPH.classes.length) l.arenaHP.classTableOffset l.arenaPH.classTableOffset) () :=
    checkClassTableRanges_returns (by rw [hnHP]; exact h.tables.hp) (by rw [hnPH]; exact h.tables.ph)
      (by rw [hnHP, hnPH]; exact h.tables.disjoint)
  have hnumHP : Returns (readU32 data 44) (UInt32.ofNat l.arenaHP.classes.length) :=
    h.header_u32 (by simp [headerFields])
  have hnumPH : Returns (readU32 data 48) (UInt32.ofNat l.arenaPH.classes.length) :=
    h.header_u32 (by simp [headerFields])
  have hoffHP : Returns (readU64 data 112) l.arenaHP.classTableOffset := h.header_u64 (by simp [headerFields])
  have hoffPH : Returns (readU64 data 120) l.arenaPH.classTableOffset := h.header_u64 (by simp [headerFields])
  have hbytesHP : Returns (readU64 data 96) l.arenaHP.bytes := h.header_u64 (by simp [headerFields])
  have hbytesPH : Returns (readU64 data 104) l.arenaPH.bytes := h.header_u64 (by simp [headerFields])
  have hmagic : Returns (readU64 data 0) l.magic := h.header_u64 (by simp [headerFields])
  have hversion : Returns (readU32 data 8) l.layoutVersion := h.header_u32 (by simp [headerFields])
  have hflags : Returns (readU32 data 12) l.headerFlags := h.header_u32 (by simp [headerFields])
  have hgen : Returns (readU64 data 16) l.generation := h.header_u64 (by simp [headerFields])
  refine (checkHeaderScalars_returns h hm hv).bind (hring.bind (hnumHP.bind (hnumPH.bind ?_)))
  refine hoffHP.bind (hoffPH.bind (hranges.bind ?_))
  refine (hg.arenaHP.classRules hnHP htHP).bind ((hg.arenaPH.classRules hnPH htPH).bind ?_)
  refine hbytesHP.bind ((harena hg.arenaHP).bind (hbytesPH.bind ((harena hg.arenaPH).bind ?_)))
  refine hg.spans.returns.bind (hcoverage.bind (hreserved.bind ?_))
  exact hmagic.bind (hversion.bind (hflags.bind (hgen.bind .pure)))

end

end Written

/-- A derived layout as `CreateRegion` stamps it. -/
def Layout.stamped (l : Layout) : Layout := { l with magic := layoutMagic, layoutVersion := 1 }

/-- The mapping a derived layout is written to. -/
def Layout.mapping (l : Layout) (h : l.regionSize.toNat < 2 ^ 63) : Mapping :=
  ⟨l.regionSize.toNat, writeLayoutPage (fun _ => 0) l.stamped, h⟩

theorem Layout.Geometry.regionSize_lt (h : l.Geometry) : l.regionSize.toNat < 2 ^ 63 := by
  have : l.regionSize.toNat ≤ 2 ^ 40 := h.spans.ceiling
  omega

theorem Layout.Geometry.regionSize_ge (h : l.Geometry) : 8192 ≤ l.regionSize.toNat := by
  have h1 : l.regionSize.toNat = l.arenaPH.offset.toNat + l.arenaPH.bytes.toNat := h.spans.region
  have h2 : l.arenaPH.offset.toNat = l.arenaHP.offset.toNat + l.arenaHP.bytes.toNat := h.spans.arenaPH
  have h3 : l.arenaHP.offset.toNat = 8192 + 64 * l.ringCapacity.toNat + 64 * l.ringCapacity.toNat := h.spans.arenaHP
  omega

theorem parse_mapping (hg : l.Geometry) (ht : l.Tables) (hf : l.headerFlags = 0) :
    Returns (parseLayoutPhase2 (l.mapping hg.regionSize_lt) l.regionSize) l.stamped := by
  have hw : Written (l.mapping hg.regionSize_lt) l.stamped := ⟨⟨ht.hp, ht.ph, ht.disjoint⟩, hg.regionSize_ge, rfl⟩
  exact hw.parse ⟨hg.ring, hg.arenaHP, hg.arenaPH, hg.spans⟩ rfl rfl hf rfl

theorem createRegion_of_derive {input : Layout} {log : List Exact} (hgen : input.generation ≠ 0)
    (hflags : input.headerFlags = 0) (h : deriveLayout input [] = .ok (l, log)) :
    createRegion input [] = .ok ((l.stamped, writeLayoutPage (fun _ => 0) l.stamped), log) := by
  have hkeep := (deriveLayout_safe.of_ok h).1.2.2.2
  unfold createRegion refuse
  rw [if_neg hgen, if_neg (by simpa using hflags)]
  change (deriveLayout input [] >>= _) = _
  rw [h]
  rw [← hkeep]
  rfl

/-- **Creation and attachment agree.** A layout `DeriveLayout` accepts, with no header flag, written by `CreateRegion`
into a zero mapping of the derived size, is parsed back as exactly that layout. -/
theorem parseLayoutPhase2_createRegion (input l : Layout) (log : List Exact) (hgen : input.generation ≠ 0)
    (hflags : input.headerFlags = 0) (h : deriveLayout input [] = .ok (l, log)) :
    l.generation = input.generation ∧
      ∃ data : Mapping, data.len = l.regionSize.toNat ∧
        createRegion input [] = .ok ((l.stamped, data.byte), log) ∧
        ∃ log', parseLayoutPhase2 data l.regionSize [] = .ok (l.stamped, log') := by
  obtain ⟨hg, ht, hf, hkeep⟩ := (deriveLayout_safe.of_ok h).1
  exact ⟨hkeep, l.mapping hg.regionSize_lt, rfl, createRegion_of_derive hgen hflags h,
    (parse_mapping hg ht (by rw [hf, hflags])).run []⟩

/-- A small geometry: one ring page, one slab a class. -/
def smallInput : Layout :=
  { magic := 0, layoutVersion := 0, headerFlags := 0, generation := 7, regionSize := 0, ringCapacity := 64,
    lifecycleReserve := 8, syncPageOffset := 0, ringHP := 0, ringPH := 0,
    arenaHP := ⟨0, 0, 0, [⟨64, 3, 0⟩, ⟨4096, 1, 0⟩]⟩, arenaPH := ⟨0, 0, 0, [⟨4096, 2, 0⟩]⟩ }

/-- What it derives to. -/
def smallLayout : Layout :=
  { smallInput with
    regionSize := 32768, syncPageOffset := 4096, ringHP := 8192, ringPH := 12288,
    arenaHP := ⟨16384, 8192, 256, [⟨64, 3, 0⟩, ⟨4096, 1, 192⟩]⟩, arenaPH := ⟨24576, 8192, 288, [⟨4096, 2, 0⟩]⟩ }

theorem smallInput_derives : ∃ log, deriveLayout smallInput [] = .ok (smallLayout, log) := ⟨_, rfl⟩

theorem parseLayoutPhase2_createRegion_small : smallInput.generation ≠ 0 ∧ smallInput.headerFlags = 0 ∧
    ∃ log, deriveLayout smallInput [] = .ok (smallLayout, log) ∧ smallLayout.generation = smallInput.generation ∧
      ∃ data : Mapping, data.len = smallLayout.regionSize.toNat ∧
        createRegion smallInput [] = .ok ((smallLayout.stamped, data.byte), log) ∧
        ∃ log', parseLayoutPhase2 data smallLayout.regionSize [] = .ok (smallLayout.stamped, log') := by
  obtain ⟨log, h⟩ := smallInput_derives
  exact ⟨by decide, by decide, log, h,
    parseLayoutPhase2_createRegion smallInput smallLayout log (by decide) (by decide) h⟩

/-- A header flag that `DeriveLayout` copies through. -/
def flaggedInput : Layout := { smallInput with headerFlags := 1 }
def flaggedLayout : Layout := { smallLayout with headerFlags := 1 }

/-- **A flagged layout does not come back**: `DeriveLayout` accepts it, and the parser refuses its page. -/
theorem parseLayoutPhase2_flagged :
    ¬ ∀ (input l : Layout) (log : List Exact), input.generation ≠ 0 → deriveLayout input [] = .ok (l, log) →
      ∀ data : Mapping, data.len = l.regionSize.toNat → data.byte = writeLayoutPage (fun _ => 0) l.stamped →
        ∃ log', parseLayoutPhase2 data l.regionSize [] = .ok (l.stamped, log') := by
  intro h
  obtain ⟨log', hp⟩ := h flaggedInput flaggedLayout _ (by decide) rfl (flaggedLayout.mapping (by decide)) rfl rfl
  have hrefused : (parseLayoutPhase2 (flaggedLayout.mapping (by decide)) flaggedLayout.regionSize []).isOk = false := by
    decide +kernel
  rw [hp] at hrefused
  cases hrefused

/-- **Attaching to a hostile region is memory-bounded.** Over any mapping of at least two pages
the parser never indexes out of range; and when it accepts, the spans tile exactly the mapping,
both arenas hold their classes, slabs and pad, and no sum or product wrapped. -/
theorem parseLayoutPhase2_bounded (data : Mapping) (declared : UInt64) (hlen : 8192 ≤ data.len) :
    parseLayoutPhase2 data declared [] ≠ .error .panic ∧
      ∀ l log, parseLayoutPhase2 data declared [] = .ok (l, log) →
        Fits log ∧ l.Tiles data.len ∧ l.regionSize.toNat = data.len ∧ declared.toNat = data.len ∧
          ArenaBounded l.arenaHP ∧ ArenaBounded l.arenaPH := by
  have hsafe : Safe (parseLayoutPhase2 data declared) (Accepted data declared) := parseLayoutPhase2_safe hlen
  refine ⟨hsafe.not_panic [], fun l log hl => ?_⟩
  obtain ⟨hacc, hfits⟩ := hsafe.of_ok hl
  have htiles := hacc.geometry.tiles
  rw [← hacc.length] at htiles
  exact ⟨hfits, htiles, hacc.length.symm, by rw [← hacc.declared, hacc.length], hacc.geometry.arenaHP.bounded,
    hacc.geometry.arenaPH.bounded⟩

theorem parseLayoutPhase2_bounded_small : ∃ (data : Mapping) (declared : UInt64) (l : Layout) (log : List Exact),
    8192 ≤ data.len ∧ parseLayoutPhase2 data declared [] = .ok (l, log) ∧ Fits log ∧ l.Tiles data.len ∧
      ArenaBounded l.arenaHP ∧ ArenaBounded l.arenaPH := by
  obtain ⟨log, h⟩ := smallInput_derives
  obtain ⟨hg, ht, hf, -⟩ := (deriveLayout_safe.of_ok h).1
  obtain ⟨log', hp⟩ := (parse_mapping hg ht (by rw [hf]; rfl)).run []
  have hlen : 8192 ≤ (smallLayout.mapping hg.regionSize_lt).len := hg.regionSize_ge
  obtain ⟨hfits, htiles, -, -, hHP, hPH⟩ :=
    (parseLayoutPhase2_bounded (smallLayout.mapping hg.regionSize_lt) smallLayout.regionSize hlen).2
      smallLayout.stamped log' hp
  exact ⟨_, _, _, _, hlen, hp, hfits, htiles, hHP, hPH⟩

end Styx.Region
