/-
What a hostile slot can make the consumer touch (`payloadBytes`, `servingClass` and
`slabInClass` in `internal/transport/shm/transport.go`).

The consumer takes a slot's offset only for a slab that the producer's `Alloc` could
have returned for the stored length: the two select the class by one rule, and the
offsets of a class are its slabs'. So every slice it makes is inside the arena,
whatever the slot says.
-/
import Styx.Shm.Outlet

namespace Styx

open ByteMem Machine

/-! ## What `Alloc` can return -/

theorem Arena.alloc_of_free {a : Arena} {size ci idx : Nat} {sc : SizeClass} {rest : List Nat} (hsize : size ≠ 0)
    (hsel : selectClass a.table.classes size = some ci) (hsc : a.table.classes[ci]? = some sc)
    (hfree : (a.pools ci).free = idx :: rest) : ∃ g a', a.alloc size = .ok (g, a') ∧ g.offset = sc.offsetOf idx := by
  simp only [alloc, hsize, if_false, hsel, hsc, hfree]
  exact ⟨_, _, rfl, rfl⟩

namespace Calls

variable {t : ClassTable} {mem : Nat → UInt8} {generation : UInt32} {id : UInt64} {ci size : Nat} {sc : SizeClass}

/-- Some run of calls brings an arena to where `Alloc` returns this offset. -/
def CanAlloc (t : ClassTable) (mem : Nat → UInt8) (generation : UInt32) (id : UInt64) (size off : Nat) : Prop :=
  ∃ s g a, Reach step NotWrapped (start t mem generation id) s ∧ s.arena.alloc size = .ok (g, a) ∧ g.offset = off

def kept (ci : Nat) : Nat := if ci = 0 then 1 else 0

theorem slabCount_lt (hsc : t.classes[ci]? = some sc) : sc.slabCount < 2 ^ 32 := by
  have hmem := List.mem_of_getElem? hsc
  have hend := t.contiguous.end_le sc hmem
  have hpos := t.slabSize_pos sc hmem
  have hfits : classTotal t.classes ≤ 2 ^ 32 - 1 := t.fits
  have hle : sc.slabCount ≤ sc.slabSize * sc.slabCount := Nat.le_mul_of_pos_left _ hpos
  omega

theorem reach_served (mem : Nat → UInt8) (generation : UInt32) (id : UInt64) {k : Nat} (hsize : size ≠ 0) (hsel : selectClass t.classes size = some ci)
    (hsc : t.classes[ci]? = some sc) (hk : k + kept ci ≤ sc.slabCount) :
    ∃ s, Reach step NotWrapped (start t mem generation id) s ∧ s.issued.length = k ∧ s.arena.table = t ∧
      (s.arena.pools ci).free = (List.range sc.slabCount).drop (k + kept ci) := by
  induction k with
  | zero =>
    refine ⟨_, .refl, rfl, rfl, ?_⟩
    simp only [start, Arena.new, hsc, newClassState, kept, beq_iff_eq, Nat.zero_add]
  | succ k ih =>
    obtain ⟨s, hs, hlen, htable, hfree⟩ := ih (by omega)
    have hlt : k + kept ci < sc.slabCount := by omega
    have hcount := slabCount_lt hsc
    rw [List.drop_eq_getElem_cons (by simpa using hlt), List.getElem_range] at hfree
    obtain ⟨g, a, ha, -⟩ := Arena.alloc_of_free hsize (htable ▸ hsel) (htable ▸ hsc) hfree
    have hstep : s.step (.alloc size) = some ⟨a, g :: s.issued, g :: s.out⟩ := by simp [step, ha]
    have hnw : NotWrapped s (.alloc size) := by
      show s.issued.length < 2 ^ 64 - 1
      omega
    refine ⟨_, hs.tail hnw hstep, by simp [hlen], ?_, ?_⟩
    · obtain ⟨ci', sc', idx, rest, -, -, -, -, -, rfl⟩ := Arena.alloc_eq_ok ha
      exact htable
    · obtain ⟨ci', sc', idx, rest, -, hsel', -, hfree', -, rfl⟩ := Arena.alloc_eq_ok ha
      rw [htable, hsel] at hsel'
      cases hsel'
      rw [hfree] at hfree'
      cases hfree'
      simp only [Arena.setPool, Function.update_self]
      congr 1
      omega

/-- **`Alloc` returns the slabs of the serving class**, the reserved one apart. -/
theorem canAlloc_iff {off : Nat} : CanAlloc t mem generation id size off ↔
    size ≠ 0 ∧ ∃ ci idx sc, SlabAt t.classes off size ci idx sc := by
  constructor
  · rintro ⟨s, g, a, hs, ha, rfl⟩
    have ht : Tracked t s := hs.invariant .start fun ht hn he => ht.step hn he
    obtain ⟨ci, sc, idx, rest, hsize, hsel, hsc, hfree, rfl, -⟩ := Arena.alloc_eq_ok ha
    rw [ht.table] at hsel hsc
    have hmem : idx ∈ (s.arena.pools ci).free := by simp [hfree]
    obtain ⟨hidx, hne⟩ := (ht.partition hsc idx).mp (.inl hmem)
    exact ⟨hsize, ci, idx, sc, hsel, hsc, hidx, (t.offsetOf_eq (List.mem_of_getElem? hsc) hidx).1, by tauto⟩
  · rintro ⟨hsize, ci, idx, sc, hs⟩
    obtain ⟨k, rfl⟩ : ∃ k, idx = k + kept ci := by
      refine ⟨idx - kept ci, ?_⟩
      have := hs.present
      unfold kept
      split <;> omega
    obtain ⟨s, hreach, -, htable, hfree⟩ := reach_served mem generation id hsize hs.serving hs.entry
      (Nat.le_of_lt hs.index)
    rw [List.drop_eq_getElem_cons (by simpa using hs.index), List.getElem_range] at hfree
    obtain ⟨g, a, ha, hoff⟩ := Arena.alloc_of_free hsize (htable ▸ hs.serving) (htable ▸ hs.entry) hfree
    refine ⟨s, g, a, hreach, ha, ?_⟩
    rw [hoff, hs.offset]
    exact (t.offsetOf_eq (List.mem_of_getElem? hs.entry) hs.index).1

end Calls

/-! ## What the consumer accepts -/

namespace Inlet

variable {c : Inlet} {mem mem' : Nat → UInt8} {d : Descriptor} {view : Bool}

/-- The slices `payloadBytes` takes of the arena's bytes: the message, and the trailer. -/
def slices (c : Inlet) (d : Descriptor) : List (Nat × Nat) :=
  match c.slab d with
  | .ok (some off) =>
    let plen := d.payloadLength.toNat
    (off, off + plen) :: if d.hasCRC then [(off + plen, off + plen + crc32TrailerLen)] else []
  | _ => []

theorem slab_none (h : c.slab d = .ok none) : d.storedLen = 0 ∧ d.payloadOffset = 0 := by
  simp only [slab] at h
  split at h
  · next h0 =>
    split at h
    · cases h
    next hne => exact ⟨h0, by simpa using (not_or.mp hne).1⟩
  split at h
  · cases h
  split at h
  · cases h
  split at h <;> cases h

/-- Some slot of this stored length and offset passes `classify` and yields its bytes. -/
def Accepts (c : Inlet) (size off : Nat) : Prop :=
  ∃ d tk mem view body, classify c.checksum c.chunkingActive d = .ok (tk, false) ∧ d.storedLen = size ∧
    d.payloadOffset.toNat = off ∧ c.payloadBytes mem d view = .ok body

end Inlet

/-- The slab a slot names: of the class that serves its stored length, inside the arena, and not the reserved one. -/
structure Region.ArenaGeometry.InSlab (g : ArenaGeometry) (d : Descriptor) (ci idx : Nat) (sc : Styx.SizeClass) : Prop where
  slab : SlabAt (g.classes.map SizeClass.toArena) d.payloadOffset.toNat d.storedLen ci idx sc
  holds : d.payloadLength.toNat + (if d.hasCRC then crc32TrailerLen else 0) ≤ sc.slabSize
  inside : d.payloadOffset.toNat + sc.slabSize ≤ g.bytes.toNat
  nonzero : 0 < d.payloadOffset.toNat

namespace Region.ArenaRules

variable {g : ArenaGeometry} {cfg : Settings} {gen : UInt32} {d : Descriptor} {mem mem' : Nat → UInt8} {view : Bool}
  {off size ci idx len : Nat} {sc : Styx.SizeClass} {flags : UInt16}

/-- **A slab the consumer takes is one of its arena's.** -/
theorem inSlab (h : ArenaRules g) (hs : (cfg.inlet g gen).slab d = .ok (some off)) :
    off = d.payloadOffset.toNat ∧ ∃ ci idx sc, g.InSlab d ci idx sc := by
  obtain ⟨rfl, -, hne, -, -, hin⟩ := Inlet.slab_some_iff.mp hs
  obtain ⟨-, ci, idx, sc, hat⟩ := (slabInClass_iff fun c hc => (h.toArena_pos c hc).1).mp hin
  refine ⟨rfl, ci, idx, sc, hat, selectClass_fits hat.serving hat.entry, ?_, ?_⟩
  · obtain ⟨hexact, hend⟩ := h.table.offsetOf_eq (List.mem_of_getElem? hat.entry) hat.index
    have hlast := h.contiguous.end_le sc (List.mem_of_getElem? hat.entry)
    have hpad := h.bounded.pad
    rw [hexact, ← hat.offset] at hend
    change classTotal _ ≤ _ at hpad
    omega
  · exact Nat.pos_of_ne_zero fun h0 => hne (UInt32.toNat_inj.mp h0)

theorem slices_inside (h : ArenaRules g) : ∀ x ∈ (cfg.inlet g gen).slices d, x.1 ≤ x.2 ∧ x.2 ≤ g.bytes.toNat := by
  intro x hx
  unfold Inlet.slices at hx
  split at hx
  · next off hs =>
    obtain ⟨rfl, ci, idx, sc, hin⟩ := h.inSlab hs
    have hholds := hin.holds
    have hend := hin.inside
    split at hx
    · next hcrc =>
      rw [if_pos hcrc] at hholds
      simp only [List.mem_cons, List.not_mem_nil, or_false] at hx
      rcases hx with rfl | rfl <;> constructor <;> dsimp only <;> omega
    · simp only [List.mem_singleton] at hx
      subst hx
      constructor <;> dsimp only <;> omega
  · cases hx

theorem payloadBytes_inside (h : ArenaRules g) (hmem : ∀ x < g.bytes.toNat, mem x = mem' x) :
    (cfg.inlet g gen).payloadBytes mem d view = (cfg.inlet g gen).payloadBytes mem' d view := by
  refine Inlet.payloadBytes_congr fun off hs x _ hx => hmem x ?_
  obtain ⟨rfl, ci, idx, sc, hin⟩ := h.inSlab hs
  have hholds : d.storedLen ≤ sc.slabSize := hin.holds
  have hend := hin.inside
  omega

theorem payloadBytes_inSlab (h : ArenaRules g) {body : Body} (hb : (cfg.inlet g gen).payloadBytes mem d view = .ok body)
    (hlen : d.storedLen ≠ 0) : ∃ ci idx sc, g.InSlab d ci idx sc := by
  unfold Inlet.payloadBytes at hb
  split at hb
  · cases hb
  · next hs => exact absurd (Inlet.slab_none hs).1 hlen
  · next off hs => exact (h.inSlab hs).2

/-- A request slot for `len` bytes. -/
def slotFor (len off : Nat) (flags : UInt16) : Descriptor :=
  { Descriptor.zero with payloadOffset := UInt32.ofNat off, payloadLength := UInt32.ofNat len, allocSeq := 1, flags }

theorem slabSize_le_last (h : ArenaRules g)
    (hsc : (g.classes.map SizeClass.toArena)[ci]? = some sc) : sc.slabSize ≤ (slabSizeLast g).toNat := by
  obtain ⟨last, hlast, hmax, -⟩ := h.last
  rw [List.getElem?_map, Option.map_eq_some_iff] at hsc
  obtain ⟨c, hc, rfl⟩ := hsc
  rw [hmax]
  obtain ⟨hi, rfl⟩ := List.getElem?_eq_some_iff.mp hc
  obtain ⟨hj, rfl⟩ := List.getElem?_eq_some_iff.mp hlast
  rcases Nat.lt_or_ge ci (g.classes.length - 1) with hlt | hge
  · exact Nat.le_of_lt (UInt32.lt_iff_toNat_lt.mp (List.pairwise_iff_getElem.mp h.slabs.ascending ci _ hi hj hlt))
  · obtain rfl : ci = g.classes.length - 1 := by omega
    exact Nat.le_refl _

theorem slabAt_lt (h : ArenaRules g)
    (hs : SlabAt (g.classes.map SizeClass.toArena) off size ci idx sc) : 0 < off ∧ off < 2 ^ 32 ∧ size < 2 ^ 32 := by
  have hmem := List.mem_of_getElem? hs.entry
  obtain ⟨hexact, hend⟩ := h.table.offsetOf_eq hmem hs.index
  have hpos := h.table.offsetOf_pos hs.entry hs.index hs.present
  rw [hexact, ← hs.offset] at hend hpos
  have hlast := h.contiguous.end_le sc hmem
  have hfit : classTotal (g.classes.map SizeClass.toArena) ≤ 2 ^ 32 - 1 := h.toArena_fits
  have hle := selectClass_fits hs.serving hs.entry
  have hslab := (h.toArena_pos sc hmem).1
  omega

theorem slab_slotFor (h : ArenaRules g) (hs : SlabAt (g.classes.map SizeClass.toArena) off size ci idx sc) (hsize : size ≠ 0)
    (hlen : len ≤ (slabSizeLast g - cfg.overhead).toNat) (hstored : (slotFor len off flags).storedLen = size) :
    (cfg.inlet g gen).slab (slotFor len off flags) = .ok (some off) := by
  obtain ⟨hpos, hoff, hlt⟩ := h.slabAt_lt hs
  have hpo : (slotFor len off flags).payloadOffset.toNat = off := UInt32.toNat_ofNat_of_lt' hoff
  have hpl : (slotFor len off flags).payloadLength.toNat = len :=
    UInt32.toNat_ofNat_of_lt' (Nat.lt_of_le_of_lt hlen (UInt32.toNat_lt _))
  refine Inlet.slab_some_iff.mpr ⟨hpo.symm, by rw [hstored]; exact hsize, fun h0 => ?_, by simp [slotFor], ?_, ?_⟩
  · rw [h0] at hpo
    rw [← hpo] at hpos
    exact absurd hpos (by decide)
  · exact UInt32.le_iff_toNat_le.mpr (by rw [hpl]; exact hlen)
  · rw [hstored]
    exact (slabInClass_iff fun c hc => (h.toArena_pos c hc).1).mpr ⟨hlt, ci, idx, sc, hs⟩

theorem accepts_slot (h : ArenaRules g) (hs : SlabAt (g.classes.map SizeClass.toArena) off size ci idx sc) (hsize : size ≠ 0)
    (hlen : len ≤ (slabSizeLast g - cfg.overhead).toNat) (hstored : (slotFor len off flags).storedLen = size)
    (hflags : flags &&& ~~~(if cfg.checksum then flagCRC32CPresent else 0) = 0) : (cfg.inlet g gen).Accepts size off := by
  have hslab : (cfg.inlet g gen).slab (slotFor len off flags) = .ok (some off) := h.slab_slotFor hs hsize hlen hstored
  have hpo : off = (slotFor len off flags).payloadOffset.toNat := (Inlet.slab_some_iff.mp hslab).1
  have hpl : (slotFor len off flags).payloadLength.toNat = len :=
    UInt32.toNat_ofNat_of_lt' (Nat.lt_of_le_of_lt hlen (UInt32.toNat_lt _))
  -- The message is all zeros, and its trailer follows it.
  have hbytes : ∃ mem : Nat → UInt8, readBytes mem off (List.replicate len (0 : UInt8)).length = List.replicate len 0 ∧
      getLE mem (off + (List.replicate len (0 : UInt8)).length) crc32TrailerLen =
        (crc32c (List.replicate len 0)).toNat := by
    refine ⟨putLE (fun _ => 0) (off + len) crc32TrailerLen (crc32c (List.replicate len 0)).toNat, ?_, ?_⟩
    · refine List.ext_getElem (by simp) fun k hk _ => ?_
      simp only [readBytes, List.getElem_map, List.getElem_range, List.getElem_replicate]
      rw [putLE_of_outside]
      simp at hk
      omega
    · rw [List.length_replicate]
      exact getLE_putLE (UInt32.toNat_lt _)
  obtain ⟨mem, hread, hcrc⟩ := hbytes
  obtain ⟨span, hspan, -⟩ := Inlet.payloadBytes_of hslab (hpl.trans List.length_replicate.symm) hread (fun _ => hcrc) false
  refine ⟨slotFor len off flags, .unaryReq, mem, false, span, ?_, hstored, hpo.symm, hspan⟩
  change classify cfg.checksum cfg.chunkingActive _ = _
  simp only [classify]
  rw [if_neg (by simpa [slotFor] using hflags)]
  rfl

/-- **What the consumer accepts is what the producer can allocate.** -/
theorem accepts_iff (h : ArenaRules g) (hsize : size ≠ 0) : (cfg.inlet g gen).Accepts size off ↔
    ∃ ci idx sc, SlabAt (g.classes.map SizeClass.toArena) off size ci idx sc := by
  constructor
  · rintro ⟨d, tk, mem, view, body, -, rfl, rfl, hb⟩
    obtain ⟨ci, idx, sc, hin⟩ := h.payloadBytes_inSlab hb hsize
    exact ⟨ci, idx, sc, hin.slab⟩
  · rintro ⟨ci, idx, sc, hs⟩
    have hfits : size ≤ (slabSizeLast g).toNat :=
      Nat.le_trans (selectClass_fits hs.serving hs.entry) (h.slabSize_le_last hs.entry)
    have hlt := UInt32.toNat_lt (slabSizeLast g)
    obtain ⟨last, -, hmax, h4096⟩ := h.last
    rw [← hmax] at h4096
    have hover := h.overhead_le cfg
    have hwords : ∀ {n : Nat}, n ≤ size → (UInt32.ofNat n).toNat = n := fun hn =>
      UInt32.toNat_ofNat_of_lt' (Nat.lt_of_le_of_lt hn (Nat.lt_of_le_of_lt hfits hlt))
    by_cases hcrc : cfg.checksum = true ∧ 4 ≤ size
    · -- With its trailer.
      obtain ⟨hck, h4⟩ := hcrc
      have hstored : (slotFor (size - 4) off flagCRC32CPresent).storedLen = size := by
        have hcrc : (slotFor (size - 4) off flagCRC32CPresent).hasCRC = true := by simp [Descriptor.hasCRC, slotFor, flagCRC32CPresent]
        rw [Descriptor.storedLen, hcrc, slotFor, hwords (by omega)]
        simp only [if_true, crc32TrailerLen]
        omega
      have hover : (slabSizeLast g - cfg.overhead).toNat + 4 = (slabSizeLast g).toNat := by
        simpa [Settings.overhead, hck] using hover
      exact h.accepts_slot hs hsize (by omega) hstored (by rw [hck]; decide)
    · -- Without one: the cap leaves its four bytes free only where the trailer is negotiated.
      have hstored : (slotFor size off 0).storedLen = size := by
        have hcrc : (slotFor size off 0).hasCRC = false := by simp [Descriptor.hasCRC, slotFor]
        rw [Descriptor.storedLen, hcrc, slotFor, hwords (Nat.le_refl _)]
        rfl
      refine h.accepts_slot hs hsize ?_ hstored (by simp)
      cases hck : cfg.checksum with
      | false =>
        have hover : (slabSizeLast g - cfg.overhead).toNat = (slabSizeLast g).toNat := by
          simp [Settings.overhead, hck]
        omega
      | true =>
        have hover : (slabSizeLast g - cfg.overhead).toNat + 4 = (slabSizeLast g).toNat := by
          simpa [Settings.overhead, hck] using hover
        have hshort : ¬ 4 ≤ size := fun h4 => hcrc ⟨hck, h4⟩
        omega

end Region.ArenaRules

/-! ## An attached region -/

/-- **Inbound payloads are bounded.** Whatever a slot holds, bytes it yields lie in one slab, the one of the serving class
that its offset names; nothing else is read; and the offsets accepted for a stored length are those the producing
arena's `Alloc` can return for it. -/
theorem payloadBytes_exact (data : Region.Mapping) (declared : UInt64) (l : Region.Layout) (log : List Exact)
    (hlen : 8192 ≤ data.len) (hl : Region.parseLayoutPhase2 data declared [] = .ok (l, log)) (g : Region.ArenaGeometry)
    (hg : g = l.arenaHP ∨ g = l.arenaPH) (cfg : Settings) (gen : UInt32) :
    g.offset.toNat + g.bytes.toNat ≤ data.len ∧
    (∀ d tk mem view body, classify cfg.checksum cfg.chunkingActive d = .ok (tk, false) →
      (cfg.inlet g gen).payloadBytes mem d view = .ok body → d.storedLen ≠ 0 → ∃ ci idx sc, g.InSlab d ci idx sc) ∧
    (∀ d, ∀ x ∈ (cfg.inlet g gen).slices d, x.1 ≤ x.2 ∧ x.2 ≤ g.bytes.toNat) ∧
    (∀ d mem mem' view, (∀ x < g.bytes.toNat, mem x = mem' x) →
      (cfg.inlet g gen).payloadBytes mem d view = (cfg.inlet g gen).payloadBytes mem' d view) ∧
    ∀ (t : ClassTable) mem generation id size off, t.classes = g.classes.map Region.SizeClass.toArena → size ≠ 0 →
      ((cfg.inlet g gen).Accepts size off ↔ Calls.CanAlloc t mem generation id size off) := by
  obtain ⟨hacc, -⟩ := (Region.parseLayoutPhase2_safe hlen).of_ok hl
  have hgeo := hacc.geometry
  have hrules : Region.ArenaRules g := by
    rcases hg with rfl | rfl
    · exact hgeo.arenaHP
    · exact hgeo.arenaPH
  refine ⟨?_, fun d tk mem view body _ hb hstored => hrules.payloadBytes_inSlab hb hstored,
    fun d => hrules.slices_inside, fun d mem mem' view hmem => hrules.payloadBytes_inside hmem,
    fun t mem generation id size off ht hsize => ?_⟩
  · have haph : l.arenaPH.offset.toNat = l.arenaHP.offset.toNat + l.arenaHP.bytes.toNat := hgeo.spans.arenaPH
    have hreg : l.regionSize.toNat = l.arenaPH.offset.toNat + l.arenaPH.bytes.toNat := hgeo.spans.region
    rw [hacc.length]
    rcases hg with rfl | rfl <;> omega
  · rw [hrules.accepts_iff hsize, Calls.canAlloc_iff, ht]
    exact ⟨fun h => ⟨hsize, h⟩, fun h => h.2⟩

/-- Ten bytes and a trailer, in the small layout's second slab. -/
theorem payloadBytes_exact_small : ∃ (data : Region.Mapping) (declared : UInt64) (l : Region.Layout) (log : List Exact)
    (g : Region.ArenaGeometry), 8192 ≤ data.len ∧ Region.parseLayoutPhase2 data declared [] = .ok (l, log) ∧
      g = l.arenaHP ∧ g.offset.toNat + g.bytes.toNat ≤ data.len ∧
      ∀ (t : ClassTable), t.classes = g.classes.map Region.SizeClass.toArena →
        ((Settings.inlet ⟨true, false, 0⟩ g 7).Accepts 14 64 ↔ Calls.CanAlloc t (fun _ => 0) 7 1 14 64) := by
  obtain ⟨log, h⟩ := Region.smallInput_derives
  obtain ⟨hg, ht, hf, -⟩ := (Region.deriveLayout_safe.of_ok h).1
  obtain ⟨log', hp⟩ := (Region.parse_mapping hg ht (by rw [hf]; rfl)).run []
  have hlen : 8192 ≤ (Region.smallLayout.mapping hg.regionSize_lt).len := hg.regionSize_ge
  obtain ⟨hspan, -, -, -, hexact⟩ := payloadBytes_exact (Region.smallLayout.mapping hg.regionSize_lt)
    Region.smallLayout.regionSize Region.smallLayout.stamped log' hlen hp _ (.inl rfl) ⟨true, false, 0⟩ 7
  exact ⟨_, _, _, _, _, hlen, hp, rfl, hspan, fun t htab => hexact t _ _ _ 14 64 htab (by decide)⟩

end Styx
