/-
Reclaim under any head word: the writer's books when the peer's word may read anything at
any moment.

`reclaim` frees by that word, behind two bounds. A head that passes both lies in the
window `[lastReclaimed, tail]` anyway (`credible_of_accepts`), so whoever wrote it, the
writer's books are those of a run with an honest consumer standing there.
-/
import Styx.Shm.Traced

namespace Styx

open Sequence Machine

namespace Writer

variable {w w' w₀ : Writer} {pend : Pend} {carried ref : Option SlabHandle} {m seq : UInt64} {fs : List FreeCall}
  {h : SlabHandle} {n : Nat} {f : FreeCall}

/-! ## The two bounds -/

/-- The peer's head word is past a bound: the ring would hold more than its
capacity, or the consumer would have released more than was there. -/
def Refuses (w : Writer) (maxReconcile : UInt64) : Prop :=
  w.ring.len > w.ring.capacity ∨ w.ring.tail - w.ring.len - w.lastReclaimed > maxReconcile

instance {maxReconcile : UInt64} : Decidable (w.Refuses maxReconcile) := inferInstanceAs (Decidable (_ ∨ _))

theorem head_of_len (r : Ring) : r.tail - r.len = r.head := by
  rw [Ring.len]
  grind

theorem reclaim_of_refuses (h : w.Refuses m) : w.reclaim m = w.setPoison .ringCorrupt := by
  simp only [Writer.reclaim]
  by_cases h1 : w.ring.len > w.ring.capacity
  · simp only [h1, if_true]
  · have h2 := h.resolve_left h1
    simp only [h1, h2, if_true, if_false]

theorem reclaim_of_accepts (h : ¬w.Refuses m) :
    w.reclaim m = reclaimLoop (span w.lastReclaimed w.ring.head) w := by
  obtain ⟨h1, h2⟩ := not_or.mp h
  simp only [Writer.reclaim, h1, h2, if_false]
  rw [head_of_len]
  rfl

/-- A head word inside the window, with no more than a capacity behind it. -/
structure Credible (w : Writer) (v : UInt64) : Prop where
  order : span w.lastReclaimed v ≤ span w.lastReclaimed w.ring.tail
  bounded : span v w.ring.tail ≤ w.ring.capacity.toNat

theorem credible_tail : w.Credible w.ring.tail := ⟨Nat.le_refl _, by simp⟩

/-- **A head both bounds accept is in the window.** The two distances are far too
small to add up to anything but the window's length. -/
theorem credible_of_accepts (hm : m.toNat ≤ w.ring.capacity.toNat + 1)
    (hf : span w.lastReclaimed w.ring.tail ≤ w.ring.capacity.toNat + 1) (h : ¬w.Refuses m) :
    w.Credible w.ring.head := by
  obtain ⟨h1, h2⟩ := not_or.mp h
  rw [head_of_len] at h2
  have hcap := w.ring.capacity_lt
  have hdepth : span w.ring.head w.ring.tail ≤ w.ring.capacity.toNat := by
    rw [gt_iff_lt, UInt64.lt_iff_toNat_lt] at h1
    simp only [span]
    simp only [Ring.len] at h1
    omega
  have hsteps : span w.lastReclaimed w.ring.head ≤ m.toNat := by
    rw [gt_iff_lt, UInt64.lt_iff_toNat_lt] at h2
    simp only [span]
    omega
  refine ⟨?_, hdepth⟩
  rw [span_toNat] at hdepth hsteps hf ⊢
  rw [span_toNat]
  have h3 := w.lastReclaimed.toNat_lt
  have h4 := w.ring.head.toNat_lt
  have h5 := w.ring.tail.toNat_lt
  omega

/-! ## Books that do not depend on the head -/

/-- The writer with the consumer standing at `v` and an empty record of frees. -/
def facing (w : Writer) (v : UInt64) : Writer := { w with ring := { w.ring with head := v }, frees := [] }

/-- Custody holds wherever in the window the consumer may stand. -/
structure Ledger (w : Writer) (pend : Pend) (carried : Option SlabHandle) : Prop where
  inv : ∀ v, w.Credible v → (w.facing v).Inv pend carried

theorem Inv.raise (hi : w.Inv pend carried) {v : UInt64} (hv : span w.ring.head v ≤ span w.ring.head w.ring.tail) :
    ({ w with ring := { w.ring with head := v } } : Writer).Inv pend carried := by
  have hsplit := span_add hv
  refine ⟨?_, ?_, hi.fits, hi.last, hi.clean, hi.custody, fun q hq => hi.stamped q ?_, hi.frees⟩
  · change span w.lastReclaimed v ≤ span w.lastReclaimed w.ring.tail
    by_cases he : v = w.ring.tail
    · rw [he]
    · have hne : span w.ring.head v ≠ span w.ring.head w.ring.tail := fun h => he (eq_of_span_eq h)
      have hlt : span w.ring.head v < span w.ring.head w.ring.tail := by omega
      exact Nat.le_of_lt (span_lt_of_mid hi.order hlt).1
  · have hb := hi.bounded
    simp only [Ring.Bounded] at hb
    change span v w.ring.tail ≤ w.ring.capacity.toNat
    omega
  · have hq' : span v q < span v w.ring.tail := (mem_seqs (Nat.le_of_lt (span_lt _ _))).mp hq
    exact (mem_seqs (Nat.le_of_lt (span_lt _ _))).mpr (span_lt_of_mid hv hq').1

theorem Inv.forget (hi : w.Inv pend carried) : ({ w with frees := [] } : Writer).Inv pend carried :=
  ⟨hi.order, hi.bounded, hi.fits, hi.last, hi.clean, hi.custody, hi.stamped, by simp [FreesOk]⟩

theorem Ledger.of_front (hi : (w.facing w.lastReclaimed).Inv pend carried) : w.Ledger pend carried :=
  ⟨fun _ hv => hi.raise hv.order⟩

theorem Ledger.fits (hl : w.Ledger pend carried) :
    span w.lastReclaimed w.ring.tail ≤ w.ring.capacity.toNat + pend.toList.length :=
  (hl.inv _ credible_tail).fits

theorem Ledger.custody (hl : w.Ledger pend carried) :
    Custody w.arena (carried.toList ++ pend.slab.toList ++ w.window.filterMap (w.tableAt pend)) :=
  (hl.inv _ credible_tail).custody

theorem Ledger.congr (hl : w.Ledger pend carried) (hr : w'.ring = w.ring) (ha : w'.arena = w.arena)
    (ht : w'.handleTable = w.handleTable) (hlr : w'.lastReclaimed = w.lastReclaimed) : w'.Ledger pend carried := by
  refine ⟨fun v hv => (hl.inv v ?_).congr ?_ ha ht hlr rfl⟩
  · exact ⟨by rw [← hlr, ← hr]; exact hv.order, by rw [← hr]; exact hv.bounded⟩
  · simp only [facing, hr]

/-! ## What a free may touch -/

/-- No descriptor the ring still holds past `lastReclaimed` points at this slab. -/
def Spares (w : Writer) (h : SlabHandle) : Prop :=
  ∀ q, Mem w.lastReclaimed w.ring.tail q → span q w.ring.tail ≤ w.ring.capacity.toNat →
    (w.ring.desc q).allocSeq ≠ 0 → (w.ring.desc q).payloadOffset.toNat ≠ h.offset

/-- Each of these calls freed a live slab that no unreleased descriptor points at. -/
def SparesAll (w : Writer) (fs : List FreeCall) : Prop := ∀ f ∈ fs, f.err = none ∧ w.Spares f.h

theorem SparesAll.append {gs : List FreeCall} (hf : w.SparesAll fs) (hg : w.SparesAll gs) : w.SparesAll (fs ++ gs) := by
  intro f hm
  rcases List.mem_append.mp hm with hm | hm
  · exact hf f hm
  · exact hg f hm

theorem Spares.congr (hs : w.Spares h) (hr : w'.ring = w.ring)
    (hl : w'.lastReclaimed = w.lastReclaimed) : w'.Spares h := by
  intro q hq hc hne
  rw [hr, hl] at hq
  rw [hr] at hc hne ⊢
  exact hs q hq hc hne

theorem SparesAll.congr (hs : w.SparesAll fs) (hr : w'.ring = w.ring)
    (hl : w'.lastReclaimed = w.lastReclaimed) : w'.SparesAll fs :=
  fun f hf => ⟨(hs f hf).1, (hs f hf).2.congr hr hl⟩

theorem span_back {lo hi q : UInt64} (h : Mem lo hi q) : span lo q ≤ span lo hi ∧ q ≠ hi := by
  rw [mem_iff_span] at h
  refine ⟨Nat.le_of_lt h, ?_⟩
  rintro rfl
  exact Nat.lt_irrefl _ h

theorem Ledger.spares (hl : w.Ledger pend (some h)) : w.Spares h := by
  intro q hq hc hne
  obtain ⟨hle, hqt⟩ := span_back hq
  have hi := hl.inv q ⟨hle, hc⟩
  have hmem : w.ring.desc q ∈ (w.facing q).ring.outstanding := by
    refine List.mem_map.mpr ⟨q, ?_, rfl⟩
    refine mem_seqs_span.mpr (mem_iff_span.mpr ?_)
    change span q q < span q w.ring.tail
    rw [span_self]
    exact Nat.pos_of_ne_zero fun h0 => hqt (span_eq_zero.mp h0)
  obtain ⟨g, hg, ho⟩ := hi.backed_list _ hmem hne
  rw [ho]
  refine hi.custody.offset_ne ?_
  rcases List.mem_append.mp hg with hg | hg
  · exact List.mem_append_left _ hg
  · obtain ⟨q', hq', hgq⟩ := List.mem_filterMap.mp hg
    exact List.mem_append_right _ (List.mem_filterMap.mpr ⟨q', (hi.mem_window hq').1, hgq⟩)

theorem Ledger.owns (hl : w.Ledger pend (some h)) : w.arena.Owns h :=
  hl.custody.owns h (by simp)

theorem freeSlab_of_owns (ho : w.arena.Owns h) :
    ∃ a, w.arena.free h = .ok a ∧
      w.freeSlab h = { w with arena := a, frees := w.frees ++ [⟨h, none, w.ring.outstanding⟩] } := by
  obtain ⟨sc, hf⟩ := Arena.free_of_owns ho
  refine ⟨_, hf, ?_⟩
  simp only [freeSlab, hf]

theorem Ledger.free (hl : w.Ledger none (some h)) : (w.freeSlab h).Ledger none none := by
  obtain ⟨a, hf, he⟩ := freeSlab_of_owns hl.owns
  rw [he]
  refine ⟨fun v hv => ?_⟩
  have hback : ((w.facing v).freeSlab h).Inv none none := (hl.inv v ⟨hv.order, hv.bounded⟩).freeCarried
  have he' : (w.facing v).freeSlab h =
      { w.facing v with arena := a, frees := [⟨h, none, (w.facing v).ring.outstanding⟩] } := by
    have hf' : (w.facing v).arena.free h = .ok a := hf
    simp only [freeSlab, hf']
    rfl
  rw [he'] at hback
  exact hback.forget

/-! ## Reclaim under any head -/

/-- Earlier frees are a prefix of the record. -/
def after (w : Writer) (fs : List FreeCall) : Writer := { w with frees := fs ++ w.frees }

theorem freeSlab_after : (w.after fs).freeSlab h = (w.freeSlab h).after fs := by
  have ha : (w.after fs).arena = w.arena := rfl
  unfold freeSlab
  rw [ha]
  split <;> simp [after]

theorem reclaimOne_after : (w.after fs).reclaimOne = w.reclaimOne.after fs := by
  have hh : (w.after fs).handleAt (w.after fs).lastReclaimed = w.handleAt w.lastReclaimed := rfl
  unfold Writer.reclaimOne
  rw [hh]
  split
  · rw [freeSlab_after]
    rfl
  · rfl

theorem reclaimLoop_after : ∀ {w : Writer}, reclaimLoop n (w.after fs) = (reclaimLoop n w).after fs := by
  induction n with
  | zero => intro w; rfl
  | succ n ih =>
    intro w
    simp only [reclaimLoop]
    rw [reclaimOne_after]
    exact ih

theorem mem_frees_freeSlab (hf : f ∈ (w.freeSlab h).frees) : f ∈ w.frees ∨ f.outstanding = w.ring.outstanding := by
  unfold freeSlab at hf
  split at hf <;> rcases List.mem_append.mp hf with hf | hf
  · exact .inl hf
  · rw [List.mem_singleton.mp hf]; exact .inr rfl
  · exact .inl hf
  · rw [List.mem_singleton.mp hf]; exact .inr rfl

theorem reclaimLoop_outstanding : ∀ {w : Writer} {f : FreeCall}, f ∈ (reclaimLoop n w).frees →
    f ∈ w.frees ∨ f.outstanding = w.ring.outstanding := by
  induction n with
  | zero => intro w f hf; exact .inl hf
  | succ n ih =>
    intro w f hf
    rcases ih hf with hf | hf
    · unfold Writer.reclaimOne at hf
      split at hf
      · exact mem_frees_freeSlab hf
      · exact .inl hf
    · rw [reclaimOne_ring] at hf
      exact .inr hf

theorem sparesAll_of_freesOk (hf : FreesOk fs) (hl : w.lastReclaimed = w.ring.head)
    (ho : ∀ f ∈ fs, f.outstanding = w.ring.outstanding) : w.SparesAll fs := by
  intro f hm
  obtain ⟨he, hd⟩ := hf f hm
  refine ⟨he, fun q hq _ hne => hd _ ?_ hne⟩
  rw [ho f hm]
  rw [hl] at hq
  exact List.mem_map.mpr ⟨q, mem_seqs_span.mpr hq, rfl⟩

/-- What the writer has done since `w₀`, with the ring as it was then. -/
structure Since (w₀ w : Writer) (pend : Pend) (carried : Option SlabHandle) : Prop where
  ledger : w.Ledger pend carried
  ring : w.ring = w₀.ring
  frees : ∃ fs, w.frees = w₀.frees ++ fs ∧ w.SparesAll fs
  /-- `lastReclaimed` moves to a head the writer read and both bounds accepted. -/
  accepted : w.lastReclaimed = w₀.lastReclaimed ∨ w.lastReclaimed = w₀.ring.head ∧ w₀.Credible w₀.ring.head

theorem Ledger.since (hl : w.Ledger pend carried) : Since w w pend carried :=
  ⟨hl, rfl, ⟨[], by simp, by simp [SparesAll]⟩, .inl rfl⟩

theorem Since.congr (hs : Since w₀ w pend carried) (hr : w'.ring = w.ring) (ha : w'.arena = w.arena)
    (ht : w'.handleTable = w.handleTable) (hl : w'.lastReclaimed = w.lastReclaimed) (hf : w'.frees = w.frees) :
    Since w₀ w' pend carried := by
  obtain ⟨fs, hfs, hsp⟩ := hs.frees
  exact ⟨hs.ledger.congr hr ha ht hl, hr.trans hs.ring, ⟨fs, hf.trans hfs, hsp.congr hr hl⟩, by
    rw [hl]; exact hs.accepted⟩

theorem Since.free (hs : Since w₀ w none (some h)) : Since w₀ (w.freeSlab h) none none := by
  obtain ⟨fs, hfs, hsp⟩ := hs.frees
  have hspare := hs.ledger.spares
  have hl := hs.ledger.free
  obtain ⟨a, -, he⟩ := freeSlab_of_owns hs.ledger.owns
  rw [he] at hl ⊢
  refine ⟨hl, hs.ring, ⟨fs ++ [⟨h, none, w.ring.outstanding⟩], ?_, ?_⟩, hs.accepted⟩
  · change w.frees ++ _ = _
    rw [hfs, List.append_assoc]
  · refine SparesAll.append (hsp.congr rfl rfl) fun f hf => ?_
    rw [List.mem_singleton.mp hf]
    exact ⟨rfl, hspare.congr rfl rfl⟩

theorem Since.credible (hs : Since w₀ w pend carried) (h : w.Credible w.ring.head) : w₀.Credible w₀.ring.head := by
  rcases hs.accepted with hl | ⟨-, hc⟩
  · have hr := hs.ring
    exact ⟨by rw [← hl, ← hr]; exact h.order, by rw [← hr]; exact h.bounded⟩
  · exact hc

theorem Spares.mono (hs : w.Spares h) (hr : w'.ring = w.ring)
    (hl : span w.lastReclaimed w'.lastReclaimed ≤ span w.lastReclaimed w.ring.tail) : w'.Spares h := by
  intro q hq hc hne
  rw [hr] at hq hc hne ⊢
  refine hs q ?_ hc hne
  rw [mem_iff_span] at hq ⊢
  exact (span_lt_of_mid hl hq).1

theorem after_forget (w : Writer) : w = (w.facing w.ring.head).after w.frees := by
  simp [facing, after]

theorem Since.settle (hs : Since w₀ w pend carried) (hc : w.Credible w.ring.head) {pend' : Pend}
    (hi : w'.Inv pend' carried) (hl : w'.lastReclaimed = w.ring.head) (hr : w'.ring = w.ring)
    (ho : ∀ f ∈ w'.frees, f.outstanding = w.ring.outstanding) : Since w₀ (w'.after w.frees) pend' carried := by
  obtain ⟨fs, hfs, hsp⟩ := hs.frees
  refine ⟨.of_front ?_, hr.trans hs.ring, ⟨fs ++ w'.frees, ?_, ?_⟩, .inr ⟨?_, hs.credible hc⟩⟩
  · have hhead : w'.lastReclaimed = w'.ring.head := by rw [hl, hr]
    refine hi.forget.raise ?_
    change span w'.ring.head w'.lastReclaimed ≤ _
    rw [hhead, span_self]
    exact Nat.zero_le _
  · change w.frees ++ w'.frees = _
    rw [hfs, List.append_assoc]
  · refine SparesAll.append (fun f hf => ⟨(hsp f hf).1, (hsp f hf).2.mono hr ?_⟩) ?_
    · change span w.lastReclaimed w'.lastReclaimed ≤ _
      rw [hl]
      exact hc.order
    · have hsp' : w'.SparesAll w'.frees :=
        sparesAll_of_freesOk hi.frees (by rw [hl, hr]) fun f hf => by rw [hr]; exact ho f hf
      exact hsp'.congr rfl rfl
  · rw [← hs.ring]
    exact hl

theorem Ledger.credible (hl : w.Ledger pend carried) (hm : m.toNat ≤ w.ring.capacity.toNat + 1)
    (hr : ¬w.Refuses m) : w.Credible w.ring.head := by
  refine credible_of_accepts hm ?_ hr
  have hf := hl.fits
  cases pend with
  | none => exact Nat.le_trans hf (Nat.le_succ _)
  | some p => exact hf

/-- **Reclaim keeps the ledger whatever the head reads**: refused, it does
nothing; accepted, it is the reclaim of an honest consumer standing there. -/
theorem Since.reclaim (hs : Since w₀ w pend carried) (hm : m.toNat ≤ w.ring.capacity.toNat + 1) :
    Since w₀ (w.reclaim m) pend carried := by
  by_cases hr : w.Refuses m
  · rw [reclaim_of_refuses hr]
    exact hs.congr rfl rfl rfl rfl rfl
  have hc := hs.ledger.credible hm hr
  obtain ⟨h1, h2, h3⟩ := (hs.ledger.inv _ hc).reclaimLoop (n := span w.lastReclaimed w.ring.head) rfl
  rw [reclaim_of_accepts hr, after_forget w, reclaimLoop_after]
  exact hs.settle hc h1 h2 h3 fun f hf => (reclaimLoop_outstanding hf).resolve_left (by simp [facing])

theorem Since.closed : Closed fun w c => Since w₀ w none c where
  report _ _ hs := hs.congr rfl rfl rfl rfl rfl
  pending _ hs := hs.congr rfl rfl rfl rfl rfl
  reclaim hs := hs.reclaim (Nat.le_succ _)
  alloc hs ha :=
    ⟨⟨fun v hv => (hs.ledger.inv v ⟨hv.order, hv.bounded⟩).alloc ha⟩, hs.ring,
      hs.frees.imp fun _ h => ⟨h.1, h.2.congr rfl rfl⟩, hs.accepted⟩
  store off bytes hs :=
    ⟨⟨fun v hv => (hs.ledger.inv v ⟨hv.order, hv.bounded⟩).store off bytes⟩, hs.ring,
      hs.frees.imp fun _ h => ⟨h.1, h.2.congr rfl rfl⟩, hs.accepted⟩
  free hs := hs.free

/-! ## Pushing and publishing under any head -/

theorem Ledger.push {c : Option SlabHandle} {d : Descriptor} {r : Ring} (hl : w.Ledger none carried)
    (hs : carried.toList = c.toList ++ ref.toList) (hd : DescOK d ref) (hp : w.ring.push d = .ok r) :
    ({ w with ring := r } : Writer).Ledger (some (w.ring.tail, ref)) c := by
  obtain ⟨-, rfl⟩ := Ring.push_ok hp
  refine ⟨fun v hv => ?_⟩
  have hcap := w.ring.capacity_lt
  have hf := hl.fits
  simp only [Option.toList_none, List.length_nil, Nat.add_zero] at hf
  have hlr : span w.lastReclaimed (w.ring.tail + 1) = span w.lastReclaimed w.ring.tail + 1 := span_succ (by omega)
  have horder : span w.lastReclaimed v ≤ span w.lastReclaimed (w.ring.tail + 1) := hv.order
  have hbound : span v (w.ring.tail + 1) ≤ w.ring.capacity.toNat := hv.bounded
  by_cases he : v = w.ring.tail + 1
  · -- the consumer stands past the frame just pushed
    subst he
    have hi := hl.inv w.ring.tail credible_tail
    have hlt : span w.ring.tail w.ring.tail < w.ring.capacity.toNat := by
      rw [span_self]
      exact w.ring.capacity_pos
    have hpush := hi.push (c := c) hs hd (Ring.push_of_lt hlt)
    refine Inv.raise hpush ?_
    exact Nat.le_refl _
  · have hne : span w.lastReclaimed v ≠ span w.lastReclaimed (w.ring.tail + 1) := fun h => he (eq_of_span_eq h)
    have hle : span w.lastReclaimed v ≤ span w.lastReclaimed w.ring.tail := by omega
    have hsucc : span v (w.ring.tail + 1) = span v w.ring.tail + 1 := span_succ_of_ne he
    have hi := hl.inv v ⟨hle, by omega⟩
    have hlt : span v w.ring.tail < w.ring.capacity.toNat := by omega
    exact hi.push hs hd (Ring.push_of_lt hlt)

theorem reclaim_after : (w.after fs).reclaim m = (w.reclaim m).after fs := by
  by_cases hr : w.Refuses m
  · rw [reclaim_of_refuses hr, reclaim_of_refuses (show (w.after fs).Refuses m from hr)]
    rfl
  · rw [reclaim_of_accepts hr, reclaim_of_accepts (show ¬(w.after fs).Refuses m from hr)]
    exact reclaimLoop_after

theorem published_after :
    (w.after fs).published seq ref = (w.published seq ref).after fs := by
  have hr : (w.after fs).reclaim ((w.after fs).ring.capacity + 1) = (w.reclaim (w.ring.capacity + 1)).after fs :=
    reclaim_after
  cases ref with
  | none => simp only [Writer.published, hr]; rfl
  | some h =>
    simp only [Writer.published, hr]
    change (if ((w.reclaim (w.ring.capacity + 1)).setSlot seq (some h)).lastReclaimed = seq + 1 then
      ((((w.reclaim (w.ring.capacity + 1)).setSlot seq (some h)).after fs).freeSlab h).setSlot seq none
      else ((w.reclaim (w.ring.capacity + 1)).setSlot seq (some h)).after fs) = _
    rw [freeSlab_after]
    split <;> rfl

theorem published_lastReclaimed :
    (w.published seq ref).lastReclaimed = (w.reclaim (w.ring.capacity + 1)).lastReclaimed := by
  cases ref with
  | none => rfl
  | some h =>
    simp only [Writer.published]
    split
    · change (freeSlab _ h).lastReclaimed = _
      unfold freeSlab
      split <;> rfl
    · rfl

theorem published_outstanding (hr : ¬w.Refuses (w.ring.capacity + 1))
    (hf : f ∈ (w.published seq ref).frees) : f ∈ w.frees ∨ f.outstanding = w.ring.outstanding := by
  have hring : (w.reclaim (w.ring.capacity + 1)).ring = w.ring := Keeps.reclaim.ring
  have hloop : f ∈ (w.reclaim (w.ring.capacity + 1)).frees → f ∈ w.frees ∨ f.outstanding = w.ring.outstanding := by
    rw [reclaim_of_accepts hr]
    exact reclaimLoop_outstanding
  cases ref with
  | none => exact hloop hf
  | some h =>
    simp only [Writer.published] at hf
    split at hf
    · rcases mem_frees_freeSlab hf with hf | hf
      · exact hloop hf
      · right
        rw [hf]
        exact congrArg Ring.outstanding hring
    · exact hloop hf

theorem succ_capacity (r : Ring) : (r.capacity + 1).toNat = r.capacity.toNat + 1 := by
  have := r.capacity_lt
  rw [UInt64.toNat_add]
  simp only [UInt64.reduceToNat]
  omega

theorem Ledger.published (hl : w.Ledger (some (seq, ref)) carried)
    (hr : ¬w.Refuses (w.ring.capacity + 1)) : Since w (w.published seq ref) none carried := by
  have hm := Nat.le_of_eq (succ_capacity w.ring)
  have hc := hl.credible hm hr
  have hi := hl.inv _ hc
  have hrec := hi.reclaim (m := w.ring.capacity + 1) (by
    rw [succ_capacity]
    exact Nat.le_refl _)
  have hpub : w.published seq ref = ((w.facing w.ring.head).published seq ref).after w.frees := by
    rw [← published_after, ← after_forget]
  rw [hpub]
  refine hl.since.settle hc hi.published ?_ ?_ fun f hf => ?_
  · rw [published_lastReclaimed]
    exact hrec.2.1
  · exact Keeps.published.ring
  · exact (published_outstanding (show ¬(w.facing w.ring.head).Refuses _ from hr) hf).resolve_left (by simp [facing])

end Writer

end Styx
