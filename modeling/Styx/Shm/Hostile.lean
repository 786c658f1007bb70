/-
The writer against a hostile peer, over whole runs.

Under any head words the ledger carries the writer's books from step to step, with one
exception. `published` records its frame also after its reclaim refused the head, and when
the window is one longer than the table the record overwrites the slot of the oldest slab.
The region is poisoned, but the next build reclaims before it looks at the poison word,
and a head that is credible again then frees the new frame's slab as if it were the old
one's (`freed_while_outstanding`). `Guard` is the condition that no frame is built after
such a refusal.
-/
import Styx.Shm.Ledger
import Styx.Shm.Reserve

namespace Styx

open Sequence Machine

/-! ## Runs against any head words -/

/-- A writer and a head word anyone may store to. -/
structure Raid where
  sys : Sys
  /-- A post-push reclaim has refused the head it read. -/
  overrun : Bool

namespace Raid

open Writer

inductive Act
  /-- The head word reads `v` from here on. -/
  | head (v : UInt64)
  | act (a : Sys.Act)

def overruns (s : Sys) : Sys.Act → Bool
  | .publish =>
    match s.pc with
    | .pushed _ _ _ => decide (s.w.Refuses (s.w.ring.capacity + 1))
    | _ => false
  | _ => false

def step (s : Raid) : Act → Option Raid
  | .head v => some { s with sys := { s.sys with w := { s.sys.w with ring := { s.sys.w.ring with head := v } } } }
  | .act a =>
    match s.sys.step a with
    | some t => some ⟨t, s.overrun || overruns s.sys a⟩
    | none => none

def Builds (s : Sys) : Sys.Act → Prop
  | .data _ _ => True
  | .retry _ => s.stuck.any (·.d.isNone)
  | _ => False

/-- No data frame is built once a post-push reclaim has refused the head. -/
def Guard (s : Raid) : Act → Prop
  | .head _ => True
  | .act a => Builds s.sys a → s.overrun = false

instance {s : Sys} : ∀ {a : Sys.Act}, Decidable (Builds s a)
  | .data _ _ => inferInstanceAs (Decidable True)
  | .retry _ => inferInstanceAs (Decidable (_ = true))
  | .lifecycle _ | .push | .publish | .stop | .advance | .abandon | .poison _ | .shutdown =>
    inferInstanceAs (Decidable False)

instance {s : Raid} : ∀ {a : Act}, Decidable (Guard s a)
  | .head _ => inferInstanceAs (Decidable True)
  | .act _ => inferInstanceAs (Decidable (_ → _))

structure Fresh (s : Raid) : Prop where
  start : s.sys.Start
  empty : s.sys.w.lastReclaimed = s.sys.w.ring.tail
  settled : s.overrun = false

/-! ### What one step did -/

/-- The frees of a step, and where it left `lastReclaimed`. -/
structure Moved (w₀ w : Writer) : Prop where
  /-- Every call freed a live slab that no descriptor from `lastReclaimed` on points at. -/
  frees : ∃ fs, w.frees = w₀.frees ++ fs ∧ w.SparesAll fs
  /-- `lastReclaimed` stays, or is the head word just read, which both bounds accept. -/
  accepted : w.lastReclaimed = w₀.lastReclaimed ∨ w.lastReclaimed = w₀.ring.head ∧ w₀.Credible w₀.ring.head

variable {w w' w₀ : Writer} {carried c ref : Option SlabHandle} {d : Descriptor} {pend : Pend} {pc : Pc}
  {seq : UInt64} {a : Sys.Act} {s₀ : Raid}

theorem Moved.of_quiet (hl : w'.lastReclaimed = w.lastReclaimed) (hf : w'.frees = w.frees) :
    Moved w w' :=
  ⟨⟨[], by simp [hf], by simp [SparesAll]⟩, .inl hl⟩

theorem Moved.of_since (h : Since w₀ w pend carried) :
    Moved w₀ w :=
  ⟨h.frees, h.accepted⟩

theorem Moved.freeSlab? (ho : ∀ h ∈ c, w.arena.Owns h ∧ w.Spares h) :
    Moved w (w.freeSlab? c) := by
  cases c with
  | none => exact .of_quiet rfl rfl
  | some h =>
    obtain ⟨howns, hsp⟩ := ho h rfl
    obtain ⟨a, -, he⟩ := freeSlab_of_owns howns
    rw [Writer.freeSlab?, he]
    refine ⟨⟨[⟨h, none, w.ring.outstanding⟩], rfl, fun f hf => ?_⟩, .inl rfl⟩
    rw [List.mem_singleton.mp hf]
    exact ⟨rfl, hsp.congr rfl rfl⟩

theorem Moved.report (h : Moved w₀ w) (i : Intent) (e : Option SendErr) : Moved w₀ (w.report i e) :=
  ⟨h.frees.imp fun _ hf => ⟨hf.1, hf.2.congr rfl rfl⟩, h.accepted⟩

theorem Moved.of_setPoison {cause : PoisonCause} (h : Moved (w₀.setPoison cause) w) : Moved w₀ w :=
  ⟨h.frees, h.accepted.imp_right fun ha => ⟨ha.1, ha.2.order, ha.2.bounded⟩⟩

/-! ### Before an overrun -/

/-- The ledger, by the writer's program counter. -/
def LedgerAt (s : Sys) : Pc → Prop
  | .idle | .stopped => s.w.Ledger none s.stuckSlab
  | .ready c d => s.stuck = none ∧ c.d = some d ∧ DescOK d c.slab ∧ s.w.Ledger none c.slab
  | .readyLifecycle _ d => d.allocSeq = 0 ∧ s.w.Ledger none s.stuckSlab
  | .pushed seq ref _ => s.w.lastReclaimed ≠ s.w.ring.tail ∧ s.w.Ledger (some (seq, ref)) s.stuckSlab

structure Booked (s : Sys) : Prop where
  stuck : ∀ c ∈ s.stuck, c.OK
  ledger : LedgerAt s s.pc

theorem Fresh.booked {s : Raid} (h : s.Fresh) : Booked s.sys := by
  have hi := h.start.inv
  have hs := hi.slabs
  rw [h.start.pc] at hs
  refine ⟨hi.stuck, ?_⟩
  rw [h.start.pc]
  refine .of_front ((hs.forget).raise ?_)
  have ho := h.start.order
  rw [h.empty, span_self, Nat.le_zero, span_eq_zero] at ho
  change span s.sys.w.ring.head s.sys.w.lastReclaimed ≤ _
  rw [h.empty]

variable {s t : Sys}

theorem pushed_ne {r : Ring}
    (hl : w.Ledger none carried) (hr : w.ring.push d = .ok r) : w.lastReclaimed ≠ r.tail := by
  obtain ⟨-, rfl⟩ := Ring.push_ok hr
  have hcap := w.ring.capacity_lt
  have hf := hl.fits
  simp only [Option.toList_none, List.length_nil, Nat.add_zero] at hf
  have hs : span w.lastReclaimed (w.ring.tail + 1) = span w.lastReclaimed w.ring.tail + 1 := span_succ (by omega)
  intro he
  change w.lastReclaimed = w.ring.tail + 1 at he
  rw [← he, span_self] at hs
  omega

/-- The books as `Sys.BooksAt` has them. -/
def Ledgered (pend : Pend) (c : Option SlabHandle) (w : Writer) : Prop :=
  (pend ≠ none → w.lastReclaimed ≠ w.ring.tail) ∧ w.Ledger pend c

theorem ledgerAt_iff : LedgerAt s pc ↔ s.BooksAt Ledgered pc := by
  cases pc <;> simp [LedgerAt, Sys.BooksAt, Ledgered]

theorem Booked.mapWriter (hb : Booked s) (hlr : w.lastReclaimed = s.w.lastReclaimed)
    (ht : w.ring.tail = s.w.ring.tail) (hw : ∀ pend carried, s.w.Ledger pend carried → w.Ledger pend carried) :
    Booked { s with w } :=
  ⟨hb.stuck, ledgerAt_iff.mpr ((ledgerAt_iff.mp hb.ledger).mapWriter fun _ _ h =>
    ⟨fun hp => by rw [hlr, ht]; exact h.1 hp, hw _ _ h.2⟩)⟩

theorem ledger_head (hl : w.Ledger pend carried)
    (v : UInt64) : ({ w with ring := { w.ring with head := v } } : Writer).Ledger pend carried :=
  ⟨fun u hu => hl.inv u ⟨hu.order, hu.bounded⟩⟩

theorem ledger_freeSlab? (hl : w.Ledger none c) :
    (w.freeSlab? c).Ledger none none ∧ Moved w (w.freeSlab? c) := by
  cases c with
  | none => exact ⟨hl, .of_quiet rfl rfl⟩
  | some h =>
    refine ⟨hl.free, .freeSlab? ?_⟩
    rintro h' ⟨⟩
    exact ⟨hl.owns, hl.spares⟩

theorem Ledgered.booking : Sys.Booking Ledgered (fun pend c w' => Ledgered pend c w' ∧ Moved w w') w where
  quiet hr ha ht hl hf h := ⟨⟨fun hp => by rw [hl, hr]; exact h.1 hp, h.2.congr hr ha ht hl⟩, .of_quiet hl hf⟩
  free i e hm h := by
    rcases hm with rfl | ⟨-, rfl⟩
    · obtain ⟨hl, hm⟩ := ledger_freeSlab? h.2
      exact ⟨⟨by simp, hl.congr rfl rfl rfl rfl⟩, hm.report i e⟩
    · obtain ⟨hl, hm⟩ := ledger_freeSlab? (w := w.setPoison .ringCorrupt) (h.2.congr rfl rfl rfl rfl)
      exact ⟨⟨by simp, hl.congr rfl rfl rfl rfl⟩, hm.of_setPoison.report i e⟩
  build h he := by
    have hw := Since.closed.build h.2.since he
    exact ⟨⟨by simp, hw.ledger⟩, .of_since hw⟩
  push h hs hd hr := ⟨⟨fun _ => (pushed_ne h.2 hr : w.lastReclaimed ≠ _), h.2.push hs hd hr⟩, .of_quiet rfl rfl⟩
  advance _ h := ⟨⟨h.1, ledger_head h.2 _⟩, .of_quiet rfl rfl⟩

/-! ### After an overrun -/

def hand (s : Sys) : Option SlabHandle :=
  match s.pc with
  | .ready c _ => c.slab
  | _ => s.stuckSlab

/-- After an overrun the table is not to be trusted; the slab in hand still is. -/
structure Halted (s : Sys) : Prop where
  poisoned : s.w.poison.isSome
  settled : ∀ seq ref i, s.pc ≠ .pushed seq ref i
  alone : ∀ c d, s.pc = .ready c d → s.stuck = none
  owned : ∀ h ∈ hand s, s.w.arena.Owns h ∧ s.w.Spares h

theorem published_of_refuses (hne : w.lastReclaimed ≠ seq + 1)
    (hr : w.Refuses (w.ring.capacity + 1)) : w.published seq ref = (w.setPoison .ringCorrupt).setSlot seq ref := by
  cases ref with
  | none => simp only [Writer.published, reclaim_of_refuses hr]
  | some h =>
    simp only [Writer.published, reclaim_of_refuses hr]
    exact if_neg hne

theorem Booked.overrun {i : Intent} (hb : Booked s)
    (hpc : s.pc = .pushed seq ref i) (hr : s.w.Refuses (s.w.ring.capacity + 1)) :
    Halted { s with w := (s.w.published seq ref).report i none, pc := .idle } ∧
      Moved s.w ((s.w.published seq ref).report i none) := by
  have hs := hb.ledger
  rw [hpc] at hs
  obtain ⟨hne, hl⟩ := hs
  have hlast : seq + 1 = s.w.ring.tail := (hl.inv _ credible_tail).last (seq, ref) rfl
  rw [published_of_refuses (by rw [hlast]; exact hne) hr]
  refine ⟨⟨by simp [Writer.report, setSlot, setPoison], by simp, by simp, fun h hh => ?_⟩, .of_quiet rfl rfl⟩
  change h ∈ s.stuckSlab at hh
  rw [Option.mem_def] at hh
  rw [hh] at hl
  exact ⟨hl.owns, hl.spares.congr rfl rfl⟩

theorem freeSlab_poison {h : SlabHandle} : (w.freeSlab h).poison = w.poison := by
  unfold Writer.freeSlab
  split <;> rfl

theorem freeSlab?_poison : (w.freeSlab? c).poison = w.poison := by
  cases c with
  | none => rfl
  | some h => exact freeSlab_poison

theorem Halted.freeSlab? {stuck : Option Carry} (hh : Halted s)
    (hc : ∀ h ∈ c, h ∈ hand s) (hw : w' = s.w.freeSlab? c) (hst : stuck = none)
    (hpc : pc = .idle ∨ pc = .stopped) (i : Intent) (e : Option SendErr) :
    Halted ⟨w'.report i e, stuck, pc⟩ ∧ Moved s.w (w'.report i e) := by
  have hm : Moved s.w (s.w.freeSlab? c) := .freeSlab? fun h hm => hh.owned h (hc h hm)
  subst hw hst
  refine ⟨⟨?_, ?_, ?_, ?_⟩, hm.report i e⟩
  · change (s.w.freeSlab? c).poison.isSome
    rw [freeSlab?_poison]
    exact hh.poisoned
  · rcases hpc with rfl | rfl <;> simp
  · simp
  · rcases hpc with rfl | rfl <;> simp [hand, Sys.stuckSlab]

theorem prePublishFault_of_poison (h : w.poison.isSome) : ∃ e, w.prePublishFault = some e := by
  obtain ⟨cause, hc⟩ := Option.isSome_iff_exists.mp h
  exact ⟨.poisoned cause, by simp only [Writer.prePublishFault, hc]⟩

/-- What is left after an overrun: frames are refused and give their slab back. -/
theorem Halted.step (hh : Halted s) (hb : ¬Builds s a) (h : s.step a = some t) : Halted t ∧ Moved s.w t.w := by
  obtain ⟨e, hfault⟩ := prePublishFault_of_poison hh.poisoned
  have hstuck : ∀ {pc}, s.pc = pc → (∀ c d, pc ≠ .ready c d) → ∀ g ∈ s.stuckSlab, s.w.arena.Owns g ∧ s.w.Spares g := by
    rintro pc rfl hne g hg
    refine hh.owned g ?_
    unfold hand
    split
    · next hpc => exact absurd hpc (hne _ _)
    · exact hg
  cases Sys.step_moves h with
  | lifecycle hpc hl hx | lifecycleFailed hpc hl hx =>
    obtain ⟨hq, -⟩ := buildLifecycle_quiet hl hx
    refine ⟨⟨by rw [hq.poison]; exact hh.poisoned, by simp, by simp, fun g hg => ?_⟩,
      .of_quiet hq.lastReclaimed hq.frees⟩
    obtain ⟨ho, hsp⟩ := hstuck hpc (by simp) g hg
    exact ⟨by rw [hq.arena]; exact ho, hsp.congr hq.ring hq.lastReclaimed⟩
  | abandoned hpc hp =>
    cases hp with
    | data => exact absurd trivial hb
    | retry hst => exact hh.freeSlab? (by simp [hand, hpc, Sys.stuckSlab, hst]) rfl rfl (.inl rfl) _ _
  | resumed hpc hp =>
    cases hp with
    | data => exact absurd trivial hb
    | retry hst =>
      refine ⟨⟨hh.poisoned, by simp, by simp, fun g hg => hh.owned g ?_⟩, .of_quiet rfl rfl⟩
      simpa [hand, hpc, Sys.stuckSlab, hst] using hg
  | failed _ hp hd | waits _ hp hd | built _ hp hd =>
    cases hp with
    | data => exact absurd trivial hb
    | retry hst => exact absurd (by simp [Builds, hst, hd]) hb
  | @refused c d w e hpc hm =>
    obtain ⟨hh', hmv⟩ := hh.freeSlab? (c := c.slab) (by simp [hand, hpc]) rfl (hh.alone c d hpc) (.inl rfl) c.i (some e)
    rcases hm with rfl | ⟨hup, -⟩
    · exact ⟨hh', hmv⟩
    · rw [hup] at hfault
      cases hfault
  | @full c d hpc =>
    refine ⟨⟨hh.poisoned, by simp, by simp, fun g hg => hh.owned g ?_⟩, .of_quiet rfl rfl⟩
    simpa [hand, hpc, Sys.stuckSlab] using hg
  | pushed _ hup | pushedLifecycle _ hup => rw [hup] at hfault; cases hfault
  | refusedLifecycle e hpc hm =>
    have ho := hstuck hpc (by simp)
    rcases hm with rfl | ⟨hup, -⟩
    · exact ⟨⟨hh.poisoned, by simp, by simp, fun g hg => ⟨(ho g hg).1, (ho g hg).2.congr rfl rfl⟩⟩, .of_quiet rfl rfl⟩
    · rw [hup] at hfault
      cases hfault
  | @publish seq ref i hpc => exact absurd hpc (hh.settled seq ref i)
  | drained hpc hst => exact hh.freeSlab? (by simp [hand, hpc, Sys.stuckSlab, hst]) rfl rfl (.inr rfl) _ _
  | stop hpc hst =>
    refine ⟨⟨hh.poisoned, by simp, by simp, fun g hg => ?_⟩, .of_quiet rfl rfl⟩
    simp [hand, Sys.stuckSlab, hst] at hg
  | advance => exact ⟨⟨hh.poisoned, hh.settled, hh.alone, hh.owned⟩, .of_quiet rfl rfl⟩
  | @abandon c hc =>
    refine ⟨⟨hh.poisoned, hh.settled, fun c' d' hpc => ?_, fun g hg => hh.owned g ?_⟩, .of_quiet rfl rfl⟩
    · rw [hh.alone c' d' hpc] at hc
      cases hc
    · simp only [hand, Sys.stuckSlab, hc] at hg ⊢
      cases hpc : s.pc <;> simpa [hpc] using hg
  | poison cause | shutdown =>
    refine ⟨⟨?_, hh.settled, hh.alone, fun g hg => ⟨(hh.owned g hg).1, (hh.owned g hg).2.congr rfl rfl⟩⟩,
      .of_quiet rfl rfl⟩
    simp [setPoison, hh.poisoned]

/-! ### Over a run -/

/-- Every step short of an overrun keeps the books; the overrun loses only the table. -/
theorem Booked.step (hb : Booked s) (h : s.step a = some t) :
    (if overruns s a then Halted t else Booked t) ∧ Moved s.w t.w := by
  by_cases hne : a = .publish
  · subst hne
    have hs := hb.ledger
    cases Sys.step_moves h with
    | publish hpc =>
      simp only [overruns, hpc, decide_eq_true_eq]
      split
      · next hr => exact hb.overrun hpc hr
      · next hr =>
        rw [hpc] at hs
        have hsince := hs.2.published hr
        exact ⟨⟨hb.stuck, hsince.ledger.congr rfl rfl rfl rfl⟩, (Moved.of_since hsince).report _ _⟩
    | abandoned _ hp | resumed _ hp | failed _ hp | waits _ hp | built _ hp => cases hp
  · obtain ⟨hok, hbooks⟩ := Ledgered.booking.step hb.stuck (ledgerAt_iff.mp hb.ledger) hne h
    have hboth : t.BooksAt Ledgered t.pc ∧ Moved s.w t.w := by
      revert hbooks
      cases t.pc <;> simp +contextual [Sys.BooksAt]
    have hover : overruns s a = false := by cases a <;> first | rfl | exact absurd rfl hne
    rw [hover]
    exact ⟨⟨hok, ledgerAt_iff.mpr hboth.1⟩, hboth.2⟩

/-- The books before an overrun, what is left of them after. -/
def Sound (s : Raid) : Prop := if s.overrun then Halted s.sys else Booked s.sys

theorem Sound.step {s t : Raid} {a : Act} (hs : s.Sound) (hg : Guard s a) (h : s.step a = some t) :
    t.Sound ∧ Moved s.sys.w t.sys.w := by
  cases a with
  | head v =>
    cases h
    refine ⟨?_, .of_quiet rfl rfl⟩
    simp only [Sound] at hs ⊢
    split at hs
    · next ho =>
      rw [if_pos ho]
      exact ⟨hs.poisoned, hs.settled, hs.alone, hs.owned⟩
    · next ho =>
      rw [if_neg ho]
      exact hs.mapWriter rfl rfl fun _ _ hl => ledger_head hl v
  | act a =>
    simp only [Raid.step] at h
    split at h
    · next u hu =>
      cases h
      simp only [Sound] at hs ⊢
      split at hs
      · next ho =>
        obtain ⟨hh, hm⟩ := hs.step (fun hb => by simp [hg hb] at ho) hu
        exact ⟨by simpa [ho] using hh, hm⟩
      · next ho =>
        have ho' : s.overrun = false := by simpa using ho
        simpa [ho'] using hs.step hu
    · cases h

theorem Fresh.sound {s : Raid} (h0 : s₀.Fresh) (hr : Reach Raid.step Guard s₀ s) : s.Sound := by
  refine hr.invariant ?_ fun hs hg h => (hs.step hg h).1
  simp only [Sound, h0.settled]
  exact h0.booked

theorem Fresh.frees {s : Raid} (h0 : s₀.Fresh) (hr : Reach Raid.step Guard s₀ s) : ∀ f ∈ s.sys.w.frees, f.err = none := by
  induction hr with
  | refl => simp [h0.start.frees]
  | tail hr hg hs ih =>
    obtain ⟨fs, hf, hsp⟩ := ((h0.sound hr).step hg hs).2.frees
    intro f hm
    rw [hf] at hm
    rcases List.mem_append.mp hm with hm | hm
    · exact ih f hm
    · exact (hsp f hm).1

/-! ### Poisoned, nothing is published -/

theorem poison_freed : Freed fun w => w.poison.isSome where
  free _ h := by rw [freeSlab_poison]; exact h
  poison _ _ := by simp [setPoison]
  blind _ _ _ _ _ h := h

theorem poison_closed : Closed fun w _ => w.poison.isSome where
  report _ _ h := h
  pending _ h := h
  reclaim h := poison_freed.reclaim h _
  alloc h _ := h
  store _ _ h := h
  free h := poison_freed.free _ h

/-- **A poisoned region takes no descriptor**, and stays poisoned. -/
theorem step_poisoned (hp : s.w.poison.isSome) (h : s.step a = some t) :
    t.w.poison.isSome ∧ t.w.ring.tail = s.w.ring.tail := by
  have hrests : ∀ {w : Writer}, s.w.Rests w → w.poison.isSome ∧ w.ring.tail = s.w.ring.tail := fun hw =>
    ⟨hw _ poison_freed hp, congrArg Ring.tail (hw _ Keeps.freed Keeps.refl).ring⟩
  cases Sys.seen_step h with
  | rest _ hw | same hw => exact hrests hw
  | resumed | advance | abandon => exact ⟨hp, rfl⟩
  | tried _ _ _ hx | built _ _ _ hx =>
    exact ⟨poison_closed.build hp hx, congrArg Ring.tail (build_frame hx).1.ring⟩
  | lifecycle _ _ hl hx => exact hrests (.buildLifecycle hl hx)
  | pushed hup =>
    obtain ⟨e, hfault⟩ := prePublishFault_of_poison hp
    rw [hup] at hfault
    cases hfault

theorem reach_poisoned {s t : Raid} (hp : s.sys.w.poison.isSome) (hr : Reach Raid.step Any s t) :
    t.sys.w.poison.isSome ∧ t.sys.w.ring.tail = s.sys.w.ring.tail := by
  induction hr with
  | refl => exact ⟨hp, rfl⟩
  | tail _ _ hs ih =>
    next u v a _ _ =>
    cases a with
    | head x =>
      cases hs
      exact ih
    | act a =>
      simp only [Raid.step] at hs
      split at hs
      · next w hw =>
        cases hs
        obtain ⟨h1, h2⟩ := step_poisoned ih.1 hw
        exact ⟨h1, h2.trans ih.2⟩
      · cases hs

/-! ### The two results -/

/-- **Honest heads are never refused**, at either call site. -/
theorem honest_accepted {s₀ : Sys} (h0 : s₀.Start) (hr : Reach Sys.step Any s₀ s) :
    (s.pc = .idle → ¬s.w.Refuses s.w.ring.capacity) ∧
      ∀ seq ref i, s.pc = .pushed seq ref i → ¬s.w.Refuses (s.w.ring.capacity + 1) := by
  have hi := (h0.reach hr).slabs
  have key : ∀ {pend carried} {m : UInt64}, s.w.Inv pend carried →
      s.w.ring.capacity.toNat + pend.toList.length ≤ m.toNat → ¬s.w.Refuses m := by
    intro pend carried m hw hm
    have hb := hw.bounded
    have ho := hw.order
    have hf := hw.fits
    simp only [Ring.Bounded, span] at hb ho hf
    rw [Refuses, not_or, head_of_len, gt_iff_lt, gt_iff_lt, UInt64.lt_iff_toNat_lt, UInt64.lt_iff_toNat_lt, Ring.len]
    omega
  refine ⟨fun hpc => ?_, fun seq ref i hpc => ?_⟩ <;> rw [hpc] at hi
  · exact key hi (by simp)
  · exact key hi (by rw [succ_capacity]; simp)

/-- **Reclaim is safe and exact.** A refused head changes nothing but the poison and shutdown words, and a poisoned region is
never published to again. Whatever the head reads, where no frame is built after a post-push refusal every `Free` found
its allocation live and unread; with an honest consumer no head is refused. -/
theorem reclaim_sound (s₀ s : Raid) (h0 : s₀.Fresh) (hr : Reach Raid.step Guard s₀ s) :
    (∀ f ∈ s.sys.w.frees, f.err = none) ∧
    (∀ a t, Guard s a → s.step a = some t → Moved s.sys.w t.sys.w) ∧
    (∀ (w : Writer) (m : UInt64), w.Refuses m → w.reclaim m = w.setPoison .ringCorrupt) ∧
    (s.sys.w.poison.isSome → ∀ t, Reach Raid.step Any s t → t.sys.w.ring.tail = s.sys.w.ring.tail) ∧
    (∀ s₀ s : Sys, s₀.Start → Reach Sys.step Any s₀ s →
      (s.pc = .idle → ¬s.w.Refuses s.w.ring.capacity) ∧
        ∀ seq ref i, s.pc = .pushed seq ref i → ¬s.w.Refuses (s.w.ring.capacity + 1)) := by
  refine ⟨h0.frees hr, fun a t hg h => ?_, fun w m h => reclaim_of_refuses h, fun hp t ht => ?_,
    fun s₀ s h0 hr => honest_accepted h0 hr⟩
  · exact ((h0.sound hr).step hg h).2
  · exact (reach_poisoned hp ht).2

/-! ### The record over an unreclaimed slot -/

/-- A writer that has pushed nothing, its words about to wrap. -/
def raidStart : Raid := ⟨Sys.plainStart, false⟩

theorem raidStart_fresh : raidStart.Fresh := ⟨Sys.plainStart_start, rfl, rfl⟩

/-- One request with a slab and sixty-three without fill the ring; one more is
pushed under a head that moved, and published under the head moved back. -/
def overrunActs : List Act :=
  [.act (.data Sys.sampleIntent false), .act .push, .act .publish] ++
    (List.replicate 63 [Act.act (.data Sys.emptyIntent false), .act .push, .act .publish]).flatten ++
    [.act (.data Sys.sampleIntent false), .head 0, .act .push, .head 0xFFFFFFFFFFFFFFFF, .act .publish]

def overrunState : Raid := (run Raid.step raidStart overrunActs).get (by decide +kernel)

/-- The next request reclaims under the head that moved. -/
def rebuilt : Raid :=
  (run Raid.step overrunState [.head 0, .act (.data Sys.sampleIntent false)]).get (by decide +kernel)

/-- **A slab is freed under the descriptor that points at it**: the writer accepts
head `0` and frees the slab of sequence `63`, on the table in place of the one
released. -/
theorem freed_while_outstanding :
    Reach Raid.step Any raidStart overrunState ∧ Reach Raid.step Any overrunState rebuilt ∧
      rebuilt.sys.w.lastReclaimed = 0 ∧ Mem rebuilt.sys.w.lastReclaimed rebuilt.sys.w.ring.tail 63 ∧
      (rebuilt.sys.w.ring.desc 63).allocSeq ≠ 0 ∧
      ∃ f ∈ rebuilt.sys.w.frees, (rebuilt.sys.w.ring.desc 63).payloadOffset.toNat = f.h.offset ∧
        (rebuilt.sys.w.ring.desc 63).allocSeq = f.h.sequence := by
  refine ⟨Reach.of_run (Option.some_get _).symm, Reach.of_run (Option.some_get _).symm, ?_, ?_, ?_, ?_⟩
  all_goals decide +kernel

/-- The same run, each step checked against the guard: it is the step after it that is not allowed. -/
def guardedState : Raid := (run (guarded Raid.step Guard) raidStart overrunActs).get (by decide +kernel)

theorem reclaim_sound_overrun :
    (∀ f ∈ guardedState.sys.w.frees, f.err = none) ∧
      ∀ t, Reach Raid.step Any guardedState t → t.sys.w.ring.tail = guardedState.sys.w.ring.tail := by
  have h := reclaim_sound raidStart guardedState raidStart_fresh (Reach.of_guarded (Option.some_get _).symm)
  exact ⟨h.1, h.2.2.2.1 (by decide +kernel)⟩

end Raid

end Styx
