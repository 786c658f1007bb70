/-
The handler-panic fence: the admission gate between the reader's admissions and the taint
store of a panicking stream handler.

While the reader holds the read side no store is under way and the session is clear
(`Locked`); a panic's `STREAM_ERR` leaves only behind its store. So a frame the peer sent
knowing of a panic meets a tainted session, and no section closes with the taint set.
-/
import Styx.Serve.Quiescence

namespace Styx

open Machine

namespace Serving

variable {s t : Serving} {policy : Bool} {a : ReadAct} {j : Nat} {st : Accepted} {h : Handler} {b : HandlerAct}

/-! ## The read side -/

/-- The read side and the releaser, at each position. -/
def Reader.gate : Reader → Bool → Bool → Prop
  | .openUnary _, held, released | .opening _, held, released | .publishing _ _, held, released
  | .launching _ _, held, released | .opened _ _, held, released => held = true ∧ released = true
  | .dispatch _, held, released => held = true ∧ released = false
  | .dispatched _ _, held, released => held = !released
  | _, held, released => held = false ∧ released = true

/-- What a step of the reader does at the gate. -/
inductive GateMove (s t : Serving) : Prop
  | rests : t.held = s.held → t.begun = s.begun → t.sections = s.sections → t.handed = s.handed →
    (s.held = true → t.reader.hand = s.reader.hand ∧ t.tainted = s.tainted) → GateMove s t
  | begins : s.held = false → s.writer = none → s.tainted = false → t.held = true → t.begun = s.begun + 1 →
    t.sections = s.sections → t.handed = s.handed → t.tainted = s.tainted → GateMove s t
  /-- A handler may be entered as it is dropped. -/
  | ends (m : Unread) : s.held = true → s.reader.hand = some m → t.held = false → t.begun = s.begun →
    t.sections = s.sections ++ [(m, s.tainted)] → t.handed = s.handed ∨ t.handed = s.handed ++ [m] →
    t.tainted = s.tainted → GateMove s t
  | launches (m : Unread) : s.held = true → s.reader.hand = some m → t.held = true → t.reader.hand = some m →
    t.begun = s.begun → t.sections = s.sections → t.handed = s.handed ++ [m] → t.tainted = s.tainted → GateMove s t

theorem gateMove (h : s.read policy a = some t) (hg : s.reader.gate s.held s.released) :
    t.reader.gate t.held t.released ∧ GateMove s t := by
  cases hr : s.reader <;> rw [hr] at hg <;> simp only [read, hr, beginAdmit] at h
  case parked | reserved | fence | route | handling | declined | declining | closing | exited =>
    (repeat' split at h) <;> cases h
    all_goals first
      | exact ⟨hg, .rests rfl rfl rfl rfl fun hh => absurd hh (by simp [hg.1])⟩
      | exact ⟨by simp [Reader.gate, hg.1, hg.2], .rests rfl rfl rfl rfl fun hh => absurd hh (by simp [hg.1])⟩
  case recovering m reply =>
    split at h <;> cases h
    exact ⟨by simp [Reader.gate, hg.1, hg.2], .rests rfl rfl rfl rfl fun hh => absurd hh (by simp [hg.1])⟩
  case sending | checking =>
    (repeat' split at h) <;> cases h
    all_goals
      exact ⟨by simp [Reader.gate, release, hg.1, hg.2], .rests (by simp [release, hg.1]) rfl (by simp [release, hg.2]) rfl
        fun hh => absurd hh (by simp [hg.1])⟩
  case retiring m exit =>
    split at h <;> cases h
    cases exit with
    | none | some => exact ⟨hg, .rests rfl rfl rfl rfl fun hh => absurd hh (by simp [hg.1])⟩
  case admitUnary m | admitOpen m =>
    split at h
    · split at h
      · cases h
      next hw =>
      split at h <;> cases h
      · exact ⟨hg, .rests rfl rfl rfl rfl fun hh => absurd hh (by simp [hg.1])⟩
      · next ht => exact ⟨⟨rfl, hg.2⟩, .begins hg.1 (by simpa using hw) (by simpa using ht) rfl rfl rfl rfl rfl⟩
    · cases h
  case openUnary m =>
    split at h <;> cases h
    exact ⟨⟨hg.1, rfl⟩, .rests rfl rfl rfl rfl fun _ => ⟨by rw [hr]; rfl, rfl⟩⟩
  case dispatch m =>
    (repeat' split at h) <;> cases h
    · exact ⟨by simp [Reader.gate, hg.1, hg.2], .rests rfl rfl rfl rfl fun _ => ⟨by rw [hr]; rfl, rfl⟩⟩
    · exact ⟨by simp [Reader.gate, release, hg.2],
        .ends m hg.1 (by rw [hr]; rfl) (by simp [release, hg.2]) rfl (by simp [release, hg.2]) (.inr rfl) rfl⟩
  case dispatched m reply =>
    -- the releaser has run at the handler's entry, or runs here
    have hrel : (s.release m).held = false ∧ (s.release m).released = true := by
      simp only [Reader.gate] at hg
      cases hh : s.released <;> simp [release, hg, hh]
    have hmove : GateMove s (s.release m) := by
      simp only [Reader.gate] at hg
      cases hh : s.released with
      | true =>
        exact .rests (by simp [release, hg, hh]) rfl (by simp [release, hh]) rfl fun hx => absurd hx (by simp [hg, hh])
      | false =>
        exact .ends m (by simp [hg, hh]) (by rw [hr]; rfl) hrel.1 rfl (by simp [release, hh]) (.inl rfl) rfl
    (repeat' split at h) <;> cases h
    all_goals
      refine ⟨hrel, ?_⟩
      cases hmove with
      | rests h1 h2 h3 h4 h5 => exact .rests h1 h2 h3 h4 fun hh => ⟨by rw [hr]; rfl, rfl⟩
      | ends m' h1 h2 h3 h4 h5 h6 h7 => exact .ends m' h1 h2 h3 h4 h5 h6 h7
      | begins h1 h2 h3 h4 => exact absurd h4 (by simp [hrel.1])
      | launches m' h1 h2 h3 => exact absurd h3 (by simp [hrel.1])
  case opening m | publishing m j =>
    split at h <;> cases h
    all_goals exact ⟨hg, .rests rfl rfl rfl rfl fun _ => ⟨by rw [hr]; rfl, rfl⟩⟩
  case launching m j =>
    split at h <;> cases h
    exact ⟨hg, .launches m hg.1 (by rw [hr]; rfl) hg.1 rfl rfl rfl rfl rfl⟩
  case opened m violation =>
    (repeat' split at h) <;> cases h
    all_goals exact ⟨⟨rfl, hg.2⟩, .ends m hg.1 (by rw [hr]; rfl) rfl rfl rfl (.inl rfl) rfl⟩

/-- **Taken and dropped in pairs.** -/
structure Gate (s : Serving) : Prop where
  position : s.reader.gate s.held s.released
  count : s.begun = s.sections.length + s.held.toNat

theorem Gate.read (h : s.Gate) (hs : s.read policy a = some t) : t.Gate := by
  obtain ⟨hpos, hmove⟩ := gateMove hs h.position
  refine ⟨hpos, ?_⟩
  have hc := h.count
  cases hmove with
  | rests hh hb hsec => rw [hb, hsec, hh, hc]
  | begins h0 _ _ h1 hb hsec =>
    rw [hb, hsec, h1, hc, h0]
    rfl
  | ends m h1 _ h0 hb hsec =>
    rw [hb, hsec, h0, hc, h1]
    simp
  | launches m h1 _ h1' _ hb hsec => rw [hb, hsec, h1', hc, h1]

/-! ## The write side -/

def Handler.stores : Handler → Bool
  | .storing | .stored => true
  | _ => false

def Handler.tainted : Handler → Bool
  | .stored | .recorded | .terminated => true
  | _ => false

/-- **No store beside a section**, and no panic told ahead of its store. -/
structure Locked (s : Serving) : Prop where
  clear : s.held = true → s.tainted = false ∧ s.writer = none
  writer : ∀ j st, s.streams[j]? = some st → st.handler.stores = true → s.writer = some j
  stored : ∀ st ∈ s.streams, st.handler.tainted = true → s.tainted = true
  told : s.panicErr = true → s.tainted = true
  saw : s.peerSaw = true → s.tainted = true

theorem getElem?_setStream {i : Nat} (hst : (s.setStream j h).streams[i]? = some st) :
    i = j ∧ st.handler = h ∨ i ≠ j ∧ s.streams[i]? = some st := by
  simp only [setStream, List.getElem?_modify] at hst
  obtain ⟨old, hold, rfl⟩ := Option.map_eq_some_iff.mp hst
  split
  · next hij => exact .inl ⟨hij.symm, rfl⟩
  · next hij => exact .inr ⟨fun h => hij h.symm, hold⟩

theorem handler_setStream (hst : st ∈ (s.setStream j h).streams) : st ∈ s.streams ∨ st.handler = h := by
  rcases mem_setStream hst with hst | ⟨old, -, rfl⟩
  · exact .inl hst
  · exact .inr rfl

structure Apart (s t : Serving) : Prop where
  handler : ∀ (i : Nat) (st : Accepted), t.streams[i]? = some st →
    s.streams[i]? = some st ∨ st.handler.stores = false ∧ st.handler.tainted = false
  writer : t.writer = s.writer
  panicErr : t.panicErr = s.panicErr
  peerSaw : t.peerSaw = s.peerSaw
  taint : s.tainted = true → t.tainted = true

theorem read_apart (hs : s.read policy a = some t) : Apart s t := by
  cases hr : s.reader with
  | parked | reserved | fence | route | declined | declining | admitUnary | openUnary | dispatch | handling | recovering |
      dispatched | sending | closing | checking | admitOpen | opened | retiring | exited =>
    simp only [Serving.read, hr, beginAdmit] at hs
    (repeat' split at hs) <;> cases hs
    all_goals exact ⟨fun i st hst => .inl hst, rfl, rfl, rfl, fun ht => by first | exact ht | simp [ht]⟩
  | opening m =>
    simp only [Serving.read, hr] at hs
    split at hs <;> cases hs
    · exact ⟨fun i st hst => .inl hst, rfl, rfl, rfl, id⟩
    · exact ⟨fun i st hst => .inl hst, rfl, rfl, rfl, id⟩
    · refine ⟨fun i st hst => ?_, rfl, rfl, rfl, id⟩
      simp only [List.getElem?_append] at hst
      split at hst
      · exact .inl hst
      · rw [List.mem_singleton.mp (List.mem_of_getElem? hst)]
        exact .inr ⟨rfl, rfl⟩
  | publishing m j | launching m j =>
    simp only [Serving.read, hr] at hs
    split at hs <;> cases hs
    all_goals
      refine ⟨fun i st hst => ?_, rfl, rfl, rfl, id⟩
      first
      | exact .inl hst
      | (rcases getElem?_setStream hst with ⟨-, hh⟩ | ⟨-, hst⟩
         · rw [hh]
           exact .inr ⟨rfl, rfl⟩
         · exact .inl hst)

theorem Locked.read (h : s.Locked) (hm : GateMove s t) (hs : Apart s t) : t.Locked := by
  obtain ⟨hst, hw, he, hp, ht⟩ := hs
  refine ⟨fun hh => ?_, fun j st hj hstores => ?_, fun st hj hstores => ?_, fun hx => ?_, fun hx => ?_⟩
  · rw [hw]
    cases hm with
    | rests h1 _ _ _ h5 =>
      rw [h1] at hh
      rw [(h5 hh).2]
      exact h.clear hh
    | begins _ hwr hcl _ _ _ _ hta => exact ⟨hta ▸ hcl, hwr⟩
    | ends _ _ _ h0 => rw [h0] at hh; cases hh
    | launches _ h1 _ _ _ _ _ _ hta =>
      rw [hta]
      exact h.clear h1
  · rcases hst j st hj with hj | ⟨hn, -⟩
    · rw [hw]
      exact h.writer j st hj hstores
    · rw [hn] at hstores
      cases hstores
  · obtain ⟨j, hj⟩ := List.mem_iff_getElem?.mp hj
    rcases hst j st hj with hj | ⟨-, hn⟩
    · exact ht (h.stored st (List.mem_of_getElem? hj) hstores)
    · rw [hn] at hstores
      cases hstores
  · exact ht (h.told (he ▸ hx))
  · exact ht (h.saw (hp ▸ hx))

theorem Locked.handle (h : s.Locked) (hst : s.streams[j]? = some st)
    (hs : s.handle false j st.handler b = some t) : t.Locked := by
  have hmem := List.mem_of_getElem? hst
  cases hh : st.handler <;> rw [hh] at hs
  case accepted | dropped | returned =>
    cases b <;> cases hs
  case running =>
    cases b <;> cases hs
    all_goals
      refine ⟨h.clear, fun i st' hi hstores => ?_, fun st' hm ht => ?_, h.told, h.saw⟩
      · rcases getElem?_setStream hi with ⟨-, he⟩ | ⟨-, hi⟩
        · rw [he] at hstores
          cases hstores
        · exact h.writer i st' hi hstores
      · rcases handler_setStream hm with hm | he
        · exact h.stored st' hm ht
        · rw [he] at ht
          cases ht
  case panicked =>
    cases b <;> simp only [Serving.handle] at hs <;> (repeat' split at hs) <;> cases hs
    · next hp => cases hp
    next hfree =>
    simp only [not_or, Bool.not_eq_true, Option.isSome_eq_false_iff, Option.isNone_iff_eq_none] at hfree
    refine ⟨fun hheld => ?_, fun i st' hi hstores => ?_, fun st' hm ht => ?_, h.told, h.saw⟩
    · rw [hfree.1] at hheld
      cases hheld
    · rcases getElem?_setStream hi with ⟨rfl, -⟩ | ⟨-, hi⟩
      · rfl
      · rw [h.writer i st' hi hstores] at hfree
        cases hfree.2
    · rcases handler_setStream hm with hm | he
      · exact h.stored st' hm ht
      · rw [he] at ht
        cases ht
  case storing =>
    cases b <;> cases hs
    have hw := h.writer j st hst (by rw [hh]; rfl)
    refine ⟨fun hheld => ?_, fun i st' hi hstores => ?_, fun _ _ _ => rfl, fun _ => rfl, fun _ => rfl⟩
    · rw [(h.clear hheld).2] at hw
      cases hw
    · rcases getElem?_setStream hi with ⟨rfl, -⟩ | ⟨-, hi⟩
      · exact hw
      · exact h.writer i st' hi hstores
  case stored =>
    cases b <;> cases hs
    have hw := h.writer j st hst (by rw [hh]; rfl)
    have ht := h.stored st hmem (by rw [hh]; rfl)
    refine ⟨fun hheld => ⟨(h.clear hheld).1, rfl⟩, fun i st' hi hstores => ?_, fun _ _ _ => ht, h.told, h.saw⟩
    rcases getElem?_setStream hi with ⟨-, he⟩ | ⟨hne, hi⟩
    · rw [he] at hstores
      cases hstores
    · -- the write side has one holder
      rw [h.writer i st' hi hstores] at hw
      cases hw
      exact absurd rfl hne
  case recorded | terminated =>
    have ht := h.stored st hmem (by rw [hh]; rfl)
    cases b <;> cases hs
    refine ⟨h.clear, fun i st' hi hstores => ?_, fun _ _ _ => ht, fun _ => ht, h.saw⟩
    rcases getElem?_setStream hi with ⟨-, he⟩ | ⟨-, hi⟩
    · rw [he] at hstores
      cases hstores
    · exact h.writer i st' hi hstores

/-! ## What reaches a handler -/

/-- **No frame sent in knowledge of a panic reaches a handler**, and every handler's section closes, or is open, clear. -/
structure Fenced (s : Serving) : Prop where
  late : ∀ m, (∃ u, m ∈ s.inbox u) ∨ s.reader.hand = some m → m.late = true → s.tainted = true
  sections : ∀ x ∈ s.sections, x.2 = false
  handed : ∀ m ∈ s.handed, m.late = false ∧
    ((m, false) ∈ s.sections ∨ s.held = true ∧ s.reader.hand = some m ∧ s.tainted = false)

theorem Fenced.hand_clear {m : Unread} (h : s.Fenced) (hm : s.reader.hand = some m) (ht : s.tainted = false) : m.late = false := by
  by_contra hl
  have := h.late m (.inr hm) (by simpa using hl)
  rw [ht] at this
  cases this

theorem Fenced.read (h : s.Fenced) (hl : s.Locked) (hstep : ReadStep s t) (hm : GateMove s t) : t.Fenced := by
  have hlate : ∀ m, (∃ u, m ∈ t.inbox u) ∨ t.reader.hand = some m → m.late = true → t.tainted = true := by
    intro m hpl hml
    refine hstep.taint (h.late m ?_ hml)
    cases hstep.custody with
    | kept hi hh => rwa [hi, hh] at hpl
    | retired hi hh =>
      rw [hi, hh] at hpl
      rcases hpl with hpl | hpl
      · exact .inl hpl
      · cases hpl
    | taken u m' rest hu hi _ hh =>
      rw [hi, hh] at hpl
      rcases hpl with ⟨u', hpl⟩ | hpl
      · refine .inl ⟨u', ?_⟩
        by_cases huu : u' = u
        · subst huu
          rw [Function.update_self] at hpl
          rw [hu]
          exact List.mem_cons_of_mem _ hpl
        · rwa [Function.update_of_ne huu] at hpl
      · cases hpl
        exact .inl ⟨u, by rw [hu]; exact List.mem_cons_self⟩
  refine ⟨hlate, fun x hx => ?_, fun m hmem => ?_⟩
  · cases hm with
    | rests _ _ hsec | begins _ _ _ _ _ hsec | launches _ _ _ _ _ _ hsec => exact h.sections x (hsec ▸ hx)
    | ends m hh _ _ _ hsec =>
      rw [hsec] at hx
      rcases List.mem_append.mp hx with hx | hx
      · exact h.sections x hx
      · rw [List.mem_singleton.mp hx]
        exact (hl.clear hh).1
  · cases hm with
    | rests hh _ hsec hhd hkeep =>
      rw [hhd] at hmem
      obtain ⟨hnl, hcl⟩ := h.handed m hmem
      refine ⟨hnl, ?_⟩
      rw [hsec]
      rcases hcl with hcl | ⟨h1, h2, h3⟩
      · exact .inl hcl
      · exact .inr ⟨hh ▸ h1, (hkeep h1).1 ▸ h2, (hkeep h1).2 ▸ h3⟩
    | begins h0 _ _ _ _ hsec hhd =>
      rw [hhd] at hmem
      obtain ⟨hnl, hcl⟩ := h.handed m hmem
      refine ⟨hnl, ?_⟩
      rw [hsec]
      rcases hcl with hcl | ⟨h1, -⟩
      · exact .inl hcl
      · rw [h0] at h1
        cases h1
    | ends m' hh hhand _ _ hsec hhd =>
      have hclear := (hl.clear hh).1
      rw [hsec, hclear]
      rcases hhd with hhd | hhd <;> rw [hhd] at hmem
      · obtain ⟨hnl, hcl⟩ := h.handed m hmem
        refine ⟨hnl, .inl ?_⟩
        rcases hcl with hcl | ⟨-, h2, -⟩
        · exact List.mem_append_left _ hcl
        · rw [hhand] at h2
          cases h2
          simp
      · rcases List.mem_append.mp hmem with hmem | hmem
        · obtain ⟨hnl, hcl⟩ := h.handed m hmem
          refine ⟨hnl, .inl ?_⟩
          rcases hcl with hcl | ⟨-, h2, -⟩
          · exact List.mem_append_left _ hcl
          · rw [hhand] at h2
            cases h2
            simp
        · rw [List.mem_singleton.mp hmem]
          exact ⟨h.hand_clear hhand hclear, .inl (by simp)⟩
    | launches m' hh hhand hh' hhand' _ hsec hhd hta =>
      have hclear := (hl.clear hh).1
      rw [hsec]
      rw [hhd] at hmem
      rcases List.mem_append.mp hmem with hmem | hmem
      · obtain ⟨hnl, hcl⟩ := h.handed m hmem
        refine ⟨hnl, ?_⟩
        rcases hcl with hcl | ⟨-, h2, -⟩
        · exact .inl hcl
        · exact .inr ⟨hh', by rw [hhand', ← hhand, h2], hta ▸ hclear⟩
      · rw [List.mem_singleton.mp hmem]
        exact ⟨h.hand_clear hhand hclear, .inr ⟨hh', hhand', hta ▸ hclear⟩⟩

structure Runs (s : Serving) : Prop where
  handling : ∀ m, s.reader = .handling m → m ∈ s.handed
  launched : ∀ st ∈ s.streams, st.handler ≠ .accepted → st.handler ≠ .dropped → st.m ∈ s.handed
  pending : ∀ m j, s.reader = .publishing m j ∨ s.reader = .launching m j → ∃ st, s.streams[j]? = some st ∧ st.m = m

theorem Runs.kept (h : s.Runs) (hst : t.streams = s.streams) (hh : t.handed = s.handed) (hn : ∀ m, t.reader ≠ .handling m)
    (hp : ∀ m j, t.reader = .publishing m j ∨ t.reader = .launching m j → s.reader = .publishing m j) : t.Runs := by
  refine ⟨fun m hm => absurd hm (hn m), fun st hm h1 h2 => ?_, fun m j hr => ?_⟩
  · rw [hh]
    exact h.launched st (hst ▸ hm) h1 h2
  · rw [hst]
    exact h.pending m j (.inl (hp m j hr))

theorem Runs.read (h : s.Runs) (hs : s.read policy a = some t) : t.Runs := by
  cases hr : s.reader <;> simp only [Serving.read, hr, beginAdmit] at hs
  case parked | reserved | fence | route | declined | declining | openUnary | handling | recovering | dispatched | sending |
      closing | checking | opened | exited | admitUnary | admitOpen =>
    (repeat' split at hs) <;> cases hs
    all_goals exact h.kept rfl rfl (by simp) (by simp)
  case retiring m exit =>
    split at hs <;> cases hs
    cases exit with
    | none | some => exact h.kept rfl rfl (by simp) (by simp)
  case dispatch m =>
    (repeat' split at hs) <;> cases hs
    · exact h.kept rfl rfl (by simp) (by simp)
    · refine ⟨fun m' hm => ?_, fun st hm h1 h2 => List.mem_append_left _ (h.launched st hm h1 h2), fun m' j hm => ?_⟩
      · cases hm
        simp
      · rcases hm with hm | hm <;> cases hm
  case opening m =>
    split at hs <;> cases hs
    · exact h.kept rfl rfl (by simp) (by simp)
    · exact h.kept rfl rfl (by simp) (by simp)
    · refine ⟨(fun m' hm => by cases hm), fun st hm h1 h2 => ?_, fun m' j hm => ?_⟩
      · rcases List.mem_append.mp hm with hm | hm
        · exact h.launched st hm h1 h2
        · rw [List.mem_singleton.mp hm] at h1
          exact absurd rfl h1
      · rcases hm with hm | hm <;> cases hm
        exact ⟨⟨m, .accepted⟩, by simp, rfl⟩
  case publishing m j =>
    split at hs <;> cases hs
    · exact h.kept rfl rfl (by simp) (fun m' j' hm => by rcases hm with hm | hm <;> cases hm; exact hr)
    · refine ⟨(fun m' hm => by cases hm), fun st hm h1 h2 => ?_, fun m' j hm => by rcases hm with hm | hm <;> cases hm⟩
      rcases handler_setStream hm with hm | hd
      · exact h.launched st hm h1 h2
      · exact absurd hd h2
  case launching m j =>
    split at hs <;> cases hs
    refine ⟨(fun m' hm => by cases hm), fun st hm h1 h2 => ?_, fun m' j hm => by rcases hm with hm | hm <;> cases hm⟩
    rcases mem_setStream hm with hm | ⟨old, hold, rfl⟩
    · exact List.mem_append_left _ (h.launched st hm h1 h2)
    · obtain ⟨st', hget, hm'⟩ := h.pending m j (.inr hr)
      rw [hold] at hget
      cases hget
      simp [hm']

theorem Runs.handle {hd : Handler} (h : s.Runs) (hst : t.streams = (s.setStream j hd).streams)
    (hl : ∀ st, s.streams[j]? = some st → st.handler ≠ .accepted ∧ st.handler ≠ .dropped) (hh : t.handed = s.handed)
    (hr : t.reader = s.reader) : t.Runs := by
  refine ⟨fun m hm => hh ▸ h.handling m (hr ▸ hm), fun st hm h1 h2 => ?_, fun m i hm => ?_⟩
  · rw [hst] at hm
    rw [hh]
    rcases mem_setStream hm with hm | ⟨old, hold, rfl⟩
    · exact h.launched st hm h1 h2
    · exact h.launched old (List.mem_of_getElem? hold) (hl old hold).1 (hl old hold).2
  · rw [hr] at hm
    obtain ⟨st, hget, hm⟩ := h.pending m i hm
    rw [hst]
    simp only [setStream, List.getElem?_modify, hget]
    split
    · exact ⟨_, rfl, hm⟩
    · exact ⟨_, rfl, hm⟩

/-! ## Panic replies -/

/-- The panic whose reply is on its way to the transport. -/
def Reader.unsent : Reader → List Unread
  | .dispatched m .panic | .sending m .panic => [m]
  | _ => []

theorem unsent_read (h : s.panics = s.offered ++ s.reader.unsent) (hs : s.read policy a = some t) :
    t.panics = t.offered ++ t.reader.unsent := by
  cases hr : s.reader <;> rw [hr] at h <;> simp only [Serving.read, hr, beginAdmit] at hs
  case parked | reserved | fence | route | declined | declining | admitUnary | openUnary | closing | checking | admitOpen |
      opening | publishing | launching | opened | exited =>
    (repeat' split at hs) <;> cases hs
    all_goals exact h
  case retiring m exit =>
    split at hs <;> cases hs
    cases exit with
    | none | some => exact h
  case dispatch m =>
    (repeat' split at hs) <;> cases hs
    · next r _ => cases r <;> exact h
    · exact h
  case handling m =>
    split at hs
    · next replies =>
      cases hs
      cases replies <;> exact h
    · split at hs <;> cases hs
      exact h
    · cases hs
  case recovering m reply =>
    split at hs <;> cases hs
    simp only [Reader.unsent, List.append_nil] at h
    cases reply <;> simp [Reader.unsent, h]
  case dispatched m reply =>
    (repeat' split at hs) <;> cases hs
    · next hnone =>
      subst hnone
      exact h
    · cases reply <;> exact h
  case sending m reply =>
    split at hs <;> cases hs
    all_goals cases reply <;> simpa [Reader.unsent, release] using h

/-! ## Runs -/

structure FenceInv (s : Serving) : Prop where
  wf : s.reader.WF
  gate : s.Gate
  locked : s.Locked
  fenced : s.Fenced
  runs : s.Runs
  replies : s.panics = s.offered ++ s.reader.unsent

theorem FenceInv.start : FenceInv start where
  wf := trivial
  gate := ⟨⟨rfl, rfl⟩, rfl⟩
  locked := ⟨(fun h => by cases h), (fun j st h => by cases h), (fun st h => by cases h), (fun h => by cases h), fun h => by cases h⟩
  fenced := ⟨(fun m h => by rcases h with ⟨u, h⟩ | h <;> cases h), (fun x h => by cases h), fun m h => by cases h⟩
  runs := ⟨(fun m h => by cases h), (fun st h => by cases h), fun m j h => by rcases h with h | h <;> cases h⟩
  replies := rfl

structure Beside (s t : Serving) : Prop where
  inbox : t.inbox = s.inbox
  reader : t.reader = s.reader
  held : t.held = s.held
  released : t.released = s.released
  begun : t.begun = s.begun
  sections : t.sections = s.sections
  handed : t.handed = s.handed
  panics : t.panics = s.panics
  offered : t.offered = s.offered
  taint : s.tainted = true → t.tainted = true

theorem FenceInv.beside (h : s.FenceInv) (hs : Beside s t) (hl : t.Locked) (hr : t.Runs) : t.FenceInv := by
  refine ⟨hs.reader ▸ h.wf, ⟨?_, ?_⟩, hl, ⟨fun m hm hml => ?_, fun x hx => ?_, fun m hm => ?_⟩, hr, ?_⟩
  · rw [hs.reader, hs.held, hs.released]
    exact h.gate.position
  · rw [hs.begun, hs.sections, hs.held]
    exact h.gate.count
  · rw [hs.inbox, hs.reader] at hm
    exact hs.taint (h.fenced.late m hm hml)
  · exact h.fenced.sections x (hs.sections ▸ hx)
  · obtain ⟨hnl, hcl⟩ := h.fenced.handed m (hs.handed ▸ hm)
    refine ⟨hnl, ?_⟩
    rw [hs.sections]
    rcases hcl with hcl | ⟨h1, h2, -⟩
    · exact .inl hcl
    · have hheld : t.held = true := hs.held ▸ h1
      exact .inr ⟨hheld, hs.reader ▸ h2, (hl.clear hheld).1⟩
  · rw [hs.panics, hs.offered, hs.reader]
    exact h.replies

theorem FenceInv.read (h : s.FenceInv) (hs : s.read policy a = some t) : t.FenceInv := by
  have hstep := readStep hs h.wf
  have hmove := (gateMove hs h.gate.position).2
  exact ⟨hstep.wf, h.gate.read hs, h.locked.read hmove (read_apart hs), h.fenced.read h.locked hstep hmove, h.runs.read hs,
    unsent_read h.replies hs⟩

theorem FenceInv.handle (h : s.FenceInv) (hst : s.streams[j]? = some st)
    (hs : s.handle false j st.handler b = some t) : t.FenceInv := by
  have hl := h.locked.handle hst hs
  have hlaunched : st.handler ≠ .accepted ∧ st.handler ≠ .dropped := by
    refine ⟨fun hh => ?_, fun hh => ?_⟩ <;> rw [hh] at hs <;> cases b <;> cases hs
  have hall : ∀ st', s.streams[j]? = some st' → st'.handler ≠ .accepted ∧ st'.handler ≠ .dropped := by
    intro st' hst'
    rw [hst] at hst'
    cases hst'
    exact hlaunched
  unfold Serving.handle at hs
  (repeat' split at hs) <;> cases hs
  all_goals
    exact h.beside ⟨rfl, rfl, rfl, rfl, rfl, rfl, rfl, rfl, rfl, fun ht => by first | exact ht | rfl⟩ hl
      (h.runs.handle rfl hall rfl rfl)

theorem FenceInv.aside (h : s.FenceInv) (hs : Beside s t) (hst : t.streams = s.streams) (hw : t.writer = s.writer)
    (ht : t.tainted = s.tainted) (he : t.panicErr = s.panicErr) (hp : t.peerSaw = true → s.tainted = true) : t.FenceInv := by
  refine h.beside hs ⟨fun hh => ?_, fun j st hj hx => ?_, fun st hm hx => ?_, fun hx => ?_, fun hx => ?_⟩
    ⟨fun m hm => ?_, fun st hm h1 h2 => ?_, fun m j hm => ?_⟩
  · rw [ht, hw]
    exact h.locked.clear (hs.held ▸ hh)
  · rw [hw]
    exact h.locked.writer j st (hst ▸ hj) hx
  · rw [ht]
    exact h.locked.stored st (hst ▸ hm) hx
  · rw [ht]
    exact h.locked.told (he ▸ hx)
  · rw [ht]
    exact hp hx
  · rw [hs.handed]
    exact h.runs.handling m (hs.reader ▸ hm)
  · rw [hs.handed]
    exact h.runs.launched st (hst ▸ hm) h1 h2
  · rw [hst]
    exact h.runs.pending m j (hs.reader ▸ hm)

theorem FenceInv.arrive {u : Bool} {f : Frame} (h : s.FenceInv) (hs : s.step false (.arrive u f) = some t) : t.FenceInv := by
  cases hs
  refine ⟨h.wf, ⟨h.gate.position, h.gate.count⟩,
    ⟨h.locked.clear, h.locked.writer, h.locked.stored, h.locked.told, h.locked.saw⟩,
    ⟨fun m hm hml => ?_, h.fenced.sections, h.fenced.handed⟩, ⟨h.runs.handling, h.runs.launched, h.runs.pending⟩, h.replies⟩
  rcases hm with ⟨u', hm⟩ | hm
  · rcases mem_push.mp hm with hm | ⟨-, rfl⟩
    · exact h.fenced.late m (.inl ⟨u', hm⟩) hml
    · exact h.locked.saw hml
  · exact h.fenced.late m (.inr hm) hml

theorem FenceInv.step {b : Act} (h : s.FenceInv) (hs : s.step false b = some t) : t.FenceInv := by
  cases b with
  | arrive u f => exact h.arrive hs
  | read b => exact h.read hs
  | handler j b =>
    simp only [Serving.step] at hs
    split at hs
    · next st hst => exact h.handle hst hs
    · cases hs
  | peerReceives =>
    obtain ⟨he, ⟨⟩⟩ := guard_some hs
    exact h.aside ⟨rfl, rfl, rfl, rfl, rfl, rfl, rfl, rfl, rfl, id⟩ rfl rfl rfl rfl fun _ => h.locked.told he
  | fail =>
    cases hs
    exact h.aside ⟨rfl, rfl, rfl, rfl, rfl, rfl, rfl, rfl, rfl, id⟩ rfl rfl rfl rfl h.locked.saw
  | closeStream | expire =>
    simp only [Serving.step] at hs
    split at hs <;> cases hs
    exact h.aside ⟨rfl, rfl, rfl, rfl, rfl, rfl, rfl, rfl, rfl, id⟩ rfl rfl rfl rfl h.locked.saw
  | look spurious =>
    simp only [Serving.step, Serving.look] at hs
    (repeat' split at hs) <;> cases hs
    all_goals exact h.aside ⟨rfl, rfl, rfl, rfl, rfl, rfl, rfl, rfl, rfl, id⟩ rfl rfl rfl rfl h.locked.saw

/-- The application's handler of a unary call runs, a reply is being sent, or nothing is in hand. -/
def Reader.outside : Reader → Bool
  | .parked | .reserved _ | .exited _ | .handling _ | .sending _ _ | .declining _ => true
  | _ => false

theorem gate_outside (h : s.reader.gate s.held s.released) (ho : s.reader.outside = true) : s.held = false := by
  cases hr : s.reader <;> rw [hr] at h ho <;> first | exact h.1 | cases ho

/-- **The fence**, under the default policy. What a handler is handed the peer sent before it knew of a panic; no section is
closed with the session tainted; the read side is dropped once for each time it was taken; and once the loop has ended,
every panic reply owed has been offered. -/
theorem panic_fence (s : Serving) (h : Reach (step false) Any start s) :
    (∀ m ∈ s.handed, m.late = false) ∧
    (∀ m ∈ s.handed, (m, false) ∈ s.sections ∨ s.held = true ∧ s.reader.hand = some m ∧ s.tainted = false) ∧
    (∀ x ∈ s.sections, x.2 = false) ∧
    (∀ m, s.reader = .handling m → m ∈ s.handed) ∧ (∀ st ∈ s.streams, st.handler = .running → st.m ∈ s.handed) ∧
    s.begun = s.sections.length + s.held.toNat ∧ (s.reader.outside = true → s.held = false) ∧
    (∀ e, s.reader = .exited e → s.panics = s.offered) := by
  have hi : s.FenceInv := h.invariant .start fun hi _ hs => hi.step hs
  refine ⟨fun m hm => (hi.fenced.handed m hm).1, fun m hm => (hi.fenced.handed m hm).2, hi.fenced.sections, hi.runs.handling,
    fun st hm hr => hi.runs.launched st hm (by simp [hr]) (by simp [hr]), hi.gate.count, gate_outside hi.gate.position,
    fun e he => ?_⟩
  simpa [he, Reader.unsent] using hi.replies

/-- A request whose handler panics, in time for its reply or past its budget. -/
def panicActs (elapsed : Bool) : List Act :=
  [.arrive false { sampleRequest with budget := 5 }, .read (.reserve false), .read .take, .read .next, .read .next,
   .read .next, .read .next, .read .enter, .read (.handlerPanics elapsed), .read .next, .read .next]

def repliedEnd : Serving :=
  (run (step false) start (panicActs false ++ [.read .sent, .read .next, .read .next, .read .next])).get (by decide +kernel)

theorem panic_fence_replied : repliedEnd.reader = .exited (some .handlerPanicked) ∧ repliedEnd.offered.length = 1 ∧
    repliedEnd.panics = repliedEnd.offered ∧ ∀ m ∈ repliedEnd.handed, m.late = false := by
  have hr : repliedEnd.reader = .exited (some .handlerPanicked) := by decide +kernel
  obtain ⟨hlate, -, -, -, -, -, -, hp⟩ := panic_fence repliedEnd (Reach.of_run (Option.some_get _).symm)
  exact ⟨hr, by decide +kernel, hp _ hr, hlate⟩

def launchedEnd : Serving := (run (step false) start (launchActs.take 9)).get (by decide +kernel)

def silentEnd : Serving :=
  (run (step false) start (panicActs true ++ [.read .next, .read .next, .read .next])).get (by decide +kernel)

/-- **A stream's handler may run while the read side is held**, by its own admission even; and a handler that panics past
its budget is owed no reply, and ends the loop without one. -/
theorem fence_overlaps :
    (¬ ∀ s, Reach (step false) Any start s → s.held = true → ∀ st ∈ s.streams, st.handler ≠ .running) ∧
    ¬ ∀ s, Reach (step false) Any start s → s.reader = .exited (some .handlerPanicked) → s.streams = [] → s.offered ≠ [] := by
  refine ⟨fun h => ?_, fun h => ?_⟩
  · exact absurd (h launchedEnd (Reach.of_run (Option.some_get _).symm) (by decide +kernel)) (by decide +kernel)
  · exact absurd (h silentEnd (Reach.of_run (Option.some_get _).symm) (by decide +kernel) (by decide +kernel)) (by decide +kernel)

end Serving

end Styx
