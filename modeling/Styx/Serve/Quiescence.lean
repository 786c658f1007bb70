/-
Quiescence: what the drain's predicate has seen when it answers.

The predicate is four loads at four instants. An undisposed frame is always in one of three
places, in the transport, in the reader's hand under its reservation, or retired
(`Custody`), and it only moves forward through them; so once no call-opening frame can
arrive, each load rules a place out for good, in the order the frame passes them
(`Seen`). What the predicate does not see is a handler: a stream's obligation may be
closed while its handler goes on (`quiescent_running`).
-/
import Styx.Serve.Serving

namespace Styx

open Machine Function

namespace Serving

/-! ## The reader -/

def Reader.WF : Reader → Prop
  | .declined m | .declining m | .admitUnary m | .openUnary m | .dispatch m | .handling m | .recovering m _
  | .dispatched m _ | .sending m _ | .closing m => m.frame.kind = .unaryReq
  | .admitOpen m | .opening m | .publishing m _ | .launching m _ | .opened m _ => m.frame.kind = .streamOpen
  | _ => True

/-- Where the frames are, across a step of the reader. -/
inductive Custody (s t : Serving) : Prop
  | kept : t.inbox = s.inbox → t.reader.hand = s.reader.hand → t.disposed = s.disposed → Custody s t
  | taken (u : Bool) (m : Unread) (rest : List Unread) : s.inbox u = m :: rest → t.inbox = Function.update s.inbox u rest →
    s.reader.hand = none → t.reader.hand = some m → t.disposed = s.disposed → Custody s t
  | retired : t.inbox = s.inbox → t.reader.hand = none → t.disposed = s.disposed ++ s.reader.hand.toList → Custody s t

/-- The taint at the last close is as it was, or a close has read it; with nothing open nothing closes. -/
structure AtClose (s t : Serving) : Prop where
  same : s.obligations = [] → t.taintedAtClose = s.taintedAtClose
  read : t.taintedAtClose = true → s.taintedAtClose = true ∨ s.tainted = true

/-- What a step of the reader leaves alone, and how it moves what it moves. -/
structure ReadStep (s t : Serving) : Prop where
  waiter : t.waiter = s.waiter
  arrived : t.arrived = s.arrived
  wf : t.reader.WF
  custody : Custody s t
  ingress : t.ingressPending - t.reader.reservations = s.ingressPending - s.reader.reservations
  obligations : ∀ k ∈ t.obligations, k ∈ s.obligations ∨ ∃ m, s.reader.hand = some m ∧ m.opens = true
  taint : s.tainted = true → t.tainted = true
  atClose : AtClose s t

variable {policy u wake : Bool} {s t : Serving} {a : ReadAct} {m : Unread} {call k : UInt64} {j : Nat}
  {b : HandlerAct} {w : Waiter} {st : Accepted}

theorem ReadStep.still (hwf : t.reader.WF) (hhand : t.reader.hand = s.reader.hand)
    (hres : t.reader.reservations = s.reader.reservations) (hw : t.waiter = s.waiter) (ha : t.arrived = s.arrived) (hi : t.inbox = s.inbox)
    (hd : t.disposed = s.disposed) (hp : t.ingressPending = s.ingressPending)
    (ho : ∀ k ∈ t.obligations, k ∈ s.obligations ∨ ∃ m, s.reader.hand = some m ∧ m.opens = true)
    (ht : s.tainted = true → t.tainted = true) (hc : AtClose s t) :
    ReadStep s t :=
  ⟨hw, ha, hwf, .kept hi hhand hd, by rw [hres, hp], ho, ht, hc⟩

theorem opens_of_unary (h : m.frame.kind = .unaryReq) : m.opens = true := by simp [Unread.opens, h]

theorem opens_of_open (h : m.frame.kind = .streamOpen) : m.opens = true := by simp [Unread.opens, h]

theorem mem_openObligation (h : k ∈ (s.openObligation call).obligations) : k ∈ s.obligations ∨ k = call := by
  simp only [openObligation] at h
  split at h
  · exact .inl h
  · exact (List.mem_cons.mp h).symm

theorem mem_closeObligation (h : k ∈ (s.closeObligation call).obligations) : k ∈ s.obligations :=
  List.mem_of_mem_filter h

theorem AtClose.kept (h : t.taintedAtClose = s.taintedAtClose) : AtClose s t := ⟨fun _ => h, fun ht => .inl (h ▸ ht)⟩

theorem AtClose.closed (h : t.taintedAtClose = (s.closeObligation call).taintedAtClose) : AtClose s t := by
  simp only [closeObligation] at h
  refine ⟨fun hn => by rw [h, hn]; simp, fun ht => ?_⟩
  rw [h] at ht
  split at ht
  · exact .inr ht
  · exact .inl ht

theorem ReadStep.moved (hwf : t.reader.WF) (hhand : t.reader.hand = s.reader.hand)
    (hres : t.reader.reservations = s.reader.reservations) (hw : t.waiter = s.waiter) (ha : t.arrived = s.arrived)
    (hi : t.inbox = s.inbox) (hd : t.disposed = s.disposed) (hp : t.ingressPending = s.ingressPending)
    (ho : t.obligations = s.obligations) (ht : t.tainted = s.tainted) (hc : t.taintedAtClose = s.taintedAtClose) :
    ReadStep s t :=
  .still hwf hhand hres hw ha hi hd hp (fun _ hk => .inl (ho ▸ hk)) (fun h => ht ▸ h) (.kept hc)

theorem readStep (h : s.read policy a = some t) (hwf : s.reader.WF) : ReadStep s t := by
  cases hr : s.reader <;> rw [hr] at hwf <;> simp only [read, hr, beginAdmit] at h
  case parked =>
    split at h <;> cases h
    · exact ⟨rfl, rfl, trivial, .kept rfl (by rw [hr]; rfl) rfl, by rw [hr]; simp only [Reader.reservations]; omega,
        fun k hk => .inl hk, id, .kept rfl⟩
    · exact .moved trivial (by rw [hr]; rfl) (by rw [hr]; rfl) rfl rfl rfl rfl rfl rfl rfl rfl
  case reserved u =>
    split at h
    · cases h
      exact .moved trivial (by rw [hr]; rfl) (by rw [hr]; rfl) rfl rfl rfl rfl rfl rfl rfl rfl
    · next m rest hu =>
      cases h
      exact ⟨rfl, rfl, trivial, .taken u m rest hu rfl (by rw [hr]; rfl) rfl rfl, by rw [hr]; rfl, fun k hk => .inl hk, id,
        .kept rfl⟩
    · next m rest hu =>
      split at h
      · next hk =>
        cases h
        exact ⟨rfl, rfl, hk, .taken u m rest hu rfl (by rw [hr]; rfl) rfl rfl, by rw [hr]; rfl, fun k hk => .inl hk, id,
          .kept rfl⟩
      · cases h
        exact ⟨rfl, rfl, trivial, .taken u m rest hu rfl (by rw [hr]; rfl) rfl rfl, by rw [hr]; rfl, fun k hk => .inl hk, id,
          .kept rfl⟩
    · cases h
  case fence | route | dispatch | handling | dispatched | sending | checking | publishing | launching | opened | admitUnary |
      admitOpen =>
    (repeat' split at h) <;> cases h
    all_goals
      exact .moved (by trivial) (by rw [hr]; rfl) (by rw [hr]; rfl) rfl rfl rfl rfl rfl rfl rfl rfl
  case recovering m reply =>
    split at h <;> cases h
    exact .still hwf (by rw [hr]; rfl) (by rw [hr]; rfl) rfl rfl rfl rfl rfl (fun k hk => .inl hk) (fun ht => by simp [ht])
      (.kept rfl)
  case declined m | openUnary m =>
    split at h <;> cases h
    refine .still hwf (by rw [hr]; rfl) (by rw [hr]; rfl) rfl rfl rfl rfl rfl (fun k hk => ?_) id (.kept rfl)
    exact (mem_openObligation hk).imp_right fun _ => ⟨m, by rw [hr]; rfl, opens_of_unary hwf⟩
  case opening m =>
    split at h <;> cases h
    · exact .moved hwf (by rw [hr]; rfl) (by rw [hr]; rfl) rfl rfl rfl rfl rfl rfl rfl rfl
    · exact .moved hwf (by rw [hr]; rfl) (by rw [hr]; rfl) rfl rfl rfl rfl rfl rfl rfl rfl
    · refine .still hwf (by rw [hr]; rfl) (by rw [hr]; rfl) rfl rfl rfl rfl rfl (fun k hk => ?_) id (.kept rfl)
      exact (mem_openObligation hk).imp_right fun _ => ⟨m, by rw [hr]; rfl, opens_of_open hwf⟩
  case declining | closing =>
    split at h <;> cases h
    all_goals
      exact .still trivial (by rw [hr]; rfl) (by rw [hr]; rfl) rfl rfl rfl rfl rfl
        (fun k hk => .inl (mem_closeObligation hk)) id (.closed rfl)
  case retiring m exit =>
    split at h <;> cases h
    cases exit with
    | none | some =>
      exact ⟨rfl, rfl, trivial, .retired rfl rfl (by rw [hr]; rfl),
        by rw [hr]; simp only [Option.elim, Reader.reservations]; omega, fun k hk => .inl hk, id, .kept rfl⟩
  case exited =>
    cases h

/-! ## Places -/

def Unseen (s : Serving) (u : Bool) : Prop := ∀ m ∈ s.inbox u, m.opens = false

def HandClear (s : Serving) : Prop := ∀ m, s.reader.hand = some m → m.opens = false

theorem Unseen.read (h : s.Unseen u) (hs : ReadStep s t) : t.Unseen u := by
  intro m hm
  cases hs.custody with
  | kept hi | retired hi => exact h m (hi ▸ hm)
  | taken u' m' rest hu hi =>
    rw [hi] at hm
    by_cases huu : u = u'
    · subst huu
      rw [update_self] at hm
      exact h m (by rw [hu]; exact List.mem_cons_of_mem _ hm)
    · rw [update_of_ne huu] at hm
      exact h m hm

theorem HandClear.read (h : s.HandClear) (hu : ∀ u, s.Unseen u) (hs : ReadStep s t) : t.HandClear := by
  intro m hm
  cases hs.custody with
  | kept _ hh => exact h m (hh ▸ hm)
  | retired _ hh => rw [hh] at hm; cases hm
  | taken u m' rest hin _ _ hh =>
    rw [hh] at hm
    cases hm
    exact hu u m (by rw [hin]; exact List.mem_cons_self)

theorem obligations_read (h : s.HandClear) (ho : s.obligations = []) (hs : ReadStep s t) : t.obligations = [] := by
  rw [List.eq_nil_iff_forall_not_mem]
  intro k hk
  rcases hs.obligations k hk with hk | ⟨m, hm, hop⟩
  · rw [ho] at hk
    cases hk
  · rw [h m hm] at hop
    cases hop

def Placed (s : Serving) (m : Unread) : Prop := (∃ u, m ∈ s.inbox u) ∨ s.reader.hand = some m ∨ m ∈ s.disposed

theorem Placed.read (h : s.Placed m) (hs : ReadStep s t) : t.Placed m := by
  cases hs.custody with
  | kept hi hh hd => rwa [Placed, hi, hh, hd]
  | retired hi hh hd =>
    rw [Placed, hi, hd]
    rcases h with h | h | h
    · exact .inl h
    · exact .inr (.inr (List.mem_append_right _ (by simp [h])))
    · exact .inr (.inr (List.mem_append_left _ h))
  | taken u m' rest hin hi hnone hh hd =>
    rw [Placed, hh, hd]
    rcases h with ⟨u', h⟩ | h | h
    · by_cases huu : u' = u
      · subst huu
        rw [hin] at h
        rcases List.mem_cons.mp h with rfl | h
        · exact .inr (.inl rfl)
        · exact .inl ⟨u', by rw [hi, update_self]; exact h⟩
      · exact .inl ⟨u', by rw [hi, update_of_ne huu]; exact h⟩
    · rw [hnone] at h
      cases h
    · exact .inr (.inr h)

/-! ## Loads -/

/-- How many places the loads made so far have ruled out. -/
def Waiter.stage : Waiter → Nat
  | .idle | .waiting | .expired | .probing false false => 0
  | .probing false true => 1
  | .loading false => 2
  | .counting => 3
  | .tainting => 4
  | .probing true _ | .loading true | .quiescent => 5

/-- **What each load has ruled out stays ruled out.** -/
structure Seen (s : Serving) : Prop where
  first : 1 ≤ s.waiter.stage → s.Unseen false
  second : 2 ≤ s.waiter.stage → s.Unseen true
  hand : 3 ≤ s.waiter.stage → s.HandClear
  obligations : 4 ≤ s.waiter.stage → s.obligations = []
  taint : 5 ≤ s.waiter.stage → s.taintedAtClose = false

theorem Seen.unseen (h : s.Seen) (hs : 2 ≤ s.waiter.stage) (u : Bool) : s.Unseen u := by
  cases u with
  | false => exact h.first (by omega)
  | true => exact h.second hs

theorem Seen.read (h : s.Seen) (hs : ReadStep s t) : t.Seen := by
  have hw := hs.waiter
  refine ⟨fun hst => ?_, fun hst => ?_, fun hst => ?_, fun hst => ?_, fun hst => ?_⟩ <;> rw [hw] at hst
  · exact (h.first hst).read hs
  · exact (h.second hst).read hs
  · exact (h.hand hst).read (h.unseen (by omega)) hs
  · exact obligations_read (h.hand (by omega)) (h.obligations hst) hs
  · rw [hs.atClose.same (h.obligations (by omega))]
    exact h.taint hst

structure Aside (s t : Serving) : Prop where
  inbox : t.inbox = s.inbox
  reader : t.reader = s.reader
  waiter : t.waiter = s.waiter
  arrived : t.arrived = s.arrived
  disposed : t.disposed = s.disposed
  ingress : t.ingressPending = s.ingressPending
  obligations : ∀ k ∈ t.obligations, k ∈ s.obligations
  taint : s.tainted = true → t.tainted = true
  atClose : AtClose s t

theorem Aside.readStep (h : Aside s t) (hwf : s.reader.WF) : ReadStep s t :=
  .still (h.reader ▸ hwf) (by rw [h.reader]) (by rw [h.reader]) h.waiter h.arrived h.inbox h.disposed h.ingress
    (fun k hk => .inl (h.obligations k hk)) h.taint h.atClose

theorem aside_handle {st : Handler} (h : s.handle policy j st b = some t) : Aside s t := by
  unfold handle at h
  split at h
  case h_8 => cases h
  all_goals
    (repeat' split at h) <;> cases h
    all_goals exact ⟨rfl, rfl, rfl, rfl, rfl, rfl, fun _ hk => hk, fun ht => by first | exact ht | rfl, .kept rfl⟩

structure Inv (s : Serving) : Prop where
  wf : s.reader.WF
  ingress : s.ingressPending = s.reader.reservations
  atClose : s.taintedAtClose = true → s.tainted = true
  placed : ∀ m ∈ s.arrived, s.Placed m
  seen : s.Seen

/-- Call-opening frames arrive before the wait starts. -/
def Settled (s : Serving) : Act → Prop
  | .arrive _ f => s.waiter = .idle ∨ f.kind ≠ .unaryReq ∧ f.kind ≠ .streamOpen
  | _ => True

instance : ∀ {a : Act}, Decidable (Settled s a)
  | .arrive _ f => inferInstanceAs (Decidable (s.waiter = .idle ∨ f.kind ≠ .unaryReq ∧ f.kind ≠ .streamOpen))
  | .peerReceives | .fail | .read _ | .handler _ _ | .closeStream _ | .look _ | .expire => inferInstanceAs (Decidable True)

theorem Inv.start : Inv start := by
  refine ⟨trivial, rfl, nofun, nofun, ?_⟩
  refine ⟨fun h => ?_, fun h => ?_, fun h => ?_, fun h => ?_, fun h => ?_⟩ <;> simp [Serving.start, Waiter.stage] at h

theorem Inv.read (h : s.Inv) (hs : ReadStep s t) : t.Inv := by
  refine ⟨hs.wf, ?_, fun ht => ?_, fun m hm => ?_, h.seen.read hs⟩
  · have hi := h.ingress
    have hd := hs.ingress
    omega
  · rcases hs.atClose.read ht with hc | hc
    · exact hs.taint (h.atClose hc)
    · exact hs.taint hc
  · exact (h.placed m (hs.arrived ▸ hm)).read hs

theorem Inv.wait (h : s.Inv) (hs : Seen { s with waiter := w, wake }) : Inv { s with waiter := w, wake } :=
  ⟨h.wf, h.ingress, h.atClose, h.placed, hs⟩

theorem Seen.start (h : w.stage = 0) : Seen { s with waiter := w, wake } := by
  refine ⟨fun hst => ?_, fun hst => ?_, fun hst => ?_, fun hst => ?_, fun hst => ?_⟩ <;> simp [h] at hst

theorem hand_of_parked (h : s.ingressPending = s.reader.reservations) (h0 : s.ingressPending = 0) : s.reader.hand = none := by
  rw [h0] at h
  cases hr : s.reader with
  | parked | exited => rfl
  | _ =>
    rw [hr] at h
    simp [Reader.reservations] at h

/-- **One load more.** -/
theorem Inv.look {spurious : Bool} (h : s.Inv) (hl : s.look spurious = some t) : t.Inv := by
  have hseen := h.seen
  cases hw : s.waiter <;> simp only [Serving.look, hw] at hl
  case idle =>
    cases hl
    exact h.wait (.start rfl)
  case probing again u =>
    split at hl
    · cases hl
      exact h.wait (.start rfl)
    next hempty =>
    have hu : s.Unseen u := by
      have : s.inbox u = [] := by
        by_contra hne
        exact hempty (.inr (.inr hne))
      intro m hm
      rw [this] at hm
      cases hm
    cases hl
    cases again with
    | true =>
      have hst : 5 ≤ s.waiter.stage := by rw [hw]; exact Nat.le_refl 5
      refine h.wait ⟨fun _ => hseen.first (by omega), fun _ => hseen.second (by omega), fun _ => hseen.hand (by omega),
        fun _ => hseen.obligations (by omega), fun _ => hseen.taint hst⟩
    | false =>
      cases u with
      | false =>
        refine h.wait ⟨fun _ => hu, fun hst => ?_, fun hst => ?_, fun hst => ?_, fun hst => ?_⟩ <;>
          simp [Waiter.stage] at hst
      | true =>
        refine h.wait ⟨fun _ => hseen.first (by rw [hw]; exact Nat.le_refl 1), fun _ => hu, fun hst => ?_, fun hst => ?_,
          fun hst => ?_⟩ <;> simp [Waiter.stage] at hst
  case loading again =>
    split at hl
    · cases hl
      exact h.wait (.start rfl)
    next hzero =>
    have hhand : s.HandClear := fun m hm => by
      rw [hand_of_parked h.ingress (not_not.mp hzero)] at hm
      cases hm
    cases hl
    cases again with
    | true =>
      have hst : 5 ≤ s.waiter.stage := by rw [hw]; exact Nat.le_refl 5
      exact h.wait ⟨fun _ => hseen.first (by omega), fun _ => hseen.second (by omega), fun _ => hhand,
        fun _ => hseen.obligations (by omega), fun _ => hseen.taint hst⟩
    | false =>
      have hst : 2 ≤ s.waiter.stage := by rw [hw]; exact Nat.le_refl 2
      refine h.wait ⟨fun _ => hseen.first (by omega), fun _ => hseen.second hst, fun _ => hhand, fun hst => ?_, fun hst => ?_⟩ <;>
        simp [Waiter.stage] at hst
  case counting =>
    cases hl
    split
    · next hnil =>
      have hst : 3 ≤ s.waiter.stage := by rw [hw]; exact Nat.le_refl 3
      refine h.wait ⟨fun _ => hseen.first (by omega), fun _ => hseen.second (by omega), fun _ => hseen.hand hst, fun _ => hnil,
        fun hst => ?_⟩
      simp [Waiter.stage] at hst
    · exact h.wait (.start rfl)
  case tainting =>
    cases hl
    split
    · exact h.wait (.start rfl)
    · next hclear =>
      have hst : 4 ≤ s.waiter.stage := by rw [hw]; exact Nat.le_refl 4
      refine h.wait ⟨fun _ => hseen.first (by omega), fun _ => hseen.second (by omega), fun _ => hseen.hand (by omega),
        fun _ => hseen.obligations hst, fun _ => ?_⟩
      -- a taint that a close had read would still be there
      by_contra hc
      exact hclear (by simp [h.atClose (by simpa using hc)])
  case waiting =>
    split at hl <;> cases hl
    exact h.wait (.start rfl)
  case quiescent | expired =>
    cases hl

theorem mem_push {inbox : Bool → List Unread} {u' : Bool} {x : Unread} :
    m ∈ update inbox u (inbox u ++ [x]) u' ↔ m ∈ inbox u' ∨ u' = u ∧ m = x := by
  by_cases huu : u' = u
  · subst huu
    simp
  · simp [huu]

theorem Inv.arrive {f : Frame} (h : s.Inv) (hg : s.waiter = .idle ∨ f.kind ≠ .unaryReq ∧ f.kind ≠ .streamOpen)
    (hs : s.step policy (.arrive u f) = some t) : t.Inv := by
  cases hs
  have hunseen : ∀ u', 1 ≤ s.waiter.stage → s.Unseen u' → Unseen { s with
      inbox := update s.inbox u (s.inbox u ++ [⟨s.arrived.length, f, s.peerSaw⟩]) } u' := by
    intro u' hst hu m hm
    rcases mem_push.mp hm with hm | ⟨-, rfl⟩
    · exact hu m hm
    rcases hg with hidle | ⟨h1, h2⟩
    · rw [hidle] at hst
      cases hst
    · simp [Unread.opens, h1, h2]
  refine ⟨h.wf, h.ingress, h.atClose, fun m hm => ?_, fun hst => hunseen _ hst (h.seen.first hst),
    fun hst => hunseen _ (by simp only at hst; omega) (h.seen.second hst), h.seen.hand, h.seen.obligations, h.seen.taint⟩
  rcases List.mem_append.mp hm with hm | hm
  · rcases h.placed m hm with ⟨u', hp⟩ | hp | hp
    · exact .inl ⟨u', mem_push.mpr (.inl hp)⟩
    · exact .inr (.inl hp)
    · exact .inr (.inr hp)
  · exact .inl ⟨u, mem_push.mpr (.inr ⟨rfl, List.mem_singleton.mp hm⟩)⟩

theorem Inv.step {b : Act} (h : s.Inv) (hg : Settled s b) (hs : s.step policy b = some t) : t.Inv := by
  cases b with
  | arrive u f => exact h.arrive hg hs
  | read b => exact h.read (readStep hs h.wf)
  | look spurious => exact h.look hs
  | handler j b =>
    simp only [Serving.step] at hs
    split at hs
    · exact h.read ((aside_handle hs).readStep h.wf)
    · cases hs
  | closeStream j =>
    simp only [Serving.step] at hs
    split at hs <;> cases hs
    exact h.read (Aside.readStep ⟨rfl, rfl, rfl, rfl, rfl, rfl, fun k hk => mem_closeObligation hk, id, .closed rfl⟩ h.wf)
  | peerReceives =>
    obtain ⟨-, ⟨⟩⟩ := guard_some hs
    exact h.read (Aside.readStep ⟨rfl, rfl, rfl, rfl, rfl, rfl, fun k hk => hk, id, .kept rfl⟩ h.wf)
  | fail =>
    cases hs
    exact h.read (Aside.readStep ⟨rfl, rfl, rfl, rfl, rfl, rfl, fun k hk => hk, id, .kept rfl⟩ h.wf)
  | expire =>
    obtain ⟨-, ⟨⟩⟩ := guard_some hs
    exact h.wait (.start rfl)

theorem reach_inv (h : Reach (step policy) Settled start s) : s.Inv := h.invariant .start fun hi hg hs => hi.step hg hs

/-! ## Quiescence -/

/-- **Quiescence soundness.** If every call-opening frame was with the transport before the wait started: once the wait has
answered, each of them is consumed and disposed of, no obligation is open, and no taint had been recorded when the last of
them closed. -/
theorem quiescence_sound (policy : Bool) (s : Serving) (h : Reach (step policy) Settled start s) :
    (s.waiter = .quiescent →
      (∀ m ∈ s.arrived, m.opens = true → m ∈ s.disposed) ∧ s.obligations = [] ∧ s.taintedAtClose = false) ∧
    0 ≤ s.ingressPending ∧ (s.reader = .parked → s.ingressPending = 0) := by
  have hi := reach_inv h
  refine ⟨fun hw => ?_, ?_, fun hr => ?_⟩
  · have hst : 5 ≤ s.waiter.stage := by rw [hw]; exact Nat.le_refl 5
    refine ⟨fun m hm hop => ?_, hi.seen.obligations (by omega), hi.seen.taint hst⟩
    rcases hi.placed m hm with ⟨u, hu⟩ | hh | hd
    · rw [hi.seen.unseen (by omega) u m hu] at hop
      cases hop
    · rw [hi.seen.hand (by omega) m hh] at hop
      cases hop
    · exact hd
  · rw [hi.ingress]
    cases s.reader <;> simp [Reader.reservations]
  · rw [hi.ingress, hr]
    rfl

def looks : List Act := List.replicate 9 (.look false)

def sampleRequest : Frame := ⟨1, .unaryReq, 1, 1, 0, [], none, 0⟩

def servedActs : List Act :=
  [.arrive false sampleRequest, .read (.reserve false), .read .take, .read .next, .read .next, .read .next, .read .next,
   .read .enter, .read (.handlerReturns true), .read .next, .read .sent, .read .next, .read .next, .read .next] ++ looks

def servedEnd : Serving := (run (guarded (step false) Settled) start servedActs).get (by decide +kernel)

theorem quiescence_sound_served : servedEnd.waiter = .quiescent ∧ servedEnd.arrived.length = 1 ∧
    (∀ m ∈ servedEnd.arrived, m.opens = true → m ∈ servedEnd.disposed) ∧ servedEnd.obligations = [] ∧
    servedEnd.taintedAtClose = false := by
  have hw : servedEnd.waiter = .quiescent := by decide +kernel
  exact ⟨hw, by decide +kernel, (quiescence_sound false servedEnd (Reach.of_guarded (Option.some_get _).symm)).1 hw⟩

/-! ## Handlers -/

def Handler.live : Handler → Bool
  | .accepted | .running => true
  | _ => false

def Reader.pending : Reader → Option Nat
  | .publishing _ j | .launching _ j => some j
  | _ => none

/-- The call whose obligation a step closes. -/
def closes (s : Serving) : Act → Option UInt64
  | .closeStream j => s.streams[j]?.map (·.m.call)
  | .read _ =>
    match s.reader with
    | .closing m | .declining m => some m.call
    | _ => none
  | _ => none

/-- An obligation closes once the call's stream handler has returned, and not before. -/
def Kept (s : Serving) (a : Act) : Prop := ∀ st ∈ s.streams, s.closes a = some st.m.call → st.handler.live = false

structure Owed (s : Serving) : Prop where
  owed : ∀ st ∈ s.streams, st.handler.live = true → st.m.call ∈ s.obligations
  pending : ∀ j, s.reader.pending = some j → ∃ st, s.streams[j]? = some st ∧ st.handler = .accepted

theorem mem_setStream {h : Handler} (hst : st ∈ (s.setStream j h).streams) :
    st ∈ s.streams ∨ ∃ old, s.streams[j]? = some old ∧ st = { old with handler := h } := by
  obtain ⟨i, hi⟩ := List.mem_iff_getElem?.mp hst
  simp only [setStream, List.getElem?_modify] at hi
  obtain ⟨old, hold, rfl⟩ := Option.map_eq_some_iff.mp hi
  split
  · next hij =>
    subst hij
    exact .inr ⟨old, hold, rfl⟩
  · exact .inl (List.mem_of_getElem? hold)

theorem Owed.start : Owed start := ⟨(fun st hst => by cases hst), (fun j hj => by cases hj)⟩

theorem Owed.grow (h : s.Owed) (hst : t.streams = s.streams) (ho : ∀ k ∈ s.obligations, k ∈ t.obligations)
    (hp : ∀ j, t.reader.pending = some j → s.reader.pending = some j) : t.Owed :=
  ⟨fun st hm hl => ho _ (h.owed st (hst ▸ hm) hl), fun j hj => hst ▸ h.pending j (hp j hj)⟩

theorem Owed.closed (h : s.Owed) (hk : ∀ st ∈ s.streams, call = st.m.call → st.handler.live = false)
    (hst : t.streams = s.streams) (ho : t.obligations = s.obligations.filter (· ≠ call))
    (hp : ∀ j, t.reader.pending = some j → s.reader.pending = some j) : t.Owed := by
  refine ⟨fun st hm hl => ?_, fun j hj => hst ▸ h.pending j (hp j hj)⟩
  rw [hst] at hm
  rw [ho, List.mem_filter]
  refine ⟨h.owed st hm hl, decide_eq_true fun hc => ?_⟩
  rw [hk st hm hc.symm] at hl
  cases hl

theorem Owed.moved {hd : Handler} (h : s.Owed) (hst : t.streams = (s.setStream j hd).streams)
    (ho : t.obligations = s.obligations) (hlive : hd.live = true → ∀ st, s.streams[j]? = some st → st.handler.live = true)
    (hp : ∀ i, t.reader.pending = some i → s.reader.pending = some i ∧ i ≠ j) : t.Owed := by
  refine ⟨fun st hm hl => ?_, fun i hi => ?_⟩
  · rw [ho]
    rw [hst] at hm
    rcases mem_setStream hm with hm | ⟨old, hold, rfl⟩
    · exact h.owed st hm hl
    · exact h.owed old (List.mem_of_getElem? hold) (hlive hl old hold)
  · obtain ⟨hpend, hne⟩ := hp i hi
    obtain ⟨st, hget, hacc⟩ := h.pending i hpend
    refine ⟨st, ?_, hacc⟩
    simp [hst, setStream, Ne.symm hne, hget]

theorem obligations_grow (hk : k ∈ s.obligations) : k ∈ (s.openObligation call).obligations := by
  simp only [openObligation]
  split
  · exact hk
  · exact List.mem_cons_of_mem _ hk

theorem Owed.read (h : s.Owed) (hk : Kept s (.read a)) (hs : s.read policy a = some t) : t.Owed := by
  simp only [Kept, closes] at hk
  cases hr : s.reader <;> simp only [Serving.read, hr, beginAdmit] at hs
  case parked | reserved | fence | route | dispatch | handling | recovering | dispatched | sending | checking | opened | exited |
      admitUnary | admitOpen =>
    (repeat' split at hs) <;> cases hs
    all_goals exact h.grow rfl (fun _ hk => hk) nofun
  case retiring m exit =>
    split at hs <;> cases hs
    cases exit with
    | none | some => exact h.grow rfl (fun _ hk => hk) nofun
  case declined | openUnary =>
    split at hs <;> cases hs
    exact h.grow rfl (fun _ hk => obligations_grow hk) nofun
  case declining m | closing m =>
    simp only [hr, Option.some.injEq] at hk
    split at hs <;> cases hs
    all_goals exact h.closed hk rfl rfl nofun
  case opening m =>
    split at hs <;> cases hs
    · exact h.grow rfl (fun _ hk => hk) nofun
    · exact h.grow rfl (fun _ hk => hk) nofun
    · refine ⟨fun st hm hl => ?_, fun j hj => ?_⟩
      · rcases List.mem_append.mp hm with hm | hm
        · exact obligations_grow (h.owed st hm hl)
        · rw [List.mem_singleton.mp hm]
          simp only [openObligation]
          split
          · assumption
          · exact List.mem_cons_self
      · cases hj
        exact ⟨⟨m, .accepted⟩, by simp, rfl⟩
  case publishing m j =>
    split at hs <;> cases hs
    · exact h.grow rfl (fun _ hk => hk) (fun i hi => by rw [hr]; exact hi)
    · exact h.moved rfl rfl nofun nofun
  case launching m j =>
    split at hs <;> cases hs
    refine h.moved rfl rfl (fun _ st hst => ?_) nofun
    obtain ⟨st', hget, hacc⟩ := h.pending j (by rw [hr]; rfl)
    rw [hst] at hget
    cases hget
    rw [hacc]
    rfl

theorem Owed.handle (h : s.Owed) (hst : s.streams[j]? = some st) (hs : s.handle policy j st.handler b = some t) : t.Owed := by
  have hp : ∀ i, s.reader.pending = some i → st.handler ≠ .accepted → s.reader.pending = some i ∧ i ≠ j := by
    rintro i hi hne
    refine ⟨hi, ?_⟩
    rintro rfl
    obtain ⟨st', hget, hacc⟩ := h.pending i hi
    rw [hst] at hget
    cases hget
    exact hne hacc
  cases hh : st.handler with
  | accepted | dropped | returned =>
    rw [hh] at hs
    cases b <;> cases hs
  | running | storing | stored | recorded | terminated =>
    rw [hh] at hs hp
    cases b <;> cases hs
    all_goals exact h.moved rfl rfl nofun fun i hi => hp i hi (by simp)
  | panicked =>
    rw [hh] at hs hp
    cases b <;> simp only [Serving.handle] at hs <;> (repeat' split at hs) <;> cases hs
    all_goals exact h.moved rfl rfl nofun fun i hi => hp i hi (by simp)

theorem Owed.step {b : Act} (h : s.Owed) (hk : Kept s b) (hs : s.step policy b = some t) : t.Owed := by
  cases b with
  | read b => exact h.read hk hs
  | handler j b =>
    simp only [Serving.step] at hs
    split at hs
    · next st hst => exact h.handle hst hs
    · cases hs
  | closeStream j =>
    simp only [Serving.step] at hs
    split at hs <;> cases hs
    next st hst =>
    exact h.closed (fun st' hm hc => hk st' hm (by simp [closes, hst, hc])) rfl rfl fun _ hj => hj
  | arrive u f | fail =>
    cases hs
    exact h.grow rfl (fun _ hk => hk) fun _ hj => hj
  | peerReceives | expire =>
    obtain ⟨-, ⟨⟩⟩ := guard_some hs
    exact h.grow rfl (fun _ hk => hk) fun _ hj => hj
  | look spurious =>
    simp only [Serving.step, Serving.look] at hs
    (repeat' split at hs) <;> cases hs
    all_goals exact h.grow rfl (fun _ hk => hk) fun _ hj => hj

/-- **No handler runs once the wait has answered**, in a run where no obligation closes ahead of its stream's handler. -/
theorem quiescent_idle (policy : Bool) (s : Serving) (h : Reach (step policy) (fun s a => Settled s a ∧ Kept s a) start s)
    (hw : s.waiter = .quiescent) : (∀ st ∈ s.streams, st.handler ≠ .running) ∧ ∀ m, s.reader ≠ .handling m := by
  have hi := reach_inv (h.mono fun _ _ hg => hg.1)
  have ho : s.Owed := h.invariant .start fun ho hg hs => ho.step hg.2 hs
  have hst : 5 ≤ s.waiter.stage := by rw [hw]; exact Nat.le_refl 5
  refine ⟨fun st hm hrun => ?_, fun m hm => ?_⟩
  · have howed := ho.owed st hm (by rw [hrun]; rfl)
    rw [hi.seen.obligations (by omega)] at howed
    cases howed
  · have hclear := hi.seen.hand (by omega) m (by rw [hm]; rfl)
    have hwf := hi.wf
    rw [hm] at hwf
    rw [opens_of_unary hwf] at hclear
    cases hclear

def sampleOpen : Frame := ⟨2, .streamOpen, 1, 1, 0, [], none, 0⟩

/-- A stream accepted, its handler launched. -/
def launchActs : List Act :=
  [.arrive false sampleOpen, .read (.reserve false), .read .take, .read .next, .read .next, .read .next, .read .accept,
   .read (.publish true), .read .next, .read .next, .read .next]

/-- The peer cancels while the handler runs. -/
def cancelledEnd : Serving :=
  (run (guarded (step false) Settled) start (launchActs ++ [.closeStream 0] ++ looks)).get (by decide +kernel)

/-- **The wait answers with a handler running**: the stream's terminal has closed its obligation, and nobody has waited for
its handler. -/
theorem quiescent_running :
    ¬ ∀ (policy : Bool) (s : Serving), Reach (step policy) Settled start s → s.waiter = .quiescent →
      ∀ st ∈ s.streams, st.handler ≠ .running := by
  intro h
  have hend := h false cancelledEnd (Reach.of_guarded (Option.some_get _).symm) (by decide +kernel)
  exact absurd hend (by decide +kernel)

instance {a : Act} : Decidable (Kept s a) :=
  inferInstanceAs (Decidable (∀ st ∈ s.streams, s.closes a = some st.m.call → st.handler.live = false))

/-- The handler has returned when the stream's terminal closes its obligation. -/
def returnedEnd : Serving :=
  (run (guarded (step false) fun s a => Settled s a ∧ Kept s a) start
    (launchActs ++ [.handler 0 .returns, .closeStream 0] ++ looks)).get (by decide +kernel)

theorem quiescent_idle_returned : returnedEnd.waiter = .quiescent ∧ returnedEnd.streams.length = 1 ∧
    ∀ st ∈ returnedEnd.streams, st.handler ≠ .running :=
  ⟨by decide +kernel, by decide +kernel,
    (quiescent_idle false returnedEnd (Reach.of_guarded (Option.some_get _).symm) (by decide +kernel)).1⟩

end Serving

end Styx
