/-
The observation dispatcher: any number of `Submit` calls and the goroutine of `Run` on one
bounded channel, with drop-oldest, the producer join, the cutoff and the drop reports.

A `Submit` takes the oldest event before it counts it dropped, and has enqueued its own
before it returns. So the books close over what a call has done so far, not over the calls
that have returned (`Inv.books`).
-/
import Styx.Lib.Machine

namespace Styx

open Machine
open scoped List

/-- Where a `Submit` stands. -/
inductive SubmitPc
  | called
  /-- The read lock is held from here. -/
  | locked
  | sending
  | full
  /-- The oldest event is taken, and not yet counted. -/
  | evicted
  /-- Enqueued, with the lock still held. -/
  | sent
  /-- The dispatcher was stopped; the lock is released and the drop not yet counted. -/
  | refused
  | returned
  deriving DecidableEq

/-- Whether the call has seen the dispatcher running and not yet released the lock. -/
def SubmitPc.within : SubmitPc → Bool
  | .sending | .full | .evicted | .sent => true
  | _ => false

/-- `Run` still to be called has taken nothing, as one that `serving` has. -/
inductive RunPhase
  | serving | joining | cutoff | draining | reporting | returned
  deriving DecidableEq

/-- An event is known by the number of the `Submit` that brought it, in the order the calls
began. `order` is what was enqueued, `events` what `invoke` has finished, `reports` what
`onDropReport` was called with. -/
structure Dispatcher where
  capacity : Nat
  hasJoin : Bool
  selfReports : Bool
  ch : List Nat
  stopped : Bool
  dropped : Nat
  delivered : Nat
  panics : Nat
  phase : RunPhase
  invoking : Option Nat
  joined : Bool
  submits : List SubmitPc
  order : List Nat
  events : List Nat
  reports : List Nat
  deriving DecidableEq

namespace Dispatcher

def newDispatcher (bufSize : Int) (hasJoin selfReports : Bool) : Dispatcher where
  capacity := if bufSize < 1 then 1 else bufSize.toNat
  hasJoin := hasJoin
  selfReports := selfReports
  ch := []
  stopped := false
  dropped := 0
  delivered := 0
  panics := 0
  phase := .serving
  invoking := none
  joined := false
  submits := []
  order := []
  events := []
  reports := []

inductive Act
  /-- A producer calls `Submit`. -/
  | call
  | submit (i : Nat)
  | take
  /-- The observer's call ends, by a panic or not. -/
  | invoked (panicked : Bool)
  | tick
  | ctxDone
  /-- `joinProducers` returns, on its own goroutine. -/
  | join
  | sawJoined
  | cutoff
  | drain
  | report
  deriving DecidableEq

/-- The next step of a `Submit`. -/
def submit (d : Dispatcher) (i : Nat) : Option Dispatcher :=
  match d.submits[i]? with
  | some .called => some { d with submits := d.submits.set i .locked }
  | some .locked => some { d with submits := d.submits.set i (if d.stopped then .refused else .sending) }
  | some .sending =>
    if d.ch.length < d.capacity then
      some { d with submits := d.submits.set i .sent, ch := d.ch ++ [i], order := d.order ++ [i] }
    else some { d with submits := d.submits.set i .full }
  | some .full =>
    match d.ch with
    -- Another has drained a slot already.
    | [] => some { d with submits := d.submits.set i .sending }
    | _ :: rest => some { d with submits := d.submits.set i .evicted, ch := rest }
  | some .evicted => some { d with submits := d.submits.set i .sending, dropped := d.dropped + 1 }
  | some .sent => some { d with submits := d.submits.set i .returned }
  | some .refused => some { d with submits := d.submits.set i .returned, dropped := d.dropped + 1 }
  | _ => none

/-- Whether the dispatcher's goroutine is at a `select` that delivers. -/
def delivers (d : Dispatcher) : Bool := d.invoking = none ∧ (d.phase = .serving ∨ d.phase = .joining)

def step (d : Dispatcher) : Act → Option Dispatcher
  | .call => some { d with submits := d.submits ++ [.called] }
  | .submit i => d.submit i
  | .take =>
    if d.delivers then
      match d.ch with
      | [] => none
      | fn :: rest => some { d with ch := rest, invoking := some fn }
    else none
  | .invoked panicked =>
    match d.invoking with
    | none => none
    | some fn =>
      some { d with
        invoking := none, events := d.events ++ [fn], delivered := d.delivered + 1
        panics := d.panics + if panicked then 1 else 0 }
  | .tick => if d.delivers ∧ d.selfReports then some { d with reports := d.reports ++ [d.dropped] } else none
  | .ctxDone =>
    if d.invoking = none ∧ d.phase = .serving then some { d with phase := if d.hasJoin then .joining else .cutoff } else none
  | .join => if d.phase = .joining then some { d with joined := true } else none
  | .sawJoined =>
    if d.invoking = none ∧ d.phase = .joining ∧ d.joined then some { d with phase := .cutoff } else none
  | .cutoff =>
    -- The write lock is granted once no `Submit` holds the read lock.
    if d.phase = .cutoff ∧ ∀ pc ∈ d.submits, pc ≠ .locked ∧ pc.within = false then
      some { d with stopped := true, phase := .draining } else none
  | .drain =>
    if d.invoking = none ∧ d.phase = .draining then
      match d.ch with
      | [] => some { d with phase := if d.selfReports then .reporting else .returned }
      | fn :: rest => some { d with ch := rest, invoking := some fn }
    else none
  | .report =>
    if d.phase = .reporting then some { d with phase := .returned, reports := d.reports ++ [d.dropped] } else none

/-! ## The books -/

/-- Events handed to the observer whose call has not returned. -/
def inDelivery (d : Dispatcher) : Nat := d.invoking.toList.length

structure Inv (d : Dispatcher) : Prop where
  books : d.submits.count .returned + d.submits.count .sent =
    d.delivered + d.dropped + d.ch.length + d.inDelivery + d.submits.count .evicted
  counted : d.events.length = d.delivered
  /-- What has left the channel left it in order, and was delivered or evicted. -/
  fifo : ∃ out, d.order = out ++ d.ch ∧ d.events ++ d.invoking.toList <+ out
  enqueued : ∀ i ∈ d.order, d.submits[i]? = some .sent ∨ d.submits[i]? = some .returned
  once : d.order.Nodup
  fenced : d.stopped = true → ∀ pc ∈ d.submits, pc.within = false
  draining : d.phase = .draining → d.stopped = true
  done : d.phase = .reporting ∨ d.phase = .returned → d.stopped = true ∧ d.ch = [] ∧ d.invoking = none

variable {d d' : Dispatcher} {i dropped : Nat} {pc pc' : SubmitPc} {ch order : List Nat} {a : Act}

theorem inv_new (bufSize : Int) (hasJoin selfReports : Bool) : (newDispatcher bufSize hasJoin selfReports).Inv := by
  refine ⟨rfl, rfl, ⟨[], rfl, .slnil⟩, by simp [newDispatcher], .nil, by simp [newDispatcher], ?_, ?_⟩ <;>
    simp [newDispatcher]

theorem count_set {pcs : List SubmitPc} (h : pcs[i]? = some pc) (pc' x : SubmitPc) :
    (pcs.set i pc').count x + [pc].count x = pcs.count x + [pc'].count x := by
  obtain ⟨hi, rfl⟩ := List.getElem?_eq_some_iff.mp h
  have hpos : pcs[i] = x → 0 < pcs.count x := fun hx => List.count_pos_iff.mpr (hx ▸ List.getElem_mem hi)
  rw [List.count_set hi]
  simp only [List.count_singleton, beq_iff_eq]
  split <;> split <;> simp_all

/-- **A step of one `Submit`**, by what it does to the channel and the books. -/
theorem Inv.move (h : d.Inv) (hpc : d.submits[i]? = some pc)
    (hbooks : [pc'].count .returned + [pc'].count .sent + d.dropped + d.ch.length + [pc].count .evicted =
      [pc].count .returned + [pc].count .sent + dropped + ch.length + [pc'].count .evicted)
    (hfifo : ∃ out, order = out ++ ch ∧ d.events ++ d.invoking.toList <+ out)
    (horder : order = d.order ∧ (pc = .sent ∨ pc = .returned → pc' = .returned) ∨
      order = d.order ++ [i] ∧ pc = .sending ∧ pc' = .sent)
    (hstop : d.stopped = true → pc.within = false → pc'.within = false ∧ (d.ch = [] → ch = [])) :
    Inv { d with submits := d.submits.set i pc', ch, order, dropped } := by
  have hi : i < d.submits.length := (List.getElem?_eq_some_iff.mp hpc).1
  have henq := h.enqueued
  have hstop := fun hs => hstop hs (h.fenced hs pc (List.mem_of_getElem? hpc))
  refine ⟨?_, h.counted, hfifo, fun j hj => ?_, ?_, fun hs pc hmem => ?_, h.draining, fun hp => ?_⟩
  · have hr := count_set hpc pc' .returned
    have hs := count_set hpc pc' .sent
    have he := count_set hpc pc' .evicted
    have := h.books
    simp only [inDelivery] at this ⊢
    omega
  · show (d.submits.set i pc')[j]? = _ ∨ (d.submits.set i pc')[j]? = _
    by_cases hij : i = j
    · subst hij
      rw [List.getElem?_set_self hi]
      rcases horder with ⟨rfl, hkeep⟩ | ⟨-, -, rfl⟩
      · have := henq i hj
        rw [hpc] at this
        exact .inr (by rw [hkeep (by simpa using this)])
      · exact .inl rfl
    · rw [List.getElem?_set_ne hij]
      rcases horder with ⟨rfl, -⟩ | ⟨rfl, -, -⟩
      · exact henq j hj
      · exact henq j ((List.mem_append.mp hj).resolve_right (by simpa using Ne.symm hij))
  · rcases horder with ⟨rfl, -⟩ | ⟨rfl, rfl, -⟩
    · exact h.once
    · refine List.nodup_append.mpr ⟨h.once, by simp, fun j hj j' hj' hjj => ?_⟩
      obtain rfl := List.mem_singleton.mp hj'
      have := henq j hj
      rw [hjj, hpc] at this
      simp at this
  · rcases List.mem_or_eq_of_mem_set hmem with hold | rfl
    · exact h.fenced hs pc hold
    · exact (hstop hs).1
  · obtain ⟨hs, hch, hinv⟩ := h.done hp
    exact ⟨hs, (hstop hs).2 hch, hinv⟩

theorem Inv.submit (h : d.Inv) (hs : d.submit i = some d') : d'.Inv := by
  obtain ⟨out, hout, hsub⟩ := h.fifo
  unfold Dispatcher.submit at hs
  split at hs
  · next hpc =>
    cases hs
    exact h.move hpc rfl h.fifo (.inl ⟨rfl, by simp⟩) fun _ _ => ⟨rfl, id⟩
  · next hpc =>
    cases hs
    refine h.move hpc ?_ h.fifo (.inl ⟨rfl, by simp⟩) fun hst _ => ⟨by rw [if_pos hst]; rfl, id⟩
    split <;> rfl
  · next hpc =>
    split at hs <;> cases hs
    · refine h.move hpc ?_ ⟨out, by rw [hout, List.append_assoc], hsub⟩ (.inr ⟨rfl, rfl, rfl⟩) nofun
      simp
      omega
    · exact h.move hpc rfl h.fifo (.inl ⟨rfl, by simp⟩) nofun
  · next hpc =>
    split at hs <;> cases hs
    · exact h.move hpc rfl h.fifo (.inl ⟨rfl, by simp⟩) nofun
    · next v rest hch =>
      refine h.move hpc ?_ ⟨out ++ [v], by simp [hout, hch], hsub.trans (List.sublist_append_left _ _)⟩
        (.inl ⟨rfl, by simp⟩) nofun
      simp [hch]
      omega
  · next hpc =>
    cases hs
    refine h.move hpc ?_ h.fifo (.inl ⟨rfl, by simp⟩) nofun
    simp
    omega
  · next hpc =>
    cases hs
    exact h.move hpc rfl h.fifo (.inl ⟨rfl, by simp⟩) fun _ _ => ⟨rfl, id⟩
  · next hpc =>
    cases hs
    refine h.move hpc ?_ h.fifo (.inl ⟨rfl, by simp⟩) fun _ _ => ⟨rfl, id⟩
    simp
    omega
  · cases hs

theorem Inv.taken {fn : Nat} (h : d.Inv) (hidle : d.invoking = none) (hch : d.ch = fn :: ch)
    (hphase : d.phase ≠ .reporting ∧ d.phase ≠ .returned) : Inv { d with ch, invoking := some fn } := by
  obtain ⟨out, hout, hsub⟩ := h.fifo
  refine ⟨?_, h.counted, ⟨out ++ [fn], by simp [hout, hch], ?_⟩, h.enqueued, h.once, h.fenced, h.draining, fun hp => ?_⟩
  · have := h.books
    simp only [inDelivery, hidle, hch, Option.toList, List.length_cons, List.length_nil] at this ⊢
    omega
  · rw [hidle] at hsub
    simpa using hsub.append_right [fn]
  · simp [hphase] at hp

theorem Inv.step (h : d.Inv) (hs : d.step a = some d') : d'.Inv := by
  cases a with
  | call =>
    cases hs
    refine ⟨?_, h.counted, h.fifo, fun i hi => ?_, h.once, fun hst pc hmem => ?_, h.draining, h.done⟩
    · simpa [List.count_append, inDelivery] using h.books
    · have hlen : i < d.submits.length := by
        rcases h.enqueued i hi with hpc | hpc <;> exact (List.getElem?_eq_some_iff.mp hpc).1
      simpa only [List.getElem?_append_left hlen] using h.enqueued i hi
    · rcases List.mem_append.mp hmem with hold | hnew
      · exact h.fenced hst pc hold
      · rw [List.mem_singleton.mp hnew]
        rfl
  | submit i => exact h.submit hs
  | take =>
    obtain ⟨hdel, hs⟩ := guard_some hs
    simp only [delivers, decide_eq_true_eq] at hdel
    split at hs <;> cases hs
    next fn rest hch => exact h.taken hdel.1 hch (by rcases hdel.2 with hp | hp <;> simp [hp])
  | invoked panicked =>
    simp only [Dispatcher.step] at hs
    split at hs <;> cases hs
    next fn hfn =>
    refine ⟨?_, by simp [h.counted], ?_, h.enqueued, h.once, h.fenced, h.draining, fun hp => ?_⟩
    · have := h.books
      simp only [inDelivery, hfn, Option.toList, List.length_cons, List.length_nil] at this ⊢
      omega
    · obtain ⟨out, hout, hsub⟩ := h.fifo
      exact ⟨out, hout, by simpa [hfn] using hsub⟩
    · exact ⟨(h.done hp).1, (h.done hp).2.1, rfl⟩
  | tick | join =>
    obtain ⟨-, ⟨⟩⟩ := guard_some hs
    exact { h with }
  | ctxDone =>
    obtain ⟨-, ⟨⟩⟩ := guard_some hs
    exact { h with draining := by split <;> simp, done := by split <;> simp }
  | sawJoined =>
    obtain ⟨-, ⟨⟩⟩ := guard_some hs
    exact { h with draining := by simp, done := by simp }
  | cutoff =>
    obtain ⟨hg, ⟨⟩⟩ := guard_some hs
    exact { h with fenced := fun _ pc hmem => (hg.2 pc hmem).2, draining := fun _ => rfl, done := by simp }
  | drain =>
    obtain ⟨hg, hs⟩ := guard_some hs
    split at hs <;> cases hs
    · next hch => exact { h with draining := by split <;> simp, done := fun _ => ⟨h.draining hg.2, hch, hg.1⟩ }
    · next fn rest hch => exact h.taken hg.1 hch (by simp [hg.2])
  | report =>
    obtain ⟨hphase, ⟨⟩⟩ := guard_some hs
    exact { h with draining := by simp, done := fun _ => h.done (.inl hphase) }

/-! ## The cutoff -/

theorem submit_frame (hs : d.submit i = some d') : ∃ pc submits ch order dropped,
    d' = { d with submits, ch, order, dropped } ∧ d.submits[i]? = some pc ∧ pc ≠ .returned ∧
      (order = d.order ∨ pc = .sending) := by
  unfold Dispatcher.submit at hs
  split at hs
  case h_3 hpc => split at hs <;> cases hs <;> exact ⟨_, _, _, _, _, rfl, hpc, by simp, .inr rfl⟩
  case h_4 hpc => split at hs <;> cases hs <;> exact ⟨_, _, _, _, _, rfl, hpc, by simp, .inl rfl⟩
  case h_8 => cases hs
  all_goals
    next hpc =>
    cases hs
    exact ⟨_, _, _, _, _, rfl, hpc, by simp, .inl rfl⟩

theorem Inv.stays (h : d.Inv) (hstop : d.stopped = true) (hs : d.step a = some d') :
    d'.stopped = true ∧ d'.order = d.order := by
  cases a with
  | submit i =>
    obtain ⟨pc, _, _, _, _, rfl, hpc, -, horder⟩ := submit_frame hs
    refine ⟨hstop, horder.resolve_right fun hsend => ?_⟩
    subst hsend
    cases h.fenced hstop _ (List.mem_of_getElem? hpc)
  | call =>
    cases hs
    exact ⟨hstop, rfl⟩
  | take | drain =>
    obtain ⟨-, hs⟩ := guard_some hs
    split at hs <;> cases hs <;> exact ⟨hstop, rfl⟩
  | invoked =>
    simp only [Dispatcher.step] at hs
    split at hs <;> cases hs
    exact ⟨hstop, rfl⟩
  | cutoff =>
    obtain ⟨-, ⟨⟩⟩ := guard_some hs
    exact ⟨rfl, rfl⟩
  | tick | ctxDone | join | sawJoined | report =>
    obtain ⟨-, ⟨⟩⟩ := guard_some hs
    exact ⟨hstop, rfl⟩

theorem Inv.reach (h : d.Inv) (hr : Reach Dispatcher.step Any d d') : d'.Inv :=
  hr.invariant h fun h _ hs => h.step hs

theorem Inv.closed (h : d.Inv) (hstop : d.stopped = true) (hr : Reach Dispatcher.step Any d d') :
    d'.stopped = true ∧ d'.order = d.order := by
  induction hr with
  | refl => exact ⟨hstop, rfl⟩
  | tail hr _ hs ih =>
    obtain ⟨hstop', horder⟩ := (h.reach hr).stays ih.1 hs
    exact ⟨hstop', horder.trans ih.2⟩

/-! ## The final report -/

/-- **The join is a barrier**: it returns once every `Submit` has, and none begins after it. -/
def Joins (d : Dispatcher) : Act → Prop
  | .call => d.joined = false
  | .join => ∀ pc ∈ d.submits, pc = .returned
  | _ => True

instance (d : Dispatcher) (a : Act) : Decidable (Joins d a) := by
  unfold Joins
  split <;> infer_instance

structure Barred (d : Dispatcher) : Prop where
  installed : d.hasJoin = true ∧ d.selfReports = true
  still : d.joined = true → ∀ pc ∈ d.submits, pc = .returned
  crossed : d.joined = true ∨ d.phase = .serving ∨ d.phase = .joining
  last : d.phase = .returned → d.reports.getLast? = some d.dropped

theorem Barred.step (h : d.Barred) (hg : Joins d a) (hs : d.step a = some d') : d'.Barred := by
  cases a with
  | submit i =>
    obtain ⟨pc, _, _, _, _, rfl, hpc, hne, -⟩ := submit_frame hs
    have hopen : d.joined ≠ true := fun hj => hne (h.still hj pc (List.mem_of_getElem? hpc))
    have hphase := h.crossed.resolve_left hopen
    exact ⟨h.installed, fun hj => absurd hj hopen, .inr hphase, fun hp => absurd hphase (by simp [show d.phase = _ from hp])⟩
  | call =>
    cases hs
    have hopen : d.joined = false := hg
    exact ⟨h.installed, fun hj => by simp [hopen] at hj, h.crossed, h.last⟩
  | take =>
    obtain ⟨-, hs⟩ := guard_some hs
    split at hs <;> cases hs
    exact { h with }
  | drain =>
    obtain ⟨hp, hs⟩ := guard_some hs
    have hj : d.joined = true := h.crossed.resolve_right (by simp [hp.2])
    split at hs <;> cases hs
    · exact { h with crossed := .inl hj, last := by simp [h.installed.2] }
    · exact { h with }
  | invoked =>
    simp only [Dispatcher.step] at hs
    split at hs <;> cases hs
    exact { h with }
  | tick =>
    obtain ⟨hp, ⟨⟩⟩ := guard_some hs
    exact { h with last := fun _ => by simp }
  | join =>
    obtain ⟨hp, ⟨⟩⟩ := guard_some hs
    exact { h with still := fun _ => hg, crossed := .inl rfl }
  | report =>
    obtain ⟨hp, ⟨⟩⟩ := guard_some hs
    exact { h with crossed := .inl (h.crossed.resolve_right (by simp [hp])), last := fun _ => by simp }
  | ctxDone =>
    obtain ⟨-, ⟨⟩⟩ := guard_some hs
    exact { h with crossed := .inr (by simp [h.installed.1]), last := by simp [h.installed.1] }
  | sawJoined =>
    obtain ⟨hp, ⟨⟩⟩ := guard_some hs
    exact { h with crossed := .inl hp.2.2, last := by simp }
  | cutoff =>
    obtain ⟨hp, ⟨⟩⟩ := guard_some hs
    exact { h with crossed := .inl (h.crossed.resolve_right (by simp [hp.1])), last := by simp }

/-! ## Every submission is accounted for -/

/-- **Delivered or dropped.** The books balance at every moment, with the calls between a channel operation and the count
or return that follows it on their side. What is delivered comes in enqueue order and once, and began before the cutoff;
and a barrier for a join makes the last report the total. -/
theorem conservation {bufSize : Int} {hasJoin selfReports : Bool}
    (h : Reach step Any (newDispatcher bufSize hasJoin selfReports) d) :
    d.submits.count .returned + d.submits.count .sent =
      d.delivered + d.dropped + d.ch.length + d.inDelivery + d.submits.count .evicted ∧
    (d.phase = .returned → (∀ pc ∈ d.submits, pc = .returned) →
      d.ch = [] ∧ d.submits.length = d.delivered + d.dropped) ∧
    (d.events <+ d.order ∧ d.order.Nodup ∧ d.events.length = d.delivered) ∧
    (d.stopped = true → ∀ d', Reach step Any d d' → ∀ i ∈ d'.events ++ d'.invoking.toList, i < d.submits.length) ∧
    (hasJoin = true → selfReports = true → Reach step Joins (newDispatcher bufSize hasJoin selfReports) d →
      d.phase = .returned → d.reports.getLast? = some d.dropped) := by
  have hinv := (inv_new bufSize hasJoin selfReports).reach h
  obtain ⟨out, hout, hsub⟩ := hinv.fifo
  refine ⟨hinv.books, fun hp hall => ?_, ⟨?_, hinv.once, hinv.counted⟩, fun hstop d' hr i hi => ?_, fun hj hself hr hp => ?_⟩
  · obtain ⟨-, hch, hidle⟩ := hinv.done (.inr hp)
    have hnone : ∀ pc, pc ≠ .returned → d.submits.count pc = 0 := fun pc hne =>
      List.count_eq_zero.mpr fun hmem => hne (hall pc hmem)
    have hlen : d.submits.count .returned = d.submits.length := List.count_eq_length.mpr fun pc hpc => (hall pc hpc).symm
    have hbooks := hinv.books
    rw [hlen, hnone .sent (by simp), hnone .evicted (by simp), inDelivery, hidle, hch] at hbooks
    exact ⟨hch, by simpa using hbooks⟩
  · rw [hout]
    exact ((List.sublist_append_left _ _).trans hsub).trans (List.sublist_append_left _ _)
  · obtain ⟨out', hout', hsub'⟩ := (hinv.reach hr).fifo
    have hmem : i ∈ d.order := by
      rw [← (hinv.closed hstop hr).2, hout']
      exact List.mem_append_left _ (hsub'.subset hi)
    rcases hinv.enqueued i hmem with hpc | hpc <;> exact (List.getElem?_eq_some_iff.mp hpc).1
  · have hbarred : d.Barred := hr.invariant
      ⟨⟨hj, hself⟩, by simp [newDispatcher], .inr (.inl rfl), by simp [newDispatcher]⟩ fun hb hg hs => hb.step hg hs
    exact hbarred.last hp

/-- A channel of one slot: the second `Submit` finds the first's event there and takes it out. -/
def evictingRun : List Act :=
  [.call, .submit 0, .submit 0, .submit 0, .submit 0, .call, .submit 1, .submit 1, .submit 1, .submit 1]

def evicting : Dispatcher := (run step (newDispatcher 0 true true) evictingRun).get (by decide)

/-- The first event is in nobody's count between the eviction and `dropped.Add`. -/
theorem evicted_uncounted : Reach step Any (newDispatcher 0 true true) evicting ∧
    evicting.submits.count .returned ≠
      evicting.delivered + evicting.dropped + evicting.ch.length + evicting.inDelivery :=
  ⟨Reach.of_run (Option.some_get _).symm, by decide⟩

def shutDown : Dispatcher := (run (guarded step Joins) (newDispatcher 0 true true) (evictingRun ++
  [.submit 1, .submit 1, .submit 1, .take, .invoked true, .ctxDone, .join, .sawJoined, .cutoff, .drain, .report])).get
    (by decide)

theorem conservation_shutDown :
    shutDown.phase = .returned ∧ shutDown.submits.length = 2 ∧ shutDown.delivered = 1 ∧ shutDown.dropped = 1 ∧
      shutDown.reports.getLast? = some 1 :=
  have hreach : Reach step Joins (newDispatcher 0 true true) shutDown := Reach.of_guarded (Option.some_get _).symm
  ⟨by decide, by decide, by decide, by decide, (conservation hreach.any).2.2.2.2 rfl rfl hreach (by decide)⟩

end Dispatcher

end Styx
