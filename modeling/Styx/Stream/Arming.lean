/-
Acknowledgements: the arming queue, its one dispatcher, the drain boundary and the
back-off, with every load, store and compare-and-swap a step of its own.

A delivery counts itself and then arms its stream, if the count is due or the reader has
drained. The reader, when it has drained, marks it and then arms every stream that owes
credit. The dispatcher pops a stream, clears its flag and acknowledges what it finds
consumed; a refused `Send` leaves the rest to a timer. `credit_returned` is that together
they lose nothing.
-/
import Styx.Lib.Intrusive
import Styx.Lib.Machine
import Styx.Stream.Step

namespace Styx

open Machine Function

/-- The words of one stream that its acknowledgements go by. -/
structure AckStream where
  live : Bool
  closeRemote : Bool
  /-- Credited items that no receiver has taken. -/
  recvCh : Nat
  credit : CreditCounter
  token : LifecycleToken
  armed : Bool
  deferred : Bool
  deriving DecidableEq

/-- What a dispatched frame is to its stream: a `STREAM_MSG`, a `STREAM_CLOSE`, an end, or a frame
of no concern here. -/
inductive Arrival
  | msg
  | close
  | ended
  | other
  deriving DecidableEq

namespace AckStream

def new (credits : Nat) : AckStream := ⟨true, false, 0, newCreditCounter credits, .idle, false, false⟩

/-- A frame handled under the stream's lock; one for an ended stream is discarded. -/
def arrive (s : AckStream) (f : Arrival) : AckStream :=
  if s.live then
    match f with
    | .msg => { s with recvCh := s.recvCh + 1 }
    | .close => { s with closeRemote := true }
    | .ended => { s with live := false }
    | .other => s
  else s

/-- `consumeIfOpen`: whether the count trigger fires. -/
def consumeIfOpen (s : AckStream) : AckStream × Bool :=
  if s.closeRemote then (s, false) else ({ s with credit := s.credit.consume.1 }, s.credit.consume.2)

end AckStream

namespace Arming

/-- The connection's reader, the ack dispatcher, the application's receivers, and the back-off
timers. -/
inductive Thread
  | reader
  | dispatcher
  | app (n : Nat)
  | timer (n : Nat)
  deriving DecidableEq

/-- `arm`: the deferred bit loaded, the flag's compare-and-swap, `appendArm`. -/
inductive ArmPc
  | deferred
  | cas
  | append
  deriving DecidableEq

/-- `runAckDispatch` and `serveAck`, on a stream just popped. -/
inductive ServePc
  | popped
  | live
  | pending
  | deferred
  | token
  | build
  | send (cum : Nat)
  | advance (cum : Nat)
  | defer
  | schedule
  | release (success : Bool)
  deriving DecidableEq

/-- Where a goroutine stands; what it reads or writes next. `rest` is the reader's sweep still to
do, `none` for the others. -/
inductive Pc
  | idle
  /-- `Dispatch`, its drain mark cleared. -/
  | handle (id : UInt64) (f : Arrival)
  /-- `ReaderDrained`, its mark set; then its sweep. -/
  | marked
  | sweep (rest : List UInt64)
  /-- `onDelivered`. -/
  | consume (id : UInt64)
  | drained (id : UInt64)
  /-- The two reads before an `arm`, or before a timer's own compare-and-swap. -/
  | live (id : UInt64) (timer : Bool) (rest : Option (List UInt64))
  | pending (id : UInt64) (timer : Bool) (rest : Option (List UInt64))
  | arm (id : UInt64) (p : ArmPc) (rest : Option (List UInt64))
  | serve (id : UInt64) (p : ServePc)
  /-- A back-off timer, and then `reArmAfterBackoff`. -/
  | waiting (id : UInt64)
  | fired (id : UInt64)
  deriving DecidableEq

end Arming

structure Arming where
  streams : UInt64 → Option AckStream
  /-- The keys of the table. -/
  ids : List UInt64
  queue : Intrusive UInt64
  drained : Bool
  pcs : Arming.Thread → Arming.Pc

namespace Arming

def start : Arming := ⟨fun _ => none, [], .empty, false, fun _ => .idle⟩

def moveTo (x : Arming) (τ : Thread) (pc : Pc) : Arming := { x with pcs := Function.update x.pcs τ pc }

def set (x : Arming) (id : UInt64) (s : AckStream) : Arming :=
  { x with streams := Function.update x.streams id (some s) }

def resume : Option (List UInt64) → Pc
  | none => .idle
  | some rest => .sweep rest

/-- A timer has cleared the deferred bit itself. -/
def entry (timer : Bool) : ArmPc := if timer then .cas else .deferred

/-! ## Steps -/

/-- The dispatcher's next act on the stream `s` it has popped. The `Send` and the timer are
acts of their own. -/
def serve (x : Arming) (τ : Thread) (id : UInt64) (s : AckStream) : ServePc → Option Arming
  | .popped => some ((x.set id { s with armed := false }).moveTo τ (.serve id .live))
  | .live => some (x.moveTo τ (if s.live then .serve id .pending else .idle))
  | .pending => some (x.moveTo τ (if s.credit.pending then .serve id .deferred else .idle))
  | .deferred => some (x.moveTo τ (if s.deferred then .idle else .serve id .token))
  | .token =>
    if s.token = .idle then some ((x.set id { s with token := .ackOutstanding }).moveTo τ (.serve id .build))
    else some (x.moveTo τ .idle)
  | .build => some (x.moveTo τ (.serve id (.send s.credit.consumed)))
  | .advance cum =>
    some ((x.set id { s with credit := s.credit.advanceAckedOut cum }).moveTo τ (.serve id (.release true)))
  | .defer => some ((x.set id { s with deferred := true }).moveTo τ (.serve id .schedule))
  | .release success =>
    match s.token with
    | .ackOutstanding =>
      some ((x.set id { s with token := .idle }).moveTo τ (if success then .pending id false none else .idle))
    | .cancelOwed => some ((x.set id { s with token := .terminal }).moveTo τ .idle)
    | _ => some (x.moveTo τ .idle)
  | .send _ | .schedule => none

/-- `arm`, from one of its positions. -/
def armStep (x : Arming) (τ : Thread) (id : UInt64) (s : AckStream) (rest : Option (List UInt64)) : ArmPc → Arming
  | .deferred => x.moveTo τ (if s.deferred then resume rest else .arm id .cas rest)
  | .cas =>
    if s.armed then x.moveTo τ (resume rest)
    else (x.set id { s with armed := true }).moveTo τ (.arm id .append rest)
  | .append => { x with queue := x.queue.append id }.moveTo τ (resume rest)

/-- The next act of a goroutine at a position on one stream. -/
def onStream (x : Arming) (τ : Thread) (id : UInt64) (s : AckStream) : Pc → Option Arming
  | .handle _ f => some ((x.set id (s.arrive f)).moveTo τ .idle)
  | .consume _ =>
    some ((x.set id s.consumeIfOpen.1).moveTo τ (if s.consumeIfOpen.2 then .arm id .deferred none else .drained id))
  | .live _ timer rest => some (x.moveTo τ (if s.live then .pending id timer rest else resume rest))
  | .pending _ timer rest => some (x.moveTo τ (if s.credit.pending then .arm id (entry timer) rest else resume rest))
  | .arm _ p rest => some (x.armStep τ id s rest p)
  | .serve _ p => x.serve τ id s p
  | .fired _ => some ((x.set id { s with deferred := false }).moveTo τ (.live id true none))
  | _ => none

def Pc.stream : Pc → Option UInt64
  | .handle id _ | .consume id | .live id _ _ | .pending id _ _ | .arm id _ _ | .serve id _ | .fired id => some id
  | _ => none

def Pc.isFrame : Pc → Bool
  | .handle _ _ => true
  | _ => false

/-- The next act of a goroutine. -/
def move (x : Arming) (τ : Thread) : Option Arming :=
  match x.pcs τ with
  | .sweep [] => some (x.moveTo τ .idle)
  | .sweep (id :: rest) => some (x.moveTo τ (.live id false (some rest)))
  | .drained id => some (x.moveTo τ (if x.drained then .live id false none else .idle))
  | .idle | .marked | .waiting _ => none
  | pc =>
    match pc.stream with
    | none => none
    | some id =>
      match x.streams id with
      | some s => x.onStream τ id s pc
      -- Only a frame may be for a call that is not in the table: it is discarded.
      | none => if pc.isFrame then some (x.moveTo τ .idle) else none

inductive Act
  | register (id : UInt64) (credits : Nat)
  /-- An end that does not come with a frame, and its winner's claim of the token. -/
  | terminate (id : UInt64)
  | claim (id : UInt64) (needCancel : Bool)
  | dispatch (id : UInt64) (f : Arrival)
  | readerDrained
  /-- `ReaderDrained`'s snapshot, in the order of a map's iteration. -/
  | snapshot (order : List UInt64)
  | deliver (n : Nat) (id : UInt64)
  | pop
  | sent (ok : Bool)
  | schedule (n : Nat)
  | fire (n : Nat)
  | move (τ : Thread)
  deriving DecidableEq

def step (x : Arming) : Act → Option Arming
  | .register id credits =>
    match x.streams id with
    | none => some { x.set id (.new credits) with ids := id :: x.ids }
    | some _ => none
  | .terminate id =>
    match x.streams id with
    | some s => some (x.set id { s with live := false })
    | none => none
  | .claim id needCancel =>
    match x.streams id with
    | some s =>
      if s.live then none
      else
        match Stream.claimTerminalToken s.token needCancel with
        | some (token, _) => some (x.set id { s with token })
        | none => none
    | none => none
  | .dispatch id f =>
    if x.pcs .reader = .idle then some { x.moveTo .reader (.handle id f) with drained := false } else none
  | .readerDrained => if x.pcs .reader = .idle then some { x.moveTo .reader .marked with drained := true } else none
  | .snapshot order =>
    if x.pcs .reader = .marked ∧ order.Perm x.ids then some (x.moveTo .reader (.sweep order)) else none
  | .deliver n id =>
    match x.streams id with
    | some s =>
      if x.pcs (.app n) = .idle ∧ 0 < s.recvCh then
        some ((x.set id { s with recvCh := s.recvCh - 1 }).moveTo (.app n) (.consume id))
      else none
    | none => none
  | .pop =>
    if x.pcs .dispatcher = .idle then
      match x.queue.pop with
      | some (id, queue) => some ({ x with queue }.moveTo .dispatcher (.serve id .popped))
      | none => none
    else none
  | .sent ok =>
    match x.pcs .dispatcher with
    | .serve id (.send cum) => some (x.moveTo .dispatcher (.serve id (if ok then .advance cum else .defer)))
    | _ => none
  | .schedule n =>
    match x.pcs .dispatcher with
    | .serve id .schedule =>
      if x.pcs (.timer n) = .idle then
        some ((x.moveTo .dispatcher (.serve id (.release false))).moveTo (.timer n) (.waiting id))
      else none
    | _ => none
  | .fire n =>
    match x.pcs (.timer n) with
    | .waiting id => some (x.moveTo (.timer n) (.fired id))
    | _ => none
  | .move τ => x.move τ

/-! ## The queue and the arming flags -/

/-- The stream a goroutine has between the flag and the queue: armed and about to be appended,
or popped and about to be cleared. -/
def Pc.owns : Pc → Option UInt64
  | .arm id .append _ => some id
  | .serve id .popped => some id
  | _ => none

def armed (x : Arming) (id : UInt64) : Bool := (x.streams id).any AckStream.armed

inductive Place
  | free
  | queued
  | owned (τ : Thread)
  deriving DecidableEq

/-- Every stream whose flag is set is in one place. -/
structure Placed (x : Arming) (q : List UInt64) (place : UInt64 → Place) : Prop where
  holds : x.queue.Holds q
  armed : ∀ id, x.armed id = true ↔ place id ≠ .free
  queued : ∀ id, id ∈ q ↔ place id = .queued
  owned : ∀ τ id, (x.pcs τ).owns = some id ↔ place id = .owned τ

variable {x x' y : Arming} {q : List UInt64} {place : UInt64 → Place} {τ : Thread} {id : UInt64} {s s' : AckStream} {pc pc' : Pc}
  {rest : Option (List UInt64)} {queue : Intrusive UInt64} {timer : Bool} {p : ServePc}

theorem Placed.keep (h : Placed x q place) (hq : x'.queue = x.queue) (harm : ∀ id, x'.armed id = x.armed id)
    (hpcs : x'.pcs = Function.update x.pcs τ pc') (hown : pc'.owns = (x.pcs τ).owns) : Placed x' q place := by
  refine ⟨hq ▸ h.holds, fun id => (harm id).symm ▸ h.armed id, h.queued, fun τ' id => ?_⟩
  rw [hpcs]
  by_cases hτ : τ' = τ
  · subst hτ
    rw [Function.update_self, hown]
    exact h.owned τ' id
  · rw [Function.update_of_ne hτ]
    exact h.owned τ' id

theorem armed_set (hs : x.streams id = some s) (harm : s'.armed = s.armed) (id' : UInt64) :
    (x.set id s').armed id' = x.armed id' := by
  unfold armed set
  by_cases hid : id' = id
  · subst hid
    simp [hs, harm]
  · simp [update_of_ne hid]

theorem Placed.update (h : Placed x q place) {q' : List UInt64} {p : Place} (hpc : x.pcs τ = pc) (hh : x'.queue.Holds q')
    (harm : ∀ id', x'.armed id' = if id' = id then decide (p ≠ .free) else x.armed id')
    (hq : ∀ id', id' ∈ q' ↔ if id' = id then p = .queued else id' ∈ q)
    (hpcs : x'.pcs = Function.update x.pcs τ pc') (hold : ∀ id', pc.owns = some id' → id' = id)
    (hnew : pc'.owns = if p = .owned τ then some id else none)
    (hothers : ∀ τ', place id = .owned τ' ∨ p = .owned τ' → τ' = τ) : Placed x' q' (Function.update place id p) := by
  refine ⟨hh, fun id' => ?_, fun id' => ?_, fun τ' id' => ?_⟩
  · rw [harm]
    by_cases hid : id' = id
    · subst hid
      simp
    · rw [if_neg hid, Function.update_of_ne hid]
      exact h.armed id'
  · rw [hq]
    by_cases hid : id' = id
    · subst hid
      simp
    · rw [if_neg hid, Function.update_of_ne hid]
      exact h.queued id'
  · rw [hpcs]
    by_cases hτ : τ' = τ
    · subst hτ
      rw [Function.update_self, hnew]
      by_cases hid : id' = id
      · subst hid
        simp
      · rw [Function.update_of_ne hid, ← h.owned τ' id', hpc]
        refine ⟨fun hn => ?_, fun ho => absurd (hold id' ho) hid⟩
        split at hn <;> cases hn
        exact absurd rfl hid
    · rw [Function.update_of_ne hτ, h.owned τ' id']
      by_cases hid : id' = id
      · subst hid
        rw [Function.update_self]
        exact ⟨fun ho => absurd (hothers τ' (.inl ho)) hτ, fun hp => absurd (hothers τ' (.inr hp)) hτ⟩
      · rw [Function.update_of_ne hid]

theorem armed_eq (hs : x.streams id = some s) : x.armed id = s.armed := by simp [armed, hs]

theorem armed_update (id' : UInt64) :
    ((x.set id s).moveTo τ pc').armed id' = if id' = id then s.armed else x.armed id' := by
  by_cases hid : id' = id <;> simp [Arming.armed, moveTo, set, hid]

theorem Placed.cas (h : Placed x q place) (hpc : x.pcs τ = .arm id .cas rest)
    (hs : x.streams id = some s) (hna : s.armed = false) :
    Placed ((x.set id { s with armed := true }).moveTo τ (.arm id .append rest)) q
      (Function.update place id (.owned τ)) := by
  have hfree : place id = .free := by
    by_contra hne
    have := (h.armed id).mpr hne
    rw [armed_eq hs, hna] at this
    cases this
  refine h.update hpc h.holds armed_update (fun id' => ?_) rfl nofun (by simp [Pc.owns]) fun τ' ho => ?_
  · split
    · next hid => simp [hid, h.queued, hfree]
    · rfl
  · simpa [hfree, eq_comm] using ho

theorem Placed.owner (h : Placed x q place) (hpc : (x.pcs τ).owns = some id) :
    id ∉ q ∧ place id = .owned τ ∧ x.armed id = true := by
  have hp := (h.owned τ id).mp hpc
  refine ⟨fun hmem => ?_, hp, (h.armed id).mpr (by rw [hp]; simp)⟩
  rw [h.queued, hp] at hmem
  cases hmem

theorem resume_owns (rest : Option (List UInt64)) : (resume rest).owns = none := by
  cases rest <;> rfl

theorem Placed.append (h : Placed x q place) (hpc : x.pcs τ = .arm id .append rest) :
    Placed ({ x with queue := x.queue.append id }.moveTo τ (resume rest)) (q ++ [id])
      (Function.update place id .queued) := by
  obtain ⟨hnot, hp, harm⟩ := h.owner (by rw [hpc]; rfl)
  refine h.update hpc (h.holds.append hnot) (fun id' => ?_) (fun id' => ?_) rfl ?_ (by simp [resume_owns]) fun τ' ho => ?_
  · split
    · next hid => exact hid ▸ harm
    · rfl
  · by_cases hid : id' = id <;> simp [hid]
  · rintro id' ⟨⟩
    rfl
  · simpa [hp, eq_comm] using ho

theorem Placed.pop (h : Placed x q place) (hpc : x.pcs τ = .idle) (hpop : x.queue.pop = some (id, queue)) :
    ∃ q', Placed ({ x with queue }.moveTo τ (.serve id .popped)) q' (Function.update place id (.owned τ)) := by
  obtain ⟨q', rfl, hh⟩ := h.holds.pop hpop
  have hnd := List.nodup_cons.mp h.holds.nodup
  have hp : place id = .queued := (h.queued id).mp (by simp)
  have harm : x.armed id = true := (h.armed id).mpr (by simp [hp])
  refine ⟨q', h.update hpc hh (fun id' => ?_) (fun id' => ?_) rfl nofun (by simp [Pc.owns]) fun τ' ho => ?_⟩
  · split
    · next hid => exact (hid ▸ harm).trans (by simp)
    · rfl
  · by_cases hid : id' = id
    · simp [hid, hnd.1]
    · simp [hid]
  · simpa [hp, eq_comm] using ho

theorem Placed.clear (h : Placed x q place) (hpc : x.pcs τ = .serve id .popped) :
    Placed ((x.set id { s with armed := false }).moveTo τ (.serve id .live)) q (Function.update place id .free) := by
  obtain ⟨hnot, hp, -⟩ := h.owner (by rw [hpc]; rfl)
  refine h.update hpc h.holds armed_update (fun id' => ?_) rfl ?_ (by simp [Pc.owns]) fun τ' ho => ?_
  · split
    · next hid => simp [hid, hnot]
    · rfl
  · rintro id' ⟨⟩
    rfl
  · simpa [hp, eq_comm] using ho

/-! ## What a goroutine still does for a stream -/

def Pc.serves : Pc → Bool
  | .serve _ _ => true
  | _ => false

def Pc.holds (id : UInt64) : Pc → Bool
  | .serve id' .build | .serve id' (.send _) | .serve id' (.advance _) | .serve id' .defer | .serve id' .schedule
  | .serve id' (.release _) => id' = id
  | _ => false

def Pc.cum (id : UInt64) : Pc → Option Nat
  | .serve id' (.send c) | .serve id' (.advance c) => if id' = id then some c else none
  | _ => none

/-- A timer that will clear the stream's deferred bit, or is about to be set. -/
def Pc.clears (id : UInt64) : Pc → Bool
  | .serve id' .schedule | .waiting id' | .fired id' => id' = id
  | _ => false

/-- The goroutine will look at what the stream owes, and arm it or acknowledge. -/
def Pc.covers (id : UInt64) : Pc → Bool
  | .marked => true
  | .sweep rest => id ∈ rest
  | .drained id' => id' = id
  | .live id' _ rest | .pending id' _ rest => id' = id ∨ id ∈ rest.getD []
  | .arm id' p rest => id' = id ∧ p ≠ .append ∨ id ∈ rest.getD []
  | .serve _ .popped | .serve _ .schedule | .serve _ (.release false) => false
  | .serve id' _ => id' = id
  | _ => false

/-- **Credit owed is on its way**: once the reader has drained, a live stream that owes
an acknowledgement is armed, or deferred to a timer, or some goroutine will come to it. -/
structure StreamOk (ids : List UInt64) (drained : Bool) (pcs : Thread → Pc) (id : UInt64) (s : AckStream) : Prop where
  known : id ∈ ids
  acked : s.credit.ackedOut ≤ s.credit.consumed
  cum : ∀ c, (pcs .dispatcher).cum id = some c → c ≤ s.credit.consumed
  token : s.live = true → s.token = if (pcs .dispatcher).holds id then .ackOutstanding else .idle
  timed : s.deferred = true → ∃ τ, (pcs τ).clears id = true
  credit : s.live = true → s.credit.pending = true →
    drained = false ∨ s.armed = true ∨ s.deferred = true ∨ ∃ τ, (pcs τ).covers id = true

variable {ids : List UInt64} {drained drained' : Bool} {pcs : Thread → Pc}

theorem exists_update (f : Pc → Bool) (h : ∃ τ', f (pcs τ') = true) (hkeep : f (pcs τ) = true → f pc' = true) :
    ∃ τ', f (update pcs τ pc' τ') = true := by
  obtain ⟨τ', hτ'⟩ := h
  by_cases hτ : τ' = τ
  · subst hτ
    exact ⟨τ', by rw [update_self]; exact hkeep hτ'⟩
  · exact ⟨τ', by rw [update_of_ne hτ]; exact hτ'⟩

theorem dispatcher_update {β : Type} (f : Pc → β) (hpc : pcs τ = pc) (hf : f pc' = f pc) :
    f (update pcs τ pc' .dispatcher) = f (pcs .dispatcher) := by
  by_cases hτ : τ = .dispatcher
  · subst hτ
    rw [update_self, hf, hpc]
  · rw [update_of_ne (Ne.symm hτ)]

section

variable (h : StreamOk ids drained pcs id s)
include h

theorem StreamOk.plain (hpc : pcs τ = pc) (hdr : drained' = true → drained = true)
    (hh : pc'.holds id = pc.holds id) (hcum : pc'.cum id = pc.cum id) (hclr : pc.clears id = true → pc'.clears id = true)
    (hcov : s.live = true → s.credit.pending = true → drained' = true → s.armed = false → s.deferred = false →
      pc.covers id = true → pc'.covers id = true) : StreamOk ids drained' (update pcs τ pc') id s := by
  refine ⟨h.known, h.acked, ?_, ?_, fun hd => ?_, fun hl hp => ?_⟩
  · rw [dispatcher_update (Pc.cum id) hpc hcum]
    exact h.cum
  · rw [dispatcher_update (Pc.holds id) hpc hh]
    exact h.token
  · exact exists_update (Pc.clears id) (h.timed hd) (hpc ▸ hclr)
  · by_contra hnone
    simp only [not_or, Bool.not_eq_false, Bool.not_eq_true] at hnone
    obtain ⟨hdr', ha, hd, hno⟩ := hnone
    rcases h.credit hl hp with hdr'' | harm | hdef | hex
    · simp [hdr hdr'] at hdr''
    · simp [ha] at harm
    · simp [hd] at hdef
    · exact hno (exists_update (Pc.covers id) hex (hpc ▸ hcov hl hp hdr' ha hd))

theorem StreamOk.words (hl : s'.live = true → s.live = true) (hc : s'.credit = s.credit)
    (ht : s'.token = s.token) (ha : s'.armed = s.armed) (hd : s'.deferred = s.deferred) :
    StreamOk ids drained pcs id s' := by
  refine ⟨h.known, hc ▸ h.acked, hc ▸ h.cum, fun hl' => ht ▸ h.token (hl hl'), fun hd' => h.timed (hd ▸ hd'), fun hl' hp => ?_⟩
  rw [ha, hd]
  exact h.credit (hl hl') (hc ▸ hp)

theorem StreamOk.covered (hpc : pcs τ = pc) (hl : s'.live = true → s.live = true)
    (hacked : s'.credit.ackedOut ≤ s'.credit.consumed) (hcons : s.credit.consumed ≤ s'.credit.consumed)
    (ht : s'.token = s.token) (hh : pc'.holds id = pc.holds id) (hcum : pc'.cum id = pc.cum id)
    (htimed : s'.deferred = true → s.deferred = true ∧ pc.clears id = false) (hcov : pc'.covers id = true) :
    StreamOk ids drained' (update pcs τ pc') id s' := by
  refine ⟨h.known, hacked, fun c hc => ?_, fun hl' => ?_, fun hd => ?_,
    fun _ _ => .inr (.inr (.inr ⟨τ, by rwa [update_self]⟩))⟩
  · rw [dispatcher_update (Pc.cum id) hpc hcum] at hc
    exact Nat.le_trans (h.cum c hc) hcons
  · rw [dispatcher_update (Pc.holds id) hpc hh, ht]
    exact h.token (hl hl')
  · obtain ⟨hdef, hclr⟩ := htimed hd
    exact exists_update (Pc.clears id) (h.timed hdef) fun hc => by simp [hpc, hclr] at hc

theorem StreamOk.dispatched (hpc : pcs .dispatcher = pc)
    (hacked : s'.credit.ackedOut ≤ s'.credit.consumed) (hcum : ∀ c, pc'.cum id = some c → c ≤ s'.credit.consumed)
    (htok : s'.live = true → s'.token = if pc'.holds id then .ackOutstanding else .idle)
    (htimed : s'.deferred = true → pc'.clears id = true ∨ s.deferred = true ∧ pc.clears id = false)
    (hcred : s'.live = true → s'.credit.pending = true → pc'.covers id = true ∨ s'.deferred = true ∨
      s.live = true ∧ s.credit.pending = true ∧ s.armed = s'.armed ∧ s.deferred = s'.deferred ∧ pc.covers id = false) :
    StreamOk ids drained (update pcs .dispatcher pc') id s' := by
  refine ⟨h.known, hacked, by rwa [update_self], by rwa [update_self], fun hd => ?_, fun hl hp => ?_⟩
  · rcases htimed hd with hc | ⟨hd', hc⟩
    · exact ⟨.dispatcher, by rwa [update_self]⟩
    · exact exists_update (Pc.clears id) (h.timed hd') fun hc' => by simp [hpc, hc] at hc'
  · rcases hcred hl hp with hc | hd | ⟨hl', hp', ha, hd, hc⟩
    · exact .inr (.inr (.inr ⟨.dispatcher, by rwa [update_self]⟩))
    · exact .inr (.inr (.inl hd))
    · rw [← ha, ← hd]
      refine (h.credit hl' hp').imp_right fun hx => hx.imp_right fun hx => hx.imp_right fun hex => ?_
      exact exists_update (Pc.covers id) hex fun hc' => by simp [hpc, hc] at hc'

end

/-! ## The invariant -/

structure Working (x : Arming) : Prop where
  serving : ∀ τ, (x.pcs τ).serves = true → τ = .dispatcher
  served : ∀ id p, x.pcs .dispatcher = .serve id p → ∃ s, x.streams id = some s
  ok : ∀ id s, x.streams id = some s → StreamOk x.ids x.drained x.pcs id s

structure Inv (x : Arming) : Prop where
  placed : ∃ q place, Placed x q place
  working : Working x

theorem inv_start : start.Inv :=
  ⟨⟨[], fun _ => .free, Intrusive.holds_empty, fun _ => by simp [armed, start], fun _ => by simp, fun _ _ => by simp [start, Pc.owns]⟩,
    fun _ h => by simp [start, Pc.serves] at h, fun _ _ h => by simp [start] at h, fun _ _ h => by simp [start] at h⟩

/-- Away from its stream a goroutine only has the rest of a sweep to do. -/
def Rests (id : UInt64) (rest : Option (List UInt64)) (pc : Pc) : Prop :=
  ∀ id', id' ≠ id → pc.holds id' = false ∧ pc.cum id' = none ∧ pc.clears id' = false ∧
    pc.covers id' = decide (id' ∈ rest.getD [])

/-- The positions on one stream, and those before and after them. -/
inductive On (id : UInt64) : Option (List UInt64) → Pc → Prop
  | idle : On id none .idle
  | resume {rest : Option (List UInt64)} : On id rest (resume rest)
  | handle {f : Arrival} : On id none (.handle id f)
  | consume : On id none (.consume id)
  | drained : On id none (.drained id)
  | live {timer : Bool} {rest : Option (List UInt64)} : On id rest (.live id timer rest)
  | pending {timer : Bool} {rest : Option (List UInt64)} : On id rest (.pending id timer rest)
  | arm {p : ArmPc} {rest : Option (List UInt64)} : On id rest (.arm id p rest)
  | serve {p : ServePc} : On id none (.serve id p)
  | fired : On id none (.fired id)

variable {rest : Option (List UInt64)}

theorem On.rests (h : On id rest pc) : Rests id rest pc := by
  intro id' hid
  have hne := Ne.symm hid
  cases h with
  | idle | handle | consume => exact ⟨rfl, rfl, rfl, rfl⟩
  | resume => cases rest <;> exact ⟨rfl, rfl, rfl, rfl⟩
  | drained => exact ⟨rfl, rfl, rfl, decide_eq_false hne⟩
  | live | pending => exact ⟨rfl, rfl, rfl, decide_eq_decide.2 (or_iff_right hne)⟩
  | arm => exact ⟨rfl, rfl, rfl, decide_eq_decide.2 (or_iff_right fun h => hne h.1)⟩
  | @serve p =>
    cases p with
    | release success => cases success <;> simp [Pc.holds, Pc.cum, Pc.clears, Pc.covers, hne]
    | _ => simp [Pc.holds, Pc.cum, Pc.clears, Pc.covers, hne]
  | fired => exact ⟨rfl, rfl, decide_eq_false hne, rfl⟩

theorem On.serves (h : On id rest pc) (hserve : pc.serves = true) : ∃ p, pc = .serve id p := by
  cases h with
  | serve => exact ⟨_, rfl⟩
  | resume => cases rest <;> cases hserve
  | _ => cases hserve

theorem set_self (hs : x.streams id = some s) : x.set id s = x := by
  unfold set
  rw [update_eq_self_iff.mpr hs.symm]

theorem Working.wrote (h : Working x) (hpc : x.pcs τ = pc) (hs : x.streams id = some s) (hon : On id rest pc) (hon' : On id rest pc')
    (hserve : pc'.serves = pc.serves ∨ τ = .dispatcher)
    (hok : StreamOk x.ids x.drained x.pcs id s → StreamOk x.ids x.drained (update x.pcs τ pc') id s') :
    Working ((x.set id s').moveTo τ pc') := by
  refine ⟨fun τ' hτ' => ?_, fun id' p hpc' => ?_, fun id' s₁ hs₁ => ?_⟩
  · by_cases hτ : τ' = τ
    · subst hτ
      refine hserve.elim (fun heq => h.serving τ' ?_) fun hd => hd
      rw [hpc, ← heq]
      simpa [moveTo] using hτ'
    · exact h.serving τ' (by simpa [moveTo, set, hτ] using hτ')
  · simp only [moveTo, set] at hpc' ⊢
    by_cases hid : id' = id
    · subst hid
      exact ⟨s', update_self ..⟩
    · rw [update_of_ne hid]
      by_cases hτ : τ = .dispatcher
      · subst hτ
        rw [update_self] at hpc'
        obtain ⟨p', hp'⟩ := hon'.serves (by rw [hpc']; rfl)
        rw [hp'] at hpc'
        cases hpc'
        exact absurd rfl hid
      · rw [update_of_ne (Ne.symm hτ)] at hpc'
        exact h.served id' p hpc'
  · obtain ⟨rfl, rfl⟩ | ⟨hid, hs₁⟩ := update_eq_some hs₁
    · exact hok (h.ok _ s hs)
    · obtain ⟨hh, hcum, hclr, hcov⟩ := hon.rests id' hid
      obtain ⟨hh', hcum', -, hcov'⟩ := hon'.rests id' hid
      refine (h.ok id' s₁ hs₁).plain hpc (fun hd => hd) (hh'.trans hh.symm) (hcum'.trans hcum.symm) (by simp [hclr])
        fun _ _ _ _ _ hc => ?_
      rw [hcov', ← hcov]
      exact hc

theorem Inv.wrote (h : x.Inv) (hpc : x.pcs τ = pc) (hs : x.streams id = some s) (hon : On id rest pc) (hon' : On id rest pc')
    (hserve : pc'.serves = pc.serves ∨ τ = .dispatcher) (ha : s'.armed = s.armed) (hown : pc'.owns = pc.owns)
    (hok : StreamOk x.ids x.drained x.pcs id s → StreamOk x.ids x.drained (update x.pcs τ pc') id s') :
    ((x.set id s').moveTo τ pc').Inv := by
  obtain ⟨q, place, hp⟩ := h.placed
  exact ⟨⟨q, place, hp.keep rfl (armed_set hs ha) rfl (hpc ▸ hown)⟩, h.working.wrote hpc hs hon hon' hserve hok⟩

theorem Working.read (h : Working x) (hpc : x.pcs τ = pc) (hs : x.streams id = some s) (hon : On id rest pc) (hon' : On id rest pc')
    (hserve : pc'.serves = pc.serves ∨ τ = .dispatcher) (hh : pc'.holds id = pc.holds id) (hcum : pc'.cum id = pc.cum id)
    (hclr : pc.clears id = true → pc'.clears id = true)
    (hcov : s.live = true → s.credit.pending = true → s.armed = false → s.deferred = false →
      pc.covers id = true → pc'.covers id = true) : Working (x.moveTo τ pc') := by
  have := h.wrote hpc hs hon hon' hserve fun hok =>
    hok.plain hpc (fun hd => hd) hh hcum hclr fun hl hp _ ha hd => hcov hl hp ha hd
  rwa [set_self hs] at this

theorem Inv.read (h : x.Inv) (hpc : x.pcs τ = pc) (hown : pc'.owns = pc.owns) (hw : Working (x.moveTo τ pc')) :
    (x.moveTo τ pc').Inv := by
  obtain ⟨q, place, hp⟩ := h.placed
  exact ⟨⟨q, place, hp.keep rfl (fun _ => rfl) rfl (hpc ▸ hown)⟩, hw⟩

/-! ## Every step -/

theorem Inv.handle (h : x.Inv) {f : Arrival} (hpc : x.pcs τ = .handle id f) (hs : x.streams id = some s) :
    ((x.set id (s.arrive f)).moveTo τ .idle).Inv := by
  have hw : (s.arrive f).live = true → s.live = true := by
    unfold AckStream.arrive
    cases f <;> split <;> simp_all
  have hsame : (s.arrive f).credit = s.credit ∧ (s.arrive f).token = s.token ∧ (s.arrive f).armed = s.armed ∧
      (s.arrive f).deferred = s.deferred := by
    unfold AckStream.arrive
    cases f <;> split <;> exact ⟨rfl, rfl, rfl, rfl⟩
  obtain ⟨hc, ht, ha, hd⟩ := hsame
  refine h.wrote hpc hs .handle .idle (.inl rfl) ha rfl fun hok => ?_
  exact (hok.words hw hc ht ha hd).plain hpc (fun hd => hd) rfl rfl nofun nofun

theorem Inv.consume (h : x.Inv) (hpc : x.pcs τ = .consume id) (hs : x.streams id = some s) :
    ((x.set id s.consumeIfOpen.1).moveTo τ
      (if s.consumeIfOpen.2 then .arm id .deferred none else .drained id)).Inv := by
  have hsame : s.consumeIfOpen.1.live = s.live ∧ s.consumeIfOpen.1.token = s.token ∧ s.consumeIfOpen.1.armed = s.armed ∧
      s.consumeIfOpen.1.deferred = s.deferred ∧ s.consumeIfOpen.1.credit.ackedOut = s.credit.ackedOut ∧
      s.credit.consumed ≤ s.consumeIfOpen.1.credit.consumed := by
    unfold AckStream.consumeIfOpen CreditCounter.consume
    split <;> simp
  obtain ⟨hl, ht, ha, hd, hout, hcons⟩ := hsame
  have hcovered : StreamOk x.ids x.drained x.pcs id s → ∀ pc', pc'.holds id = false → pc'.cum id = none → pc'.covers id = true →
      StreamOk x.ids x.drained (update x.pcs τ pc') id s.consumeIfOpen.1 := fun hok pc' hh hcum hcov =>
    hok.covered hpc (fun hl' => hl ▸ hl') (by have := hok.acked; omega) hcons ht hh hcum (fun hd' => ⟨hd ▸ hd', rfl⟩) hcov
  split
  · exact h.wrote hpc hs .consume .arm (.inl rfl) ha rfl fun hok => hcovered hok _ rfl rfl (by simp [Pc.covers])
  · exact h.wrote hpc hs .consume .drained (.inl rfl) ha rfl fun hok => hcovered hok _ rfl rfl (by simp [Pc.covers])

theorem resume_plain (rest : Option (List UInt64)) :
    (resume rest).serves = false ∧ (∀ id, (resume rest).holds id = false) ∧ (∀ id, (resume rest).cum id = none) := by
  cases rest <;> exact ⟨rfl, fun _ => rfl, fun _ => rfl⟩

theorem Inv.resume (h : x.Inv) (hpc : x.pcs τ = pc) (hs : x.streams id = some s) (hon : On id rest pc)
    (hserve : pc.serves = false ∨ τ = .dispatcher) (hown : pc.owns = none) (hh : pc.holds id = false) (hcum : pc.cum id = none)
    (hclr : pc.clears id = false)
    (hno : s.live = true → s.credit.pending = true → s.armed = false → s.deferred = false → False) :
    (x.moveTo τ (Arming.resume rest)).Inv := by
  obtain ⟨hserve', hholds, hcum'⟩ := resume_plain rest
  exact h.read hpc (by rw [hown, resume_owns]) (h.working.read hpc hs hon .resume (hserve.imp_left (hserve'.trans ·.symm))
    ((hholds id).trans hh.symm) ((hcum' id).trans hcum.symm) (by simp [hclr]) fun hl hp ha hd => (hno hl hp ha hd).elim)

theorem Inv.goesOn (h : x.Inv) (hpc : x.pcs τ = pc) (hs : x.streams id = some s) (hon : On id rest pc) (hon' : On id rest pc')
    (hserve : pc'.serves = pc.serves ∨ τ = .dispatcher) (hown : pc'.owns = pc.owns) (hh : pc'.holds id = pc.holds id)
    (hcum : pc'.cum id = pc.cum id) (hclr : pc.clears id = false) (hcov : pc'.covers id = true) : (x.moveTo τ pc').Inv :=
  h.read hpc hown (h.working.read hpc hs hon hon' hserve hh hcum (by simp [hclr]) fun _ _ _ _ _ => hcov)

theorem Inv.live (h : x.Inv) (hpc : x.pcs τ = .live id timer rest) (hs : x.streams id = some s) :
    (x.moveTo τ (if s.live then .pending id timer rest else Arming.resume rest)).Inv := by
  split
  · exact h.goesOn hpc hs .live .pending (.inl rfl) rfl rfl rfl rfl (by simp [Pc.covers])
  · next hl => exact h.resume hpc hs .live (.inl rfl) rfl rfl rfl rfl fun hl' _ _ _ => hl hl'

theorem Inv.pending (h : x.Inv) (hpc : x.pcs τ = .pending id timer rest) (hs : x.streams id = some s) :
    (x.moveTo τ (if s.credit.pending then .arm id (entry timer) rest else Arming.resume rest)).Inv := by
  split
  · have hentry : (Pc.arm id (entry timer) rest).owns = none ∧ (Pc.arm id (entry timer) rest).covers id = true := by
      cases timer <;> simp [entry, Pc.owns, Pc.covers]
    exact h.goesOn hpc hs .pending .arm (.inl rfl) hentry.1 rfl rfl rfl hentry.2
  · next hp => exact h.resume hpc hs .pending (.inl rfl) rfl rfl rfl rfl fun _ hp' _ _ => hp hp'

theorem Inv.arm (h : x.Inv) {p : ArmPc} (hpc : x.pcs τ = .arm id p rest) (hs : x.streams id = some s) :
    (x.armStep τ id s rest p).Inv := by
  cases p with
  | deferred =>
    simp only [armStep]
    split
    · next hd => exact h.resume hpc hs .arm (.inl rfl) rfl rfl rfl rfl fun _ _ _ hd' => by simp [hd] at hd'
    · exact h.goesOn hpc hs .arm .arm (.inl rfl) rfl rfl rfl rfl (by simp [Pc.covers])
  | cas =>
    simp only [armStep]
    split
    · next ha => exact h.resume hpc hs .arm (.inl rfl) rfl rfl rfl rfl fun _ _ ha' _ => by simp [ha] at ha'
    · next ha =>
      obtain ⟨q, place, hp⟩ := h.placed
      refine ⟨⟨_, _, hp.cas hpc hs (by simpa using ha)⟩, h.working.wrote hpc hs .arm .arm (.inl rfl) fun hok => ?_⟩
      have harmed : StreamOk x.ids x.drained x.pcs id { s with armed := true } :=
        ⟨hok.known, hok.acked, hok.cum, hok.token, hok.timed, fun _ _ => .inr (.inl rfl)⟩
      exact harmed.plain hpc (fun hd => hd) rfl rfl (fun hx => hx) fun _ _ _ ha' => by simp at ha'
  | append =>
    obtain ⟨q, place, hp⟩ := h.placed
    obtain ⟨hserve, hholds, hcum⟩ := resume_plain rest
    have hw : Working (x.moveTo τ (Arming.resume rest)) := by
      refine h.working.read hpc hs .arm .resume (.inl hserve) (hholds id) (hcum id) nofun fun _ _ _ _ => ?_
      cases rest <;> simp [Pc.covers, Arming.resume]
    exact ⟨⟨_, _, hp.append hpc⟩, hw.serving, hw.served, hw.ok⟩

theorem Inv.fired (h : x.Inv) (hpc : x.pcs τ = .fired id) (hs : x.streams id = some s) :
    ((x.set id { s with deferred := false }).moveTo τ (.live id true none)).Inv :=
  h.wrote hpc hs .fired .live (.inl rfl) rfl rfl fun hok =>
    hok.covered hpc (fun hl => hl) hok.acked (Nat.le_refl _) rfl rfl rfl (by simp) (by simp [Pc.covers])

theorem StreamOk.held (h : StreamOk ids drained pcs id s) (hpc : pcs .dispatcher = pc) (hl : s.live = true) :
    s.token = if pc.holds id then .ackOutstanding else .idle := hpc ▸ h.token hl

theorem Inv.dispatch (h : x.Inv) (hpc : x.pcs .dispatcher = .serve id p) (hs : x.streams id = some s)
    (hon : On id none pc') (ha : s'.armed = s.armed) (hown : pc'.owns = (Pc.serve id p).owns)
    (hok : StreamOk x.ids x.drained x.pcs id s → StreamOk x.ids x.drained (update x.pcs .dispatcher pc') id s') :
    ((x.set id s').moveTo .dispatcher pc').Inv := h.wrote hpc hs .serve hon (.inr rfl) ha hown hok

theorem Inv.serve (h : x.Inv) (hpc : x.pcs .dispatcher = .serve id p) (hs : x.streams id = some s)
    (hstep : x.serve .dispatcher id s p = some y) : y.Inv := by
  have hheld := (h.working.ok id s hs).held hpc
  cases p with
  | popped =>
    cases hstep
    obtain ⟨q, place, hp⟩ := h.placed
    refine ⟨⟨_, _, hp.clear hpc⟩, h.working.wrote hpc hs .serve .serve (.inl rfl) fun hok => ?_⟩
    exact hok.covered hpc (fun hl => hl) hok.acked (Nat.le_refl _) rfl rfl rfl (fun hd => ⟨hd, rfl⟩) (by simp [Pc.covers])
  | live =>
    cases hstep
    split
    · exact h.goesOn hpc hs .serve .serve (.inl rfl) rfl rfl rfl rfl (by simp [Pc.covers])
    · next hl => exact h.resume hpc hs .serve (.inr rfl) rfl rfl rfl rfl fun hl' _ _ _ => hl hl'
  | pending =>
    cases hstep
    split
    · exact h.goesOn hpc hs .serve .serve (.inl rfl) rfl rfl rfl rfl (by simp [Pc.covers])
    · next hp => exact h.resume hpc hs .serve (.inr rfl) rfl rfl rfl rfl fun _ hp' _ _ => hp hp'
  | deferred =>
    cases hstep
    split
    · next hd => exact h.resume hpc hs .serve (.inr rfl) rfl rfl rfl rfl fun _ _ _ hd' => by simp [hd] at hd'
    · exact h.goesOn hpc hs .serve .serve (.inl rfl) rfl rfl rfl rfl (by simp [Pc.covers])
  | token =>
    simp only [Arming.serve] at hstep
    split at hstep
    · cases hstep
      exact h.dispatch hpc hs .serve rfl rfl fun hok => hok.dispatched hpc hok.acked (by simp [Pc.cum]) (by simp [Pc.holds])
        (fun hd => .inr ⟨hd, rfl⟩) fun _ _ => .inl (by simp [Pc.covers])
    · next hne =>
      cases hstep
      -- A live stream's token is idle unless the dispatcher has it, so this stream has ended.
      exact h.resume hpc hs .serve (.inr rfl) rfl rfl rfl rfl fun hl _ _ _ => hne (hheld hl)
  | build =>
    cases hstep
    rw [← set_self hs]
    exact h.dispatch hpc hs .serve rfl rfl fun hok => hok.dispatched hpc hok.acked (by simp [Pc.cum]) hheld
      (fun hd => .inr ⟨hd, rfl⟩) fun _ _ => .inl (by simp [Pc.covers])
  | send cum => cases hstep
  | advance cum =>
    cases hstep
    refine h.dispatch hpc hs .serve rfl rfl fun hok => hok.dispatched hpc ?_ (by simp [Pc.cum]) hheld (fun hd => .inr ⟨hd, rfl⟩)
      fun _ _ => .inl (by simp [Pc.covers])
    have hle := hok.cum cum (by rw [hpc]; simp [Pc.cum])
    have hacked := hok.acked
    unfold CreditCounter.advanceAckedOut
    split <;> assumption
  | defer =>
    cases hstep
    exact h.dispatch hpc hs .serve rfl rfl fun hok => hok.dispatched hpc hok.acked (by simp [Pc.cum]) hheld
      (fun _ => .inl (by simp [Pc.clears])) fun _ _ => .inr (.inl rfl)
  | schedule => cases hstep
  | release success =>
    simp only [Arming.serve] at hstep
    split at hstep
    · cases hstep
      cases success with
      | true =>
        exact h.dispatch hpc hs .pending rfl rfl fun hok => hok.dispatched hpc hok.acked (by simp [Pc.cum]) (by simp [Pc.holds])
          (fun hd => .inr ⟨hd, rfl⟩) fun _ _ => .inl (by simp [Pc.covers])
      | false =>
        exact h.dispatch hpc hs .idle rfl rfl fun hok => hok.dispatched hpc hok.acked (by simp [Pc.cum]) (by simp [Pc.holds])
          (fun hd => .inr ⟨hd, rfl⟩) fun hl hp => .inr (.inr ⟨hl, hp, rfl, rfl, rfl⟩)
    -- Any other token, and the stream has ended.
    · next htok =>
      cases hstep
      have hdead : s.live ≠ true := fun hl => by simp [hheld hl, Pc.holds] at htok
      exact h.dispatch hpc hs .idle rfl rfl fun hok => hok.dispatched hpc hok.acked (by simp [Pc.cum])
        (fun hl => absurd hl hdead) (fun hd => .inr ⟨hd, by cases success <;> rfl⟩) fun hl => absurd hl hdead
    · next htok _ =>
      cases hstep
      have hdead : s.live ≠ true := fun hl => htok (by simp [hheld hl, Pc.holds])
      rw [← set_self hs]
      exact h.dispatch hpc hs .idle rfl rfl fun hok => hok.dispatched hpc hok.acked (by simp [Pc.cum])
        (fun hl => absurd hl hdead) (fun hd => .inr ⟨hd, by cases success <;> rfl⟩) fun hl => absurd hl hdead

theorem Inv.free (h : x.Inv) (hpc : x.pcs τ = pc) (hown : pc'.owns = pc.owns) (hserve : pc'.serves = false)
    (hok : ∀ id s, StreamOk x.ids x.drained x.pcs id s → StreamOk x.ids drained' (update x.pcs τ pc') id s) :
    Inv { x.moveTo τ pc' with drained := drained' } := by
  obtain ⟨q, place, hp⟩ := h.placed
  refine ⟨⟨q, place, hp.keep rfl (fun _ => rfl) rfl (hpc ▸ hown)⟩, fun τ' hτ' => ?_, fun id p hpc => ?_, fun id s hs =>
    hok id s (h.working.ok id s hs)⟩
  · by_cases hτ : τ' = τ
    · subst hτ
      simp [moveTo, hserve] at hτ'
    · exact h.working.serving τ' (by simpa [moveTo, hτ] using hτ')
  · by_cases hτ : τ = .dispatcher
    · subst hτ
      have heq : pc' = .serve id p := by simpa [moveTo] using hpc
      rw [heq] at hserve
      cases hserve
    · exact h.working.served id p (by simpa [moveTo, Ne.symm hτ] using hpc)

theorem Inv.between (h : x.Inv) (hpc : x.pcs τ = pc) (hown : pc'.owns = pc.owns) (hserve : pc'.serves = false)
    (hh : ∀ id, pc'.holds id = pc.holds id) (hcum : ∀ id, pc'.cum id = pc.cum id)
    (hclr : ∀ id, pc.clears id = true → pc'.clears id = true)
    (hcov : ∀ id, drained' = true → pc.covers id = true → pc'.covers id = true)
    (hdr : drained' = true → x.drained = true) : Inv { x.moveTo τ pc' with drained := drained' } :=
  h.free hpc hown hserve fun id _ hok => hok.plain hpc hdr (hh id) (hcum id) (hclr id) fun _ _ hdr _ _ => hcov id hdr

theorem Inv.onStream (h : x.Inv) (hpc : x.pcs τ = pc) (hid : pc.stream = some id) (hs : x.streams id = some s)
    (hstep : x.onStream τ id s pc = some y) : y.Inv := by
  cases pc with
  | idle | marked | sweep rest | drained id' | waiting id' => cases hid
  | serve id' p =>
    cases hid
    have hτ := h.working.serving τ (by rw [hpc]; rfl)
    subst hτ
    exact h.serve hpc hs hstep
  | handle id' f | consume id' | live id' timer rest | pending id' timer rest | arm id' p rest | fired id' =>
    cases hid
    cases hstep
    first | exact h.handle hpc hs | exact h.consume hpc hs | exact h.live hpc hs | exact h.pending hpc hs | exact h.arm hpc hs | exact h.fired hpc hs

theorem Inv.sweepDrained (h : x.Inv) (hpc : x.pcs τ = .drained id) :
    (x.moveTo τ (if x.drained then .live id false none else .idle)).Inv := by
  cases hdr : x.drained with
  | true =>
    refine h.between hpc rfl rfl (fun _ => rfl) (fun _ => rfl) nofun (fun id' _ hc => ?_) fun hd => hd
    simpa [Pc.covers] using hc
  | false =>
    exact h.between hpc rfl rfl (fun _ => rfl) (fun _ => rfl) nofun
      (fun _ hx => by simp [hdr] at hx) fun hd => hd

theorem move_some (hid : (x.pcs τ).stream = some id) (hs : x.streams id = some s) :
    x.move τ = x.onStream τ id s (x.pcs τ) := by
  unfold Arming.move
  cases hpc : x.pcs τ <;> rw [hpc] at hid <;> cases hid <;> simp only [Pc.stream, hs]

theorem move_none (hid : (x.pcs τ).stream = some id) (hs : x.streams id = none) :
    x.move τ = if (x.pcs τ).isFrame then some (x.moveTo τ .idle) else none := by
  unfold Arming.move
  cases hpc : x.pcs τ <;> rw [hpc] at hid <;> cases hid <;> simp only [Pc.stream, hs]

theorem Inv.discard (h : x.Inv) (hframe : (x.pcs τ).isFrame = true) : (x.moveTo τ .idle).Inv := by
  cases hpc : x.pcs τ with
  | handle id' f =>
    exact h.between hpc rfl rfl (fun _ => rfl) (fun _ => rfl) nofun nofun id
  | _ => simp [hpc, Pc.isFrame] at hframe

theorem Inv.moveStream (h : x.Inv) (hid : (x.pcs τ).stream = some id) (hstep : x.move τ = some y) : y.Inv := by
  cases hs : x.streams id with
  | some s =>
    rw [move_some hid hs] at hstep
    exact h.onStream rfl hid hs hstep
  | none =>
    rw [move_none hid hs] at hstep
    obtain ⟨hframe, ⟨⟩⟩ := guard_some hstep
    exact h.discard hframe

theorem Inv.move (h : x.Inv) (hstep : x.move τ = some y) : y.Inv := by
  cases hpc : x.pcs τ with
  | sweep rest =>
    cases rest with
    | nil =>
      simp only [Arming.move, hpc, Option.some.injEq] at hstep
      subst hstep
      exact h.between hpc rfl rfl (fun _ => rfl) (fun _ => rfl) nofun (by simp [Pc.covers]) id
    | cons id rest =>
      simp only [Arming.move, hpc, Option.some.injEq] at hstep
      subst hstep
      refine h.between hpc rfl rfl (fun _ => rfl) (fun _ => rfl) nofun (fun id' _ hc => ?_) fun hd => hd
      simp only [Pc.covers, decide_eq_true_eq, List.mem_cons, Option.getD_some] at hc ⊢
      exact hc.imp_left Eq.symm
  | drained id =>
    simp only [Arming.move, hpc, Option.some.injEq] at hstep
    subst hstep
    exact h.sweepDrained hpc
  | idle | marked | waiting id =>
    simp only [Arming.move, hpc] at hstep
    cases hstep
  | handle id f | consume id | live id timer rest | pending id timer rest | arm id p rest | serve id p | fired id =>
    exact h.moveStream (by rw [hpc]; rfl) hstep

theorem Inv.set (h : x.Inv) (hs : x.streams id = some s) (ha : s'.armed = s.armed)
    (hok : StreamOk x.ids x.drained x.pcs id s → StreamOk x.ids x.drained x.pcs id s') : (x.set id s').Inv := by
  obtain ⟨q, place, hp⟩ := h.placed
  refine ⟨⟨q, place, hp.holds, fun id' => (armed_set hs ha id').symm ▸ hp.armed id', hp.queued, hp.owned⟩, h.working.serving,
    fun id' p hpc => ?_, fun id' s₁ hs₁ => ?_⟩
  · by_cases hid : id' = id
    · subst hid
      exact ⟨s', by simp [Arming.set]⟩
    · simpa [Arming.set, hid] using h.working.served id' p hpc
  · obtain ⟨rfl, rfl⟩ | ⟨-, hs₁⟩ := update_eq_some hs₁
    · exact hok (h.working.ok _ s hs)
    · exact h.working.ok id' s₁ hs₁

theorem Inv.register (h : x.Inv) (hs : x.streams id = none) (credits : Nat) :
    Inv { x.set id (.new credits) with ids := id :: x.ids } := by
  have hnot : ∀ p, x.pcs .dispatcher ≠ .serve id p := by
    intro p hpc
    obtain ⟨s, hs'⟩ := h.working.served id p hpc
    rw [hs] at hs'
    cases hs'
  have hnone : (x.pcs .dispatcher).holds id = false ∧ (x.pcs .dispatcher).cum id = none := by
    cases hpc : x.pcs .dispatcher with
    | serve id' p =>
      have hne : id' ≠ id := fun he => hnot p (he ▸ hpc)
      obtain ⟨hh, hcum, -⟩ := (On.serve : On id' none (.serve id' p)).rests id hne.symm
      exact ⟨hh, hcum⟩
    | _ => exact ⟨rfl, rfl⟩
  obtain ⟨q, place, hp⟩ := h.placed
  refine ⟨⟨q, place, hp.holds, fun id' => ?_, hp.queued, hp.owned⟩, h.working.serving, fun id' p hpc => ?_, fun id' s₁ hs₁ => ?_⟩
  · rw [← hp.armed id']
    by_cases hid : id' = id
    · subst hid
      simp [armed, Arming.set, hs, AckStream.new]
    · simp [armed, Arming.set, hid]
  · by_cases hid : id' = id
    · subst hid
      exact absurd hpc (hnot p)
    · simpa [Arming.set, hid] using h.working.served id' p hpc
  · obtain ⟨rfl, rfl⟩ | ⟨-, hs₁⟩ := update_eq_some hs₁
    · refine ⟨List.mem_cons_self, Nat.le_refl _, fun c hc => ?_, fun _ => ?_, by simp [AckStream.new],
        by simp [AckStream.new, newCreditCounter, CreditCounter.pending]⟩
      · have hc' : (x.pcs .dispatcher).cum id' = some c := hc
        rw [hnone.2] at hc'
        cases hc'
      · have hh : (if (x.pcs .dispatcher).holds id' then LifecycleToken.ackOutstanding else .idle) = .idle := by simp [hnone.1]
        exact hh.symm
    · have hok := h.working.ok id' s₁ hs₁
      exact ⟨List.mem_cons_of_mem _ hok.known, hok.acked, hok.cum, hok.token, hok.timed, hok.credit⟩

theorem Inv.pop (h : x.Inv) (hpc : x.pcs .dispatcher = .idle) (hpop : x.queue.pop = some (id, queue)) :
    Inv ({ x with queue }.moveTo .dispatcher (.serve id .popped)) := by
  obtain ⟨q, place, hp⟩ := h.placed
  obtain ⟨q', hp'⟩ := hp.pop hpc hpop
  have howns : (({ x with queue }.moveTo .dispatcher (.serve id .popped)).pcs .dispatcher).owns = some id := by
    simp [moveTo, Pc.owns]
  obtain ⟨-, -, harm⟩ := hp'.owner howns
  obtain ⟨s, hs⟩ : ∃ s, x.streams id = some s := by
    cases hs : x.streams id with
    | none => simp [armed, moveTo, hs] at harm
    | some s => exact ⟨s, rfl⟩
  have hw : Working (x.moveTo .dispatcher (.serve id .popped)) :=
    h.working.read hpc hs .idle .serve (.inr rfl) rfl rfl nofun nofun
  exact ⟨⟨q', _, hp'⟩, hw.serving, hw.served, hw.ok⟩

theorem Inv.schedule (h : x.Inv) {n : Nat} (hpc : x.pcs .dispatcher = .serve id .schedule) (hidle : x.pcs (.timer n) = .idle) :
    Inv ((x.moveTo .dispatcher (.serve id (.release false))).moveTo (.timer n) (.waiting id)) := by
  obtain ⟨s, hs⟩ := h.working.served id _ hpc
  -- The timer is set first: the order of the two words does not matter.
  have hcomm : (x.moveTo .dispatcher (.serve id (.release false))).moveTo (.timer n) (.waiting id) =
      (x.moveTo (.timer n) (.waiting id)).moveTo .dispatcher (.serve id (.release false)) := by
    simp only [moveTo]
    rw [update_comm (by simp)]
  have htimer : Inv (x.moveTo (.timer n) (.waiting id)) :=
    h.between hidle rfl rfl (fun _ => rfl) (fun _ => rfl) nofun nofun fun hd => hd
  have hpc' : (x.moveTo (.timer n) (.waiting id)).pcs .dispatcher = .serve id .schedule := by simpa [moveTo] using hpc
  rw [hcomm, ← set_self (x := x.moveTo (.timer n) (.waiting id)) hs]
  refine htimer.dispatch hpc' hs .serve rfl rfl fun hok => ?_
  refine ⟨hok.known, hok.acked, by rw [update_self]; simp [Pc.cum], fun hl => ?_, fun _ => ⟨.timer n, ?_⟩, fun hl hp => ?_⟩
  · rw [update_self]
    have htok := hok.held hpc' hl
    exact htok
  · simp [moveTo, Pc.clears]
  · refine (hok.credit hl hp).imp_right fun hx => hx.imp_right fun hx => hx.imp_right fun hex => ?_
    exact exists_update (Pc.covers id) hex (by rw [hpc']; simp [Pc.covers])

theorem Inv.step {a : Act} (h : x.Inv) (hstep : x.step a = some y) : y.Inv := by
  cases a <;> simp only [Arming.step] at hstep
  case register id credits =>
    split at hstep <;> cases hstep
    next hs => exact h.register hs credits
  case terminate id =>
    split at hstep <;> cases hstep
    next s hs => exact h.set hs rfl fun hok => hok.words (by simp) rfl rfl rfl rfl
  case claim id needCancel =>
    split at hstep
    swap
    · cases hstep
    next s hs =>
    obtain ⟨hl, hstep⟩ := unless_some hstep
    split at hstep <;> cases hstep
    next token _ _ =>
    exact h.set hs rfl fun hok => ⟨hok.known, hok.acked, hok.cum, fun hl' => absurd hl' hl, hok.timed, hok.credit⟩
  case dispatch id f =>
    obtain ⟨hpc, ⟨⟩⟩ := guard_some hstep
    exact h.between hpc rfl rfl (fun _ => rfl) (fun _ => rfl) nofun (by simp) (by simp)
  case readerDrained =>
    obtain ⟨hpc, ⟨⟩⟩ := guard_some hstep
    exact h.free hpc rfl rfl fun id s hok =>
      hok.covered hpc (fun hl => hl) hok.acked (Nat.le_refl _) rfl rfl rfl (fun hd => ⟨hd, rfl⟩) rfl
  case snapshot order =>
    obtain ⟨hpc, ⟨⟩⟩ := guard_some hstep
    refine h.free hpc.1 rfl rfl fun id s hok => hok.plain hpc.1 (fun hd => hd) rfl rfl nofun fun _ _ _ _ _ _ => ?_
    simpa [Pc.covers] using hpc.2.mem_iff.mpr hok.known
  case deliver n id =>
    split at hstep
    swap
    · cases hstep
    next s hs =>
    obtain ⟨hpc, ⟨⟩⟩ := guard_some hstep
    refine h.wrote hpc.1 hs .idle .consume (.inl rfl) rfl rfl fun hok => ?_
    have hw : StreamOk x.ids x.drained x.pcs id { s with recvCh := s.recvCh - 1 } :=
      hok.words (fun hl => hl) rfl rfl rfl rfl
    exact hw.plain hpc.1 (fun hd => hd) rfl rfl nofun nofun
  case pop =>
    obtain ⟨hpc, hstep⟩ := guard_some hstep
    split at hstep <;> cases hstep
    next id queue hpop => exact h.pop hpc hpop
  case sent ok =>
    split at hstep <;> cases hstep
    next id cum hpc =>
    obtain ⟨s, hs⟩ := h.working.served id _ hpc
    rw [← set_self hs]
    have hheld := (h.working.ok id s hs).held hpc
    cases ok with
    | true =>
      exact h.dispatch hpc hs .serve rfl rfl fun hok => hok.dispatched hpc hok.acked (fun c hc => hok.cum c (by rw [hpc]; exact hc)) hheld
        (fun hd => .inr ⟨hd, rfl⟩) fun _ _ => .inl (by simp [Pc.covers])
    | false =>
      exact h.dispatch hpc hs .serve rfl rfl fun hok => hok.dispatched hpc hok.acked (by simp [Pc.cum]) hheld
        (fun hd => .inr ⟨hd, rfl⟩) fun _ _ => .inl (by simp [Pc.covers])
  case schedule n =>
    split at hstep
    swap
    · cases hstep
    next id hpc =>
    obtain ⟨hidle, ⟨⟩⟩ := guard_some hstep
    exact h.schedule hpc hidle
  case fire n =>
    split at hstep <;> cases hstep
    next id hpc =>
    exact h.between hpc rfl rfl (fun _ => rfl) (fun _ => rfl) (fun _ hx => hx) nofun fun hd => hd
  case move τ => exact h.move hstep

theorem inv_reach (h : Reach step Any start x) : x.Inv := h.invariant inv_start fun hx _ hs => hx.step hs

/-! ## Main results -/

/-- Nothing is under way: no call of the reader, no delivery, no dispatch, no timer set. -/
def Quiet (x : Arming) : Prop := ∀ τ, x.pcs τ = .idle

/-- The arming queue is a list without repetition that its links spell from head to tail, and a
stream is in it exactly if its flag is set, unless it is just being popped or appended. -/
def QueueSound (x : Arming) : Prop :=
  ∃ q, x.queue.Holds q ∧ ∀ id, (∀ τ, (x.pcs τ).owns ≠ some id) → (id ∈ q ↔ x.armed id = true)

theorem Placed.linked (h : Placed x q place) (hfree : ∀ τ, (x.pcs τ).owns ≠ some id) : id ∈ q ↔ x.armed id = true := by
  rw [h.queued, h.armed]
  refine ⟨fun hq => by simp [hq], fun hne => ?_⟩
  cases hp : place id with
  | free => exact absurd hp hne
  | queued => rfl
  | owned τ => exact absurd ((h.owned τ id).mpr hp) (hfree τ)

theorem Inv.unarmed (h : x.Inv) (hq : x.Quiet) (hempty : x.queue.head = none) (id : UInt64) : x.armed id = false := by
  obtain ⟨q, place, hp⟩ := h.placed
  have hlinked : id ∈ q ↔ x.armed id = true := hp.linked fun τ => by rw [hq τ]; simp [Pc.owns]
  rw [hp.holds.head_none hempty] at hlinked
  simpa using hlinked

/-- **No credit is stranded.** When the reader has drained, the queue is empty and nothing is under
way, every live stream has acknowledged all it consumed; and the queue is sound throughout. -/
theorem credit_returned (h : Reach step Any start x) :
    QueueSound x ∧ (x.drained = true → x.queue.head = none → x.Quiet →
      ∀ id s, x.streams id = some s → s.live = true → s.credit.consumed = s.credit.ackedOut) := by
  have hinv := inv_reach h
  constructor
  · obtain ⟨q, place, hp⟩ := hinv.placed
    exact ⟨q, hp.holds, fun id => hp.linked⟩
  · intro hdr hempty hq id s hs hl
    have hok := hinv.working.ok id s hs
    have hidle : ∀ f : Pc → Bool, f .idle = false → ¬ ∃ τ, f (x.pcs τ) = true := by
      rintro f hf ⟨τ, hτ⟩
      rw [hq τ, hf] at hτ
      cases hτ
    by_contra hne
    have hp : s.credit.pending = true := by
      have := hok.acked
      simp only [CreditCounter.pending, decide_eq_true_eq]
      omega
    rcases hok.credit hl hp with hdr' | harm | hdef | hex
    · rw [hdr] at hdr'
      cases hdr'
    · have := hinv.unarmed hq hempty id
      rw [armed_eq hs, harm] at this
      cases this
    · exact hidle (Pc.clears id) rfl (hok.timed hdef)
    · exact hidle (Pc.covers id) rfl hex

def moves (τ : Thread) (n : Nat) : List Act := List.replicate n (.move τ)

/-- One message delivered below its count, found by the reader's sweep; its acknowledgement is
refused once, and goes out after the back-off. -/
def sampleActs : List Act :=
  [.register 1 16, .dispatch 1 .msg, .move .reader, .deliver 0 1] ++ moves (.app 0) 2 ++ [.readerDrained, .snapshot [1]] ++
    moves .reader 7 ++ [.pop] ++ moves .dispatcher 6 ++ [.sent false, .move .dispatcher, .schedule 0, .move .dispatcher] ++
    [.fire 0] ++ moves (.timer 0) 5 ++ [.pop] ++ moves .dispatcher 6 ++ [.sent true] ++ moves .dispatcher 3

def sample : Arming := (run step start sampleActs).get (by decide +kernel)

def sampleStream : AckStream := (sample.streams 1).get (by decide +kernel)

theorem sample_quiet : sample.Quiet := by
  intro τ
  cases τ with
  | reader | dispatcher => decide +kernel
  | app n | timer n =>
    cases n with
    | zero => decide +kernel
    | succ n => rfl

theorem credit_returned_sample : QueueSound sample ∧ sampleStream.credit.consumed = sampleStream.credit.ackedOut ∧
    sampleStream.credit.ackedOut = 1 :=
  have h := credit_returned (.of_run (Option.some_get _).symm : Reach step Any start sample)
  ⟨h.1, h.2 (by decide +kernel) (by decide +kernel) sample_quiet 1 sampleStream (Option.some_get _).symm (by decide +kernel),
    by decide +kernel⟩

/-- A delivery of a stream with one credit has won the flag and is about to append. -/
def appending : Arming :=
  (run step start ([.register 1 1, .dispatch 1 .msg, .move .reader, .deliver 0 1] ++ moves (.app 0) 3)).get (by decide +kernel)

/-- **A flag is set before its stream is linked**: nothing is being popped, the flag is set and the
queue is empty. -/
theorem armed_before_linked : ∃ x, Reach step Any start x ∧ x.pcs .dispatcher = .idle ∧ x.armed 1 = true ∧
    ∀ q, x.queue.Holds q → 1 ∉ q :=
  ⟨appending, .of_run (Option.some_get _).symm, by decide +kernel, by decide +kernel, fun q hq hmem => by
    rw [hq.head_none (by decide +kernel)] at hmem
    cases hmem⟩

end Arming

end Styx
