/-
The descriptor ring taken apart: one producer's `Push` as head read, slot write and tail
store, one consumer's `Peek` as tail read and slot read, `Advance`, `Pop`, and `Len` as
two loads by either side, in any interleaving.

The ring is a bounded queue (`queue_refines`), across the wrap. A slot's content is any
type: the ring copies its 64 bytes and looks at none of them. `ofRing_push` ties the
taken-apart push to the one the writer's model makes in one step.
-/
import Styx.Lib.Fifo
import Styx.Lib.Machine
import Styx.Shm.Ring

namespace Styx

open Machine Sequence Fifo

/-- Where the producer is. -/
inductive Pusher (α : Type)
  | idle
  /-- `Push` has read the head; `held` descriptors were unread then. -/
  | loaded (d : α) (head : UInt64) (held : Nat)
  /-- The slot of `tail` is written, the tail not yet stored. -/
  | written (d : α) (tail : UInt64)
  /-- `Len` has read the head. -/
  | measuring (head : UInt64)
  deriving DecidableEq

/-- Where the consumer is. -/
inductive Popper (α : Type)
  | idle
  /-- `Peek` has read both words; `held` descriptors were unread then. -/
  | loaded (pop : Bool) (head tail : UInt64) (held : Nat)
  /-- `Peek` has returned a descriptor; inside `Pop` the `Advance` comes next. -/
  | peeked (pop : Bool) (d : α)
  | measuring (head : UInt64)
  deriving DecidableEq

/-- `Peek` may be called when no call is under way. -/
def Popper.ready {α : Type} : Popper α → Bool
  | .idle => true
  | .peeked pop _ => !pop
  | _ => false

structure Queue (α : Type) where
  slots : UInt64 → α
  head : UInt64
  tail : UInt64
  producer : Pusher α
  consumer : Popper α
  trace : List (Event α)
  /-- The slots written and read so far. -/
  writes : List UInt64
  reads : List UInt64

namespace Queue

variable {α : Type} {capacity head : UInt64} {s : Queue α} {held : Nat} {r : Ring} {d : Descriptor}

inductive Act (α : Type)
  | push (d : α)
  | pushSlot
  | pushTail
  | peek (pop : Bool)
  | peekSlot
  | advance
  | lenByProducer
  | lenByConsumer
  | lenTail (byProducer : Bool)
  /-- A word overwritten by whoever maps the region. -/
  | smashHead (v : UInt64)
  | smashTail (v : UInt64)

/-- `Push` after its head read: the depth check, and the slot write if it passes. -/
def pushSlot (capacity : UInt64) (s : Queue α) (d : α) (head : UInt64) (held : Nat) : Queue α :=
  let depth := s.tail - head
  if depth > capacity then { s with producer := .idle, trace := s.trace ++ [.corrupt] }
  else if depth = capacity then { s with producer := .idle, trace := s.trace ++ [.full held] }
  else
    { s with
      slots := Function.update s.slots (slot capacity s.tail) d
      writes := s.writes ++ [slot capacity s.tail]
      producer := .written d s.tail }

/-- `Peek` after its loads: the depth check, and the slot read if it passes. -/
def peekSlot (capacity : UInt64) (s : Queue α) (pop : Bool) (head tail : UInt64) (held : Nat) : Queue α :=
  let depth := tail - head
  if depth > capacity then { s with consumer := .idle, trace := s.trace ++ [.corrupt] }
  else if depth = 0 then { s with consumer := .idle, trace := s.trace ++ [.empty held] }
  else
    let d := s.slots (slot capacity head)
    { s with
      reads := s.reads ++ [slot capacity head]
      trace := s.trace ++ [.peeked d]
      consumer := .peeked pop d }

/-- A step of the producer or of the consumer. A third party's `Len` (`RingDepth`, `Empty`) is none: what is proved of `Len`
is of these two. -/
def step (capacity : UInt64) (s : Queue α) : Act α → Option (Queue α)
  | .push d =>
    match s.producer with
    | .idle => some { s with producer := .loaded d s.head (span s.head s.tail) }
    | _ => none
  | .pushSlot =>
    match s.producer with
    | .loaded d head held => some (pushSlot capacity s d head held)
    | _ => none
  | .pushTail =>
    match s.producer with
    | .written d tail => some { s with tail := tail + 1, producer := .idle, trace := s.trace ++ [.pushed d] }
    | _ => none
  | .peek pop =>
    if s.consumer.ready then some { s with consumer := .loaded pop s.head s.tail (span s.head s.tail) } else none
  | .peekSlot =>
    match s.consumer with
    | .loaded pop head tail held => some (peekSlot capacity s pop head tail held)
    | _ => none
  | .advance =>
    match s.consumer with
    | .peeked _ d => some { s with head := s.head + 1, consumer := .idle, trace := s.trace ++ [.taken d] }
    | _ => none
  | .lenByProducer =>
    match s.producer with
    | .idle => some { s with producer := .measuring s.head }
    | _ => none
  | .lenByConsumer =>
    match s.consumer with
    | .idle => some { s with consumer := .measuring s.head }
    | _ => none
  | .lenTail true =>
    match s.producer with
    | .measuring head =>
      some { s with producer := .idle, trace := s.trace ++ [.length (s.tail - head).toNat] }
    | _ => none
  | .lenTail false =>
    match s.consumer with
    | .measuring head =>
      some { s with consumer := .idle, trace := s.trace ++ [.length (s.tail - head).toNat] }
    | _ => none
  | .smashHead v => some { s with head := v }
  | .smashTail v => some { s with tail := v }

/-- Nobody but its owner writes a word. -/
def Honest (_ : Queue α) : Act α → Prop
  | .smashHead _ => False
  | .smashTail _ => False
  | _ => True

instance : ∀ {s : Queue α} {a : Act α}, Decidable (Honest s a)
  | _, .smashHead _ => inferInstanceAs (Decidable False)
  | _, .smashTail _ => inferInstanceAs (Decidable False)
  | _, .push _ => inferInstanceAs (Decidable True)
  | _, .pushSlot => inferInstanceAs (Decidable True)
  | _, .pushTail => inferInstanceAs (Decidable True)
  | _, .peek _ => inferInstanceAs (Decidable True)
  | _, .peekSlot => inferInstanceAs (Decidable True)
  | _, .advance => inferInstanceAs (Decidable True)
  | _, .lenByProducer => inferInstanceAs (Decidable True)
  | _, .lenByConsumer => inferInstanceAs (Decidable True)
  | _, .lenTail _ => inferInstanceAs (Decidable True)

/-- A ring nobody has used, both words at `q`. -/
def start (slots : UInt64 → α) (q : UInt64) : Queue α := ⟨slots, q, q, .idle, .idle, [], [], []⟩

def desc (capacity : UInt64) (s : Queue α) (q : UInt64) : α := s.slots (slot capacity q)

def contents (capacity : UInt64) (s : Queue α) : List α :=
  (seqs s.head (span s.head s.tail)).map (s.desc capacity)

/-! ## The queue a ring is -/

/-- What the producer's position says about the words. -/
def PusherOK (capacity : UInt64) (s : Queue α) : Pusher α → Prop
  | .idle => True
  | .loaded _ head held => span head s.tail = held ∧ span s.head s.tail ≤ held ∧ held ≤ capacity.toNat
  | .written d tail => tail = s.tail ∧ span s.head s.tail < capacity.toNat ∧ s.desc capacity s.tail = d
  | .measuring head => span head s.tail ≤ capacity.toNat

/-- What the consumer's position says about the words. -/
def PopperOK (capacity : UInt64) (s : Queue α) : Popper α → Prop
  | .idle => True
  | .loaded _ head tail held => head = s.head ∧ span s.head tail = held ∧ held ≤ span s.head s.tail
  | .peeked _ d => ∃ q, s.contents capacity = d :: q
  | .measuring head => head = s.head

structure Inv (capacity : UInt64) (s : Queue α) : Prop where
  bounded : span s.head s.tail ≤ capacity.toNat
  trace : Trace capacity.toNat s.trace (s.contents capacity)
  producer : PusherOK capacity s s.producer
  consumer : PopperOK capacity s s.consumer

section Steps

variable {capacity q : UInt64} {k : Nat} {s u : Queue α}

theorem length_contents : (s.contents capacity).length = span s.head s.tail := by simp [contents]

theorem contents_front (h : s.head ≠ s.tail) :
    s.contents capacity = s.desc capacity s.head :: (seqs (s.head + 1) (span (s.head + 1) s.tail)).map (s.desc capacity) := by
  rw [contents, span_front h, seqs_succ, List.map_cons]

theorem desc_update (hc : capacity.toNat = 2 ^ k) (hlt : span s.head s.tail < capacity.toNat) (d : α)
    (hq : span s.head q < span s.head s.tail) :
    Function.update s.slots (slot capacity s.tail) d (slot capacity q) = s.desc capacity q := by
  refine Function.update_of_ne (fun he => ?_) _ _
  rw [hc] at hlt
  have heq : q = s.tail := slot_inj hc s.head (by omega) hlt he
  rw [heq] at hq
  omega

theorem contents_update (hc : capacity.toNat = 2 ^ k) (hlt : span s.head s.tail < capacity.toNat) (d : α)
    (hh : u.head = s.head) (ht : u.tail = s.tail)
    (hs : u.slots = Function.update s.slots (slot capacity s.tail) d) : u.contents capacity = s.contents capacity := by
  unfold contents
  rw [hh, ht]
  refine List.map_congr_left fun q hq => ?_
  have hq' : span s.head q < span s.head s.tail := (mem_seqs (Nat.le_of_lt (span_lt _ _))).mp hq
  rw [desc, hs]
  exact desc_update hc hlt d hq'

theorem contents_store (hlt : span s.head s.tail < capacity.toNat) (hh : u.head = s.head)
    (ht : u.tail = s.tail + 1) (hs : u.slots = s.slots) :
    u.contents capacity = s.contents capacity ++ [s.desc capacity s.tail] := by
  have hcap := capacity.toNat_lt
  have hdesc : u.desc capacity = s.desc capacity := by
    funext q
    rw [desc, desc, hs]
  unfold contents
  rw [hh, ht, hdesc, span_succ (by omega), seqs_back rfl, List.map_append, List.map_singleton]

namespace Inv

theorem push (h : Inv capacity s) (d : α) :
    Inv capacity { s with producer := .loaded d s.head (span s.head s.tail) } :=
  ⟨h.bounded, h.trace, ⟨rfl, Nat.le_refl _, h.bounded⟩, h.consumer⟩

variable {d : α} {head tail : UInt64} {held : Nat} {pop : Bool} {s' : Queue α}

theorem pushSlot (hc : capacity.toNat = 2 ^ k) (h : Inv capacity s)
    (hp : s.producer = .loaded d head held) : Inv capacity (Queue.pushSlot capacity s d head held) := by
  have hpos := h.producer
  rw [hp] at hpos
  obtain ⟨hspan, hle, hcap⟩ := hpos
  have hdepth : (s.tail - head).toNat = held := hspan
  unfold Queue.pushSlot
  simp only
  split
  · next hgt =>
    rw [gt_iff_lt, UInt64.lt_iff_toNat_lt] at hgt
    omega
  split
  · next heq =>
    have hfull : held = capacity.toNat := by rw [← hdepth, heq]
    refine ⟨h.bounded, ?_, trivial, h.consumer⟩
    rw [hfull]
    exact .full h.trace
  · next hne =>
    have hlt : span s.head s.tail < capacity.toNat := by
      have : (s.tail - head).toNat ≠ capacity.toNat := fun he => hne (UInt64.toNat_inj.mp he)
      omega
    have hcont := contents_update hc hlt (u := { s with
      slots := Function.update s.slots (slot capacity s.tail) d
      writes := s.writes ++ [slot capacity s.tail]
      producer := .written d s.tail }) d rfl rfl rfl
    refine ⟨h.bounded, ?_, ⟨rfl, hlt, by simp [desc]⟩, ?_⟩
    · rw [hcont]
      exact h.trace
    · have hcons := h.consumer
      cases hs : s.consumer with
      | idle => trivial
      | loaded pop head tail held | measuring head => rw [hs] at hcons; exact hcons
      | peeked pop x =>
        rw [hs] at hcons
        obtain ⟨q, hq⟩ := hcons
        exact ⟨q, hcont.trans hq⟩

theorem pushTail (h : Inv capacity s) (hp : s.producer = .written d tail) :
    Inv capacity { s with tail := tail + 1, producer := .idle, trace := s.trace ++ [.pushed d] } := by
  have hpos := h.producer
  rw [hp] at hpos
  obtain ⟨rfl, hlt, rfl⟩ := hpos
  have hcap := capacity.toNat_lt
  have hspan : span s.head (s.tail + 1) = span s.head s.tail + 1 := span_succ (by omega)
  have hcont := contents_store hlt (u := { s with
    tail := s.tail + 1, producer := .idle, trace := s.trace ++ [.pushed (s.desc capacity s.tail)] }) rfl rfl rfl
  refine ⟨?_, ?_, trivial, ?_⟩
  · change span s.head (s.tail + 1) ≤ _
    omega
  · rw [hcont]
    exact .pushed h.trace (by rw [length_contents]; exact hlt)
  · have hcons := h.consumer
    cases hs : s.consumer with
    | idle => trivial
    | loaded pop head tail held =>
      rw [hs] at hcons
      refine ⟨hcons.1, hcons.2.1, ?_⟩
      change held ≤ span s.head (s.tail + 1)
      have := hcons.2.2
      omega
    | peeked pop x =>
      rw [hs] at hcons
      obtain ⟨q, hq⟩ := hcons
      exact ⟨q ++ [s.desc capacity s.tail], hcont.trans (by rw [hq]; rfl)⟩
    | measuring head => rw [hs] at hcons; exact hcons

theorem peekSlot (h : Inv capacity s)
    (hp : s.consumer = .loaded pop head tail held) : Inv capacity (Queue.peekSlot capacity s pop head tail held) := by
  have hpos := h.consumer
  rw [hp] at hpos
  obtain ⟨rfl, hspan, hle⟩ := hpos
  have hdepth : (tail - s.head).toNat = held := hspan
  have hb := h.bounded
  unfold Queue.peekSlot
  simp only
  split
  · next hgt =>
    rw [gt_iff_lt, UInt64.lt_iff_toNat_lt] at hgt
    omega
  split
  · next heq =>
    have hzero : held = 0 := by rw [← hdepth, heq]; rfl
    refine ⟨h.bounded, ?_, h.producer, trivial⟩
    rw [hzero]
    exact .empty h.trace
  · next hne =>
    have hpos : held ≠ 0 := fun h0 => hne (UInt64.toNat_inj.mp (by rw [hdepth, h0]; rfl))
    have hne' : s.head ≠ s.tail := fun he => by
      rw [he, span_self] at hle
      omega
    have hfront : s.contents capacity = _ := contents_front hne'
    refine ⟨h.bounded, ?_, h.producer, ⟨_, hfront⟩⟩
    have ht := h.trace
    rw [hfront] at ht
    have := Trace.peeked ht
    rw [← hfront] at this
    exact this

theorem advance (h : Inv capacity s) (hp : s.consumer = .peeked pop d) :
    Inv capacity { s with head := s.head + 1, consumer := .idle, trace := s.trace ++ [.taken d] } := by
  have hpos := h.consumer
  rw [hp] at hpos
  obtain ⟨q, hq⟩ := hpos
  have hb := h.bounded
  have hne : s.head ≠ s.tail := by
    intro he
    have hlen : (s.contents capacity).length = span s.head s.tail := length_contents
    rw [hq, he, span_self] at hlen
    simp at hlen
  have hspan := span_front hne
  have hfront : s.contents capacity = _ := contents_front hne
  have ht := h.trace
  rw [hq] at hfront ht
  obtain ⟨rfl, hrest⟩ := List.cons.inj hfront
  refine ⟨?_, ?_, ?_, trivial⟩
  · change span (s.head + 1) s.tail ≤ _
    omega
  · have hcont : Queue.contents capacity { s with
        head := s.head + 1, consumer := .idle, trace := s.trace ++ [.taken (s.desc capacity s.head)] } = q := hrest.symm
    rw [hcont]
    exact .taken ht
  · have hprod := h.producer
    cases hs : s.producer with
    | idle => trivial
    | loaded x head held =>
      rw [hs] at hprod
      refine ⟨hprod.1, ?_, hprod.2.2⟩
      change span (s.head + 1) s.tail ≤ held
      have := hprod.2.1
      omega
    | written x tail =>
      rw [hs] at hprod
      refine ⟨hprod.1, ?_, hprod.2.2⟩
      change span (s.head + 1) s.tail < _
      omega
    | measuring head => rw [hs] at hprod; exact hprod

theorem lenTail (h : Inv capacity s) (b : Bool) (he : Queue.step capacity s (.lenTail b) = some s') : Inv capacity s' := by
  cases b with
  | true =>
    simp only [Queue.step] at he
    split at he
    · next head hp =>
      obtain rfl := Option.some.inj he
      have hpos := h.producer
      rw [hp] at hpos
      exact ⟨h.bounded, .length h.trace hpos, trivial, h.consumer⟩
    · cases he
  | false =>
    simp only [Queue.step] at he
    split at he
    · next head hp =>
      obtain rfl := Option.some.inj he
      have hpos := h.consumer
      rw [hp] at hpos
      obtain rfl : head = s.head := hpos
      exact ⟨h.bounded, .length h.trace h.bounded, h.producer, trivial⟩
    · cases he

theorem step (hc : capacity.toNat = 2 ^ k) (h : Inv capacity s) {a : Act α} (ha : Honest s a)
    (he : Queue.step capacity s a = some s') : Inv capacity s' := by
  cases a <;> simp only [Queue.step] at he
  case push d =>
    split at he
    · obtain rfl := Option.some.inj he
      exact h.push d
    · cases he
  case pushSlot =>
    split at he
    · next d head held hp =>
      obtain rfl := Option.some.inj he
      exact h.pushSlot hc hp
    · cases he
  case pushTail =>
    split at he
    · next d tail hp =>
      obtain rfl := Option.some.inj he
      exact h.pushTail hp
    · cases he
  case peek pop =>
    obtain ⟨-, he⟩ := guard_some he
    obtain rfl := Option.some.inj he
    exact ⟨h.bounded, h.trace, h.producer, rfl, rfl, Nat.le_refl _⟩
  case peekSlot =>
    split at he
    · next pop head tail held hp =>
      obtain rfl := Option.some.inj he
      exact h.peekSlot hp
    · cases he
  case advance =>
    split at he
    · next pop d hp =>
      obtain rfl := Option.some.inj he
      exact h.advance hp
    · cases he
  case lenByProducer =>
    split at he
    · obtain rfl := Option.some.inj he
      exact ⟨h.bounded, h.trace, h.bounded, h.consumer⟩
    · cases he
  case lenByConsumer =>
    split at he
    · obtain rfl := Option.some.inj he
      exact ⟨h.bounded, h.trace, h.producer, rfl⟩
    · cases he
  case lenTail b => exact h.lenTail b he
  case smashHead v => exact ha.elim
  case smashTail v => exact ha.elim

end Inv

theorem Inv.start {slots : UInt64 → α} : Inv capacity (Queue.start slots q) := by
  refine ⟨by simp [Queue.start], ?_, trivial, trivial⟩
  simp only [Queue.start, contents, span_self, seqs_zero, List.map_nil]
  exact .nil

/-- Only a slot write changes a slot, and it is not one of an unread descriptor. -/
theorem Inv.slot_kept (hc : capacity.toNat = 2 ^ k) (h : Inv capacity s) {a : Act α} {s' : Queue α}
    (he : Queue.step capacity s a = some s') (hq : Mem s.head s.tail q) :
    s'.slots (slot capacity q) = s.slots (slot capacity q) := by
  cases a with
  | pushSlot =>
    simp only [Queue.step] at he
    split at he
    · next d head held hp =>
      obtain rfl := Option.some.inj he
      have hpos := h.producer
      rw [hp] at hpos
      obtain ⟨hspan, hle, hcap⟩ := hpos
      have hdepth : (s.tail - head).toNat = held := hspan
      unfold Queue.pushSlot
      simp only
      split
      · rfl
      split
      · rfl
      · next hne =>
        have : (s.tail - head).toNat ≠ capacity.toNat := fun he => hne (UInt64.toNat_inj.mp he)
        exact desc_update hc (by omega) d (mem_iff_span.mp hq)
    · cases he
  | peekSlot =>
    simp only [Queue.step] at he
    split at he
    · obtain rfl := Option.some.inj he
      unfold Queue.peekSlot
      simp only
      split
      · rfl
      split <;> rfl
    · cases he
  | push | pushTail | peek | advance | lenByProducer | lenByConsumer =>
    simp only [Queue.step] at he; split at he <;> cases he; rfl
  | lenTail b => cases b <;> simp only [Queue.step] at he <;> split at he <;> cases he <;> rfl
  | smashHead v => cases he; rfl
  | smashTail v => cases he; rfl

end Steps

/-! ## Words nobody vouches for -/

/-- A push that is refused wrote no slot, and no tail store will follow. -/
theorem pushSlot_refused {d : α} (h : (pushSlot capacity s d head held).producer = .idle) :
    (pushSlot capacity s d head held).slots = s.slots ∧ (pushSlot capacity s d head held).tail = s.tail ∧
      (pushSlot capacity s d head held).writes = s.writes := by
  unfold pushSlot at h ⊢
  simp only at h ⊢
  split
  · exact ⟨rfl, rfl, rfl⟩
  split
  · exact ⟨rfl, rfl, rfl⟩
  · next h1 h2 =>
    rw [if_neg h1, if_neg h2] at h
    cases h

/-- A peek that reports corruption, or an empty ring, read no slot. -/
theorem peekSlot_refused {pop : Bool} {tail : UInt64} (h : (peekSlot capacity s pop head tail held).consumer = .idle) :
    (peekSlot capacity s pop head tail held).reads = s.reads := by
  unfold peekSlot at h ⊢
  simp only at h ⊢
  split
  · rfl
  split
  · rfl
  · next h1 h2 =>
    rw [if_neg h1, if_neg h2] at h
    cases h

/-- **The descriptor ring is a bounded queue**, of any power-of-two capacity and from any equal words, in any interleaving of
one producer and one consumer; and no step touches the slot of an unread descriptor. Over arbitrary words a refused push
writes nothing, and a peek that reports corruption reads no slot. -/
theorem queue_refines (capacity : UInt64) (k : Nat) (hc : capacity.toNat = 2 ^ k) :
    (∀ (slots : UInt64 → α) (q₀ : UInt64) (s : Queue α), Reach (step capacity) Honest (start slots q₀) s →
      Trace capacity.toNat s.trace (s.contents capacity) ∧
      s.trace.filterMap pushedOf = s.trace.filterMap takenOf ++ s.contents capacity ∧
      (s.tail - s.head).toNat ≤ capacity.toNat ∧
      ∀ a s', step capacity s a = some s' → ∀ q, Mem s.head s.tail q →
        s'.slots (slot capacity q) = s.slots (slot capacity q)) ∧
    ∀ s s' : Queue α,
      (step capacity s .pushSlot = some s' → s'.producer = .idle →
        s'.slots = s.slots ∧ s'.tail = s.tail ∧ s'.writes = s.writes) ∧
      (step capacity s .peekSlot = some s' → s'.consumer = .idle → s'.reads = s.reads) := by
  refine ⟨fun slots q₀ s hs => ?_, fun s s' => ⟨fun he hidle => ?_, fun he hidle => ?_⟩⟩
  · have hinv : Inv capacity s := hs.invariant .start fun h ha he => h.step hc ha he
    exact ⟨hinv.trace, hinv.trace.pushed_eq, hinv.bounded, fun a s' he q hq => hinv.slot_kept hc he hq⟩
  · simp only [step] at he
    split at he
    · obtain rfl := Option.some.inj he
      exact pushSlot_refused hidle
    · cases he
  · simp only [step] at he
    split at he
    · obtain rfl := Option.some.inj he
      exact peekSlot_refused hidle
    · cases he

def wrapActs : List (Act Nat) :=
  [.push 7, .pushSlot, .pushTail, .push 8, .pushSlot, .peek true, .pushTail, .push 9, .peekSlot, .advance, .pushSlot,
   .lenByProducer, .lenTail true]

def wrapped : Queue Nat :=
  (run (guarded (step 2) Honest) (start (fun _ => 0) 18446744073709551615) wrapActs).get (by decide)

theorem queue_refines_wrapped : (2 : UInt64).toNat = 2 ^ 1 ∧
    Reach (step 2) Honest (start (fun _ => 0) 18446744073709551615) wrapped ∧
    wrapped.trace = [.pushed 7, .pushed 8, .peeked 7, .taken 7, .full 2, .length 1] ∧
    Trace 2 wrapped.trace (wrapped.contents 2) := by
  have hreach : Reach (step 2) Honest (start (fun _ => 0) 18446744073709551615) wrapped :=
    Reach.of_guarded (Option.some_get _).symm
  exact ⟨rfl, hreach, by decide, ((queue_refines 2 1 rfl).1 (fun _ => 0) 18446744073709551615 wrapped hreach).1⟩

/-! ## The push in one step -/

/-- A ring with nobody in the middle of a call. -/
def ofRing (r : Ring) : Queue Descriptor := ⟨r.slots, r.head, r.tail, .idle, .idle, [], [], []⟩

/-- The writer's one-step push is the three steps with nothing in between. -/
theorem ofRing_push {r' : Ring} (h : r.push d = .ok r') :
    ∃ s, run (step r.capacity) (ofRing r) [.push d, .pushSlot, .pushTail] = some s ∧
      s.slots = r'.slots ∧ s.head = r'.head ∧ s.tail = r'.tail ∧ s.trace = [.pushed d] := by
  simp only [Ring.push] at h
  split at h
  · cases h
  split at h
  · cases h
  · next h1 h2 =>
    obtain rfl := Except.ok.inj h
    simp [run, step, ofRing, pushSlot, h1, h2, Ring.write]

/-- What the taken-apart push records for a refusal. -/
def refusal (held : Nat) : PushErr → Event Descriptor
  | .full => .full held
  | .corrupt => .corrupt

/-- A refused one-step push is the first two steps, which end the call. -/
theorem ofRing_push_error {e : PushErr} (h : r.push d = .error e) :
    ∃ s, run (step r.capacity) (ofRing r) [.push d, .pushSlot] = some s ∧ s.producer = .idle ∧
      s.trace = [refusal (span r.head r.tail) e] := by
  simp only [Ring.push] at h
  split at h
  · next h1 =>
    obtain rfl := Except.error.inj h
    simp [run, step, ofRing, pushSlot, refusal, h1]
  split at h
  · next h2 =>
    obtain rfl := Except.error.inj h
    simp [run, step, ofRing, pushSlot, refusal, h2]
  · cases h

end Queue

end Styx
