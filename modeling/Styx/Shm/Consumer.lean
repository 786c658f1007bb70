/-
The consumer of one shared-memory direction taken apart: `recvCore`, `drain`,
`consumeDescriptor`, `protectedConsume` and `advanceHead`
(`internal/transport/shm/transport.go`) over the taken-apart ring, beside the producer's
pushes and slab writes and beside whoever tears the region down.

Each of the two teardown gates is its two loads. The log says what became of each
descriptor, in the order the consumer settled them. `sent` says what each published
descriptor was worth when its tail was stored (`Inlet.verdict`), and the whole of the
delivery contract is that the log is a prefix of it (`Inv.log`).
-/
import Styx.Shm.Queue
import Styx.Shm.Receive

namespace Styx

open Machine Sequence Fifo

/-! ## What a descriptor is worth -/

/-- What a descriptor is worth to a conforming consumer. -/
inductive Verdict
  | stale
  | good (f : Frame)
  | bad (e : Fault)
  deriving DecidableEq

def Verdict.passes : Verdict → Bool
  | .bad _ => false
  | _ => true

namespace Inlet

/-- The generation comes first: a stale slot is judged without its slab. -/
def verdict (c : Inlet) (mem : Nat → UInt8) (d : RawDescriptor) : Verdict :=
  if d.generation ≠ c.gen then .stale
  else
    match c.receive mem d false with
    | .ok f => .good f
    | .error e => .bad e

variable {c : Inlet} {mem mem' : Nat → UInt8} {d : RawDescriptor} {view : Bool}

theorem payloadBytes_mode (c : Inlet) (mem : Nat → UInt8) (x : Descriptor) (view : Bool) :
    (c.payloadBytes mem x view).map (Body.bytes mem) = (c.payloadBytes mem x false).map (Body.bytes mem) := by
  cases view with
  | false => rfl
  | true =>
    simp only [payloadBytes]
    split
    · rfl
    · rfl
    · split
      · rfl
      · rfl

theorem receive_mode : c.receive mem d view = c.receive mem d false := by
  simp only [receive, take]
  cases d.descriptor? with
  | none => rfl
  | some x =>
    simp only
    rcases classify c.checksum c.chunkingActive x with e | ⟨tk, _ | _⟩
    · rfl
    · have h := c.payloadBytes_mode mem x view
      simp only
      cases h1 : c.payloadBytes mem x view <;> cases h2 : c.payloadBytes mem x false <;>
        simp only [h1, h2, Except.map, Except.ok.injEq, Except.error.injEq, reduceCtorEq] at h
      · simp only [h]
      · simp only [Held.frame, h]
    · rfl

theorem verdict_of_receive (hg : d.generation = c.gen) (view : Bool) :
    c.verdict mem d = match c.receive mem d view with | .ok f => .good f | .error e => .bad e := by
  rw [receive_mode, verdict, if_neg (by simpa using hg)]

theorem verdict_stale (hg : d.generation ≠ c.gen) : c.verdict mem d = .stale := if_pos hg

theorem verdict_congr (h : d.generation = c.gen → ∀ x, c.Reads d x → mem x = mem' x) :
    c.verdict mem d = c.verdict mem' d := by
  by_cases hg : d.generation = c.gen
  · simp only [verdict, receive_congr (h hg)]
  · rw [verdict_stale hg, verdict_stale hg]

end Inlet

/-! ## The machine -/

/-- What became of a descriptor the consumer is done with. -/
inductive Outcome
  | delivered (f : Frame)
  /-- This side's own copy or decode step failed on the frame. -/
  | faulted (f : Frame)
  | skipped
  deriving DecidableEq

/-- The descriptors that can have come to this end. -/
def Outcome.verdict : Outcome → Verdict
  | .delivered f => .good f
  | .faulted f => .good f
  | .skipped => .stale

def Outcome.isFaulted : Outcome → Bool
  | .faulted _ => true
  | _ => false

/-- How the copy-or-decode step ends. -/
inductive Reply
  | accepted
  /-- A panic, or a callback that failed without blaming the peer. -/
  | faulted
  /-- A callback that says the bytes do not decode. -/
  | malformed
  deriving DecidableEq

/-- A drain under way. -/
structure Drain where
  /-- There is a consume callback, so a payload may be handed over as a view. -/
  view : Bool
  /-- The tail `Wait` returned. -/
  newTail : UInt64
  deriving DecidableEq

/-- Where the consumer is. -/
inductive RecvPc
  | out
  | waiting (view : Bool)
  /-- At the loop's head. -/
  | draining (r : Drain)
  /-- The poison word read clear before a peek, the shutdown word not yet read. -/
  | drainGate (r : Drain)
  | peeking (r : Drain)
  | peeked (r : Drain) (d : RawDescriptor)
  /-- The payload is in hand. -/
  | held (r : Drain) (d : RawDescriptor) (h : Held)
  /-- The poison word read clear with the payload in hand. -/
  | finalGate (r : Drain) (d : RawDescriptor) (h : Held)
  /-- Past both loads. -/
  | passed (r : Drain) (d : RawDescriptor) (h : Held)
  /-- Settled, the head store to come. -/
  | releasing (r : Drain) (o : Outcome)

/-- The descriptors settled whose head store is still to come. -/
def RecvPc.pending : RecvPc → Nat
  | .releasing .. => 1
  | _ => 0

structure Consumer where
  q : Queue RawDescriptor
  mem : Nat → UInt8
  lastSeen : UInt64
  poison : Option PoisonCause
  shutdown : Bool
  pc : RecvPc
  staleDiscarded : UInt64
  consumeFaults : UInt64
  /-- The published descriptors, each with its worth at the tail store. -/
  sent : List (RawDescriptor × Verdict)
  log : List Outcome

namespace Consumer

inductive Act
  | push (d : RawDescriptor)
  | pushSlot
  | pushTail
  /-- The producer fills a slab. -/
  | write (x : Nat) (b : UInt8)
  /-- Anyone poisons the region: the escalation policy, the writer, the peer. -/
  | poison (cause : PoisonCause)
  | shutdown
  | recv (view : Bool)
  /-- `Wait` returns a tail. -/
  | wake
  /-- `Wait` returns an error. -/
  | giveUp
  | next
  | consume (r : Reply)

/-- `poisonOnConformanceFault`, and `recvCore` returns. -/
def fail (s : Consumer) (e : Fault) : Consumer :=
  { s with poison := s.poison <|> some e.cause, shutdown := true, pc := .out }

def settle (s : Consumer) (r : Drain) (o : Outcome) : Consumer :=
  { s with log := s.log ++ [o], pc := .releasing r o }

/-- `consumeDescriptor` up to its final gate. -/
def consumeDescriptor (c : Inlet) (s : Consumer) (r : Drain) (d : RawDescriptor) : Consumer :=
  if d.generation ≠ c.gen then { s.settle r .skipped with staleDiscarded := s.staleDiscarded + 1 }
  else
    match c.take s.mem d r.view with
    | .error e => s.fail e
    | .ok h => { s with pc := .held r d h }

/-- The frame is built behind the barrier, and handed to the callback if there is one. -/
def protectedConsume (s : Consumer) (r : Drain) (h : Held) (a : Reply) : Option Consumer :=
  match h.frame s.mem with
  | .error e => some (s.fail e)
  | .ok f =>
    match a with
    | .accepted => some (s.settle r (.delivered f))
    | .faulted => some { s.settle r (.faulted f) with consumeFaults := s.consumeFaults + 1 }
    | .malformed => if r.view then some (s.fail .badFrame) else none

/-- What `Peek` answered. -/
def looked (capacity : UInt64) (s : Consumer) (r : Drain) (head tail : UInt64) (q : Queue RawDescriptor) : Consumer :=
  match q.consumer with
  | .peeked _ d => { s with q := q, pc := .peeked r d }
  | _ =>
    if tail - head > capacity then { s with q := q }.fail .ringCorrupt
    else { s with q := q, pc := .waiting r.view }

def next (c : Inlet) (capacity : UInt64) (s : Consumer) : Option Consumer :=
  match s.pc with
  | .out => none
  | .waiting _ => none
  | .draining r =>
    if s.lastSeen = r.newTail then some { s with pc := .waiting r.view }
    else if s.poison.isSome then some { s with pc := .out }
    else some { s with pc := .drainGate r }
  | .drainGate r =>
    if s.shutdown then some { s with pc := .out }
    else (s.q.step capacity (.peek false)).map fun q => { s with q := q, pc := .peeking r }
  | .peeking r =>
    match s.q.consumer with
    | .loaded _ head tail _ => (s.q.step capacity .peekSlot).map (s.looked capacity r head tail)
    | _ => none
  | .peeked r d => some (s.consumeDescriptor c r d)
  | .held r d h => some { s with pc := if s.poison.isSome then .out else .finalGate r d h }
  | .finalGate r d h => some { s with pc := if s.shutdown then .out else .passed r d h }
  | .passed .. => none
  | .releasing r o =>
    -- A skipped slot keeps the loop going; any other one ends the call.
    (s.q.step capacity .advance).map fun q =>
      { s with q := q, lastSeen := s.lastSeen + 1, pc := if o = .skipped then .draining r else .out }

def step (c : Inlet) (capacity : UInt64) (s : Consumer) : Act → Option Consumer
  | .push d => (s.q.step capacity (.push d)).map fun q => { s with q := q }
  | .pushSlot => (s.q.step capacity .pushSlot).map fun q => { s with q := q }
  | .pushTail =>
    match s.q.producer with
    | .written d _ =>
      (s.q.step capacity .pushTail).map fun q => { s with q := q, sent := s.sent ++ [(d, c.verdict s.mem d)] }
    | _ => none
  | .write x b => some { s with mem := Function.update s.mem x b }
  | .poison cause => some { s with poison := s.poison <|> some cause }
  | .shutdown => some { s with shutdown := true }
  | .recv view =>
    match s.pc with
    | .out => some { s with pc := .waiting view }
    | _ => none
  | .wake =>
    match s.pc with
    | .waiting view => if s.q.tail = s.lastSeen then none else some { s with pc := .draining ⟨view, s.q.tail⟩ }
    | _ => none
  | .giveUp =>
    match s.pc with
    | .waiting _ => some { s with pc := .out }
    | _ => none
  | .next => s.next c capacity
  | .consume a =>
    match s.pc with
    | .passed r _ h => s.protectedConsume r h a
    | _ => none

/-- The producer leaves a slab alone from the tail store of its descriptor to the head store. -/
def Honest (c : Inlet) (capacity : UInt64) (s : Consumer) : Act → Prop
  | .write x _ => ∀ d ∈ s.q.contents capacity, d.generation = c.gen → ¬ c.Reads d x
  | _ => True

/-- A consumer over a ring nobody has used, both words and its own cursor at `q₀`. -/
def start (slots : UInt64 → RawDescriptor) (mem : Nat → UInt8) (q₀ : UInt64) : Consumer :=
  ⟨.start slots q₀, mem, q₀, none, false, .out, 0, 0, [], []⟩

def advanced (s : Consumer) : Nat := (s.q.trace.filterMap takenOf).length

/-! ## The ring's own moves -/

structure Quiet (q q' : Queue RawDescriptor) : Prop where
  head : q'.head = q.head
  pushed : q'.trace.filterMap pushedOf = q.trace.filterMap pushedOf
  taken : q'.trace.filterMap takenOf = q.trace.filterMap takenOf

section Ring

variable {capacity : UInt64} {q q' : Queue RawDescriptor} {d : RawDescriptor}

theorem quiet_push (h : q.step capacity (.push d) = some q') : Quiet q q' ∧ q'.consumer = q.consumer := by
  simp only [Queue.step] at h
  split at h <;> cases h
  exact ⟨⟨rfl, rfl, rfl⟩, rfl⟩

theorem quiet_pushSlot (h : q.step capacity .pushSlot = some q') : Quiet q q' ∧ q'.consumer = q.consumer := by
  simp only [Queue.step] at h
  split at h <;> cases h
  simp only [Queue.pushSlot]
  split
  · exact ⟨⟨rfl, by simp [pushedOf], by simp [takenOf]⟩, rfl⟩
  split
  · exact ⟨⟨rfl, by simp [pushedOf], by simp [takenOf]⟩, rfl⟩
  · exact ⟨⟨rfl, rfl, rfl⟩, rfl⟩

theorem quiet_peek (h : q.step capacity (.peek false) = some q') :
    Quiet q q' ∧ ∃ held, q'.consumer = .loaded false q.head q.tail held := by
  obtain ⟨-, ⟨⟩⟩ := guard_some h
  exact ⟨⟨rfl, rfl, rfl⟩, _, rfl⟩

theorem quiet_peekSlot {head tail : UInt64} {held : Nat} (hl : q.consumer = .loaded false head tail held)
    (h : q.step capacity .peekSlot = some q') :
    Quiet q q' ∧ (q'.consumer = .idle ∨ ∃ d, q'.consumer = .peeked false d) := by
  simp only [Queue.step, hl] at h
  cases h
  simp only [Queue.peekSlot]
  split
  · exact ⟨⟨rfl, by simp [pushedOf], by simp [takenOf]⟩, .inl rfl⟩
  split
  · exact ⟨⟨rfl, by simp [pushedOf], by simp [takenOf]⟩, .inl rfl⟩
  · exact ⟨⟨rfl, by simp [pushedOf], by simp [takenOf]⟩, .inr ⟨_, rfl⟩⟩

theorem advance_eq (hp : q.consumer = .peeked false d) : q.step capacity .advance =
      some { q with head := q.head + 1, consumer := .idle, trace := q.trace ++ [.taken d] } := by
  simp only [Queue.step, hp]

end Ring

/-! ## The invariant -/

/-- What the consumer's position says about the ring's consumer side and the payload in hand. -/
def PcOK (c : Inlet) (p : Popper RawDescriptor) (mem : Nat → UInt8) : RecvPc → Prop
  | .out | .waiting _ | .draining _ | .drainGate _ => p.ready = true
  | .peeking _ => ∃ head tail held, p = .loaded false head tail held
  | .peeked _ d => p = .peeked false d
  | .held r d h | .finalGate r d h | .passed r d h =>
    p = .peeked false d ∧ d.generation = c.gen ∧ c.take mem d r.view = .ok h
  | .releasing .. => ∃ d, p = .peeked false d

structure Inv (c : Inlet) (capacity q₀ : UInt64) (s : Consumer) : Prop where
  queue : s.q.Inv capacity
  /-- `sent` is what was pushed. -/
  pushed : s.sent.map Prod.fst = s.q.trace.filterMap pushedOf
  head : s.q.head = q₀ + UInt64.ofNat s.advanced
  cursor : s.lastSeen = s.q.head
  /-- What is unread is still worth what it was worth at its tail store. -/
  kept : ∀ e ∈ s.sent.drop s.advanced, c.verdict s.mem e.1 = e.2
  length : s.log.length = s.advanced + s.pc.pending
  log : s.log.map Outcome.verdict = (s.sent.map Prod.snd).take s.log.length
  stale : s.staleDiscarded = UInt64.ofNat (s.log.count .skipped)
  faults : s.consumeFaults = UInt64.ofNat (s.log.countP Outcome.isFaulted)
  pc : PcOK c s.q.consumer s.mem s.pc

namespace Inv

variable {c : Inlet} {capacity q₀ : UInt64} {k : Nat} {s t : Consumer} {d : RawDescriptor} {r : Drain} {pc : RecvPc}

section

variable (h : Inv c capacity q₀ s)
include h

theorem unread : (s.sent.drop s.advanced).map Prod.fst = s.q.contents capacity := by
  rw [List.map_drop, h.pushed, h.queue.trace.pushed_eq, advanced, List.drop_left]

theorem sent_length : s.sent.length = s.advanced + (s.q.contents capacity).length := by
  rw [← List.length_map (f := Prod.fst), h.pushed, h.queue.trace.pushed_eq, List.length_append, advanced]

theorem log_length_le : s.log.length ≤ s.sent.length := by
  have hlen := congrArg List.length h.log
  simp only [List.length_map, List.length_take] at hlen
  omega

theorem front (hp : s.q.consumer = .peeked false d) : ∃ rest, s.sent.drop s.advanced = (d, c.verdict s.mem d) :: rest := by
  have hpop := h.queue.consumer
  rw [hp] at hpop
  obtain ⟨q, hq⟩ := hpop
  have hmap := h.unread
  rw [hq] at hmap
  obtain ⟨⟨d', v⟩, rest, hdrop, hd, -⟩ := List.map_eq_cons_iff.mp hmap
  cases hd
  have hv := h.kept (d', v) (by rw [hdrop]; exact List.mem_cons_self)
  exact ⟨rest, by rw [hdrop, hv]⟩

theorem turned (hq : t.q = s.q) (hmem : t.mem = s.mem) (hlast : t.lastSeen = s.lastSeen)
    (hsent : t.sent = s.sent) (hlog : t.log = s.log) (hstale : t.staleDiscarded = s.staleDiscarded)
    (hfaults : t.consumeFaults = s.consumeFaults) (hpend : t.pc.pending = s.pc.pending)
    (hpc : PcOK c s.q.consumer s.mem t.pc) : Inv c capacity q₀ t := by
  have hadv : t.advanced = s.advanced := by rw [advanced, advanced, hq]
  refine ⟨hq ▸ h.queue, ?_, ?_, ?_, ?_, ?_, ?_, ?_, ?_, ?_⟩
  · rw [hsent, hq]; exact h.pushed
  · rw [hq, hadv]; exact h.head
  · rw [hlast, hq]; exact h.cursor
  · rw [hsent, hadv, hmem]; exact h.kept
  · rw [hlog, hadv, hpend]; exact h.length
  · rw [hlog, hsent]; exact h.log
  · rw [hstale, hlog]; exact h.stale
  · rw [hfaults, hlog]; exact h.faults
  · rw [hq, hmem]; exact hpc

theorem ring {q : Queue RawDescriptor} (hq : q.Inv capacity) (hquiet : Quiet s.q q)
    (pc : RecvPc) (hpend : pc.pending = s.pc.pending) (hpc : PcOK c q.consumer s.mem pc) :
    Inv c capacity q₀ { s with q := q, pc := pc } := by
  have hadv : advanced { s with q := q, pc := pc } = s.advanced := congrArg List.length hquiet.taken
  refine ⟨hq, ?_, ?_, ?_, ?_, ?_, h.log, h.stale, h.faults, hpc⟩
  · rw [hquiet.pushed]; exact h.pushed
  · rw [hadv, hquiet.head]; exact h.head
  · rw [hquiet.head]; exact h.cursor
  · rw [hadv]; exact h.kept
  · rw [hadv, hpend]; exact h.length

theorem published {tail : UInt64} (hp : s.q.producer = .written d tail) :
    Inv c capacity q₀ { s with
      q := { s.q with tail := tail + 1, producer := .idle, trace := s.q.trace ++ [.pushed d] }
      sent := s.sent ++ [(d, c.verdict s.mem d)] } := by
  have hadv : advanced { s with
      q := { s.q with tail := tail + 1, producer := .idle, trace := s.q.trace ++ [.pushed d] }
      sent := s.sent ++ [(d, c.verdict s.mem d)] } = s.advanced := by simp [advanced, takenOf]
  have hle := h.log_length_le
  have hadvle : s.advanced ≤ s.sent.length := by have := h.sent_length; omega
  refine ⟨h.queue.pushTail hp, ?_, ?_, h.cursor, ?_, ?_, ?_, h.stale, h.faults, h.pc⟩
  · simp [h.pushed, pushedOf]
  · rw [hadv]; exact h.head
  · rw [hadv]
    intro e he
    rw [List.drop_append_of_le_length hadvle] at he
    rcases List.mem_append.mp he with he | he
    · exact h.kept e he
    · rw [List.mem_singleton.mp he]
  · rw [hadv]; exact h.length
  · rw [List.map_append, List.take_append_of_le_length (by simpa using hle)]
    exact h.log

theorem written {x : Nat} {b : UInt8} (hx : ∀ d ∈ s.q.contents capacity, d.generation = c.gen → ¬ c.Reads d x) :
    Inv c capacity q₀ { s with mem := Function.update s.mem x b } := by
  have hsame : ∀ d ∈ s.q.contents capacity, d.generation = c.gen → ∀ y, c.Reads d y →
      Function.update s.mem x b y = s.mem y := by
    intro d hd hg y hy
    exact Function.update_of_ne (fun he : y = x => hx d hd hg (he ▸ hy)) _ _
  have hfront : ∀ {d}, s.q.consumer = .peeked false d → d ∈ s.q.contents capacity := by
    intro d hp
    have hpop := h.queue.consumer
    rw [hp] at hpop
    obtain ⟨q, hq⟩ := hpop
    rw [hq]
    exact List.mem_cons_self
  refine ⟨h.queue, h.pushed, h.head, h.cursor, ?_, h.length, h.log, h.stale, h.faults, ?_⟩
  · intro e he
    have hmem : e.1 ∈ s.q.contents capacity := h.unread ▸ List.mem_map_of_mem he
    rw [← h.kept e he]
    exact Inlet.verdict_congr fun hg y hy => hsame e.1 hmem hg y hy
  · have hpc := h.pc
    have htake : ∀ {r : Drain} {d g}, s.q.consumer = .peeked false d ∧ d.generation = c.gen ∧
        c.take s.mem d r.view = .ok g → s.q.consumer = .peeked false d ∧ d.generation = c.gen ∧
        c.take (Function.update s.mem x b) d r.view = .ok g := by
      intro r d g hk
      exact ⟨hk.1, hk.2.1, by rw [Inlet.take_congr (hsame d (hfront hk.1) hk.2.1)]; exact hk.2.2⟩
    cases hs : s.pc <;> rw [hs] at hpc
    case held => exact htake hpc
    case finalGate => exact htake hpc
    case passed => exact htake hpc
    all_goals exact hpc

theorem settled {o : Outcome}
    (hpend : s.pc.pending = 0) (hp : s.q.consumer = .peeked false d) (ho : c.verdict s.mem d = o.verdict)
    {stale faults : UInt64} (hstale : stale = UInt64.ofNat ((s.log ++ [o]).count .skipped))
    (hfaults : faults = UInt64.ofNat ((s.log ++ [o]).countP Outcome.isFaulted)) :
    Inv c capacity q₀ { s.settle r o with staleDiscarded := stale, consumeFaults := faults } := by
  obtain ⟨rest, hrest⟩ := h.front hp
  have hlen : s.log.length = s.advanced := by have := h.length; omega
  refine ⟨h.queue, h.pushed, h.head, h.cursor, h.kept, ?_, ?_, hstale, hfaults, ⟨d, hp⟩⟩
  · change (s.log ++ [o]).length = s.advanced + 1
    simp [hlen]
  · have hget : (s.sent.map Prod.snd)[s.log.length]? = some o.verdict := by
      have h0 := congrArg (·[0]?) hrest
      simp only [List.getElem?_drop, Nat.add_zero, List.getElem?_cons_zero] at h0
      rw [List.getElem?_map, hlen, h0, ← ho]
      rfl
    change (s.log ++ [o]).map Outcome.verdict = (s.sent.map Prod.snd).take (s.log ++ [o]).length
    rw [List.length_append, List.length_singleton, List.take_add_one, hget, List.map_append, h.log]
    rfl

theorem released (hpend : s.pc.pending = 1)
    (hp : s.q.consumer = .peeked false d) (hpc : PcOK c .idle s.mem pc) (h0 : pc.pending = 0) : Inv c capacity q₀ { s with
      q := { s.q with head := s.q.head + 1, consumer := .idle, trace := s.q.trace ++ [.taken d] }
      lastSeen := s.lastSeen + 1, pc := pc } := by
  have hadv : advanced { s with
      q := { s.q with head := s.q.head + 1, consumer := .idle, trace := s.q.trace ++ [.taken d] }
      lastSeen := s.lastSeen + 1, pc := pc } = s.advanced + 1 := by simp [advanced, takenOf]
  refine ⟨h.queue.advance hp, ?_, ?_, ?_, ?_, ?_, h.log, h.stale, h.faults, hpc⟩
  · simp [h.pushed, pushedOf]
  · rw [hadv]
    change s.q.head + 1 = _
    rw [h.head, UInt64.ofNat_add, UInt64.add_assoc]
    rfl
  · change s.lastSeen + 1 = s.q.head + 1
    rw [h.cursor]
  · rw [hadv]
    intro e he
    rw [← List.drop_drop] at he
    exact h.kept e (List.mem_of_mem_drop he)
  · rw [hadv, h0]
    have := h.length
    change s.log.length = _
    omega

theorem idled (hpend : s.pc.pending = 0) (hready : s.q.consumer.ready = true)
    (hpc : pc = .out ∨ ∃ view, pc = .waiting view) {p : Option PoisonCause} {b : Bool} :
    Inv c capacity q₀ { s with poison := p, shutdown := b, pc := pc } := by
  refine h.turned rfl rfl rfl rfl rfl rfl rfl ?_ ?_
  · rcases hpc with rfl | ⟨view, rfl⟩ <;> exact hpend.symm
  · rcases hpc with rfl | ⟨view, rfl⟩ <;> exact hready

theorem consumeDescriptor (hpc : s.pc = .peeked r d) : Inv c capacity q₀ (s.consumeDescriptor c r d) := by
  have hp : s.q.consumer = .peeked false d := by
    have := h.pc
    rwa [hpc] at this
  have hpend : s.pc.pending = 0 := by rw [hpc]; rfl
  unfold Consumer.consumeDescriptor
  split
  · next hg =>
    refine h.settled hpend hp (o := .skipped) (Inlet.verdict_stale hg) ?_ ?_
    · simp [h.stale, UInt64.ofNat_add]
    · simpa [settle, Outcome.isFaulted] using h.faults
  · next hg =>
    split
    · exact h.idled hpend (by rw [hp]; rfl) (.inl rfl)
    · next g hg' => exact h.turned rfl rfl rfl rfl rfl rfl rfl hpend.symm ⟨hp, not_not.mp hg, hg'⟩

theorem protectedConsume {g : Held} {a : Reply}
    (hpc : s.pc = .passed r d g) (ht : s.protectedConsume r g a = some t) : Inv c capacity q₀ t := by
  obtain ⟨hp, hg, htake⟩ : s.q.consumer = .peeked false d ∧ d.generation = c.gen ∧ c.take s.mem d r.view = .ok g := by
    have := h.pc
    rwa [hpc] at this
  have hpend : s.pc.pending = 0 := by rw [hpc]; rfl
  have hready : s.q.consumer.ready = true := by rw [hp]; rfl
  have hv : ∀ f, g.frame s.mem = .ok f → c.verdict s.mem d = .good f := by
    intro f hf
    rw [Inlet.verdict_of_receive hg r.view, Inlet.receive, htake]
    simp only [hf]
  unfold Consumer.protectedConsume at ht
  split at ht
  · cases ht
    exact h.idled hpend hready (.inl rfl)
  next f hf =>
  split at ht
  · cases ht
    refine h.settled hpend hp (o := .delivered f) (hv f hf) ?_ ?_
    · simpa using h.stale
    · simpa [Outcome.isFaulted] using h.faults
  · cases ht
    refine h.settled hpend hp (o := .faulted f) (hv f hf) ?_ ?_
    · simpa [settle] using h.stale
    · simp [h.faults, Outcome.isFaulted, UInt64.ofNat_add]
  · split at ht
    · cases ht
      exact h.idled hpend hready (.inl rfl)
    · cases ht

end

theorem next (hc : capacity.toNat = 2 ^ k) (h : Inv c capacity q₀ s) (ht : s.next c capacity = some t) :
    Inv c capacity q₀ t := by
  have hpc := h.pc
  unfold Consumer.next at ht
  split at ht
  · cases ht
  · cases ht
  · next r hs =>
    rw [hs] at hpc
    have hpend : s.pc.pending = 0 := by rw [hs]; rfl
    split at ht
    · cases ht; exact h.idled hpend hpc (.inr ⟨_, rfl⟩)
    split at ht
    · cases ht; exact h.idled hpend hpc (.inl rfl)
    · cases ht; exact h.turned rfl rfl rfl rfl rfl rfl rfl hpend.symm hpc
  · next r hs =>
    rw [hs] at hpc
    have hpend : s.pc.pending = 0 := by rw [hs]; rfl
    split at ht
    · cases ht; exact h.idled hpend hpc (.inl rfl)
    · obtain ⟨q, hq, rfl⟩ := Option.map_eq_some_iff.mp ht
      obtain ⟨hquiet, held, hl⟩ := quiet_peek hq
      exact h.ring (h.queue.step hc (a := .peek false) trivial hq) hquiet (.peeking r) hpend.symm ⟨_, _, held, hl⟩
  · next r hs =>
    rw [hs] at hpc
    have hpend : s.pc.pending = 0 := by rw [hs]; rfl
    obtain ⟨head, tail, held, hl⟩ := hpc
    simp only [hl] at ht
    obtain ⟨q, hq, rfl⟩ := Option.map_eq_some_iff.mp ht
    have hinv := h.queue.step hc (a := .peekSlot) trivial hq
    obtain ⟨hquiet, hidle | ⟨d, hd⟩⟩ := quiet_peekSlot hl hq
    · have hout : PcOK c q.consumer s.mem .out := by rw [hidle]; rfl
      have hi := h.ring hinv hquiet .out hpend.symm hout
      simp only [looked, hidle]
      split <;> exact hi.turned rfl rfl rfl rfl rfl rfl rfl rfl hi.pc
    · simp only [looked, hd]
      exact h.ring hinv hquiet (.peeked r d) hpend.symm hd
  · next r d hs =>
    cases ht
    exact h.consumeDescriptor hs
  -- The two loads of the final gate.
  iterate 2
    · next r d g hs =>
      rw [hs] at hpc
      have hpend : s.pc.pending = 0 := by rw [hs]; rfl
      cases ht
      split
      · exact h.idled hpend (by rw [hpc.1]; rfl) (.inl rfl)
      · exact h.turned rfl rfl rfl rfl rfl rfl rfl hpend.symm hpc
  · cases ht
  · next r o hs =>
    rw [hs] at hpc
    obtain ⟨d, hp⟩ := hpc
    rw [advance_eq hp] at ht
    cases ht
    refine h.released (by rw [hs]; rfl) hp ?_ ?_ <;> split <;> rfl

theorem step (hc : capacity.toNat = 2 ^ k) (h : Inv c capacity q₀ s) {a : Act} (ha : Honest c capacity s a)
    (ht : Consumer.step c capacity s a = some t) : Inv c capacity q₀ t := by
  have hpc := h.pc
  cases a <;> simp only [Consumer.step] at ht
  case push d =>
    obtain ⟨q, hq, rfl⟩ := Option.map_eq_some_iff.mp ht
    obtain ⟨hquiet, hcons⟩ := quiet_push hq
    exact h.ring (h.queue.step hc (a := .push d) trivial hq) hquiet s.pc rfl (by rw [hcons]; exact hpc)
  case pushSlot =>
    obtain ⟨q, hq, rfl⟩ := Option.map_eq_some_iff.mp ht
    obtain ⟨hquiet, hcons⟩ := quiet_pushSlot hq
    exact h.ring (h.queue.step hc (a := .pushSlot) trivial hq) hquiet s.pc rfl (by rw [hcons]; exact hpc)
  case pushTail =>
    split at ht
    · next d tail hp =>
      simp only [Queue.step, hp, Option.map_some, Option.some.injEq] at ht
      subst ht
      exact h.published hp
    · cases ht
  case write x b =>
    cases ht
    exact h.written ha
  case poison cause | shutdown =>
    cases ht
    exact h.turned rfl rfl rfl rfl rfl rfl rfl rfl hpc
  case recv view =>
    split at ht
    · next hs =>
      rw [hs] at hpc
      cases ht
      exact h.idled (by rw [hs]; rfl) hpc (.inr ⟨_, rfl⟩)
    · cases ht
  case wake =>
    split at ht
    · next view hs =>
      rw [hs] at hpc
      obtain ⟨-, ⟨⟩⟩ := unless_some ht
      exact h.turned rfl rfl rfl rfl rfl rfl rfl (by rw [hs]; rfl) hpc
    · cases ht
  case giveUp =>
    split at ht
    · next view hs =>
      rw [hs] at hpc
      cases ht
      exact h.idled (by rw [hs]; rfl) hpc (.inl rfl)
    · cases ht
  case next => exact h.next hc ht
  case consume a =>
    split at ht
    · next r d g hs => exact h.protectedConsume hs ht
    · cases ht

theorem start {slots : UInt64 → RawDescriptor} {mem : Nat → UInt8} :
    Inv c capacity q₀ (Consumer.start slots mem q₀) where
  queue := .start
  pushed := rfl
  head := by simp [Consumer.start, Queue.start, advanced]
  cursor := rfl
  kept := by simp [Consumer.start]
  length := rfl
  log := rfl
  stale := rfl
  faults := rfl
  pc := rfl

end Inv

/-! ## A torn-down region -/

/-- Torn down, with the consumer not past the gate that will see it. -/
def Stopped (s : Consumer) : Prop :=
  match s.pc with
  | .out | .waiting _ | .draining _ | .held .. => s.poison.isSome = true ∨ s.shutdown = true
  | .drainGate _ | .finalGate .. => s.shutdown = true
  | _ => False

section Stop

variable {c : Inlet} {capacity : UInt64} {s t : Consumer}

theorem fail_stopped {e : Fault} : (s.fail e).Stopped := .inr rfl

theorem Stopped.next (h : s.Stopped) (ht : s.next c capacity = some t) :
    t.Stopped ∧ t.log = s.log ∧ t.q.head = s.q.head := by
  unfold Stopped at h
  unfold Consumer.next at ht
  split at ht <;> rename_i hs <;> rw [hs] at h
  case h_1 | h_2 | h_9 => cases ht
  case h_5 | h_6 | h_10 => exact h.elim
  case h_3 r =>
    split at ht
    · cases ht; exact ⟨h, rfl, rfl⟩
    split at ht
    · next hp => cases ht; exact ⟨.inl hp, rfl, rfl⟩
    · next hp => cases ht; exact ⟨h.resolve_left hp, rfl, rfl⟩
  case h_4 r =>
    rw [if_pos h] at ht
    cases ht
    exact ⟨.inr h, rfl, rfl⟩
  case h_7 r d g =>
    cases ht
    refine ⟨?_, rfl, rfl⟩
    by_cases hp : s.poison.isSome = true
    · simp only [Stopped, hp, if_true]
      exact .inl trivial
    · simp only [Stopped, hp, Bool.false_eq_true, if_false]
      exact h.resolve_left hp
  case h_8 r d g =>
    cases ht
    refine ⟨?_, rfl, rfl⟩
    simp only [Stopped, h, if_true]
    exact .inr trivial

theorem Stopped.step (h : s.Stopped) {a : Act} (ht : Consumer.step c capacity s a = some t) :
    t.Stopped ∧ t.log = s.log ∧ t.q.head = s.q.head := by
  cases a <;> simp only [Consumer.step] at ht
  case push d =>
    obtain ⟨q, hq, rfl⟩ := Option.map_eq_some_iff.mp ht
    exact ⟨h, rfl, (quiet_push hq).1.head⟩
  case pushSlot =>
    obtain ⟨q, hq, rfl⟩ := Option.map_eq_some_iff.mp ht
    exact ⟨h, rfl, (quiet_pushSlot hq).1.head⟩
  case pushTail =>
    split at ht
    · next d tail hp =>
      simp only [Queue.step, hp, Option.map_some, Option.some.injEq] at ht
      subst ht
      exact ⟨h, rfl, rfl⟩
    · cases ht
  case write x b => cases ht; exact ⟨h, rfl, rfl⟩
  case poison cause =>
    cases ht
    refine ⟨?_, rfl, rfl⟩
    unfold Stopped at h ⊢
    cases hs : s.pc <;> rw [hs] at h <;> simp only at h ⊢ <;> first | exact h | exact h.imp_left fun _ => by simp
  case shutdown =>
    cases ht
    refine ⟨?_, rfl, rfl⟩
    unfold Stopped at h ⊢
    cases hs : s.pc <;> rw [hs] at h <;> simp only at h ⊢ <;> first | exact h | exact .inr trivial
  case recv view =>
    split at ht
    · next hs =>
      cases ht
      simp only [Stopped, hs] at h
      exact ⟨h, rfl, rfl⟩
    · cases ht
  case wake =>
    split at ht
    · next view hs =>
      obtain ⟨-, ⟨⟩⟩ := unless_some ht
      simp only [Stopped, hs] at h
      exact ⟨h, rfl, rfl⟩
    · cases ht
  case giveUp =>
    split at ht
    · next view hs =>
      cases ht
      simp only [Stopped, hs] at h
      exact ⟨h, rfl, rfl⟩
    · cases ht
  case next => exact h.next ht
  case consume a =>
    split at ht
    · next r d g hs =>
      simp only [Stopped, hs] at h
    · cases ht

/-- **Teardown wins**: whatever happens next, no frame leaves and the head stays where it is. -/
theorem Stopped.reach {G : Consumer → Act → Prop} (h : s.Stopped) (hr : Reach (Consumer.step c capacity) G s t) :
    t.Stopped ∧ t.log = s.log ∧ t.q.head = s.q.head := by
  induction hr with
  | refl => exact ⟨h, rfl, rfl⟩
  | tail _ _ hs ih =>
    obtain ⟨h1, h2, h3⟩ := ih
    obtain ⟨g1, g2, g3⟩ := h1.step hs
    exact ⟨g1, g2.trans h2, g3.trans h3⟩

theorem malformed_stopped (ht : step c capacity s (.consume .malformed) = some t) :
    t.Stopped ∧ t.log = s.log ∧ t.q.head = s.q.head := by
  simp only [step] at ht
  split at ht
  · simp only [protectedConsume] at ht
    split at ht
    · cases ht
      exact ⟨fail_stopped, rfl, rfl⟩
    · split at ht
      · cases ht
        exact ⟨fail_stopped, rfl, rfl⟩
      · cases ht
  · cases ht

end Stop

/-! ## A consumer left to itself -/

/-- A step of the consumer with a callback that accepts. -/
def Own (_ : Consumer) : Act → Prop
  | .wake | .next | .consume .accepted => True
  | _ => False

/-- What the first unread descriptor comes to. -/
def Settles (s t : Consumer) : Verdict → Prop
  | .stale => t.log = s.log ++ [.skipped] ∧ t.q.head = s.q.head + 1
  | .good f => t.log = s.log ++ [.delivered f] ∧ t.q.head = s.q.head + 1
  | .bad e => t.log = s.log ∧ t.q.head = s.q.head ∧ t.poison = some e.cause

section Progress

variable {c : Inlet} {capacity q₀ : UInt64} {k : Nat} {s t u : Consumer} {view : Bool} {d : RawDescriptor}

theorem Own.wake (hr : Reach (step c capacity) Own s t) (h : step c capacity t .wake = some u) :
    Reach (step c capacity) Own s u := hr.tail (a := .wake) trivial h

theorem Own.next (hr : Reach (step c capacity) Own s t) (h : step c capacity t .next = some u) :
    Reach (step c capacity) Own s u := hr.tail (a := .next) trivial h

theorem Own.consume (hr : Reach (step c capacity) Own s t)
    (h : step c capacity t (.consume .accepted) = some u) : Reach (step c capacity) Own s u :=
  hr.tail (a := .consume .accepted) trivial h

theorem peeks (hb : span s.q.head s.q.tail ≤ capacity.toNat) (hne : s.q.head ≠ s.q.tail)
    (hcur : s.lastSeen = s.q.head) (hready : s.q.consumer.ready = true) (hpc : s.pc = .waiting view)
    (hp : s.poison = none) (hsd : s.shutdown = false) :
    ∃ t d, Reach (step c capacity) Own s t ∧ t.pc = .peeked ⟨view, s.q.tail⟩ d ∧ t.poison = none ∧
      t.shutdown = false ∧ t.log = s.log ∧ t.sent = s.sent ∧ t.q.head = s.q.head := by
  have hdepth : ¬ s.q.tail - s.q.head > capacity := by
    rw [gt_iff_lt, UInt64.lt_iff_toNat_lt]
    exact Nat.not_lt.mpr hb
  have hpos : s.q.tail - s.q.head ≠ 0 := fun h0 => hne (span_eq_zero.mp (by rw [span, h0]; rfl))
  have h1 : step c capacity s .wake = some { s with pc := .draining ⟨view, s.q.tail⟩ } := by
    simp [step, hpc, hcur, hne.symm]
  have h2 : step c capacity { s with pc := .draining ⟨view, s.q.tail⟩ } .next =
      some { s with pc := .drainGate ⟨view, s.q.tail⟩ } := by
    simp [step, next, hcur, hne, hp]
  have h3 : step c capacity { s with pc := .drainGate ⟨view, s.q.tail⟩ } .next =
      some { s with
        q := { s.q with consumer := .loaded false s.q.head s.q.tail (span s.q.head s.q.tail) }
        pc := .peeking ⟨view, s.q.tail⟩ } := by
    simp [step, next, hsd, Queue.step, hready]
  have h4 : step c capacity { s with
        q := { s.q with consumer := .loaded false s.q.head s.q.tail (span s.q.head s.q.tail) }
        pc := .peeking ⟨view, s.q.tail⟩ } .next =
      some { s with
        q := { s.q with
          reads := s.q.reads ++ [slot capacity s.q.head]
          trace := s.q.trace ++ [.peeked (s.q.desc capacity s.q.head)]
          consumer := .peeked false (s.q.desc capacity s.q.head) }
        pc := .peeked ⟨view, s.q.tail⟩ (s.q.desc capacity s.q.head) } := by
    simp [step, next, Queue.step, Queue.peekSlot, looked, hdepth, hpos, Queue.desc]
  exact ⟨_, _, Own.next (Own.next (Own.next (Own.wake .refl h1) h2) h3) h4, rfl, hp, hsd, rfl, rfl, rfl⟩

/-- From a peek in a healthy region the slot is settled as it is worth. -/
theorem Inv.settles_peeked (h : Inv c capacity q₀ s) {r : Drain} (hpc : s.pc = .peeked r d)
    (hp : s.poison = none) (hsd : s.shutdown = false) :
    ∃ t, Reach (Consumer.step c capacity) Own s t ∧ s.Settles t (c.verdict s.mem d) := by
  have hcons : s.q.consumer = .peeked false d := by
    have := h.pc
    rwa [hpc] at this
  have hrel : ∀ {u : Consumer} {o : Outcome}, u.pc = .releasing r o → u.q = s.q →
      ∃ t, Consumer.step c capacity u .next = some t ∧ t.log = u.log ∧ t.q.head = s.q.head + 1 := by
    intro u o hu hq
    have hstep : Consumer.step c capacity u .next = some { u with
        q := { s.q with head := s.q.head + 1, consumer := .idle, trace := s.q.trace ++ [.taken d] }
        lastSeen := u.lastSeen + 1, pc := if o = .skipped then .draining r else .out } := by
      simp only [Consumer.step, Consumer.next, hu, hq, advance_eq hcons, Option.map_some]
    exact ⟨_, hstep, rfl, rfl⟩
  have h1 : Consumer.step c capacity s .next = some (s.consumeDescriptor c r d) := by simp only [Consumer.step, Consumer.next, hpc]
  by_cases hg : d.generation = c.gen
  · rw [Inlet.verdict_of_receive hg r.view, Inlet.receive]
    cases htake : c.take s.mem d r.view with
    | error e =>
      have h2 : s.consumeDescriptor c r d = s.fail e := by simp [Consumer.consumeDescriptor, hg, htake]
      rw [h2] at h1
      exact ⟨_, Own.next .refl h1, rfl, rfl, by simp [fail, hp]⟩
    | ok g =>
      have h2 : s.consumeDescriptor c r d = { s with pc := .held r d g } := by
        simp [Consumer.consumeDescriptor, hg, htake]
      rw [h2] at h1
      have h3 : Consumer.step c capacity { s with pc := .held r d g } .next = some { s with pc := .finalGate r d g } := by
        simp [Consumer.step, Consumer.next, hp]
      have h4 : Consumer.step c capacity { s with pc := .finalGate r d g } .next = some { s with pc := .passed r d g } := by
        simp [Consumer.step, Consumer.next, hsd]
      have hpass := Own.next (Own.next (Own.next .refl h1) h3) h4
      cases hf : g.frame s.mem with
      | error e =>
        have h5 : Consumer.step c capacity { s with pc := .passed r d g } (.consume .accepted) =
            some (fail { s with pc := .passed r d g } e) := by simp [Consumer.step, Consumer.protectedConsume, hf]
        simp only [hf]
        exact ⟨_, Own.consume hpass h5, rfl, rfl, by simp [fail, hp]⟩
      | ok f =>
        have h5 : Consumer.step c capacity { s with pc := .passed r d g } (.consume .accepted) =
            some (settle { s with pc := .passed r d g } r (.delivered f)) := by
          simp [Consumer.step, Consumer.protectedConsume, hf]
        obtain ⟨t, h6, hlog, hhead⟩ := hrel (u := settle { s with pc := .passed r d g } r (.delivered f)) rfl rfl
        simp only [hf]
        exact ⟨t, Own.next (Own.consume hpass h5) h6, hlog, hhead⟩
  · have h2 : s.consumeDescriptor c r d =
        { s.settle r .skipped with staleDiscarded := s.staleDiscarded + 1 } := if_pos hg
    rw [h2] at h1
    obtain ⟨t, h3, hlog, hhead⟩ :=
      hrel (u := { s.settle r .skipped with staleDiscarded := s.staleDiscarded + 1 }) rfl rfl
    rw [Inlet.verdict_stale hg]
    exact ⟨t, Own.next (Own.next .refl h1) h3, hlog, hhead⟩

/-- A healthy consumer that waits settles the first unread descriptor, whatever it is worth. -/
theorem Inv.settles (hc : capacity.toNat = 2 ^ k) (h : Inv c capacity q₀ s) (hpc : s.pc = .waiting view)
    (hp : s.poison = none) (hsd : s.shutdown = false) {v : Verdict}
    (hv : s.sent[s.log.length]? = some (d, v)) : ∃ t, Reach (Consumer.step c capacity) Own s t ∧ s.Settles t v := by
  have hlen : s.log.length = s.advanced := by
    have := h.length
    rw [hpc] at this
    exact this
  have hne : s.q.head ≠ s.q.tail := by
    intro he
    have hlt := (List.getElem?_eq_some_iff.mp hv).1
    have hsent := h.sent_length
    rw [Queue.length_contents, he, span_self] at hsent
    omega
  have hready : s.q.consumer.ready = true := by
    have := h.pc
    rwa [hpc] at this
  obtain ⟨t, d', hreach, htpc, htp, htsd, htlog, htsent, hthead⟩ :=
    peeks (c := c) h.queue.bounded hne h.cursor hready hpc hp hsd
  have hinv : Inv c capacity q₀ t := hreach.invariant h fun {u a w} hu ha hw =>
    hu.step hc (by cases a <;> trivial) hw
  obtain ⟨u, hru, hset⟩ := hinv.settles_peeked htpc htp htsd
  refine ⟨u, hreach.trans hru, ?_⟩
  have htcons : t.q.consumer = .peeked false d' := by
    have := hinv.pc
    rwa [htpc] at this
  obtain ⟨rest, hrest⟩ := hinv.front htcons
  have hadv : t.advanced = s.log.length := by
    have := hinv.length
    rw [htpc, htlog] at this
    exact this.symm
  have hfst := congrArg (·[0]?) hrest
  simp only [List.getElem?_drop, Nat.add_zero, List.getElem?_cons_zero, hadv, htsent, hv] at hfst
  cases hfst
  unfold Settles at hset ⊢
  rw [htlog, hthead] at hset
  exact hset

end Progress

/-! ## The contract -/

/-- What the consumer's side of the delivery contract says of one state. -/
structure Delivers (c : Inlet) (capacity q₀ : UInt64) (s : Consumer) : Prop where
  /-- `sent` is the descriptors pushed, in order. -/
  sent : s.sent.map Prod.fst = s.q.trace.filterMap pushedOf
  /-- In order, each once: the outcomes are those of the first descriptors pushed, a live conformant
  one delivered or failed on this side, a stale one skipped. -/
  inOrder : s.log.map Outcome.verdict = (s.sent.map Prod.snd).take s.log.length
  /-- Once the next descriptor is one that does not pass, or there is none, the outcomes are exactly
  those of the descriptors before the first that does not pass. -/
  exact : (∀ d v, s.sent[s.log.length]? = some (d, v) → v.passes = false) →
    s.log.map Outcome.verdict = (s.sent.map Prod.snd).takeWhile Verdict.passes
  /-- What is not yet released is unread, so nothing is lost. -/
  notLost : s.sent.length = s.advanced + (s.q.contents capacity).length
  /-- One head store for each descriptor settled, and only after it was settled. -/
  head : s.q.head = q₀ + UInt64.ofNat s.advanced ∧ s.log.length = s.advanced + s.pc.pending
  /-- Neither an outcome nor the head goes past a descriptor that does not pass. -/
  notPast : ∀ (i : Nat) (d : RawDescriptor) (e : Fault), s.sent[i]? = some (d, .bad e) →
    s.log.length ≤ i ∧ s.advanced ≤ i
  /-- Each stale descriptor is counted once, and each one that failed on this side. -/
  counted : s.staleDiscarded = UInt64.ofNat (s.log.count .skipped) ∧
    s.consumeFaults = UInt64.ofNat (s.log.countP Outcome.isFaulted)
  /-- A teardown seen at a gate delivers nothing and advances nothing, then and ever after. -/
  stopped : s.Stopped → ∀ t, Reach (step c capacity) (Honest c capacity) s t → t.log = s.log ∧ t.q.head = s.q.head
  /-- Bytes the callback calls malformed stop the direction where it is. -/
  malformed : ∀ t, step c capacity s (.consume .malformed) = some t → t.Stopped ∧ t.log = s.log ∧ t.q.head = s.q.head
  /-- While the region is healthy, the consumer's own steps settle the next descriptor as it is worth. -/
  settles : ∀ view, s.pc = .waiting view → s.poison = none → s.shutdown = false → ∀ (d : RawDescriptor) (v : Verdict),
    s.sent[s.log.length]? = some (d, v) → ∃ t, Reach (step c capacity) Own s t ∧ s.Settles t v

variable {c : Inlet} {capacity q₀ : UInt64} {s : Consumer}

theorem Inv.not_past (h : Inv c capacity q₀ s) {i : Nat}
    {d : RawDescriptor} {e : Fault} (hi : s.sent[i]? = some (d, .bad e)) : s.log.length ≤ i := by
  by_contra hlt
  have hget : (s.log.map Outcome.verdict)[i]? = some (.bad e) := by
    rw [h.log, List.getElem?_take_of_lt (by omega), List.getElem?_map, hi]
    rfl
  rw [List.getElem?_map] at hget
  obtain ⟨o, -, ho⟩ := Option.map_eq_some_iff.mp hget
  cases o <;> cases ho

theorem Inv.exact (h : Inv c capacity q₀ s) (hnext : ∀ d v, s.sent[s.log.length]? = some (d, v) → v.passes = false) :
    s.log.map Outcome.verdict = (s.sent.map Prod.snd).takeWhile Verdict.passes := by
  have hpass : ∀ v ∈ (s.sent.map Prod.snd).take s.log.length, v.passes = true := by
    intro v hv
    rw [← h.log] at hv
    obtain ⟨o, -, rfl⟩ := List.mem_map.mp hv
    cases o <;> rfl
  have hrest : ((s.sent.map Prod.snd).drop s.log.length).takeWhile Verdict.passes = [] := by
    cases hd : (s.sent.map Prod.snd).drop s.log.length with
    | nil => rfl
    | cons v rest =>
      have hget := congrArg (·[0]?) hd
      simp only [List.getElem?_drop, Nat.add_zero, List.getElem?_cons_zero, List.getElem?_map,
        Option.map_eq_some_iff] at hget
      obtain ⟨⟨d, v'⟩, hsent, rfl⟩ := hget
      rw [List.takeWhile_cons_of_neg (by simp [hnext d v' hsent])]
  rw [h.log]
  conv_rhs => rw [← List.take_append_drop s.log.length (s.sent.map Prod.snd)]
  rw [List.takeWhile_append_of_pos hpass, hrest, List.append_nil]

/-- **Delivery is exactly once and in order.** Over a ring of any power-of-two capacity, from any
starting word, whatever an honest producer pushes (live or stale, conformant or not), in any
interleaving with waits, receives by copy or by callback, faults of the copy-or-decode step and
teardown. -/
theorem exactly_once (c : Inlet) (capacity : UInt64) (k : Nat) (hc : capacity.toNat = 2 ^ k)
    (slots : UInt64 → RawDescriptor) (mem : Nat → UInt8) (q₀ : UInt64) (s : Consumer)
    (hs : Reach (step c capacity) (Honest c capacity) (start slots mem q₀) s) : Delivers c capacity q₀ s := by
  have h : Inv c capacity q₀ s := hs.invariant .start fun hi ha ht => hi.step hc ha ht
  have hlen := h.length
  refine ⟨h.pushed, h.log, h.exact, h.sent_length, ⟨h.head, hlen⟩, fun i d e hi => ?_, ⟨h.stale, h.faults⟩,
    fun hstop t ht => (hstop.reach ht).2, fun t ht => malformed_stopped ht,
    fun view hpc hp hsd d v hv => h.settles hc hpc hp hsd hv⟩
  have := h.not_past hi
  exact ⟨this, by omega⟩

def sampleInlet : Inlet := ⟨[⟨64, 4, 0⟩], 7, false, false, 60⟩

def sampleMem (x : Nat) : UInt8 := UInt8.ofNat x

def sampleSlot (gen : UInt32) (kind : UInt16) : RawDescriptor :=
  ⟨5, 1, 2, 64, 3, 1, 0, kind, 0, gen, 0⟩

def sampleActs : List Act :=
  [.recv true, .push (sampleSlot 6 0), .pushSlot, .pushTail, .wake, .push (sampleSlot 7 0), .next, .next, .pushSlot,
    .next, .pushTail, .next, .next, .next, .wake, .next, .next, .push (sampleSlot 7 99), .next, .next, .next, .next,
    .consume .accepted, .pushSlot, .pushTail, .next, .recv false, .wake, .next, .next, .next, .next]

def sampleEnd : Consumer :=
  (run (step sampleInlet 4) (start (fun _ => sampleSlot 0 0) sampleMem 18446744073709551615) sampleActs).get
    (by decide +kernel)

theorem exactly_once_sample : (4 : UInt64).toNat = 2 ^ 2 ∧
    sampleEnd.log = [.skipped, .delivered ⟨5, .unaryReq, 1, 2, 0, [64, 65, 66], none, 0⟩] ∧
    sampleEnd.poison = some .badFrame ∧ sampleEnd.q.head = 1 ∧ sampleEnd.sent.length = 3 ∧
    Delivers sampleInlet 4 18446744073709551615 sampleEnd := by
  have hreach : Reach (step sampleInlet 4) (Honest sampleInlet 4)
      (start (fun _ => sampleSlot 0 0) sampleMem 18446744073709551615) sampleEnd := by
    have hquiet : ∀ a ∈ sampleActs, ∀ x b, a ≠ .write x b := by simp [sampleActs]
    refine (Reach.of_run_of (Option.some_get _).symm hquiet).mono fun t a ha => ?_
    cases a with
    | write x b => exact absurd rfl (ha x b)
    | _ => trivial
  exact ⟨rfl, by decide +kernel, by decide +kernel, by decide +kernel, by decide +kernel,
    exactly_once sampleInlet 4 2 rfl (fun _ => sampleSlot 0 0) sampleMem 18446744073709551615 sampleEnd hreach⟩

end Consumer

end Styx
