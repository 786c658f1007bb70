/-
Parking and waking: the consumer's `Wait` (spin, arm, re-check, eventfd read,
disarm), the producer's publish and signal, and any number of teardown calls
(`PoisonFlag.Set`, `Shutdown`), one atomic access a step.

The eventfd is a counter: a write adds one, a read takes all of it and blocks at
zero. A consumer blocked at zero while the tail has moved and the producer is done
is about to be woken by a teardown call that has begun (`no_lost_wakeup`), to which
a producer that finds the region poisoned leaves the wake (`wake_owed_by_teardown`).
-/
import Styx.Shm.Writer

namespace Styx

open Machine Function

/-- Which of the region's two eventfds a consumer reads. -/
inductive Direction
  | hostToPlugin
  | pluginToHost
  deriving DecidableEq

/-- What a teardown call does next. -/
inductive Tear
  /-- `Set`'s compare-and-swap of the poison word. -/
  | cas (cause : PoisonCause)
  /-- The shutdown store, of `Set` (which has been at the poison word) or of `Shutdown`. -/
  | store (poisoned : Bool)
  | wakeHP
  | wakePH
  deriving DecidableEq

/-- Where the producer is: outside, or in `signal` behind its tail store. -/
inductive Signaller
  | out
  | loadPoison
  | loadShutdown
  | loadPark
  | wake
  /-- The signal met a fault and runs `Set`. -/
  | poisoning (t : Tear)
  deriving DecidableEq

/-- What a `Wait` returns. -/
inductive Waited
  /-- A tail other than the one it was given. -/
  | work (lastSeen tail : UInt64)
  /-- `ErrShutdown`. -/
  | shutdown
  /-- The context's error, or the eventfd read's. -/
  | ended
  deriving DecidableEq

/-- Where the consumer is in `Wait`. -/
inductive Waiter
  | out
  | spin
  | spinShutdown
  | spinTail
  | arm
  | armedCtx
  | armedShutdown
  | armedTail
  | blocked
  | woken
  | awakeCtx
  | awakeShutdown
  | awakeTail
  /-- `MarkAwake` before returning `r`. -/
  | disarm (r : Waited)
  deriving DecidableEq

structure Park where
  tail : UInt64
  /-- The tail the consumer has consumed. -/
  lastSeen : UInt64
  /-- The tail the last `Wait` returned. -/
  seen : UInt64
  park : UInt32
  poison : Option PoisonCause
  shutdown : UInt32
  hp : Nat
  ph : Nat
  producer : Signaller
  consumer : Waiter
  /-- Teardown calls under way, by caller. -/
  tear : Nat → Option Tear
  /-- Teardown calls completed. -/
  finished : Nat
  /-- What the `Wait`s so far returned. -/
  returned : List Waited

namespace Park

def stateAwake : UInt32 := 0
def stateParked : UInt32 := 1

def efd (dir : Direction) (s : Park) : Nat :=
  match dir with
  | .hostToPlugin => s.hp
  | .pluginToHost => s.ph

def write (s : Park) : Direction → Park
  | .hostToPlugin => { s with hp := s.hp + 1 }
  | .pluginToHost => { s with ph := s.ph + 1 }

/-- A read of a positive counter takes all of it. -/
def drain (s : Park) : Direction → Park
  | .hostToPlugin => { s with hp := 0 }
  | .pluginToHost => { s with ph := 0 }

/-- The write of a teardown call at `t`. -/
def tearWrite (s : Park) : Tear → Park
  | .cas cause => { s with poison := s.poison.or (some cause) }
  | .store _ => { s with shutdown := 1 }
  | .wakeHP => s.write .hostToPlugin
  | .wakePH => { write s .pluginToHost with finished := s.finished + 1 }

/-- Where a teardown call is after its write at `t`; `none` when it returns. -/
def tearNext : Tear → Option Tear
  | .cas _ => some (.store true)
  | .store _ => some .wakeHP
  | .wakeHP => some .wakePH
  | .wakePH => none

/-- Where the producer is in a `Set` of its own. -/
def poisoningNext : Option Tear → Signaller
  | some t => .poisoning t
  | none => .out

inductive Act
  /-- The tail store. -/
  | publish
  /-- The producer's next access; a wake write may fail. -/
  | signal (fails : Bool)
  /-- The consumer drains one descriptor of what it was shown. -/
  | consume
  | wait
  /-- Leave the spin loop: the budget is spent. -/
  | spent
  /-- The consumer's next access; `ended` is what a look at the context finds. -/
  | next (ended : Bool)
  | set (i : Nat) (cause : PoisonCause)
  | shutdown (i : Nat)
  /-- A teardown call's next write. -/
  | tear (i : Nat)

/-- `signal`, one access. -/
def signal (dir : Direction) (s : Park) (fails : Bool) : Option Park :=
  match s.producer with
  | .out => none
  | .loadPoison => some { s with producer := if s.poison.isSome then .out else .loadShutdown }
  | .loadShutdown => some { s with producer := if s.shutdown ≠ 0 then .out else .loadPark }
  | .loadPark =>
    some { s with producer :=
      if s.park = stateParked then .wake
      else if s.park = stateAwake then .out
      else .poisoning (.cas .badSync) }
  | .wake =>
    if fails then some { s with producer := .poisoning (.cas .generic) }
    else some { write s dir with producer := .out }
  | .poisoning t =>
    some { tearWrite s t with producer := poisoningNext (tearNext t) }

def leave (s : Park) (r : Waited) : Park :=
  { s with
    consumer := .out
    returned := s.returned ++ [r]
    seen := match r with
      | .work _ t => t
      | _ => s.seen }

/-- `Wait`, one access. -/
def next (dir : Direction) (s : Park) (ended : Bool) : Option Park :=
  match s.consumer with
  | .out => none
  | .spin => some (if ended then s.leave .ended else { s with consumer := .spinShutdown })
  | .spinShutdown => some (if s.shutdown ≠ 0 then s.leave .shutdown else { s with consumer := .spinTail })
  | .spinTail =>
    some (if s.tail ≠ s.lastSeen then s.leave (.work s.lastSeen s.tail) else { s with consumer := .spin })
  | .arm => some { s with park := stateParked, consumer := .armedCtx }
  | .armedCtx => some { s with consumer := if ended then .disarm .ended else .armedShutdown }
  | .armedShutdown => some { s with consumer := if s.shutdown ≠ 0 then .disarm .shutdown else .armedTail }
  | .armedTail =>
    some { s with consumer :=
      if s.tail ≠ s.lastSeen then .disarm (.work s.lastSeen s.tail) else .blocked }
  | .blocked =>
    if ended then some { s with consumer := .disarm .ended }
    else if s.efd dir = 0 then none
    else some { drain s dir with consumer := .woken }
  | .woken => some { s with park := stateAwake, consumer := .awakeCtx }
  | .awakeCtx => some (if ended then s.leave .ended else { s with consumer := .awakeShutdown })
  | .awakeShutdown => some (if s.shutdown ≠ 0 then s.leave .shutdown else { s with consumer := .awakeTail })
  | .awakeTail =>
    some (if s.tail ≠ s.lastSeen then s.leave (.work s.lastSeen s.tail) else { s with consumer := .arm })
  | .disarm r => some { s.leave r with park := stateAwake }

def step (dir : Direction) (s : Park) : Act → Option Park
  | .publish =>
    if s.producer = .out then some { s with tail := s.tail + 1, producer := .loadPoison } else none
  | .signal fails => s.signal dir fails
  | .consume =>
    if s.consumer = .out ∧ s.lastSeen ≠ s.seen then some { s with lastSeen := s.lastSeen + 1 } else none
  | .wait => if s.consumer = .out then some { s with consumer := .spin } else none
  | .spent => if s.consumer = .spin then some { s with consumer := .arm } else none
  | .next ended => s.next dir ended
  | .set i cause =>
    if s.tear i = none then some { s with tear := Function.update s.tear i (some (.cas cause)) } else none
  | .shutdown i =>
    if s.tear i = none then some { s with tear := Function.update s.tear i (some (.store false)) } else none
  | .tear i =>
    match s.tear i with
    | some t => some { tearWrite s t with tear := Function.update s.tear i (tearNext t) }
    | none => none

/-- A fresh region: the words are zero, nothing published, nobody waiting. -/
def start (q : UInt64) : Park :=
  { tail := q, lastSeen := q, seen := q, park := stateAwake, poison := none, shutdown := 0, hp := 0, ph := 0,
    producer := .out, consumer := .out, tear := fun _ => none, finished := 0, returned := [] }

/-! ## Calls under way -/

/-- Some teardown call, the producer's own included, is at `t`. -/
def InFlight (s : Park) (t : Tear) : Prop := (∃ i, s.tear i = some t) ∨ s.producer = .poisoning t

/-- A call at `t` has made its first write and owes this direction a wake. -/
def Owes (dir : Direction) : Tear → Prop
  | .cas _ => False
  | .store poisoned => poisoned = true
  | .wakeHP => True
  | .wakePH => dir = .pluginToHost

/-- A call at `t` has stored the shutdown word. -/
def Stored : Tear → Prop
  | .cas _ => False
  | .store _ => False
  | .wakeHP => True
  | .wakePH => True

/-- A call at `t` has written this direction's eventfd. -/
def Rung (dir : Direction) : Tear → Prop
  | .wakePH => dir = .hostToPlugin
  | _ => False

/-- The consumer has looked at the shutdown word for the last time before it blocks. -/
def Committed : Waiter → Prop
  | .armedTail => True
  | .blocked => True
  | _ => False

/-- The positions between `TryPark` and `MarkAwake`. -/
def Armed : Waiter → Prop
  | .armedCtx => True
  | .armedShutdown => True
  | .armedTail => True
  | .blocked => True
  | .woken => True
  | .disarm _ => True
  | _ => False

/-- The producer is inside `signal`, short of its last access. -/
def Signalling : Signaller → Prop
  | .out => False
  | _ => True

/-- What a `Wait` returned was so when it looked. -/
def Justified (s : Park) : Waited → Prop
  | .work lastSeen tail => tail ≠ lastSeen
  | .shutdown => s.shutdown ≠ 0
  | .ended => True

structure Inv (dir : Direction) (s : Park) : Prop where
  parked : Armed s.consumer → s.park = stateParked
  awake : ¬Armed s.consumer → s.park = stateAwake
  /-- A poisoned region is shut down, or about to be by a call that has been at the poison word. -/
  poisoned : s.poison.isSome → s.shutdown ≠ 0 ∨ s.InFlight (.store true)
  stored : ∀ t, s.InFlight t → Stored t → s.shutdown ≠ 0
  finished : 0 < s.finished → s.shutdown ≠ 0 ∧ (Committed s.consumer → 0 < s.efd dir)
  rung : ∀ t, s.InFlight t → Rung dir t → Committed s.consumer → 0 < s.efd dir
  owed : Committed s.consumer → s.shutdown ≠ 0 → s.efd dir = 0 → ∃ t, s.InFlight t ∧ Stored t ∧ Owes dir t
  /-- Work a blocked consumer has not been told of is the producer's to signal, or a teardown's. -/
  work : s.consumer = .blocked → s.tail ≠ s.lastSeen → s.efd dir = 0 →
    Signalling s.producer ∨ s.poison.isSome ∨ s.shutdown ≠ 0
  leaving : ∀ r, s.consumer = .disarm r → s.Justified r
  returned : ∀ r ∈ s.returned, s.Justified r

theorem Inv.start (dir : Direction) (q : UInt64) : Inv dir (start q) := by
  refine ⟨?_, ?_, ?_, ?_, ?_, ?_, ?_, ?_, ?_, ?_⟩ <;> simp [Park.start, Armed, Committed, InFlight]

/-! ## The consumer's steps -/

section Consumer

variable {dir : Direction} {s : Park} {c : Waiter} {r : Waited}

section

variable (hi : Inv dir s)
include hi

theorem Inv.moveTo {p : UInt32} (hc : ¬Committed c)
    (hp : Armed c → p = stateParked) (ha : ¬Armed c → p = stateAwake)
    (hl : ∀ r, c = .disarm r → s.Justified r) : Inv dir { s with consumer := c, park := p } where
  parked := hp
  awake := ha
  poisoned := hi.poisoned
  stored := hi.stored
  finished := fun hf => ⟨(hi.finished hf).1, fun h => absurd h hc⟩
  rung := fun _ _ _ h => absurd h hc
  owed := fun h => absurd h hc
  work := by
    intro h
    change c = .blocked at h
    subst h
    exact absurd trivial hc
  leaving := hl
  returned := hi.returned

theorem Inv.leave (hr : s.Justified r) : Inv dir { s.leave r with park := stateAwake } := by
  have h := hi.moveTo (c := .out) (p := stateAwake) id (fun h => h.elim) (fun _ => rfl) (by simp)
  exact { h with
    returned := by
      intro r' h'
      rcases List.mem_append.1 h' with h' | h'
      · exact hi.returned r' h'
      · rw [List.mem_singleton.1 h']
        exact hr }

theorem Inv.leave_unarmed (ha : ¬Armed s.consumer) (hr : s.Justified r) : Inv dir (s.leave r) := by
  have h := hi.leave hr
  rw [← hi.awake ha] at h
  exact h

theorem Inv.moveTo_same (hc : ¬Committed c) (ha : Armed c ↔ Armed s.consumer)
    (hl : ∀ r, c = .disarm r → s.Justified r) : Inv dir { s with consumer := c } :=
  hi.moveTo (p := s.park) hc (fun h => hi.parked (ha.1 h)) (fun h => hi.awake (mt ha.2 h)) hl

theorem Inv.drain (hb : s.consumer = .blocked) :
    Inv dir { drain s dir with consumer := .woken } := by
  have h := hi.moveTo_same (c := .woken) id (by simp [hb, Armed]) (by simp)
  have hdrain : ∀ {P : Prop}, Committed ({ Park.drain s dir with consumer := .woken } : Park).consumer → P :=
    fun h => h.elim
  cases dir with
  | hostToPlugin | pluginToHost =>
    exact ⟨h.parked, h.awake, h.poisoned, h.stored, fun hf => ⟨(h.finished hf).1, hdrain⟩,
      fun _ _ _ => hdrain, hdrain, by simp, h.leaving, h.returned⟩

theorem Inv.commit (hc : s.consumer = .armedShutdown) (h0 : s.shutdown = 0) :
    Inv dir { s with consumer := .armedTail } where
  parked := fun _ => hi.parked (by rw [hc]; trivial)
  awake := fun h => absurd trivial h
  poisoned := hi.poisoned
  stored := hi.stored
  finished := fun hf => absurd h0 (hi.finished hf).1
  rung := by
    intro t ht hr
    cases t with
    | wakePH => exact absurd h0 (hi.stored .wakePH ht trivial)
    | _ => exact hr.elim
  owed := fun _ h => absurd h0 h
  work := by simp
  leaving := by simp
  returned := hi.returned

theorem Inv.block (hc : s.consumer = .armedTail) (ht : s.tail = s.lastSeen) :
    Inv dir { s with consumer := .blocked } where
  parked := fun _ => hi.parked (by rw [hc]; trivial)
  awake := fun h => absurd trivial h
  poisoned := hi.poisoned
  stored := hi.stored
  finished := fun hf => ⟨(hi.finished hf).1, fun _ => (hi.finished hf).2 (by rw [hc]; trivial)⟩
  rung := fun t h hr _ => hi.rung t h hr (by rw [hc]; trivial)
  owed := fun _ => hi.owed (by rw [hc]; trivial)
  work := fun _ h => absurd ht h
  leaving := by simp
  returned := hi.returned

theorem Inv.next {ended : Bool} {u : Park} (h : s.next dir ended = some u) : Inv dir u := by
  unfold Park.next at h
  split at h
  · cases h
  · next hc =>
    cases h
    split
    · exact hi.leave_unarmed (by simp [hc, Armed]) trivial
    · exact hi.moveTo_same id (by simp [hc, Armed]) (by simp)
  iterate 2
    · next hc =>
      cases h
      split
      · next h0 => exact hi.leave_unarmed (by simp [hc, Armed]) h0
      · exact hi.moveTo_same id (by simp [hc, Armed]) (by simp)
  · cases h
    exact hi.moveTo id (fun _ => rfl) (fun h => absurd trivial h) (by simp)
  · next hc =>
    cases h
    split
    · exact hi.moveTo_same id (by simp [hc, Armed]) (by rintro r ⟨⟩; trivial)
    · exact hi.moveTo_same id (by simp [hc, Armed]) (by simp)
  · next hc =>
    cases h
    split
    · next h0 => exact hi.moveTo_same id (by simp [hc, Armed]) (by rintro r ⟨⟩; exact h0)
    · next h0 => exact hi.commit hc (not_not.1 h0)
  · next hc =>
    cases h
    split
    · next h0 => exact hi.moveTo_same id (by simp [hc, Armed]) (by rintro r ⟨⟩; exact h0)
    · next h0 => exact hi.block hc (not_not.1 h0)
  · next hc =>
    split at h
    · cases h
      exact hi.moveTo_same id (by simp [hc, Armed]) (by rintro r ⟨⟩; trivial)
    · split at h
      · cases h
      · cases h
        exact hi.drain hc
  · cases h
    exact hi.moveTo id (fun h => h.elim) (fun _ => rfl) (by simp)
  · next hc =>
    cases h
    split
    · exact hi.leave_unarmed (by simp [hc, Armed]) trivial
    · exact hi.moveTo_same id (by simp [hc, Armed]) (by simp)
  iterate 2
    · next hc =>
      cases h
      split
      · next h0 => exact hi.leave_unarmed (by simp [hc, Armed]) h0
      · exact hi.moveTo_same id (by simp [hc, Armed]) (by simp)
  · next r hc =>
    cases h
    exact hi.leave (hi.leaving r hc)

end

end Consumer

/-! ## Teardown writes -/

/-- A call at `t` takes its write and moves on; nobody else moves. -/
structure Tears (s : Park) (t : Tear) (u : Park) : Prop where
  at_ : s.InFlight t
  kept : ∀ t', s.InFlight t' → t' ≠ t → u.InFlight t'
  next : ∀ t', tearNext t = some t' → u.InFlight t'
  only : ∀ t', u.InFlight t' → s.InFlight t' ∨ tearNext t = some t'
  /-- A call leaves the producer inside `signal` until its last write. -/
  signalling : Signalling s.producer → Signalling u.producer ∨ t = .wakePH
  tail : u.tail = s.tail
  lastSeen : u.lastSeen = s.lastSeen
  park : u.park = s.park
  consumer : u.consumer = s.consumer
  returned : u.returned = s.returned
  poison : u.poison = (tearWrite s t).poison
  shutdown : u.shutdown = (tearWrite s t).shutdown
  hp : u.hp = (tearWrite s t).hp
  ph : u.ph = (tearWrite s t).ph
  finished : u.finished = (tearWrite s t).finished

variable {s u : Park} {t : Tear} {dir : Direction}

theorem tearWrite_shutdown (h : s.shutdown ≠ 0) : (tearWrite s t).shutdown ≠ 0 := by
  cases t with
  | store _ => simp [tearWrite]
  | _ => exact h

theorem tearWrite_poison (h : s.poison.isSome) : (tearWrite s t).poison.isSome := by
  cases t with
  | cas _ => simp [tearWrite]
  | _ => exact h

theorem efd_le_tearWrite (dir : Direction) (s : Park) (t : Tear) : s.efd dir ≤ (tearWrite s t).efd dir := by
  cases t <;> cases dir <;> simp [tearWrite, write, efd]

theorem Rung.stored (h : Rung dir t) : Stored t := by
  cases t with
  | wakePH => trivial
  | _ => exact h.elim

theorem Justified.mono {r : Waited} (h : s.Justified r) (hu : s.shutdown ≠ 0 → u.shutdown ≠ 0) : u.Justified r := by
  cases r with
  | work _ _ => exact h
  | shutdown => exact hu h
  | ended => trivial

namespace Tears

variable {dir : Direction} {s u : Park} {t t' : Tear}

theorem efd_eq (h : Tears s t u) : u.efd dir = (tearWrite s t).efd dir := by
  cases dir with
  | hostToPlugin => exact h.hp
  | pluginToHost => exact h.ph

theorem efd_le (h : Tears s t u) : s.efd dir ≤ u.efd dir := by
  rw [h.efd_eq]
  exact efd_le_tearWrite dir s t

theorem shutdown_mono (h : Tears s t u) (h0 : s.shutdown ≠ 0) : u.shutdown ≠ 0 := by
  rw [h.shutdown]
  exact tearWrite_shutdown h0

theorem shutdown_of_inFlight (h : Tears s t u) (hi : Inv dir s) (ht : u.InFlight t') (hs : Stored t') : u.shutdown ≠ 0 := by
  rcases h.only t' ht with h' | h'
  · exact h.shutdown_mono (hi.stored t' h' hs)
  · cases t with
    | cas _ => cases h'; exact hs.elim
    | store _ => rw [h.shutdown]; simp [tearWrite]
    | wakeHP => exact h.shutdown_mono (hi.stored _ h.at_ trivial)
    | wakePH => cases h'

theorem poisoned (h : Tears s t u) (hi : Inv dir s) : u.poison.isSome → u.shutdown ≠ 0 ∨ u.InFlight (.store true) := by
  intro _
  cases t with
  | cas _ => exact .inr (h.next _ rfl)
  | store _ => left; rw [h.shutdown]; simp [tearWrite]
  | wakeHP | wakePH => exact .inl (h.shutdown_mono (hi.stored _ h.at_ trivial))

theorem rang (h : Tears s .wakePH u) (hi : Inv dir s) (hc : Committed s.consumer) : 0 < u.efd dir := by
  cases dir with
  | hostToPlugin => exact Nat.lt_of_lt_of_le (hi.rung _ h.at_ rfl hc) h.efd_le
  | pluginToHost =>
    rw [h.efd_eq]
    exact Nat.succ_pos _

theorem completed (h : Tears s t u) (hi : Inv dir s) (hf : 0 < u.finished) :
    u.shutdown ≠ 0 ∧ (Committed u.consumer → 0 < u.efd dir) := by
  rw [h.consumer]
  by_cases ht : t = .wakePH
  · subst ht
    exact ⟨h.shutdown_mono (hi.stored _ h.at_ trivial), h.rang hi⟩
  · have hs : 0 < s.finished := by
      rw [h.finished] at hf
      cases t with
      | wakePH => exact absurd rfl ht
      | _ => exact hf
    obtain ⟨h0, hc⟩ := hi.finished hs
    exact ⟨h.shutdown_mono h0, fun h' => Nat.lt_of_lt_of_le (hc h') h.efd_le⟩

theorem rung (h : Tears s t u) (hi : Inv dir s) (ht : u.InFlight t') (hr : Rung dir t')
    (hc : Committed u.consumer) : 0 < u.efd dir := by
  rw [h.consumer] at hc
  rcases h.only t' ht with h' | h'
  · exact Nat.lt_of_lt_of_le (hi.rung t' h' hr hc) h.efd_le
  · cases t with
    | cas _ => cases h'; exact hr.elim
    | store _ => cases h'; exact hr.elim
    | wakeHP =>
      cases h'
      cases hr
      rw [h.efd_eq]
      exact Nat.succ_pos _
    | wakePH => cases h'

theorem owed (h : Tears s t u) (hi : Inv dir s) (hc : Committed u.consumer) (h0 : u.shutdown ≠ 0)
    (he : u.efd dir = 0) : ∃ t, u.InFlight t ∧ Stored t ∧ Owes dir t := by
  rw [h.consumer] at hc
  cases t with
  | cas c =>
    have he' : s.efd dir = 0 := Nat.le_zero.1 (he ▸ h.efd_le)
    obtain ⟨t', h', hs, ho⟩ := hi.owed hc (by rw [h.shutdown] at h0; exact h0) he'
    refine ⟨t', h.kept t' h' ?_, hs, ho⟩
    rintro rfl
    exact hs
  | store _ => exact ⟨.wakeHP, h.next _ rfl, trivial, trivial⟩
  | wakeHP =>
    cases dir with
    | hostToPlugin =>
      rw [h.efd_eq] at he
      exact absurd he (Nat.succ_ne_zero _)
    | pluginToHost => exact ⟨.wakePH, h.next _ rfl, trivial, rfl⟩
  | wakePH => exact absurd he (Nat.ne_of_gt (h.rang hi hc))

theorem work (h : Tears s t u) (hi : Inv dir s) (hb : u.consumer = .blocked) (ht : u.tail ≠ u.lastSeen)
    (he : u.efd dir = 0) : Signalling u.producer ∨ u.poison.isSome ∨ u.shutdown ≠ 0 := by
  rw [h.consumer] at hb
  rw [h.tail, h.lastSeen] at ht
  have he' : s.efd dir = 0 := Nat.le_zero.1 (he ▸ h.efd_le)
  rcases hi.work hb ht he' with h' | h' | h'
  · rcases h.signalling h' with h' | rfl
    · exact .inl h'
    · exact .inr (.inr (h.shutdown_mono (hi.stored _ h.at_ trivial)))
  · right; left
    rw [h.poison]
    exact tearWrite_poison h'
  · exact .inr (.inr (h.shutdown_mono h'))

end Tears

theorem Inv.tears (hi : Inv dir s) (h : Tears s t u) : Inv dir u where
  parked := by rw [h.consumer, h.park]; exact hi.parked
  awake := by rw [h.consumer, h.park]; exact hi.awake
  poisoned := h.poisoned hi
  stored := fun _ => h.shutdown_of_inFlight hi
  finished := h.completed hi
  rung := fun _ => h.rung hi
  owed := h.owed hi
  work := h.work hi
  leaving := fun r hr => (hi.leaving r (h.consumer ▸ hr)).mono h.shutdown_mono
  returned := fun r hr => (hi.returned r (h.returned ▸ hr)).mono h.shutdown_mono

theorem tears_caller {i : Nat} (h : s.tear i = some t) :
    Tears s t { tearWrite s t with tear := update s.tear i (tearNext t) } where
  at_ := .inl ⟨i, h⟩
  kept := by
    rintro t' (⟨j, hj⟩ | hp) hne
    · refine .inl ⟨j, ?_⟩
      have hij : j ≠ i := by
        rintro rfl
        rw [h] at hj
        exact hne (Option.some.inj hj).symm
      simpa [update_of_ne hij] using hj
    · right
      cases t <;> exact hp
  next := fun t' h' => .inl ⟨i, by simpa using h'⟩
  only := by
    rintro t' (⟨j, hj⟩ | hp)
    · by_cases hij : j = i
      · subst hij
        right
        simpa using hj
      · left; left
        refine ⟨j, ?_⟩
        simpa [update_of_ne hij] using hj
    · left; right
      cases t <;> exact hp
  signalling := by
    intro h'
    left
    cases t <;> exact h'
  tail := by cases t <;> rfl
  lastSeen := by cases t <;> rfl
  park := by cases t <;> rfl
  consumer := by cases t <;> rfl
  returned := by cases t <;> rfl
  poison := rfl
  shutdown := rfl
  hp := rfl
  ph := rfl
  finished := rfl

theorem tears_producer (h : s.producer = .poisoning t) :
    Tears s t { tearWrite s t with producer := poisoningNext (tearNext t) } where
  at_ := .inr h
  kept := by
    rintro t' (⟨j, hj⟩ | hp) hne
    · refine .inl ⟨j, ?_⟩
      cases t <;> exact hj
    · rw [h] at hp
      exact absurd (Signaller.poisoning.inj hp).symm hne
  next := by
    intro t' h'
    right
    change poisoningNext (tearNext t) = _
    rw [h']
    rfl
  only := by
    rintro t' (⟨j, hj⟩ | hp)
    · left; left
      refine ⟨j, ?_⟩
      cases t <;> exact hj
    · right
      cases t <;> cases hp <;> rfl
  signalling := by
    intro _
    cases t with
    | wakePH => exact .inr rfl
    | _ => exact .inl trivial
  tail := by cases t <;> rfl
  lastSeen := by cases t <;> rfl
  park := by cases t <;> rfl
  consumer := by cases t <;> rfl
  returned := by cases t <;> rfl
  poison := rfl
  shutdown := rfl
  hp := rfl
  ph := rfl
  finished := rfl

/-! ## The producer's steps, and calls that begin -/

section Producer

variable {dir : Direction} {s : Park} {p : Signaller} {n : UInt64}

theorem Inv.others (hi : Inv dir s) {f : Nat → Option Tear}
    (hkeep : ∀ t, s.InFlight t → ({ s with producer := p, tear := f, tail := n } : Park).InFlight t)
    (hnew : ∀ t, ({ s with producer := p, tear := f, tail := n } : Park).InFlight t → s.InFlight t ∨ ¬Stored t)
    (hwork : s.consumer = .blocked → n ≠ s.lastSeen → s.efd dir = 0 →
      Signalling p ∨ s.poison.isSome ∨ s.shutdown ≠ 0) :
    Inv dir { s with producer := p, tear := f, tail := n } where
  parked := hi.parked
  awake := hi.awake
  poisoned := fun h => (hi.poisoned h).imp_right (hkeep _)
  stored := fun t h hs => hi.stored t ((hnew t h).resolve_right (not_not.2 hs)) hs
  finished := hi.finished
  rung := fun t h hr => hi.rung t ((hnew t h).resolve_right (not_not.2 hr.stored)) hr
  owed := by
    intro hc h0 he
    obtain ⟨t, ht, hs, ho⟩ := hi.owed hc h0 he
    exact ⟨t, hkeep t ht, hs, ho⟩
  work := hwork
  leaving := hi.leaving
  returned := hi.returned

theorem Inv.produce (hi : Inv dir s) (hs : ∀ t, s.producer ≠ .poisoning t) (hp : ∀ t, p = .poisoning t → ¬Stored t)
    (hwork : s.consumer = .blocked → n ≠ s.lastSeen → s.efd dir = 0 → Signalling p ∨ s.poison.isSome ∨ s.shutdown ≠ 0) :
    Inv dir { s with producer := p, tail := n } := by
  refine hi.others (f := s.tear) ?_ ?_ hwork
  · rintro t (h | h)
    · exact .inl h
    · exact absurd h (hs t)
  · rintro t (h | h)
    · exact .inl (.inl h)
    · exact .inr (hp t h)

theorem Inv.begin (hi : Inv dir s) {i : Nat} (h : s.tear i = none) (ht : ¬Stored t) :
    Inv dir { s with tear := update s.tear i (some t) } := by
  refine hi.others (p := s.producer) (n := s.tail) ?_ ?_ hi.work
  · rintro t' (⟨j, hj⟩ | hp)
    · refine .inl ⟨j, ?_⟩
      have hij : j ≠ i := by
        rintro rfl
        simp [h] at hj
      simpa [update_of_ne hij] using hj
    · exact .inr hp
  · rintro t' (⟨j, hj⟩ | hp)
    · by_cases hij : j = i
      · subst hij
        simp only [update_self, Option.some.injEq] at hj
        exact .inr (hj ▸ ht)
      · exact .inl (.inl ⟨j, by simpa [update_of_ne hij] using hj⟩)
    · exact .inl (.inr hp)

theorem efd_write (dir : Direction) (s : Park) : (write s dir).efd dir = s.efd dir + 1 := by
  cases dir <;> rfl

theorem Inv.write (hi : Inv dir s) : Inv dir (write s dir) := by
  have hpos : 0 < (Park.write s dir).efd dir := by rw [efd_write]; omega
  have hne : (Park.write s dir).efd dir ≠ 0 := by omega
  cases dir with
  | hostToPlugin | pluginToHost =>
    exact ⟨hi.parked, hi.awake, hi.poisoned, hi.stored, fun hf => ⟨(hi.finished hf).1, fun _ => hpos⟩,
      fun _ _ _ _ => hpos, fun _ _ he => absurd he hne, fun _ _ he => absurd he hne, hi.leaving, hi.returned⟩

theorem write_producer (s : Park) (dir : Direction) : (Park.write s dir).producer = s.producer := by
  cases dir <;> rfl

theorem Inv.signal (hi : Inv dir s) {fails : Bool} {u : Park} (h : s.signal dir fails = some u) : Inv dir u := by
  unfold Park.signal at h
  split at h
  · cases h
  · next hp =>
    cases h
    split
    · next h0 => exact hi.produce (by simp [hp]) (by simp) (fun _ _ _ => .inr (.inl h0))
    · exact hi.produce (by simp [hp]) (by simp) (fun _ _ _ => .inl trivial)
  · next hp =>
    cases h
    split
    · next h0 => exact hi.produce (by simp [hp]) (by simp) (fun _ _ _ => .inr (.inr h0))
    · exact hi.produce (by simp [hp]) (by simp) (fun _ _ _ => .inl trivial)
  · next hp =>
    cases h
    split
    · exact hi.produce (by simp [hp]) (by simp) (fun _ _ _ => .inl trivial)
    · next hne =>
      split
      · -- the word reads awake, so the consumer is not blocked
        refine hi.produce (by simp [hp]) (by simp) (fun hb _ _ => ?_)
        exact absurd (hi.parked (by rw [hb]; trivial)) hne
      · exact hi.produce (by simp [hp]) (by rintro t ⟨⟩; exact id) (fun _ _ _ => .inl trivial)
  · next hp =>
    split at h
    · cases h
      exact hi.produce (by simp [hp]) (by rintro t ⟨⟩; exact id) (fun _ _ _ => .inl trivial)
    · cases h
      refine hi.write.produce (by simp [write_producer, hp]) (by simp) (fun _ _ he => ?_)
      rw [efd_write] at he
      omega
  · next t hp =>
    cases h
    exact hi.tears (tears_producer hp)

end Producer

theorem Inv.step {a : Act} (hi : Inv dir s) (h : Park.step dir s a = some u) : Inv dir u := by
  cases a with
  | publish =>
    obtain ⟨hp, ⟨⟩⟩ := guard_some h
    exact hi.produce (by simp [hp]) (by simp) (fun _ _ _ => .inl trivial)
  | signal fails => exact hi.signal h
  | consume =>
    obtain ⟨hc, ⟨⟩⟩ := guard_some h
    exact ⟨hi.parked, hi.awake, hi.poisoned, hi.stored, hi.finished, hi.rung, hi.owed, by simp [hc.1],
      by simp [hc.1], hi.returned⟩
  | wait | spent =>
    obtain ⟨hc, ⟨⟩⟩ := guard_some h
    exact hi.moveTo_same id (by simp [hc, Armed]) (by simp)
  | next ended => exact hi.next h
  | set i cause | shutdown i =>
    obtain ⟨hn, ⟨⟩⟩ := guard_some h
    exact hi.begin hn id
  | tear i =>
    simp only [Park.step] at h
    split at h
    · next t ht =>
      cases h
      exact hi.tears (tears_caller ht)
    · cases h

theorem Inv.reach {q : UInt64} (h : Reach (Park.step dir) Any (Park.start q) s) :
    Inv dir s :=
  h.invariant (Inv.start dir q) fun hi _ hs => hi.step hs

/-! ## Nobody sleeps through a wake -/

/-- The consumer is blocked in its eventfd read with nothing to read. -/
def Asleep (dir : Direction) (s : Park) : Prop := s.consumer = .blocked ∧ s.efd dir = 0

instance (dir : Direction) (s : Park) : Decidable (Asleep dir s) :=
  inferInstanceAs (Decidable (s.consumer = .blocked ∧ s.efd dir = 0))

/-- **No wake is lost.** A consumer asleep while the tail has moved and the producer is done is owed a wake by a teardown call
under way; and a `Wait` returns for a cause only, so a stale token costs a look and no more. -/
theorem no_lost_wakeup (dir : Direction) (q : UInt64) (s : Park)
    (h : Reach (Park.step dir) Any (Park.start q) s) :
    (Asleep dir s → s.producer = .out → s.tail ≠ s.lastSeen → ∃ i t, s.tear i = some t ∧ Owes dir t) ∧
    (Asleep dir s → s.finished = 0) ∧
    ∀ r ∈ s.returned, s.Justified r := by
  have hi := Inv.reach h
  refine ⟨?_, ?_, hi.returned⟩
  · rintro ⟨hb, he⟩ hp ht
    have hcaller : ∀ t, s.InFlight t → ∃ i, s.tear i = some t := by
      rintro t (h' | h')
      · exact h'
      · rw [hp] at h'
        cases h'
    have hshut : s.shutdown ≠ 0 → ∃ i t, s.tear i = some t ∧ Owes dir t := by
      intro h0
      obtain ⟨t, h', -, ho⟩ := hi.owed (by rw [hb]; trivial) h0 he
      obtain ⟨i, h'⟩ := hcaller t h'
      exact ⟨i, t, h', ho⟩
    rcases hi.work hb ht he with h' | h' | h'
    · rw [hp] at h'
      exact h'.elim
    · rcases hi.poisoned h' with h0 | h0
      · exact hshut h0
      · obtain ⟨i, h0⟩ := hcaller _ h0
        exact ⟨i, _, h0, rfl⟩
    · exact hshut h'
  · rintro ⟨hb, he⟩
    by_contra hf
    have := (hi.finished (Nat.pos_of_ne_zero hf)).2 (by rw [hb]; trivial)
    omega

/-- The consumer goes to sleep on an empty ring. -/
def toSleep : List Act := [.wait, .spent, .next false, .next false, .next false, .next false]

/-- The producer publishes behind a poison word just set, and leaves the wake to the caller of `Set`. -/
def behindPoison : List Act := toSleep ++ [.set 0 .generic, .tear 0, .publish, .signal false]

def poisonedAsleep : Park := (run (Park.step .hostToPlugin) (Park.start 0) behindPoison).get (by decide)

theorem reach_poisonedAsleep : Reach (Park.step .hostToPlugin) Any (Park.start 0) poisonedAsleep :=
  Reach.of_run (Option.some_get _).symm

/-- A consumer asleep while the tail has moved and the producer is done is reached. -/
theorem wake_owed_by_teardown :
    Reach (Park.step .hostToPlugin) Any (Park.start 0) poisonedAsleep ∧ Asleep .hostToPlugin poisonedAsleep ∧
      poisonedAsleep.producer = .out ∧ poisonedAsleep.tail ≠ poisonedAsleep.lastSeen :=
  ⟨reach_poisonedAsleep, by decide, by decide, by decide⟩

theorem no_lost_wakeup_poisoned : ∃ i t, poisonedAsleep.tear i = some t ∧ Owes .hostToPlugin t :=
  (no_lost_wakeup .hostToPlugin 0 poisonedAsleep reach_poisonedAsleep).1 (by decide) (by decide) (by decide)

end Park

end Styx
