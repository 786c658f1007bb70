/-
The unary call table of one connection generation, worked on by any number of goroutines.

Each of `Table`'s functions is its atomic acts: the draw of an ID, a look in the map, a
compare-and-swap on the call's state, the send on its result channel, the map's delete. A
call is named by the number of the draw that made it; its ID is that number in 64 bits,
which is all the map is keyed by.

`waitResult` is the one act of a call's waiter that the table can see: it takes the result
out of the channel. (A waiter's expired budget is a `DeadlineExceeded`.)
-/
import Mathlib.Data.Finset.Basic
import Mathlib.Logic.Function.Basic
import Styx.Lib.Machine
import Styx.Transport.Frame

namespace Styx

inductive CallState
  | submitted
  | published
  | completed
  | failed
  | canceled
  | deadline
  | rejected
  | outcomeUnknown
  deriving DecidableEq

def CallState.terminal : CallState → Bool
  | .submitted | .published => false
  | _ => true

/-- The moves of a call's state: forward, and nowhere from a terminal one. -/
def CallState.Follows (a b : CallState) : Prop :=
  a = b ∨ (a = .submitted ∧ b ≠ .submitted) ∨ (a = .published ∧ b.terminal = true)

namespace CallState

variable {a b c : CallState}

theorem Follows.trans (h₁ : a.Follows b) (h₂ : b.Follows c) : a.Follows c := by
  revert h₁ h₂
  unfold Follows
  cases a <;> cases b <;> cases c <;> simp [terminal]

theorem Follows.of_terminal (h : a.Follows b) (ha : a.terminal = true) : b = a := by
  rcases h with rfl | ⟨rfl, -⟩ | ⟨rfl, -⟩
  · rfl
  all_goals cases ha

theorem Follows.terminal (h : a.Follows b) (ha : a.terminal = true) : b.terminal = true := by
  rw [h.of_terminal ha, ha]

theorem Follows.submitted (h : a.Follows b) (ha : a ≠ .submitted) : b ≠ .submitted := by
  rcases h with rfl | ⟨rfl, -⟩ | ⟨-, hb⟩
  · exact ha
  · exact absurd rfl ha
  · rintro rfl
    cases hb

theorem terminal_of_ne (h₁ : a ≠ .submitted) (h₂ : a ≠ .published) : a.terminal = true := by
  cases a <;> simp_all [CallState.terminal]

end CallState

namespace CallTable

section Operations

variable {M E : Type}

/-- The table's own two sentinels, and an error a caller hands in. -/
inductive CallErr (E : Type)
  | canceledLocally
  | deadlineExceeded
  | cause (err : E)
  deriving DecidableEq

/-- What a call resolves to; `M` is the decoded message. -/
structure Result (M E : Type) where
  payload : Bytes := []
  msg : Option M := none
  status : Option FrameStatus := none
  err : Option (CallErr E) := none
  deriving DecidableEq

/-- The calls of `terminate`: one for each of the table's functions, and `FailAll`'s two. -/
inductive Op (M E : Type)
  | cancel
  | complete (payload : Bytes)
  | completeMsg (msg : M)
  | fail (status : FrameStatus)
  | deadlineExceeded
  | outcomeUnknown (cause : E)
  | reject (err : E)
  | failAllNotDispatched (notDispatchedErr : E)
  | failAllDispatched (dispatchedErr : E)
  deriving DecidableEq

/-- Target, result and source states, in the order they are tried. -/
def Op.transition : Op M E → CallState × Result M E × List CallState
  | .cancel => (.canceled, { err := some .canceledLocally }, [.submitted, .published])
  | .complete payload => (.completed, { payload }, [.published])
  | .completeMsg msg => (.completed, { msg := some msg }, [.published])
  | .fail status => (.failed, { status := some status }, [.published])
  | .deadlineExceeded => (.deadline, { err := some .deadlineExceeded }, [.submitted, .published])
  | .outcomeUnknown cause => (.outcomeUnknown, { err := some (.cause cause) }, [.published])
  | .reject err => (.rejected, { err := some (.cause err) }, [.submitted, .published])
  | .failAllNotDispatched err => (.rejected, { err := some (.cause err) }, [.submitted])
  | .failAllDispatched err => (.outcomeUnknown, { err := some (.cause err) }, [.published])

def Op.target (op : Op M E) : CallState := op.transition.1
def Op.result (op : Op M E) : Result M E := op.transition.2.1
def Op.sources (op : Op M E) : List CallState := op.transition.2.2

/-- Not one of the two that only `FailAll` makes. -/
def Op.direct : Op M E → Bool
  | .failAllNotDispatched _ | .failAllDispatched _ => false
  | _ => true

/-- The operations on a call that was published, `FailAll`'s second attempt among them. -/
def Op.dispatched : Op M E → Bool
  | .complete _ | .completeMsg _ | .fail _ | .outcomeUnknown _ | .failAllDispatched _ => true
  | _ => false

theorem Op.submitted_of_dispatched {op : Op M E} (h : op.dispatched = true) : .submitted ∉ op.sources := by
  cases op <;> simp_all [Op.dispatched, Op.sources, Op.transition]

theorem Op.target_terminal (op : Op M E) : op.target.terminal = true := by cases op <;> rfl

theorem Op.source_live {op : Op M E} {src : CallState} (h : src ∈ op.sources) : src.terminal = false := by
  cases op <;> simp [Op.sources, Op.transition] at h <;> rcases h with rfl | rfl <;> rfl

end Operations

/-! ## The table -/

structure Call (M E : Type) where
  id : UInt64
  state : CallState
  /-- Buffered, with room for one. -/
  resultCh : List (Result M E)
  /-- Ghost: the call has been put in the map; a `Publish` of it has succeeded; which
  `terminate` won its state; every result sent. -/
  registered : Bool
  published : Bool
  winner : Option (Op M E)
  sent : List (Result M E)
  deriving DecidableEq

def newCall (M E : Type) (id : UInt64) : Call M E := ⟨id, .submitted, [], false, false, none, []⟩

/-- `FailAll`'s loop: its snapshot, what is left of it with the ID it is at in front,
and whether the first attempt on that one has lost. -/
structure Sweep (E : Type) where
  dispatchedErr : E
  notDispatchedErr : E
  ids : List UInt64
  rest : List UInt64
  second : Bool
  deriving DecidableEq

section Sweep

variable {M E : Type}

def Sweep.op (w : Sweep E) : Op M E :=
  if w.second then .failAllDispatched w.dispatchedErr else .failAllNotDispatched w.notDispatchedErr

/-- Where the loop goes when an attempt has returned `ok`. -/
def Sweep.after (w : Sweep E) (ok : Bool) : Sweep E :=
  if ok ∨ w.second then { w with rest := w.rest.tail, second := false } else { w with second := true }

end Sweep

/-- A goroutine's position. In `terminate` it has the call, the ID, and for `FailAll`
the loop it is to come back to. -/
inductive Pc (M E : Type)
  | ready
  | registering (n : Nat)
  | publishing (n : Nat) (id : UInt64)
  | published (id : UInt64) (ok : Bool)
  | trying (n : Nat) (id : UInt64) (op : Op M E) (src : List CallState) (sweep : Option (Sweep E))
  | sending (n : Nat) (id : UInt64) (op : Op M E) (sweep : Option (Sweep E))
  | deleting (n : Nat) (id : UInt64) (sweep : Option (Sweep E))
  | terminated (ok : Bool)
  | sweeping (sweep : Sweep E)
  | failedAll (ids : List UInt64)
  deriving DecidableEq

def Pc.free {M E : Type} : Pc M E → Bool
  | .ready | .published _ _ | .terminated _ | .failedAll _ => true
  | _ => false

def resume {M E : Type} (sweep : Option (Sweep E)) (ok : Bool) : Pc M E :=
  match sweep with
  | none => .terminated ok
  | some w => .sweeping (w.after ok)

end CallTable

open CallTable in
structure CallTable (M E : Type) where
  nextID : UInt64
  /-- The map: its keys, and the call each of them has. -/
  ids : Finset UInt64
  ref : UInt64 → Nat
  calls : Nat → Call M E
  pc : Nat → Pc M E
  /-- Ghost: IDs drawn so far. -/
  draws : Nat

namespace CallTable

variable {M E : Type}

def start : CallTable M E := ⟨0, ∅, fun _ => 0, fun _ => newCall M E 0, fun _ => .ready, 0⟩

def lookup (t : CallTable M E) (id : UInt64) : Option Nat := if id ∈ t.ids then some (t.ref id) else none

def goto (t : CallTable M E) (g : Nat) (p : Pc M E) : CallTable M E := { t with pc := Function.update t.pc g p }

def setCall (t : CallTable M E) (n : Nat) (c : Call M E) : CallTable M E :=
  { t with calls := Function.update t.calls n c }

/-- `t.calls[id] = c`. -/
def register (t : CallTable M E) (n : Nat) : CallTable M E :=
  { t.setCall n { t.calls n with registered := true } with
    ids := insert (t.calls n).id t.ids, ref := Function.update t.ref (t.calls n).id n }

/-- `delete(t.calls, id)`. -/
def delete (t : CallTable M E) (id : UInt64) : CallTable M E := { t with ids := t.ids.erase id }

/-- `nextID.Add(1)`. -/
def draw (t : CallTable M E) : CallTable M E := { t with nextID := t.nextID + 1, draws := t.draws + 1 }

inductive Act (M E : Type)
  /-- `NextID`: an ID for a stream. -/
  | nextID
  | submit (g : Nat)
  | publish (g : Nat) (id : UInt64)
  | terminate (g : Nat) (id : UInt64) (op : Op M E)
  /-- With the snapshot, in the order the map's iteration gives it. -/
  | failAll (g : Nat) (dispatchedErr notDispatchedErr : E) (ids : List UInt64)
  | next (g : Nat)
  | waitResult (n : Nat)

/-- `terminate`'s look in the map; for `FailAll`, from its loop. -/
def enter (t : CallTable M E) (g : Nat) (id : UInt64) (op : Op M E) (sweep : Option (Sweep E)) : CallTable M E :=
  match t.lookup id with
  | none => t.goto g (resume sweep false)
  | some n => t.goto g (.trying n id op op.sources sweep)

/-- The next act of a goroutine in a function; a send on a full channel has none. -/
def advance (t : CallTable M E) (g : Nat) : Pc M E → Option (CallTable M E)
  | .registering n => some ((t.register n).goto g .ready)
  | .publishing n id =>
    let c := t.calls n
    if c.state = .submitted then
      some ((t.setCall n { c with state := .published, published := true }).goto g (.published id true))
    else some (t.goto g (.published id false))
  | .trying _ _ _ [] sweep => some (t.goto g (resume sweep false))
  | .trying n id op (src :: rest) sweep =>
    let c := t.calls n
    if c.state = src then
      some ((t.setCall n { c with state := op.target, winner := some op }).goto g (.sending n id op sweep))
    else some (t.goto g (.trying n id op rest sweep))
  | .sending n id op sweep =>
    let c := t.calls n
    if c.resultCh.length < 1 then
      some ((t.setCall n { c with resultCh := c.resultCh ++ [op.result], sent := c.sent ++ [op.result] }).goto g
        (.deleting n id sweep))
    else none
  | .deleting _ id sweep => some ((t.delete id).goto g (resume sweep true))
  | .sweeping w =>
    match w.rest with
    | [] => some (t.goto g (.failedAll w.ids))
    | id :: _ => some (t.enter g id w.op (some w))
  | .ready | .published _ _ | .terminated _ | .failedAll _ => none

def step (t : CallTable M E) : Act M E → Option (CallTable M E)
  | .nextID => some t.draw
  | .submit g =>
    if (t.pc g).free then
      let t := t.draw
      some ((t.setCall t.draws (newCall M E t.nextID)).goto g (.registering t.draws))
    else none
  | .publish g id =>
    if (t.pc g).free then
      match t.lookup id with
      | none => some (t.goto g (.published id false))
      | some n => some (t.goto g (.publishing n id))
    else none
  | .terminate g id op => if (t.pc g).free ∧ op.direct then some (t.enter g id op none) else none
  | .failAll g dispatchedErr notDispatchedErr ids =>
    if (t.pc g).free ∧ ids.Nodup ∧ ids.toFinset = t.ids then
      some (t.goto g (.sweeping ⟨dispatchedErr, notDispatchedErr, ids, ids, false⟩))
    else none
  | .next g => t.advance g (t.pc g)
  | .waitResult n =>
    match (t.calls n).resultCh with
    | [] => none
    | _ :: rest => some (t.setCall n { t.calls n with resultCh := rest })

/-! ## What any step keeps

Nothing a step does to a call is undone: `Later`. What a goroutine has learnt about a
call is stable under it, so a goroutine's facts survive every other one's steps. -/

structure Later (c c' : Call M E) : Prop where
  id : c'.id = c.id
  registered : c.registered = true → c'.registered = true
  follows : c.state.Follows c'.state
  settled : c.state.terminal = true → c'.winner = c.winner ∧ c'.published = c.published

theorem Later.refl (c : Call M E) : Later c c := ⟨rfl, fun h => h, .inl rfl, fun _ => ⟨rfl, rfl⟩⟩

theorem Later.trans {c₁ c₂ c₃ : Call M E} (h₁ : Later c₁ c₂) (h₂ : Later c₂ c₃) : Later c₁ c₃ := by
  refine ⟨h₂.id.trans h₁.id, fun h => h₂.registered (h₁.registered h), h₁.follows.trans h₂.follows, fun h => ?_⟩
  obtain ⟨hw₁, hp₁⟩ := h₁.settled h
  obtain ⟨hw₂, hp₂⟩ := h₂.settled (h₁.follows.terminal h)
  exact ⟨hw₂.trans hw₁, hp₂.trans hp₁⟩

structure Le (t t' : CallTable M E) : Prop where
  draws : t.draws ≤ t'.draws
  calls : ∀ n ≤ t.draws, Later (t.calls n) (t'.calls n)

theorem Le.refl (t : CallTable M E) : Le t t := ⟨le_refl _, fun _ _ => .refl _⟩

theorem Le.trans {t₁ t₂ t₃ : CallTable M E} (h₁ : Le t₁ t₂) (h₂ : Le t₂ t₃) : Le t₁ t₃ :=
  ⟨h₁.draws.trans h₂.draws, fun n hn => (h₁.calls n hn).trans (h₂.calls n (hn.trans h₁.draws))⟩

def Has (t : CallTable M E) (id : UInt64) : Prop := id.toNat ≤ t.draws ∧ (t.calls id.toNat).registered = true

/-- Such a call that is past its submission, and one that is over. -/
def Left (t : CallTable M E) (id : UInt64) : Prop := t.Has id ∧ (t.calls id.toNat).state ≠ .submitted
def Ended (t : CallTable M E) (id : UInt64) : Prop := t.Has id ∧ (t.calls id.toNat).state.terminal = true

/-- The loop's attempt on a call has lost: the first to a publication or an end, the
second to an end. -/
def Lost (t : CallTable M E) (w : Sweep E) (id : UInt64) : Prop := t.Left id ∧ (w.second = true → t.Ended id)

structure SweepOk (t : CallTable M E) (w : Sweep E) : Prop where
  has : ∀ id ∈ w.ids, t.Has id
  done : ∃ done, w.ids = done ++ w.rest ∧ ∀ id ∈ done, t.Ended id
  second : w.second = true → ∀ id ∈ w.rest.head?, t.Left id

/-- What a goroutine knows where it stands. -/
def PcOk (t : CallTable M E) : Pc M E → Prop
  | .ready | .published _ _ | .terminated _ => True
  | .registering n => n ≤ t.draws ∧ (t.calls n).id = UInt64.ofNat n
  | .publishing n id => n = id.toNat ∧ t.Has id
  | .trying n id op src sweep =>
    n = id.toNat ∧ t.Has id ∧ (∀ s ∈ src, s ∈ op.sources) ∧
      ∀ w ∈ sweep, t.SweepOk w ∧ w.rest.head? = some id ∧ op = w.op ∧
        (src = op.sources ∨ src = [] ∧ t.Lost w id)
  | .sending n id _ sweep | .deleting n id sweep =>
    n = id.toNat ∧ t.Ended id ∧ ∀ w ∈ sweep, t.SweepOk w ∧ w.rest.head? = some id
  | .sweeping w => t.SweepOk w
  | .failedAll ids => ∀ id ∈ ids, t.Ended id

section Stable

variable {t t' : CallTable M E} {id : UInt64} {w : Sweep E}

theorem Has.mono (h : t.Has id) (hle : Le t t') : t'.Has id :=
  ⟨h.1.trans hle.draws, (hle.calls _ h.1).registered h.2⟩

theorem Left.mono (h : t.Left id) (hle : Le t t') : t'.Left id :=
  ⟨h.1.mono hle, (hle.calls _ h.1.1).follows.submitted h.2⟩

theorem Ended.mono (h : t.Ended id) (hle : Le t t') : t'.Ended id :=
  ⟨h.1.mono hle, (hle.calls _ h.1.1).follows.terminal h.2⟩

theorem Lost.mono (h : t.Lost w id) (hle : Le t t') : t'.Lost w id :=
  ⟨h.1.mono hle, fun hs => (h.2 hs).mono hle⟩

theorem SweepOk.mono (h : t.SweepOk w) (hle : Le t t') : t'.SweepOk w := by
  obtain ⟨done, hids, hdone⟩ := h.done
  exact ⟨fun id hid => (h.has id hid).mono hle, ⟨done, hids, fun id hid => (hdone id hid).mono hle⟩,
    fun hs id hid => (h.second hs id hid).mono hle⟩

theorem PcOk.mono {p : Pc M E} (h : t.PcOk p) (hle : Le t t') : t'.PcOk p := by
  cases p with
  | ready | published | terminated => trivial
  | registering n => exact ⟨h.1.trans hle.draws, (hle.calls n h.1).id.trans h.2⟩
  | publishing n id => exact ⟨h.1, h.2.mono hle⟩
  | trying n id op src sweep =>
    obtain ⟨hn, hhas, hsrc, hw⟩ := h
    refine ⟨hn, hhas.mono hle, hsrc, fun w hmem => ?_⟩
    obtain ⟨hok, hhead, hop, htried⟩ := hw w hmem
    exact ⟨hok.mono hle, hhead, hop, htried.imp_right fun ⟨hnil, hlost⟩ => ⟨hnil, hlost.mono hle⟩⟩
  | sending n id op sweep | deleting n id sweep =>
    obtain ⟨hn, hend, hw⟩ := h
    exact ⟨hn, hend.mono hle, fun w hmem => ⟨(hw w hmem).1.mono hle, (hw w hmem).2⟩⟩
  | sweeping w => exact SweepOk.mono h hle
  | failedAll ids => exact fun id hid => (h id hid).mono hle

end Stable

/-! ## The map and the goroutines -/

structure Inv (t : CallTable M E) : Prop where
  nextID : t.nextID = UInt64.ofNat t.draws
  /-- A registered call leaves the map only once it is over. -/
  call : ∀ n, (t.calls n).registered = true →
    n ≤ t.draws ∧ (t.calls n).id = UInt64.ofNat n ∧ (UInt64.ofNat n ∈ t.ids ∨ (t.calls n).state.terminal = true)
  key : ∀ id ∈ t.ids, t.ref id = id.toNat ∧ t.Has id
  pcs : ∀ g, t.PcOk (t.pc g)

section Steps

variable {t t' : CallTable M E} {id : UInt64} {g n : Nat} {sweep : Option (Sweep E)} {op : Op M E} {c : Call M E} {ok : Bool}
  {src : CallState}

theorem toNat_draw (hw : t.draws < UInt64.size) (hn : n ≤ t.draws) : (UInt64.ofNat n).toNat = n :=
  UInt64.toNat_ofNat_of_lt' (hn.trans_lt hw)

theorem le_setCall (hc : Later (t.calls n) c) : Le t (t.setCall n c) := by
  refine ⟨le_refl _, fun m _ => ?_⟩
  by_cases hm : m = n
  · subst hm
    simpa [setCall] using hc
  · simpa [setCall, hm] using Later.refl (t.calls m)

theorem Inv.goto (h : t.Inv) {p : Pc M E} (hp : t.PcOk p) : (t.goto g p).Inv := by
  refine ⟨h.nextID, h.call, h.key, fun g' => ?_⟩
  by_cases hg : g' = g
  · subst hg
    have : (t.goto g' p).pc g' = p := by simp [CallTable.goto]
    rw [this]
    exact hp.mono ⟨le_refl _, fun _ _ => .refl _⟩
  · have : (t.goto g p).pc g' = t.pc g' := by simp [CallTable.goto, hg]
    rw [this]
    exact (h.pcs g').mono ⟨le_refl _, fun _ _ => .refl _⟩

theorem Inv.setCall (h : t.Inv) (hc : Later (t.calls n) c) (hreg : c.registered = (t.calls n).registered) :
    (t.setCall n c).Inv := by
  have hle := le_setCall hc
  refine ⟨h.nextID, fun m hm => ?_, fun id hid => ⟨(h.key id hid).1, (h.key id hid).2.mono hle⟩,
    fun g => (h.pcs g).mono hle⟩
  have hm' : (t.calls m).registered = true := by
    by_cases hmn : m = n
    · subst hmn
      simpa [CallTable.setCall, hreg] using hm
    · simpa [CallTable.setCall, hmn] using hm
  obtain ⟨hd, hid, hin⟩ := h.call m hm'
  have hl := hle.calls m hd
  exact ⟨hd, hl.id.trans hid, hin.imp_right hl.follows.terminal⟩

theorem Inv.draw (h : t.Inv) : t.draw.Inv := by
  have hle : Le t t.draw := ⟨Nat.le_succ _, fun _ _ => .refl _⟩
  refine ⟨?_, fun n hn => ?_, fun id hid => ⟨(h.key id hid).1, (h.key id hid).2.mono hle⟩, fun g => (h.pcs g).mono hle⟩
  · have hnext : t.draw.nextID = t.nextID + 1 := rfl
    rw [hnext, h.nextID]
    exact (UInt64.ofNat_add t.draws 1).symm
  · obtain ⟨hd, hrest⟩ := h.call n hn
    exact ⟨hd.trans (Nat.le_succ _), hrest⟩

theorem le_fresh (t : CallTable M E) : Le t (t.draw.setCall t.draw.draws (newCall M E t.draw.nextID)) := by
  refine ⟨Nat.le_succ _, fun n hn => ?_⟩
  have hne : n ≠ t.draw.draws := by simp only [CallTable.draw]; omega
  simp only [CallTable.setCall, Function.update_of_ne hne]
  exact .refl (t.calls n)

theorem Inv.submit (h : t.Inv) : (t.draw.setCall t.draw.draws (newCall M E t.draw.nextID)).Inv := by
  have hle := le_fresh t
  refine ⟨h.draw.nextID, fun n hn => ?_, fun id hid => ⟨(h.key id hid).1, (h.key id hid).2.mono hle⟩,
    fun g => (h.pcs g).mono hle⟩
  have hne : n ≠ t.draw.draws := by
    rintro rfl
    simp [CallTable.setCall, newCall] at hn
  simp only [CallTable.setCall, Function.update_of_ne hne] at hn ⊢
  obtain ⟨hd, hrest⟩ := h.draw.call n hn
  exact ⟨hd, hrest⟩

theorem le_register (t : CallTable M E) (n : Nat) : Le t (t.register n) := by
  have hle : Le t (t.setCall n { t.calls n with registered := true }) :=
    le_setCall ⟨rfl, fun _ => rfl, .inl rfl, fun _ => ⟨rfl, rfl⟩⟩
  exact ⟨hle.draws, hle.calls⟩

theorem le_delete (t : CallTable M E) (id : UInt64) : Le t (t.delete id) := ⟨le_refl _, fun _ _ => .refl _⟩

theorem Inv.register (h : t.Inv) (hw : t.draws < UInt64.size) (hp : t.PcOk (.registering n)) :
    (t.register n).Inv := by
  obtain ⟨hn, hid⟩ := hp
  have hle := le_register t n
  have hnat := toNat_draw hw hn
  refine ⟨h.nextID, fun m hm => ?_, fun id hmem => ?_, fun g => (h.pcs g).mono hle⟩
  · by_cases hmn : m = n
    · subst hmn
      exact ⟨hn, by simpa [CallTable.register, CallTable.setCall] using hid, .inl (by simp [CallTable.register, hid])⟩
    · simp only [CallTable.register, CallTable.setCall, Function.update_of_ne hmn] at hm ⊢
      obtain ⟨hd, hid', hin⟩ := h.call m hm
      exact ⟨hd, hid', hin.imp_left (Finset.mem_insert_of_mem ·)⟩
  · simp only [CallTable.register, hid, Finset.mem_insert] at hmem
    by_cases heq : id = UInt64.ofNat n
    · subst heq
      refine ⟨by simp [CallTable.register, hid, hnat], hnat.symm ▸ hn, ?_⟩
      rw [hnat]
      simp [CallTable.register, CallTable.setCall]
    · obtain ⟨href, hhas⟩ := h.key id (hmem.resolve_left heq)
      exact ⟨by simpa [CallTable.register, hid, heq] using href, hhas.mono hle⟩

theorem Inv.delete (h : t.Inv) (hw : t.draws < UInt64.size) (hend : t.Ended id) : (t.delete id).Inv := by
  have hle := le_delete t id
  refine ⟨h.nextID, fun n hn => ?_, fun k hk => ?_, fun g => (h.pcs g).mono hle⟩
  swap
  · obtain ⟨href, hhas⟩ := h.key k (Finset.mem_of_mem_erase hk)
    exact ⟨href, hhas.mono hle⟩
  obtain ⟨hd, hid, hin⟩ := h.call n hn
  refine ⟨hd, hid, ?_⟩
  rcases hin with hin | hin
  · by_cases heq : UInt64.ofNat n = id
    · have hnat : id.toNat = n := heq ▸ toNat_draw hw hd
      exact .inr (hnat ▸ hend.2)
    · exact .inl (Finset.mem_erase.mpr ⟨heq, hin⟩)
  · exact .inr hin

/-! ## `terminate` and `FailAll` -/

theorem Inv.lookup (h : t.Inv) (hl : t.lookup id = some n) : n = id.toNat ∧ t.Has id := by
  unfold CallTable.lookup at hl
  split at hl
  · next hmem =>
    obtain ⟨href, hhas⟩ := h.key id hmem
    cases hl
    exact ⟨href, hhas⟩
  · cases hl

theorem Inv.lookup_none (h : t.Inv) (hhas : t.Has id) (hl : t.lookup id = none) : t.Ended id := by
  refine ⟨hhas, ?_⟩
  obtain ⟨-, -, hin⟩ := h.call _ hhas.2
  refine hin.resolve_left fun hmem => ?_
  rw [UInt64.ofNat_toNat] at hmem
  simp [CallTable.lookup, hmem] at hl

theorem Ended.left (h : t.Ended id) : t.Left id := by
  refine ⟨h.1, fun hs => ?_⟩
  have := h.2
  rw [hs] at this
  cases this

theorem SweepOk.after {w : Sweep E} (h : t.SweepOk w) (hhead : w.rest.head? = some id)
    (hend : ok = true → t.Ended id) (hlost : ok = false → t.Lost w id) : t.SweepOk (w.after ok) := by
  obtain ⟨done, hids, hdone⟩ := h.done
  obtain ⟨rest, hrest⟩ : ∃ rest, w.rest = id :: rest := by
    cases hr : w.rest with
    | nil => rw [hr] at hhead; cases hhead
    | cons x xs => rw [hr] at hhead; cases hhead; exact ⟨xs, rfl⟩
  unfold Sweep.after
  split
  · next hnext =>
    have hid : t.Ended id := by
      cases ok with
      | true => exact hend rfl
      | false => exact (hlost rfl).2 (by simpa using hnext)
    refine ⟨h.has, ⟨done ++ [id], by simp [hids, hrest], fun k hk => ?_⟩, nofun⟩
    rcases List.mem_append.mp hk with hk | hk
    · exact hdone k hk
    · exact List.mem_singleton.mp hk ▸ hid
  · next hnext =>
    have hok : ok = false := by
      cases ok with
      | true => simp at hnext
      | false => rfl
    refine ⟨h.has, ⟨done, hids, hdone⟩, fun _ k hk => ?_⟩
    rw [hhead] at hk
    cases hk
    exact (hlost hok).1

theorem pcOk_resume (id : UInt64)
    (h : ∀ w ∈ sweep, t.SweepOk w ∧ w.rest.head? = some id ∧ (ok = true → t.Ended id) ∧ (ok = false → t.Lost w id)) :
    t.PcOk (resume sweep ok : Pc M E) := by
  cases sweep with
  | none => trivial
  | some w =>
    obtain ⟨hok, hhead, hend, hlost⟩ := h w rfl
    exact hok.after hhead hend hlost

theorem le_enter : Le t (t.enter g id op sweep) := by
  unfold CallTable.enter
  split <;> exact ⟨le_refl _, fun _ _ => .refl _⟩

theorem Inv.enter (h : t.Inv)
    (hs : ∀ w ∈ sweep, t.SweepOk w ∧ w.rest.head? = some id ∧ op = w.op) : (t.enter g id op sweep).Inv := by
  unfold CallTable.enter
  split
  · next hl =>
    refine h.goto (pcOk_resume id fun w hmem => ?_)
    obtain ⟨hok, hhead, -⟩ := hs w hmem
    have hhas : t.Has id := hok.has id (by
      obtain ⟨done, hids, -⟩ := hok.done
      rw [hids]
      exact List.mem_append_right _ (List.mem_of_mem_head? hhead))
    have hend := h.lookup_none hhas hl
    exact ⟨hok, hhead, fun _ => hend, fun _ => ⟨hend.left, fun _ => hend⟩⟩
  · next n hl =>
    obtain ⟨hn, hhas⟩ := h.lookup hl
    exact h.goto ⟨hn, hhas, fun s hmem => hmem, fun w hmem =>
      ⟨(hs w hmem).1, (hs w hmem).2.1, (hs w hmem).2.2, .inl rfl⟩⟩

theorem later_won (hsrc : src ∈ op.sources) (hst : (t.calls n).state = src) :
    Later (t.calls n) { t.calls n with state := op.target, winner := some op } := by
  have hlive := op.source_live hsrc
  have hterm := op.target_terminal
  refine ⟨rfl, id, ?_, fun h => ?_⟩
  · rw [hst]
    cases src with
    | submitted =>
      refine .inr (.inl ⟨rfl, fun heq : op.target = .submitted => ?_⟩)
      rw [heq] at hterm
      cases hterm
    | published => exact .inr (.inr ⟨rfl, hterm⟩)
    | _ => cases hlive
  · rw [hst, hlive] at h
    cases h

theorem later_published (hst : (t.calls n).state = .submitted) :
    Later (t.calls n) { t.calls n with state := .published, published := true } := by
  refine ⟨rfl, id, .inr (.inl ⟨hst, nofun⟩), fun h => ?_⟩
  rw [hst] at h
  cases h

theorem PcOk.lost {rest : List CallState}
    (h : t.PcOk (.trying n id op (src :: rest) sweep)) (hst : (t.calls n).state ≠ src) :
    t.PcOk (.trying n id op rest sweep) := by
  obtain ⟨hn, hhas, hsrc, hw⟩ := h
  refine ⟨hn, hhas, fun s hs => hsrc s (List.mem_cons_of_mem _ hs), fun w hmem => ?_⟩
  obtain ⟨hok, hhead, hop, htried⟩ := hw w hmem
  refine ⟨hok, hhead, hop, .inr ?_⟩
  have hsources := htried.resolve_right fun h => by cases h.1
  subst hn
  cases hsec : w.second with
  | true =>
    -- Its one source is `published`, and the first attempt has found the call past its submission.
    have hleft := hok.second hsec id (by simp [hhead])
    simp only [hop, Sweep.op, hsec, Op.sources, Op.transition, if_true, List.cons.injEq] at hsources
    obtain ⟨rfl, rfl⟩ := hsources
    exact ⟨rfl, hleft, fun _ => ⟨hhas, CallState.terminal_of_ne hleft.2 hst⟩⟩
  | false =>
    simp only [hop, Sweep.op, hsec, Op.sources, Op.transition, Bool.false_eq_true, if_false, List.cons.injEq] at hsources
    obtain ⟨rfl, rfl⟩ := hsources
    exact ⟨rfl, ⟨hhas, hst⟩, fun h => by rw [hsec] at h; cases h⟩

theorem Inv.advance (h : t.Inv) (hw : t.draws < UInt64.size) (hs : t.advance g (t.pc g) = some t') :
    t'.Inv ∧ Le t t' := by
  have hp := h.pcs g
  cases hpc : t.pc g <;> rw [hpc] at hs hp
  case ready | published | terminated | failedAll =>
    cases hs
  case registering n =>
    cases hs
    exact ⟨(h.register hw hp).goto trivial, (le_register t n).draws, (le_register t n).calls⟩
  case publishing n id =>
    simp only [CallTable.advance] at hs
    split at hs
    · next hst =>
      cases hs
      have hl := later_published hst
      exact ⟨(h.setCall hl rfl).goto trivial, (le_setCall hl).draws, (le_setCall hl).calls⟩
    · cases hs
      exact ⟨h.goto trivial, le_refl _, fun _ _ => .refl _⟩
  case trying n id op src sweep =>
    cases src with
    | nil =>
      cases hs
      obtain ⟨-, -, -, hsw⟩ := hp
      refine ⟨h.goto (pcOk_resume id fun w hmem => ?_), le_refl _, fun _ _ => .refl _⟩
      obtain ⟨hok, hhead, hop, htried⟩ := hsw w hmem
      refine ⟨hok, hhead, nofun, fun _ => ?_⟩
      rcases htried with hsources | ⟨-, hlost⟩
      · cases op <;> cases hsources
      · exact hlost
    | cons src rest =>
      simp only [CallTable.advance] at hs
      split at hs
      · next hst =>
        cases hs
        obtain ⟨hn, hhas, hsrc, hsw⟩ := hp
        have hl := later_won (hsrc src (by simp)) hst
        have hle := le_setCall hl
        refine ⟨(h.setCall hl rfl).goto ?_, hle.draws, hle.calls⟩
        refine ⟨hn, ⟨hhas.mono hle, ?_⟩, fun w hmem => ⟨(hsw w hmem).1.mono hle, (hsw w hmem).2.1⟩⟩
        subst hn
        simpa [CallTable.setCall] using op.target_terminal
      · next hst =>
        cases hs
        exact ⟨h.goto (hp.lost hst), le_refl _, fun _ _ => .refl _⟩
  case sending n id op sweep =>
    simp only [CallTable.advance] at hs
    split at hs
    · cases hs
      have hl : Later (t.calls n) { t.calls n with
          resultCh := (t.calls n).resultCh ++ [op.result], sent := (t.calls n).sent ++ [op.result] } :=
        ⟨rfl, fun h => h, .inl rfl, fun _ => ⟨rfl, rfl⟩⟩
      have hle := le_setCall hl
      refine ⟨(h.setCall hl rfl).goto (PcOk.mono (p := .deleting n id sweep) hp hle), hle.draws, hle.calls⟩
    · cases hs
  case deleting n id sweep =>
    cases hs
    obtain ⟨-, hend, hsw⟩ := hp
    have hle := le_delete t id
    refine ⟨(h.delete hw hend).goto (pcOk_resume id fun w hmem => ?_), le_refl _, fun _ _ => .refl _⟩
    exact ⟨(hsw w hmem).1.mono hle, (hsw w hmem).2, fun _ => hend.mono hle, nofun⟩
  case sweeping w =>
    simp only [CallTable.advance] at hs
    split at hs
    · next hrest =>
      cases hs
      obtain ⟨done, hids, hdone⟩ := SweepOk.done hp
      rw [hrest, List.append_nil] at hids
      exact ⟨h.goto (p := .failedAll w.ids) (hids ▸ hdone), le_refl _, fun _ _ => .refl _⟩
    · next id rest hrest =>
      cases hs
      refine ⟨h.enter fun w' hmem => ?_, le_enter⟩
      cases hmem
      exact ⟨hp, by simp [hrest], rfl⟩

/-- **What a step does to the map and the goroutines**, the ID counter not having wrapped. -/
theorem Inv.step {a : Act M E} (h : t.Inv) (hw : t.draws < UInt64.size) (hs : t.step a = some t') : t'.Inv ∧ Le t t' := by
  cases a <;> simp only [CallTable.step] at hs
  case nextID =>
    cases hs
    exact ⟨h.draw, Nat.le_succ _, fun _ _ => .refl _⟩
  case submit g =>
    split at hs
    · cases hs
      refine ⟨h.submit.goto ⟨le_refl _, ?_⟩, (le_fresh t).draws, (le_fresh t).calls⟩
      have hid := h.draw.nextID
      simpa [CallTable.setCall, newCall] using hid
    · cases hs
  case publish g id =>
    split at hs
    · split at hs
      · cases hs
        exact ⟨h.goto trivial, le_refl _, fun _ _ => .refl _⟩
      · next n hl =>
        cases hs
        exact ⟨h.goto (p := .publishing n id) (h.lookup hl), le_refl _, fun _ _ => .refl _⟩
    · cases hs
  case terminate g id op =>
    split at hs
    · cases hs
      exact ⟨h.enter nofun, le_enter⟩
    · cases hs
  case failAll g dispatchedErr notDispatchedErr ids =>
    split at hs
    · next hg =>
      cases hs
      refine ⟨h.goto ⟨fun id hid => (h.key id ?_).2, ⟨[], rfl, nofun⟩, nofun⟩, le_refl _, fun _ _ => .refl _⟩
      rw [← hg.2.2]
      exact List.mem_toFinset.mpr hid
    · cases hs
  case next g => exact h.advance hw hs
  case waitResult n =>
    split at hs
    · cases hs
    · next r rest hch =>
      cases hs
      have hl : Later (t.calls n) { t.calls n with resultCh := rest } :=
        ⟨rfl, id, .inl rfl, fun _ => ⟨rfl, rfl⟩⟩
      exact ⟨h.setCall hl rfl, le_setCall hl⟩

end Steps

/-! ## Results -/

/-- The call a goroutine is about to send a result to, and as which winner. -/
def Pc.sends (n : Nat) : Pc M E → Option (Op M E)
  | .sending m _ op _ => if m = n then some op else none
  | _ => none

/-- **One winner, one result.** A live call has had none and nobody is about to send
one; a call that is over has had its winner's, or has exactly that winner about to
send it into an empty channel. -/
def Answered (c : Call M E) (sends : Nat → Option (Op M E)) : Prop :=
  match c.winner with
  | none => c.state.terminal = false ∧ c.sent = [] ∧ c.resultCh = [] ∧ ∀ g, sends g = none
  | some op =>
    c.state = op.target ∧
      (c.sent = [op.result] ∧ (∀ g, sends g = none) ∨
        c.sent = [] ∧ c.resultCh = [] ∧ ∃ g, sends g = some op ∧ ∀ g', sends g' ≠ none → g' = g)

/-- Whether a call was published, as its state and its winner tell. -/
structure Published (c : Call M E) : Prop where
  yes : c.state = .published → c.published = true
  no : c.state = .submitted → c.published = false
  winner : ∀ op, c.winner = some op →
    (.submitted ∉ op.sources → c.published = true) ∧ (.published ∉ op.sources → c.published = false)

structure Results (t : CallTable M E) : Prop where
  answered : ∀ n, Answered (t.calls n) fun g => (t.pc g).sends n
  published : ∀ n, Published (t.calls n)

section Results

variable {t t' : CallTable M E} {c c' : Call M E} {sends : Nat → Option (Op M E)} {g n : Nat} {id : UInt64}
  {p : Pc M E} {op : Op M E} {sweep : Option (Sweep E)}

theorem Answered.live (h : Answered c sends) (hl : c.state.terminal = false) :
    c.winner = none ∧ c.sent = [] ∧ c.resultCh = [] ∧ ∀ g, sends g = none := by
  unfold Answered at h
  split at h
  · next hw => exact ⟨hw, h.2⟩
  · next op hw =>
    rw [h.1, op.target_terminal] at hl
    cases hl

theorem Answered.ended (h : Answered c sends) (hl : c.state.terminal = true) :
    ∃ op, c.winner = some op ∧ c.state = op.target ∧
      (c.sent = [op.result] ∧ (∀ g, sends g = none) ∨
        c.sent = [] ∧ c.resultCh = [] ∧ ∃ g, sends g = some op ∧ ∀ g', sends g' ≠ none → g' = g) := by
  unfold Answered at h
  split at h
  · rw [h.1] at hl
    cases hl
  · next op hw => exact ⟨op, hw, h⟩

/-- Whoever is about to send finds the channel empty, and is its only sender. -/
theorem Answered.sender (h : Answered c sends) (hs : sends g = some op) :
    c.winner = some op ∧ c.state = op.target ∧ c.sent = [] ∧ c.resultCh = [] ∧ ∀ g', sends g' ≠ none → g' = g := by
  cases hl : c.state.terminal with
  | false =>
    have hnone := (h.live hl).2.2.2 g
    rw [hs] at hnone
    cases hnone
  | true =>
    obtain ⟨op', hw, hst, ⟨-, hnone⟩ | ⟨hsent, hch, g₀, hg₀, huniq⟩⟩ := h.ended hl
    · have := hnone g
      rw [hs] at this
      cases this
    · have hg : g = g₀ := huniq g (by simp [hs])
      subst hg
      have hop : op = op' := by
        rw [hs] at hg₀
        exact Option.some.inj hg₀
      subst hop
      exact ⟨hw, hst, hsent, hch, huniq⟩

@[simp] theorem sends_sending {m : Nat} :
    (Pc.sending m id op sweep).sends n = if m = n then some op else none := rfl

@[simp] theorem sends_deleting {m : Nat} :
    (Pc.deleting m id sweep : Pc M E).sends n = none := rfl

theorem Results.update (h : t.Results) (hother : ∀ m, m ≠ n → p.sends m = (t.pc g).sends m)
    (ha : Answered c fun g' => if g' = g then p.sends n else (t.pc g').sends n) (hp : Published c) :
    ((t.setCall n c).goto g p).Results := by
  have hsends : ∀ m g', (((t.setCall n c).goto g p).pc g').sends m =
      if g' = g then p.sends m else (t.pc g').sends m := by
    intro m g'
    by_cases hg : g' = g
    · subst hg
      simp [CallTable.goto]
    · simp [CallTable.goto, CallTable.setCall, hg]
  constructor <;> intro m <;> by_cases hm : m = n
  · subst hm
    simp only [hsends]
    simpa [CallTable.setCall, CallTable.goto] using ha
  · have hsame : (fun g' => (((t.setCall n c).goto g p).pc g').sends m) = fun g' => (t.pc g').sends m := by
      funext g'
      rw [hsends]
      split
      · next hg => rw [hg, hother m hm]
      · rfl
    rw [hsame]
    simpa [CallTable.setCall, CallTable.goto, hm] using h.answered m
  · subst hm
    simpa [CallTable.setCall, CallTable.goto] using hp
  · simpa [CallTable.setCall, CallTable.goto, hm] using h.published m

theorem Results.quiet (h : t.Results) (hold : ∀ n, (t.pc g).sends n = none) (hnew : ∀ n, p.sends n = none)
    (ha : ∀ sends, Answered (t.calls n) sends → Answered c sends) (hp : Published c) :
    ((t.setCall n c).goto g p).Results := by
  refine h.update (fun m _ => by rw [hold, hnew]) (ha _ ?_) hp
  have hsame : (fun g' => if g' = g then p.sends n else (t.pc g').sends n) = fun g' => (t.pc g').sends n := by
    funext g'
    split
    · next hg => rw [hnew, hg, hold]
    · rfl
  rw [hsame]
  exact h.answered n

theorem Results.goto (h : t.Results) (hold : ∀ n, (t.pc g).sends n = none) (hnew : ∀ n, p.sends n = none) :
    (t.goto g p).Results := by
  have hsame : t.setCall 0 (t.calls 0) = t := by simp [CallTable.setCall]
  have := h.quiet (n := 0) hold hnew (fun _ => id) (h.published 0)
  rwa [hsame] at this

theorem Results.won (h : t.Results) {src : CallState} (hsrc : src ∈ op.sources)
    (hst : (t.calls n).state = src) (hold : ∀ n, (t.pc g).sends n = none) :
    ((t.setCall n { t.calls n with state := op.target, winner := some op }).goto g (.sending n id op sweep)).Results := by
  have hlive := op.source_live hsrc
  have hterm := op.target_terminal
  obtain ⟨-, hsent, hch, hnone⟩ := (h.answered n).live (hst ▸ hlive)
  refine h.update (fun m hm => by simp [hold, Ne.symm hm]) ⟨rfl, .inr ⟨hsent, hch, g, by simp, fun g' hg' => ?_⟩⟩ ?_
  · by_contra hne
    simp [hne, hnone] at hg'
  · refine ⟨fun heq : op.target = _ => ?_, fun heq : op.target = _ => ?_, fun op' hop => ?_⟩
    · rw [heq] at hterm
      cases hterm
    · rw [heq] at hterm
      cases hterm
    · cases hop
      refine ⟨fun hns => (h.published n).yes ?_, fun hnp => (h.published n).no ?_⟩ <;> rw [hst]
      all_goals cases src <;> first | rfl | contradiction

theorem Results.sent (h : t.Results) (hpc : t.pc g = .sending n id op sweep) :
    ((t.setCall n { t.calls n with
      resultCh := (t.calls n).resultCh ++ [op.result], sent := (t.calls n).sent ++ [op.result] }).goto g
      (.deleting n id sweep)).Results := by
  have hsend : (t.pc g).sends n = some op := by simp [hpc]
  obtain ⟨hw, hst, hsent, hch, huniq⟩ := (h.answered n).sender hsend
  refine h.update (fun m hm => by simp [hpc, Ne.symm hm]) ?_
    ⟨(h.published n).yes, (h.published n).no, (h.published n).winner⟩
  simp only [Answered, hw, hsent]
  refine ⟨hst, .inl ⟨rfl, fun g' => ?_⟩⟩
  split
  · rfl
  · next hne => exact not_not.mp fun hs => hne (huniq g' hs)

theorem sends_free (h : p.free = true) : p.sends n = none := by
  cases p <;> first | rfl | cases h

theorem sends_resume {ok : Bool} : (resume sweep ok : Pc M E).sends n = none := by
  cases sweep <;> rfl

theorem Results.enter (h : t.Results) (hold : ∀ n, (t.pc g).sends n = none) :
    (t.enter g id op sweep).Results := by
  unfold CallTable.enter
  split
  · exact h.goto hold fun _ => sends_resume
  · exact h.goto hold fun _ => rfl

theorem Results.advance (h : t.Results) (hp : t.PcOk (t.pc g)) (hs : t.advance g (t.pc g) = some t') : t'.Results := by
  cases hpc : t.pc g <;> rw [hpc] at hs hp
  case ready | published | terminated | failedAll =>
    cases hs
  case registering n =>
    cases hs
    have hq := h.quiet (n := n) (p := .ready) (g := g) (c := { t.calls n with registered := true })
      (fun _ => by rw [hpc]; rfl) (fun _ => rfl) (fun _ ha => ha) ⟨(h.published n).yes, (h.published n).no, (h.published n).winner⟩
    exact ⟨hq.answered, hq.published⟩
  case publishing n id =>
    simp only [CallTable.advance] at hs
    split at hs
    · next hst =>
      cases hs
      refine h.quiet (fun _ => by rw [hpc]; rfl) (fun _ => rfl) (fun sends ha => ?_) ⟨fun _ => rfl, nofun, fun op hop => ?_⟩
      · have hl := ha.live (by rw [hst]; rfl)
        simp only [Answered, hl.1]
        exact ⟨rfl, hl.2⟩
      · have hl := (h.answered n).live (by rw [hst]; rfl)
        rw [hl.1] at hop
        cases hop
    · cases hs
      exact h.goto (fun _ => by rw [hpc]; rfl) fun _ => rfl
  case trying n id op src sweep =>
    cases src with
    | nil =>
      cases hs
      exact h.goto (fun _ => by rw [hpc]; rfl) fun _ => sends_resume
    | cons src rest =>
      simp only [CallTable.advance] at hs
      split at hs
      · next hst =>
        cases hs
        exact h.won (hp.2.2.1 src (by simp)) hst fun _ => by rw [hpc]; rfl
      · cases hs
        exact h.goto (fun _ => by rw [hpc]; rfl) fun _ => rfl
  case sending n id op sweep =>
    simp only [CallTable.advance] at hs
    split at hs
    · cases hs
      exact h.sent hpc
    · cases hs
  case deleting n id sweep =>
    cases hs
    have hg := h.goto (p := resume sweep true) (g := g) (fun _ => by rw [hpc]; rfl) fun _ => sends_resume
    exact ⟨hg.answered, hg.published⟩
  case sweeping w =>
    simp only [CallTable.advance] at hs
    split at hs
    · cases hs
      exact h.goto (fun _ => by rw [hpc]; rfl) fun _ => rfl
    · cases hs
      exact h.enter fun _ => by rw [hpc]; rfl

theorem Inv.undrawn (h : t.Inv) (hn : t.draws < n) (g : Nat) : (t.pc g).sends n = none := by
  have hp := h.pcs g
  cases hpc : t.pc g with
  | sending m id op sweep =>
    rw [hpc] at hp
    have hm : m ≠ n := by
      have := hp.2.1.1.1
      rw [← hp.1] at this
      omega
    simp [hm]
  | _ => rfl

theorem Results.step {a : Act M E} (h : t.Results) (hi : t.Inv) (hs : t.step a = some t') : t'.Results := by
  cases a <;> simp only [CallTable.step] at hs
  case nextID =>
    cases hs
    exact ⟨h.answered, h.published⟩
  case submit g =>
    split at hs
    · next hg =>
      cases hs
      have hd : t.draw.Results := ⟨h.answered, h.published⟩
      refine hd.update (fun m _ => (sends_free hg).symm) ⟨rfl, rfl, rfl, fun g' => ?_⟩ ⟨nofun, fun _ => rfl, nofun⟩
      by_cases hgg : g' = g
      · simp only [hgg, if_true]
        rfl
      · simp only [hgg, if_false]
        exact hi.undrawn (Nat.lt_succ_self _) g'
    · cases hs
  case publish g id =>
    split at hs
    · next hg =>
      split at hs <;> cases hs
      all_goals exact h.goto (fun _ => sends_free hg) fun _ => rfl
    · cases hs
  case terminate g id op =>
    split at hs
    · next hg =>
      cases hs
      exact h.enter fun _ => sends_free hg.1
    · cases hs
  case failAll g dispatchedErr notDispatchedErr ids =>
    split at hs
    · next hg =>
      cases hs
      exact h.goto (fun _ => sends_free hg.1) fun _ => rfl
    · cases hs
  case next g => exact h.advance (hi.pcs g) hs
  case waitResult n =>
    split at hs
    · cases hs
    · next r rest hch =>
      cases hs
      refine ⟨fun m => ?_, fun m => ?_⟩ <;> by_cases hm : m = n
      · subst hm
        have ha := h.answered m
        simp only [CallTable.setCall, Function.update_self, Answered] at ha ⊢
        split at ha
        · simp [hch] at ha
        · next op hw => exact ⟨ha.1, .inl (ha.2.resolve_right fun hnil => by simp [hch] at hnil)⟩
      · simpa [CallTable.setCall, hm] using h.answered m
      · subst hm
        simpa [CallTable.setCall] using
          (⟨(h.published m).yes, (h.published m).no, (h.published m).winner⟩ :
            Published { t.calls m with resultCh := rest })
      · simpa [CallTable.setCall, hm] using h.published m

end Results

/-! ## Runs -/

section Runs

open Machine

variable {r t u : CallTable M E} {g n : Nat} {id : UInt64} {sweep : Option (Sweep E)} {a : Act M E}

theorem inv_start : (start : CallTable M E).Inv := ⟨rfl, nofun, nofun, fun _ => trivial⟩

theorem results_start : (start : CallTable M E).Results :=
  ⟨fun _ => ⟨rfl, rfl, rfl, fun _ => rfl⟩, fun _ => ⟨nofun, fun _ => rfl, nofun⟩⟩

/-- What is read off a step from outside: at most one goroutine moves, and one that
returns true from `Publish` has just taken its call from `submitted`. -/
structure Stepped (t t' : CallTable M E) : Prop where
  draws : t.draws ≤ t'.draws
  pc : t'.pc = t.pc ∨ ∃ g p, t'.pc = Function.update t.pc g p ∧
    ∀ id, p = .published id true → ∃ n, t.pc g = .publishing n id ∧ (t.calls n).state = .submitted

theorem Stepped.goto {t' : CallTable M E} {p : Pc M E} (hd : t.draws ≤ t'.draws) (hpc : t'.pc = t.pc)
    (hp : ∀ id, p ≠ .published id true) : Stepped t (t'.goto g p) :=
  ⟨hd, .inr ⟨g, p, by rw [← hpc]; rfl, fun id heq => absurd heq (hp id)⟩⟩

theorem resume_ne {ok : Bool} (id : UInt64) : (resume sweep ok : Pc M E) ≠ .published id true := by
  cases sweep <;> nofun

theorem Stepped.enter {op : Op M E} : Stepped t (t.enter g id op sweep) := by
  unfold CallTable.enter
  split
  · exact .goto (le_refl _) rfl resume_ne
  · exact .goto (le_refl _) rfl nofun

theorem Stepped.advance (hs : t.advance g (t.pc g) = some u) : Stepped t u := by
  cases hpc : t.pc g <;> rw [hpc] at hs
  case ready | published | terminated | failedAll =>
    cases hs
  case registering n =>
    cases hs
    exact .goto (le_refl _) rfl nofun
  case publishing n id =>
    simp only [CallTable.advance] at hs
    split at hs
    · next hst =>
      cases hs
      refine ⟨le_refl _, .inr ⟨g, _, rfl, fun id' heq => ?_⟩⟩
      cases heq
      exact ⟨n, hpc, hst⟩
    · cases hs
      exact .goto (le_refl _) rfl nofun
  case trying n id op src sweep =>
    cases src with
    | nil =>
      cases hs
      exact .goto (le_refl _) rfl resume_ne
    | cons src rest =>
      simp only [CallTable.advance] at hs
      split at hs <;> cases hs <;> exact .goto (le_refl _) rfl nofun
  case sending n id op sweep =>
    obtain ⟨-, ⟨⟩⟩ := guard_some hs
    exact .goto (le_refl _) rfl nofun
  case deleting n id sweep =>
    cases hs
    exact .goto (le_refl _) rfl resume_ne
  case sweeping w =>
    simp only [CallTable.advance] at hs
    split at hs <;> cases hs
    · exact .goto (le_refl _) rfl nofun
    · exact .enter

theorem stepped (hs : t.step a = some u) : Stepped t u := by
  cases a with
  | nextID =>
    cases hs
    exact ⟨Nat.le_succ _, .inl rfl⟩
  | submit g =>
    obtain ⟨-, ⟨⟩⟩ := guard_some hs
    exact .goto (Nat.le_succ _) rfl nofun
  | publish g id =>
    obtain ⟨-, hs⟩ := guard_some hs
    split at hs <;> cases hs <;> exact .goto (le_refl _) rfl nofun
  | terminate g id op =>
    obtain ⟨-, ⟨⟩⟩ := guard_some hs
    exact .enter
  | failAll g dispatchedErr notDispatchedErr ids =>
    obtain ⟨-, ⟨⟩⟩ := guard_some hs
    exact .goto (le_refl _) rfl nofun
  | next g => exact .advance hs
  | waitResult n =>
    simp only [CallTable.step] at hs
    split at hs <;> cases hs
    exact ⟨le_refl _, .inl rfl⟩

theorem reach_inv (h : Reach step Any start t) (hw : t.draws < UInt64.size) : t.Inv ∧ t.Results := by
  induction h with
  | refl => exact ⟨inv_start, results_start⟩
  | tail _ _ hs ih =>
    have hw' := (stepped hs).draws.trans_lt hw
    obtain ⟨hi, hr⟩ := ih hw'
    exact ⟨(hi.step hw' hs).1, hr.step hi hs⟩

theorem reach_le (hr : r.Inv) (h : Reach step Any r t) (hw : t.draws < UInt64.size) : t.Inv ∧ Le r t := by
  induction h with
  | refl => exact ⟨hr, .refl r⟩
  | tail _ _ hs ih =>
    have hw' := (stepped hs).draws.trans_lt hw
    obtain ⟨hi, hle⟩ := ih hw'
    obtain ⟨hi', hle'⟩ := hi.step hw' hs
    exact ⟨hi', hle.trans hle'⟩

theorem draws_reach (h : Reach step Any r t) : r.draws ≤ t.draws := by
  induction h with
  | refl => exact le_refl _
  | tail _ _ hs ih => exact ih.trans (stepped hs).draws

theorem publish_true (hs : u.step a = some t) (hold : u.pc g ≠ .published id true)
    (hnew : t.pc g = .published id true) : ∃ n, u.pc g = .publishing n id ∧ (u.calls n).state = .submitted := by
  rcases (stepped hs).pc with hpc | ⟨g', p, hpc, hp⟩ <;> rw [hpc] at hnew
  · exact absurd hnew hold
  by_cases hg : g = g'
  · subst hg
    rw [Function.update_self] at hnew
    exact hp id hnew
  · rw [Function.update_of_ne hg] at hnew
    exact absurd hnew hold

/-- The table in a state of a run, seen with the states `r` before it. -/
structure Sound (t : CallTable M E) : Prop where
  /-- A call's state moves forward, and never from a terminal one. -/
  order : ∀ r n, Reach step Any start r → Reach step Any r t → (r.calls n).registered = true →
    (r.calls n).state.Follows (t.calls n).state
  result : ∀ n, Answered (t.calls n) fun g => (t.pc g).sends n
  unblocked : ∀ g n, (t.pc g).sends n ≠ none → (t.step (.next g)).isSome
  /-- `Complete`, `CompleteMsg`, `Fail` and `OutcomeUnknown` win published calls only. -/
  needsPublished : ∀ n op, (t.calls n).winner = some op → op.dispatched = true → (t.calls n).published = true
  /-- A `Publish` that returns with this step, of a call that was over before. -/
  publishLost : ∀ r u a g id ok n, Reach step Any start r → Reach step Any r u → u.step a = some t →
    u.pc g ≠ .published id ok → t.pc g = .published id ok →
    (r.calls n).registered = true → (r.calls n).id = id → (r.calls n).state.terminal = true → ok = false
  notDispatched : ∀ n err, (t.calls n).winner = some (.failAllNotDispatched err) → (t.calls n).published = false
  ids : ∀ m n, (t.calls m).registered = true → (t.calls n).registered = true → (t.calls m).id = (t.calls n).id → m = n
  /-- A `FailAll` begun in `r` has returned: every call it found in the map is over. -/
  failAll : ∀ r g dispatchedErr notDispatchedErr ids, Reach step Any start r → Reach step Any r t →
    (r.step (.failAll g dispatchedErr notDispatchedErr ids)).isSome → t.pc g = .failedAll ids →
    ∀ id n, r.lookup id = some n → (t.calls n).state.terminal = true

theorem Inv.eq_toNat (h : t.Inv) (hw : t.draws < UInt64.size) (hr : (t.calls n).registered = true)
    (hid : (t.calls n).id = id) : n = id.toNat := by
  obtain ⟨hn, hid', -⟩ := h.call n hr
  rw [← hid, hid', toNat_draw hw hn]

/-- **The call table, in every interleaving**, as long as the 64 bits of the ID counter last. -/
theorem sound_reach (h : Reach step Any start t) (hw : t.draws < UInt64.size) : t.Sound := by
  obtain ⟨hi, hres⟩ := reach_inv h hw
  have hbefore : ∀ r, Reach step Any start r → Reach step Any r t → r.Inv ∧ Le r t := by
    intro r hr hrt
    have hri := (reach_inv hr ((draws_reach hrt).trans_lt hw)).1
    exact ⟨hri, (reach_le hri hrt hw).2⟩
  refine ⟨?_, hres.answered, ?_, ?_, ?_, ?_, ?_, ?_⟩
  · intro r n hr hrt hreg
    obtain ⟨hri, hle⟩ := hbefore r hr hrt
    exact (hle.calls n (hri.call n hreg).1).follows
  · intro g n hs
    obtain ⟨op, hop⟩ := Option.ne_none_iff_exists'.mp hs
    obtain ⟨-, -, -, hch, -⟩ := (hres.answered n).sender hop
    cases hpc : t.pc g with
    | sending m id op' sweep =>
      rw [hpc, sends_sending] at hs
      have hm : m = n := by
        by_contra hne
        simp [hne] at hs
      subst hm
      simp [CallTable.step, CallTable.advance, hpc, hch]
    | _ =>
      rw [hpc] at hs
      exact absurd rfl hs
  · intro n op hwin hd
    exact ((hres.published n).winner op hwin).1 (Op.submitted_of_dispatched hd)
  · intro r u a g id ok n hr hru hs hold hnew hreg hid hend
    cases ok with
    | false => rfl
    | true =>
      obtain ⟨m, hpc, hst⟩ := publish_true hs hold hnew
      have hwu := (stepped hs).draws.trans_lt hw
      have hri := (reach_inv hr ((draws_reach hru).trans_lt hwu)).1
      obtain ⟨hui, hle⟩ := reach_le hri hru hwu
      have hm : m = n := by
        have hp := hui.pcs g
        rw [hpc] at hp
        rw [hp.1, hri.eq_toNat ((draws_reach hru).trans_lt hwu) hreg hid]
      have hfol := (hle.calls n (hri.call n hreg).1).follows.terminal hend
      rw [← hm, hst] at hfol
      cases hfol
  · intro n err hwin
    exact ((hres.published n).winner _ hwin).2 (by simp [Op.sources, Op.transition])
  · intro m n hm hn hid
    exact (hi.eq_toNat hw hm hid).trans (hi.eq_toNat hw hn rfl).symm
  · intro r g dispatchedErr notDispatchedErr ids hr hrt hstep hpc id n hl
    obtain ⟨hri, hle⟩ := hbefore r hr hrt
    obtain ⟨rfl, -⟩ := hri.lookup hl
    have hmem : id ∈ ids := by
      have hin : id ∈ r.ids := by
        by_contra hout
        simp [CallTable.lookup, hout] at hl
      simp only [CallTable.step] at hstep
      split at hstep
      · next hg =>
        rw [← hg.2.2] at hin
        exact List.mem_toFinset.mp hin
      · cases hstep
    have hp := hi.pcs g
    rw [hpc] at hp
    exact (hp id hmem).2

def sample : CallTable Nat Nat :=
  (run step start [.submit 0, .next 0, .publish 0 1, .next 0, .submit 1, .next 1, .terminate 2 1 .cancel, .next 2,
    .next 2, .failAll 3 7 8 [1, 2], .next 3, .next 2, .next 3, .next 2, .next 3, .next 3, .next 3, .next 3, .next 3,
    .next 3, .next 3]).get (by decide +kernel)

theorem sound_sample :
    sample.Sound ∧ (sample.calls 1).winner = some .cancel ∧
      (sample.calls 2).winner = some (.failAllNotDispatched 8) ∧ sample.pc 3 = .failedAll [1, 2] :=
  ⟨sound_reach (Reach.of_run (Option.some_get _).symm) (by decide +kernel), by decide +kernel, by decide +kernel,
    by decide +kernel⟩

/-! ## The counter's wrap -/

/-- The table after `k` draws for streams. -/
def drawn (t : CallTable M E) (k : Nat) : CallTable M E :=
  { t with nextID := t.nextID + UInt64.ofNat k, draws := t.draws + k }

theorem reach_drawn (k : Nat) : Reach step Any t (t.drawn k) := by
  induction k with
  | zero =>
    have hzero : t.drawn 0 = t := by
      cases t
      simp [drawn]
    rw [hzero]
    exact .refl
  | succ k ih =>
    refine .tail (a := .nextID) ih trivial ?_
    simp only [CallTable.step, CallTable.draw, drawn, UInt64.ofNat_add, Option.some.injEq]
    rw [UInt64.add_assoc, Nat.add_assoc]
    rfl

def firstCall : CallTable Nat Nat := (run step start [.submit 0, .next 0]).get (by decide +kernel)

def wrapped : CallTable Nat Nat :=
  (run step (firstCall.drawn (UInt64.size - 1)) [.submit 0, .next 0]).get (by decide +kernel)

/-- A call, as many draws as there are IDs less one, and the next call has the first one's ID. -/
theorem id_reused : Reach step Any start wrapped ∧
    (wrapped.calls 1).registered = true ∧ (wrapped.calls (UInt64.size + 1)).registered = true ∧
    (wrapped.calls 1).id = (wrapped.calls (UInt64.size + 1)).id := by
  have hfirst : Reach step Any start firstCall := .of_run (Option.some_get _).symm
  have hlast : Reach step Any (firstCall.drawn (UInt64.size - 1)) wrapped := .of_run (Option.some_get _).symm
  exact ⟨(hfirst.trans (reach_drawn _)).trans hlast, by decide +kernel, by decide +kernel, by decide +kernel⟩

end Runs

end CallTable

end Styx
