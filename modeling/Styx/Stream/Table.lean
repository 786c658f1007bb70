/-
The stream table of one connection: its streams by call ID, the arming queue with
its one dispatcher, the emitter with its bounded queue, and the response
obligations of the accepting side.

A call ID is opened once in a session: the opener takes each from a counter
(`NextID`), and the lease table's own comments rest on it. `used` records them.
-/
import Mathlib.Data.Finset.Card
import Styx.Rpc.Dispatch
import Styx.Stream.Step

namespace Styx

inductive StreamLane
  | data
  | life
  deriving DecidableEq

/-- A frame the transport has accepted. -/
structure Sent where
  lane : StreamLane
  callID : UInt64
  frame : StreamFrame
  deriving DecidableEq

structure TableConfig where
  side : StreamSide
  maxOpen : Nat
  policy : ChunkPolicy
  deriving DecidableEq

def TableConfig.emitCap (cfg : TableConfig) : Nat := 2 * cfg.maxOpen + 1

def TableConfig.emitReserve (cfg : TableConfig) : Nat := cfg.maxOpen

structure Table where
  /-- Every stream admitted so far; those still in the map are `live`. -/
  streams : UInt64 → Option Stream
  live : Finset UInt64
  used : Finset UInt64
  obligations : Finset UInt64
  armQueue : List UInt64
  dispatcher : Option UInt64
  emitCh : List EmitJob
  /-- The emitter's job, and whether its `Send` has returned. -/
  emitter : Option (EmitJob × Bool)
  drained : Bool
  closed : Bool
  fatal : Bool

namespace Table

def empty : Table := ⟨fun _ => none, ∅, ∅, ∅, [], none, [], none, false, false, false⟩

def hasLiveStream (t : Table) (id : UInt64) : Bool :=
  id ∈ t.live && (t.streams id).any Stream.isLive

def setStream (t : Table) (id : UInt64) (s : Stream) : Table :=
  { t with streams := Function.update t.streams id (some s) }

/-! ## The emitter's queue -/

def room (cfg : TableConfig) (t : Table) : Bool := t.emitCh.length < cfg.emitCap

def enqueueEmit (cfg : TableConfig) (t : Table) (job : EmitJob) : Table :=
  if job.reject ∧ cfg.emitCap - cfg.emitReserve ≤ t.emitCh.length then t
  else if t.room cfg then { t with emitCh := t.emitCh ++ [job] }
  else t

/-- A stream refused, with no state made for it. -/
def emitReject (cfg : TableConfig) (t : Table) (id : UInt64) (code : UInt32) : Table :=
  t.enqueueEmit cfg ⟨id, ⟨code, [], []⟩, true, false⟩

def closeObligation (t : Table) (id : UInt64) : Table := { t with obligations := t.obligations.erase id }

def failIfConnLive (t : Table) : Table := if t.closed then t else { t with fatal := true }

/-! ## Admission -/

/-- `admitStream`; the opener's side has no obligation sink. -/
def admitStream (cfg : TableConfig) (t : Table) (id : UInt64) (s : Stream) : Table :=
  { t.setStream id s with
    live := insert id t.live
    used := insert id t.used
    obligations := if cfg.side = .server then insert id t.obligations else t.obligations }

inductive OpenRefusal
  | tableClosed
  | duplicate
  | creditsExceedMax
  | deadlineRequired
  | atCapacity
  deriving DecidableEq

def admission (cfg : TableConfig) (t : Table) (id : UInt64) (credits : Nat) (budget : Int) : Option OpenRefusal :=
  if t.closed then some .tableClosed
  else if id ∈ t.live then some .duplicate
  else if defaultStreamCredit < credits then some .creditsExceedMax
  else if budget ≤ 0 then some .deadlineRequired
  else if cfg.maxOpen ≤ t.live.card then some .atCapacity
  else none

def streamOpenRejectCode : OpenRefusal → UInt32
  | .atCapacity => statusCodeStreamBackpressure
  | _ => statusCodeStreamIncompatible

/-- An accepted stream: published, and only then watched. -/
def acceptedStream (credits : Nat) (shape : StreamShape) (payload : Bytes) : Stream :=
  { newStream .server ⟨credits, shape, if shape = .serverStreaming then payload else []⟩ with
    phase := .published, watcherStarted := true }

/-- `onStreamOpen` up to the handler's launch; `reg` is the registered shape. -/
def onStreamOpen (cfg : TableConfig) (t : Table) (id : UInt64) (reg : Option StreamShape) (control : Nat)
    (budget : Int) (payload : Bytes) : Table × Bool :=
  if control >>> 32 ≠ 0 then (t, false)
  else if t.hasLiveStream id then (t, false)
  else
    match reg with
    | none => ({ t.emitReject cfg id statusCodeMethodNotFound with used := insert id t.used }, true)
    | some shape =>
      let credits := if control = 0 then defaultStreamCredit else control
      match t.admission cfg id credits budget with
      | some .duplicate => (t, false)
      | some e => ({ t.emitReject cfg id (streamOpenRejectCode e) with used := insert id t.used }, true)
      | none => (t.admitStream cfg id (acceptedStream credits shape payload), true)

/-- `Dispatch` and `DispatchTeardownCancel`: a call not in the map is discarded. -/
def dispatch (cfg : TableConfig) (t : Table) (id : UInt64) (f : StreamFrame) : Table × Bool :=
  let t : Table := { t with drained := false }
  if id ∈ t.live then
    match t.streams id with
    | none => (t, true)
    | some s => (t.setStream id (s.dispatch cfg.policy f).1, (s.dispatch cfg.policy f).2)
  else (t, true)

/-! ## Steps -/

def applyEffect (id : UInt64) (t : Table) : Effect → Table
  | .data _ | .life _ => t
  | .appendArm => { t with armQueue := t.armQueue ++ [id] }
  | .closeObligation => t.closeObligation id
  | .emit status keepObligation => { t with emitCh := t.emitCh ++ [⟨id, status, false, keepObligation⟩] }
  | .failConn => t.failIfConnLive
  | .remove => { t with live := t.live.erase id }

def sentOf (id : UInt64) : Effect → Option Sent
  | .data f => some ⟨.data, id, f⟩
  | .life f => some ⟨.life, id, f⟩
  | _ => none

/-- The dispatcher takes streams one at a time from the arming queue, and the fan-out
comes only with closing. -/
def enabled (t : Table) (id : UInt64) : Stream.Act → Bool
  | .acker .pop => t.dispatcher = none && t.armQueue.head? = some id
  | .acker .reArm => true
  | .acker _ => t.dispatcher = some id
  | .ending .failAll => t.closed
  | _ => true

def moveDispatcher (t : Table) (id : UInt64) (s : Stream) : Stream.Act → Table
  | .acker .pop => { t with armQueue := t.armQueue.tail, dispatcher := some id }
  | .acker .reArm => t
  | .acker _ => if s.acker = .idle then { t with dispatcher := none } else t
  | _ => t

inductive Act
  | openClient (id : UInt64) (cfg : StreamConfig) (budget : Int)
  | onStreamOpen (id : UInt64) (reg : Option StreamShape) (control : Nat) (budget : Int) (payload : Bytes)
  | inbound (id : UInt64) (f : StreamFrame)
  | stream (id : UInt64) (a : Stream.Act)
  | readerDrained
  /-- One stream of `ReaderDrained`'s sweep. -/
  | sweep (id : UInt64)
  | emitTake
  | emitSend (ok : Bool)
  | emitSettle
  | markClosing
  deriving DecidableEq

/-- The clamp `openStreamByID` puts on a proposed credit. -/
def proposed (credits : Nat) : Nat :=
  if credits = 0 ∨ defaultStreamCredit < credits then defaultStreamCredit else credits

/-! The emitter takes a job, sends it, and closes the obligation unless the job keeps
it. What the `Send` answers is not looked at. -/

def emitTake (t : Table) : Option Table :=
  match t.emitCh, t.emitter with
  | job :: rest, none => some { t with emitCh := rest, emitter := some (job, false) }
  | _, _ => none

def emitSend (t : Table) (ok : Bool) : Option (Table × List Sent) :=
  match t.emitter with
  | some (job, false) =>
    some ({ t with emitter := some (job, true) },
      if ok then [⟨.data, job.callID, .streamErr job.status⟩] else [])
  | _ => none

def emitSettle (t : Table) : Option Table :=
  match t.emitter with
  | some (job, true) =>
    let t : Table := { t with emitter := none }
    some (if job.keepObligation then t else t.closeObligation job.callID)
  | _ => none

def streamStep (cfg : TableConfig) (t : Table) (id : UInt64) (a : Stream.Act) : Option (Table × List Sent) :=
  match t.streams id with
  | none => none
  | some s =>
    if t.enabled id a then
      match s.step ⟨cfg.policy, t.room cfg, t.drained⟩ a with
      | none => none
      | some (s', effects) =>
        some (effects.foldl (applyEffect id) ((t.setStream id s').moveDispatcher id s' a),
          effects.filterMap (sentOf id))
    else none

def sweepStep (t : Table) (id : UInt64) : Option (Table × List Sent) :=
  match t.streams id with
  | none => none
  | some s =>
    if id ∈ t.live ∧ s.isLive ∧ s.recvCredit.pending then
      some (s.arm.2.foldl (applyEffect id) (t.setStream id s.arm.1), [])
    else none

/-- One step, and the frames it publishes. -/
def step (cfg : TableConfig) (t : Table) : Act → Option (Table × List Sent)
  | .openClient id scfg budget =>
    let scfg : StreamConfig := { scfg with credits := proposed scfg.credits }
    if cfg.side = .client ∧ id ∉ t.used ∧ t.admission cfg id scfg.credits budget = none then
      some (t.admitStream cfg id (newStream .client scfg), [])
    else none
  | .onStreamOpen id reg control budget payload =>
    if cfg.side = .server ∧ id ∉ t.used then some ((t.onStreamOpen cfg id reg control budget payload).1, []) else none
  | .inbound id f => some ((t.dispatch cfg id f).1, [])
  | .stream id a => t.streamStep cfg id a
  | .readerDrained => some ({ t with drained := true }, [])
  | .sweep id => t.sweepStep id
  | .markClosing => some ({ t with closed := true }, [])
  | .emitTake => t.emitTake.map (·, [])
  | .emitSend ok => t.emitSend ok
  | .emitSettle => t.emitSettle.map (·, [])

/-! ## What a stream's step does to the table -/

def jobOf (id : UInt64) : Effect → Option EmitJob
  | .emit status keepObligation => some ⟨id, status, false, keepObligation⟩
  | _ => none

section Effects

variable {id : UInt64} {effects : List Effect} {t : Table}

/-- What no effect changes. -/
structure Frame (t t' : Table) : Prop where
  streams : t'.streams = t.streams
  used : t'.used = t.used
  emitter : t'.emitter = t.emitter
  drained : t'.drained = t.drained
  closed : t'.closed = t.closed

theorem Frame.refl (t : Table) : Frame t t := ⟨rfl, rfl, rfl, rfl, rfl⟩

theorem Frame.trans {t₁ t₂ t₃ : Table} (h₁ : Frame t₁ t₂) (h₂ : Frame t₂ t₃) : Frame t₁ t₃ :=
  ⟨h₂.streams.trans h₁.streams, h₂.used.trans h₁.used, h₂.emitter.trans h₁.emitter,
    h₂.drained.trans h₁.drained, h₂.closed.trans h₁.closed⟩

theorem failIfConnLive_eq (t : Table) : ∃ fatal, t.failIfConnLive = { t with fatal } := by
  unfold failIfConnLive
  split
  · exact ⟨t.fatal, rfl⟩
  · exact ⟨true, rfl⟩

theorem applyEffect_frame (x : Effect) : Frame t (t.applyEffect id x) := by
  cases x with
  | failConn =>
    obtain ⟨fatal, hfatal⟩ := failIfConnLive_eq t
    simp only [applyEffect, hfatal]
    exact ⟨rfl, rfl, rfl, rfl, rfl⟩
  | _ => exact ⟨rfl, rfl, rfl, rfl, rfl⟩

theorem effects_frame : Frame t (effects.foldl (applyEffect id) t) := by
  induction effects generalizing t with
  | nil => exact .refl t
  | cons x xs ih => exact (applyEffect_frame x).trans ih

theorem effects_obligations : (effects.foldl (applyEffect id) t).obligations =
    if .closeObligation ∈ effects then t.obligations.erase id else t.obligations := by
  induction effects generalizing t with
  | nil => simp
  | cons x xs ih =>
    rw [List.foldl_cons, ih]
    cases x with
    | closeObligation => simp [applyEffect, closeObligation]
    | failConn =>
      obtain ⟨fatal, hfatal⟩ := failIfConnLive_eq t
      simp [applyEffect, hfatal]
    | _ => simp [applyEffect]

theorem effects_live : (effects.foldl (applyEffect id) t).live =
    if .remove ∈ effects then t.live.erase id else t.live := by
  induction effects generalizing t with
  | nil => simp
  | cons x xs ih =>
    rw [List.foldl_cons, ih]
    cases x with
    | remove => simp [applyEffect]
    | failConn =>
      obtain ⟨fatal, hfatal⟩ := failIfConnLive_eq t
      simp [applyEffect, hfatal]
    | _ => simp [applyEffect, closeObligation]

theorem effects_emitCh : (effects.foldl (applyEffect id) t).emitCh = t.emitCh ++ effects.filterMap (jobOf id) := by
  induction effects generalizing t with
  | nil => simp
  | cons x xs ih =>
    rw [List.foldl_cons, ih]
    cases x with
    | emit status keep => simp [applyEffect, jobOf]
    | failConn =>
      obtain ⟨fatal, hfatal⟩ := failIfConnLive_eq t
      simp [applyEffect, hfatal, List.filterMap_cons, jobOf]
    | _ => simp [applyEffect, closeObligation, List.filterMap_cons, jobOf]

theorem effects_fatal (hc : t.closed = false) (hf : (effects.foldl (applyEffect id) t).fatal = false) :
    t.fatal = false ∧ Effect.failConn ∉ effects := by
  induction effects generalizing t with
  | nil => exact ⟨hf, by simp⟩
  | cons x xs ih =>
    rw [List.foldl_cons] at hf
    obtain ⟨hx, hxs⟩ := ih ((applyEffect_frame x).closed.trans hc) hf
    cases x with
    | failConn => simp [applyEffect, failIfConnLive, hc] at hx
    | _ => exact ⟨hx, by simp [hxs]⟩

end Effects

theorem moveDispatcher_eq (t : Table) (id : UInt64) (s : Stream) (a : Stream.Act) :
    ∃ q d, t.moveDispatcher id s a = { t with armQueue := q, dispatcher := d } := by
  unfold moveDispatcher
  split
  · exact ⟨_, _, rfl⟩
  · exact ⟨_, _, rfl⟩
  · split <;> exact ⟨_, _, rfl⟩
  · exact ⟨_, _, rfl⟩

/-- One stream replaced and its effects applied, seen from the table. -/
structure Wrote (t : Table) (id : UInt64) (t' : Table) (out : List Sent) (s s' : Stream) (effects : List Effect) :
    Prop where
  stream : t.streams id = some s
  streams : t'.streams = Function.update t.streams id (some s')
  used : t'.used = t.used
  emitter : t'.emitter = t.emitter
  drained : t'.drained = t.drained
  closed : t'.closed = t.closed
  live : t'.live = if .remove ∈ effects then t.live.erase id else t.live
  obligations : t'.obligations = if .closeObligation ∈ effects then t.obligations.erase id else t.obligations
  emitCh : t'.emitCh = t.emitCh ++ effects.filterMap (jobOf id)
  fatal : t.closed = false → t'.fatal = false → t.fatal = false ∧ Effect.failConn ∉ effects
  out : out = effects.filterMap (sentOf id)

theorem wrote {t : Table} {id : UInt64} {s : Stream} (s' : Stream) (effects : List Effect) (q : List UInt64)
    (d : Option UInt64) (hs : t.streams id = some s) :
    Wrote t id (effects.foldl (applyEffect id) { t.setStream id s' with armQueue := q, dispatcher := d })
      (effects.filterMap (sentOf id)) s s' effects :=
  have hfr := @effects_frame id effects { t.setStream id s' with armQueue := q, dispatcher := d }
  ⟨hs, hfr.streams, hfr.used, hfr.emitter, hfr.drained, hfr.closed, effects_live, effects_obligations, effects_emitCh,
    fun hc => @effects_fatal id effects { t.setStream id s' with armQueue := q, dispatcher := d } hc, rfl⟩

variable {cfg : TableConfig} {t t' : Table} {id : UInt64} {out : List Sent}

theorem streamStep_some {a : Stream.Act} (h : t.streamStep cfg id a = some (t', out)) :
    ∃ s s' effects, t.enabled id a = true ∧ s.step ⟨cfg.policy, t.room cfg, t.drained⟩ a = some (s', effects) ∧
      Wrote t id t' out s s' effects := by
  unfold streamStep at h
  split at h
  · cases h
  next s hs =>
  split at h
  swap
  · cases h
  next hen =>
  split at h
  · cases h
  next s' effects hstep =>
  obtain ⟨q, d, hmove⟩ := moveDispatcher_eq (t.setStream id s') id s' a
  rw [hmove] at h
  cases h
  exact ⟨s, s', effects, hen, hstep, wrote s' effects q d hs⟩

theorem sweepStep_some (h : t.sweepStep id = some (t', out)) :
    ∃ s, s.isLive = true ∧ Wrote t id t' out s s.arm.1 s.arm.2 := by
  unfold sweepStep at h
  split at h
  · cases h
  next s hs =>
  split at h
  swap
  · cases h
  next hlive =>
  cases h
  have hsent : s.arm.2.filterMap (sentOf id) = [] := by
    unfold Stream.arm
    split <;> rfl
  have hw := wrote s.arm.1 s.arm.2 t.armQueue t.dispatcher hs
  rw [hsent] at hw
  exact ⟨s, hlive.2.1, hw⟩

theorem dispatch_cases (cfg : TableConfig) (t : Table) (id : UInt64) (f : StreamFrame) :
    t.dispatch cfg id f = ({ t with drained := false }, true) ∨
    ∃ s, id ∈ t.live ∧ t.streams id = some s ∧
      t.dispatch cfg id f =
        ({ t.setStream id (s.dispatch cfg.policy f).1 with drained := false }, (s.dispatch cfg.policy f).2) := by
  simp only [dispatch]
  split
  · next hmem =>
    split
    · exact .inl rfl
    · next s hs => exact .inr ⟨s, hmem, hs, rfl⟩
  · exact .inl rfl

theorem onStreamOpen_cases (cfg : TableConfig) (t : Table) (id : UInt64) (reg : Option StreamShape) (control : Nat)
    (budget : Int) (payload : Bytes) :
    (control >>> 32 ≠ 0 ∨ id ∈ t.live) ∧ t.onStreamOpen cfg id reg control budget payload = (t, false) ∨
    (∃ jobs : List EmitJob, (∀ job ∈ jobs, job.callID = id) ∧ t.onStreamOpen cfg id reg control budget payload =
      ({ t with emitCh := t.emitCh ++ jobs, used := insert id t.used }, true)) ∨
    ∃ shape, reg = some shape ∧ t.onStreamOpen cfg id reg control budget payload =
      (t.admitStream cfg id (acceptedStream (if control = 0 then defaultStreamCredit else control) shape payload), true) := by
  have hrej : ∀ code, ∃ jobs : List EmitJob, (∀ job ∈ jobs, job.callID = id) ∧
      ({ t.emitReject cfg id code with used := insert id t.used }, true) =
        ({ t with emitCh := t.emitCh ++ jobs, used := insert id t.used }, true) := by
    intro code
    unfold emitReject enqueueEmit
    split
    · exact ⟨[], by simp, by simp⟩
    split
    · exact ⟨[_], by simp, rfl⟩
    · exact ⟨[], by simp, by simp⟩
  unfold onStreamOpen
  split
  · next hctl => exact .inl ⟨.inl hctl, rfl⟩
  split
  · next hlive =>
    simp only [hasLiveStream, Bool.and_eq_true, decide_eq_true_eq] at hlive
    exact .inl ⟨.inr hlive.1, rfl⟩
  split
  · exact .inr (.inl (hrej _))
  · next shape =>
    dsimp only
    split
    · next hdup =>
      refine .inl ⟨.inr ?_, rfl⟩
      unfold admission at hdup
      split at hdup
      · cases hdup
      split at hdup
      · next hmem => exact hmem
      repeat' split at hdup
      all_goals cases hdup
    · exact .inr (.inl (hrej _))
    · exact .inr (.inr ⟨shape, rfl, rfl⟩)

end Table

end Styx
