/-
The deadline budget of a request or a stream frame, from the caller's clock to the peer's
dispatcher.

A sender checks its context, does its own work (marshalling, or waiting for credit), and
only then reads the clock for `budget_ns`, and nothing looks at the number again before
the peer. So a clock that passes the deadline in between puts a negative budget on the
wire, which the peer poisons the region for, or a zero one, which its dispatcher takes for
no deadline (`budget_expired`).
-/
import Styx.Rpc.Dispatch
import Styx.Shm.Inbound

namespace Styx

open Machine

/-! ## Durations -/

def minDuration : Int := -9223372036854775808
def maxDuration : Int := 9223372036854775807

/-- `time.Until`: saturating, as every `time.Duration` difference is. -/
def timeUntil (deadline now : Int) : Int := max minDuration (min maxDuration (deadline - now))

theorem timeUntil_pos {deadline now : Int} : 0 < timeUntil deadline now ↔ now < deadline := by
  simp only [timeUntil, minDuration, maxDuration]
  omega

/-! ## Senders -/

/-- The three places that read the clock for a frame. -/
inductive SendOp
  /-- `invokeCore`. -/
  | unary
  /-- `SendMsg`. -/
  | msg
  /-- `sendFragment`, with the kind its train gives it. -/
  | fragment (chunk : Bool)
  deriving DecidableEq

def SendOp.kind : SendOp → FrameKind
  | .unary => .unaryReq
  | .msg => .streamMsg
  | .fragment chunk => if chunk then .streamChunk else .streamMsg

inductive SenderPc
  | entered
  /-- The context had no error. -/
  | checked
  /-- The request is marshalled, or the credit is there. -/
  | encoded
  /-- The frame is built: the clock has been read. -/
  | budgeted (f : Frame)
  | finished

/-- One call of a sender. A stream always has a deadline; a unary context may have none. -/
structure Sender where
  op : SendOp
  deadline : Option Int
  callID : UInt64
  service : UInt64
  method : UInt64
  payload : Bytes
  /-- The stream sequence; a request has none. -/
  control : UInt64
  /-- The marshaller, where the writer is to run it into the slab. -/
  fill : Option PayloadFill
  pc : SenderPc

namespace Sender

/-- The budget of a frame built at `now`. -/
def budgetAt (c : Sender) (now : Int) : Int :=
  match c.deadline with
  | some deadline => timeUntil deadline now
  | none => 0

def frameAt (c : Sender) (now : Int) : Frame :=
  { callID := c.callID, kind := c.op.kind, service := c.service, method := c.method, budget := c.budgetAt now,
    payload := c.payload, status := none, control := c.control }

end Sender

/-- The kinds the three senders build. -/
def isRequestKind (k : FrameKind) : Bool := k == .unaryReq || k == .streamMsg || k == .streamChunk

/-! ## The side and its writer -/

/-- One side of a connection: a clock, its senders, and the writer with its queue. -/
structure Side where
  now : Int
  senders : Nat → Sender
  dataQueue : List Intent
  sys : Sys

namespace Side

inductive Act
  | tick (n : Nat)
  /-- `ctx.Err()`; a context's timer may fire late, so it is free to say either. -/
  | check (n : Nat) (ended : Bool)
  | encode (n : Nat) (ok : Bool)
  /-- `time.Until`, and the frame around it. -/
  | stamp (n : Nat)
  /-- The enqueue: accepted, or refused (context, backpressure, teardown). -/
  | hand (n : Nat) (accepted : Bool)
  /-- A caller waiting on a fill gives up while its intent is queued. -/
  | giveUp (n : Nat)
  /-- A data frame of another kind (a response, an open, a close). -/
  | other (i : Intent)
  /-- The writer takes the next data intent. -/
  | emit (late : Bool)
  /-- Any other step of the writer, or of the peer's consumer. -/
  | writer (a : Sys.Act)

def setPc (s : Side) (n : Nat) (pc : SenderPc) : Side :=
  { s with senders := Function.update s.senders n { s.senders n with pc } }

/-- The intent of a sender's frame. -/
def intentOf (s : Side) (n : Nat) (f : Frame) : Intent :=
  { id := n, frame := f, lane := laneOf f.kind, wire := some (wirePayload f), fill := (s.senders n).fill }

def step (s : Side) : Act → Option Side
  | .tick n => some { s with now := s.now + n }
  | .check n ended =>
    match (s.senders n).pc with
    | .entered => some (s.setPc n (if ended then .finished else .checked))
    | _ => none
  | .encode n ok =>
    match (s.senders n).pc with
    | .checked => some (s.setPc n (if ok then .encoded else .finished))
    | _ => none
  | .stamp n =>
    match (s.senders n).pc with
    | .encoded => some (s.setPc n (.budgeted ((s.senders n).frameAt s.now)))
    | _ => none
  | .hand n accepted =>
    match (s.senders n).pc with
    | .budgeted f =>
      let s' := s.setPc n .finished
      some (if accepted then { s' with dataQueue := s.dataQueue ++ [s.intentOf n f] } else s')
    | _ => none
  | .giveUp n =>
    some { s with
      dataQueue := s.dataQueue.map fun i => if i.id = n then { i with fill := i.fill.map (·.abandon) } else i }
  | .other i =>
    if i.lane = .data ∧ isRequestKind i.frame.kind = false then some { s with dataQueue := s.dataQueue ++ [i] }
    else none
  | .emit late =>
    match s.dataQueue with
    | i :: rest => (s.sys.step (.data i late)).map fun sys => { s with sys, dataQueue := rest }
    | [] => none
  | .writer a =>
    match a with
    | .data _ _ => none
    | .lifecycle i =>
      if laneOf i.frame.kind = .lifecycle then (s.sys.step (.lifecycle i)).map fun sys => { s with sys } else none
    | a => (s.sys.step a).map fun sys => { s with sys }

/-- A connected side: every sender at its first line, nothing queued. -/
structure Start (s : Side) : Prop where
  senders : ∀ n, (s.senders n).pc = .entered
  queue : s.dataQueue = []
  sys : s.sys.Start

/-- What the peer makes of a published frame whose context had a deadline: a
positive budget, a frame it accepts, and a deadline in its dispatcher. -/
def BudgetLegal (ch ck : Bool) (s : Side) : Prop :=
  ∀ seq ref i, s.sys.pc = .pushed seq ref i → isRequestKind i.frame.kind = true →
    (s.senders i.id).deadline.isSome → ∃ tk, let d := s.sys.w.ring.desc seq
      0 < d.budgetNS ∧ classify ck ch d = .ok (tk, false) ∧
      ∀ payload recvAt, dispatchDeadline (decodedFrame d tk payload) recvAt = some (reanchor d.budgetNS recvAt)

/-- The clock is read for a frame before the frame's deadline. -/
def Timely (s : Side) : Act → Prop
  | .stamp n => ∀ deadline ∈ (s.senders n).deadline, s.now < deadline
  | _ => True

instance (s : Side) (a : Act) : Decidable (s.Timely a) := by
  cases a <;> simp only [Timely] <;> infer_instance

/-! ## Timely runs -/

variable {s t : Side} {dl : Nat → Option Int} {ch ck : Bool} {n : Nat}

def Dated (dl : Nat → Option Int) (i : Intent) : Prop :=
  isRequestKind i.frame.kind = true → (dl i.id).isSome → 0 < i.frame.budget

theorem dated_stable : Sys.Stable (Dated dl) := by
  intro i i' h hd
  obtain ⟨f, rfl⟩ := h
  exact hd

/-- Positive budgets on the whole way: in the senders' hands, queued, and in the writer's. -/
structure Inv (dl : Nat → Option Int) (ch ck : Bool) (s : Side) : Prop where
  deadlines : ∀ n, (s.senders n).deadline = dl n
  budgeted : ∀ n f, (s.senders n).pc = .budgeted f → (dl n).isSome → 0 < f.budget
  queue : ∀ i ∈ s.dataQueue, Dated dl i
  traced : s.sys.Traced (Dated dl) ch ck

theorem Start.inv (h0 : s.Start) :
    s.Inv (fun n => (s.senders n).deadline) s.sys.w.chunkingActive s.sys.w.checksum := by
  refine ⟨fun _ => rfl, fun n f h => ?_, by simp [h0.queue], h0.sys.traced⟩
  rw [h0.senders n] at h
  cases h

theorem Inv.setPc {pc : SenderPc} (hi : s.Inv dl ch ck)
    (hpc : ∀ f, pc = .budgeted f → (dl n).isSome → 0 < f.budget) : (s.setPc n pc).Inv dl ch ck := by
  refine ⟨fun m => ?_, fun m f h => ?_, hi.queue, hi.traced⟩
  · by_cases hm : m = n
    · subst hm; simpa [Side.setPc] using hi.deadlines m
    · simpa [Side.setPc, hm] using hi.deadlines m
  · by_cases hm : m = n
    · subst hm
      exact hpc f (by simpa [Side.setPc] using h)
    · exact hi.budgeted m f (by simpa [Side.setPc, hm] using h)

theorem Inv.stamp (hi : s.Inv dl ch ck) (hg : s.Timely (.stamp n)) :
    (s.setPc n (.budgeted ((s.senders n).frameAt s.now))).Inv dl ch ck := by
  refine hi.setPc fun f hf hd => ?_
  cases hf
  obtain ⟨deadline, hdl⟩ := Option.isSome_iff_exists.mp hd
  have hdl' : (s.senders n).deadline = some deadline := (hi.deadlines n).trans hdl
  simp only [Sender.frameAt, Sender.budgetAt, hdl']
  exact timeUntil_pos.mpr (hg deadline hdl')

theorem Inv.mapSys {sys : Sys} {a : Sys.Act} (hi : s.Inv dl ch ck) (hfed : ∀ i ∈ a.fed, Dated dl i)
    (h : s.sys.step a = some sys) : ({ s with sys } : Side).Inv dl ch ck :=
  ⟨hi.deadlines, hi.budgeted, hi.queue, (hi.traced.step dated_stable hfed h).2⟩

theorem not_request_of_lifecycle {k : FrameKind} (h : laneOf k = .lifecycle) : isRequestKind k = false := by
  simp only [laneOf] at h
  split at h
  · next hk => rcases hk with rfl | rfl <;> rfl
  · cases h

theorem Inv.step {a : Act} (hi : s.Inv dl ch ck) (hg : s.Timely a) (h : s.step a = some t) : t.Inv dl ch ck := by
  cases a <;> simp only [Side.step] at h
  case tick n =>
    cases h
    exact ⟨hi.deadlines, hi.budgeted, hi.queue, hi.traced⟩
  case check n ended | encode n ok =>
    split at h
    · cases h
      exact hi.setPc fun f hf => by split at hf <;> cases hf
    · cases h
  case stamp n =>
    split at h
    · cases h
      exact hi.stamp hg
    · cases h
  case hand n accepted =>
    split at h
    · next f hpc =>
      cases h
      have hfin : (s.setPc n .finished).Inv dl ch ck := hi.setPc nofun
      split
      · refine ⟨hfin.deadlines, hfin.budgeted, fun i hm => ?_, hfin.traced⟩
        rcases List.mem_append.mp hm with hm | hm
        · exact hi.queue i hm
        · obtain rfl := List.mem_singleton.mp hm
          exact fun _ hd => hi.budgeted n f hpc hd
      · exact hfin
    · cases h
  case giveUp n =>
    cases h
    refine ⟨hi.deadlines, hi.budgeted, fun i hm => ?_, hi.traced⟩
    obtain ⟨i', hm', rfl⟩ := List.mem_map.mp hm
    have hd := hi.queue i' hm'
    split
    · exact dated_stable _ _ ⟨_, rfl⟩ hd
    · exact hd
  case other i =>
    obtain ⟨hk, ⟨⟩⟩ := guard_some h
    refine ⟨hi.deadlines, hi.budgeted, fun j hm => ?_, hi.traced⟩
    rcases List.mem_append.mp hm with hm | hm
    · exact hi.queue j hm
    · obtain rfl := List.mem_singleton.mp hm
      intro hreq
      rw [hk.2] at hreq
      cases hreq
  case emit late =>
    split at h
    · next i rest hq =>
      obtain ⟨sys, hsys, rfl⟩ := Option.map_eq_some_iff.mp h
      have hm : i ∈ s.dataQueue := hq ▸ List.mem_cons_self
      have hi' := hi.mapSys (a := .data i late) (fun j hj => by cases hj; exact hi.queue i hm) hsys
      exact ⟨hi'.deadlines, hi'.budgeted, fun j hj => hi.queue j (hq ▸ List.mem_cons_of_mem _ hj), hi'.traced⟩
    · cases h
  case writer a =>
    split at h
    · cases h
    · next i =>
      obtain ⟨hl, h⟩ := guard_some h
      obtain ⟨sys, hsys, rfl⟩ := Option.map_eq_some_iff.mp h
      refine hi.mapSys (fun j hj => ?_) hsys
      obtain rfl := Option.some.inj hj
      intro hreq
      rw [not_request_of_lifecycle hl] at hreq
      cases hreq
    · next hnd hnl =>
      obtain ⟨sys, hsys, rfl⟩ := Option.map_eq_some_iff.mp h
      refine hi.mapSys (fun j hj => ?_) hsys
      cases a <;> first | (exact absurd rfl (hnd _ _)) | (exact absurd rfl (hnl _)) | cases hj

theorem Inv.legal (hi : s.Inv dl ch ck) : s.BudgetLegal ch ck := by
  intro seq ref i hpc hreq hdl
  obtain ⟨-, hq, hbf⟩ := hi.traced.pushed seq ref i hpc
  have hlane : i.lane ≠ .lifecycle := by
    intro hl
    have hk := hbf.kind
    rw [hl] at hk
    cases hkind : i.frame.kind <;> simp [hkind, isRequestKind] at hreq <;> simp [hkind, mapKind] at hk
  have hpos : 0 < (s.sys.w.ring.desc seq).budgetNS := by
    rw [(hbf.fields hlane).2.2]
    exact hq hreq (by rw [← hi.deadlines]; exact hdl)
  refine ⟨i.frame.kind, hpos, ?_, fun payload recvAt => ?_⟩
  · rw [classify_builtFrom hbf, if_neg (by omega)]
    simpa using hlane
  · simp only [dispatchDeadline, decodedFrame, gt_iff_lt, hpos, if_true]

/-- **A budget is legal exactly if its clock read is timely.** In every run all of
whose frames are stamped before their deadline, every published one has a legal
budget; and a stamp makes a positive budget if and only if it is timely. -/
theorem budget_legal_iff_timely (h0 : s.Start) (hr : Reach step Timely s t) :
    t.BudgetLegal s.sys.w.chunkingActive s.sys.w.checksum ∧
      ∀ n u, (t.senders n).deadline.isSome → t.step (.stamp n) = some u →
        ∃ f, (u.senders n).pc = .budgeted f ∧ (0 < f.budget ↔ t.Timely (.stamp n)) := by
  have hi := hr.invariant h0.inv fun hi hg h => hi.step hg h
  refine ⟨hi.legal, fun n u hd hu => ?_⟩
  obtain ⟨deadline, hdl⟩ := Option.isSome_iff_exists.mp hd
  simp only [Side.step] at hu
  split at hu
  · cases hu
    refine ⟨(t.senders n).frameAt t.now, by simp [Side.setPc], ?_⟩
    simp only [Sender.frameAt, Sender.budgetAt, hdl, timeUntil_pos]
    constructor
    · intro hlt deadline' hd'
      exact Option.some.inj (hdl.symm.trans hd') ▸ hlt
    · intro ht
      exact ht deadline hdl
  · cases hu

/-! ## A deadline that passes -/

/-- One caller with ten nanoseconds left, marshalling itself. -/
def callStart : Side where
  now := 0
  senders _ :=
    { op := .unary, deadline := some 10, callID := 1, service := 2, method := 3, payload := [], control := 0
      fill := none, pc := .entered }
  dataQueue := []
  sys := Sys.plainStart

theorem callStart_start : callStart.Start := ⟨fun _ => rfl, rfl, Sys.plainStart_start⟩

/-- The call, with `n` nanoseconds spent on marshalling. -/
def callActs (n : Nat) : List Act :=
  [.check 0 false, .encode 0 true, .tick n, .stamp 0, .hand 0 true, .emit false, .writer .push]

/-- Marshalling outlasts the deadline. -/
def lateEnd : Side := (run step callStart (callActs 15)).get (by decide +kernel)

/-- **A negative budget is published**: the caller's context had no error when it
was looked at, and the peer refuses the frame. -/
theorem budget_expired :
    ¬ ∀ s t : Side, s.Start → Reach step Any s t → t.BudgetLegal s.sys.w.chunkingActive s.sys.w.checksum := by
  intro h
  have hl := h callStart lateEnd callStart_start (Reach.of_run (Option.some_get _).symm)
  obtain ⟨_, hpos, _⟩ := hl _ _ _ rfl (by decide) (by decide)
  exact absurd hpos (by decide +kernel)

/-- A run within the deadline. -/
def timelyEnd : Side := (run (guarded step Timely) callStart (callActs 5)).get (by decide +kernel)

theorem budget_legal_iff_timely_sample : timelyEnd.now = 5 ∧ timelyEnd.BudgetLegal false false :=
  ⟨by decide +kernel, (budget_legal_iff_timely callStart_start (Reach.of_guarded (Option.some_get _).symm)).1⟩

end Side

end Styx
