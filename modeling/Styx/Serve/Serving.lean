/-
A serving session with all its goroutines: the reader, which receives, admits and answers;
the handlers of its streams; and the drain's wait for quiescence (`drain_quiescence.go`,
`panic_policy.go`, and the parts of `pluginserver.go` and `stream.go` they meet in).

A step is one thing others can see: a reservation, a frame taken, the admission gate,
an obligation opened or closed, the taint, one load of the drain's predicate.

The transport has two undersides, probed one after the other; one that has only one leaves
the other empty.
-/
import Styx.Serve.Loop

namespace Styx

open Machine

/-! ## State -/

/-- An inbound frame. Ghost: its number, and whether the peer had a panic's `STREAM_ERR` when it sent it. -/
structure Unread where
  id : Nat
  frame : Frame
  late : Bool
  deriving DecidableEq

namespace Unread

def call (m : Unread) : UInt64 := m.frame.callID

/-- A frame that opens a call. -/
def opens (m : Unread) : Bool := m.frame.kind == .unaryReq || m.frame.kind == .streamOpen

end Unread

namespace Serving

/-- The ways a request reaches no handler. -/
inductive Refusal
  | elapsed
  | unknownService
  | undecodable
  | unknownMethod
  deriving DecidableEq

inductive Reply
  | none
  | plain
  | panic
  deriving DecidableEq

/-- A request whose budget has run out is not answered. -/
def Refusal.reply : Refusal → Reply
  | .elapsed => .none
  | _ => .plain

/-- Where the reader stands; each position names the step that is next. -/
inductive Reader
  /-- In the readiness wait. -/
  | parked
  /-- The reservation is published; the frame is still the transport's. -/
  | reserved (underside : Bool)
  | fence (m : Unread)
  | route (m : Unread)
  /-- A request taken and declined. -/
  | declined (m : Unread)
  | declining (m : Unread)
  | admitUnary (m : Unread)
  | openUnary (m : Unread)
  | dispatch (m : Unread)
  /-- The application's handler runs. -/
  | handling (m : Unread)
  | recovering (m : Unread) (reply : Reply)
  | dispatched (m : Unread) (reply : Reply)
  | sending (m : Unread) (reply : Reply)
  | closing (m : Unread)
  | checking (m : Unread)
  | admitOpen (m : Unread)
  | opening (m : Unread)
  | publishing (m : Unread) (j : Nat)
  | launching (m : Unread) (j : Nat)
  | opened (m : Unread) (violation : Bool)
  /-- The disposition is complete; `retire` is next. -/
  | retiring (m : Option Unread) (exit : Option (Option Serve.LoopErr))
  | exited (e : Option Serve.LoopErr)
  deriving DecidableEq

namespace Reader

/-- The frame that has left the transport and is not yet retired. -/
def hand : Reader → Option Unread
  | .parked | .reserved _ | .exited _ => none
  | .fence m | .route m | .declined m | .declining m | .admitUnary m | .openUnary m | .dispatch m | .handling m
  | .recovering m _ | .dispatched m _ | .sending m _ | .closing m | .checking m | .admitOpen m | .opening m
  | .publishing m _ | .launching m _ | .opened m _ => some m
  | .retiring m _ => m

def reservations : Reader → Int
  | .parked | .exited _ => 0
  | _ => 1

end Reader

/-- Where a stream's handler stands; past `panicked` it is the runtime's code. -/
inductive Handler
  /-- The stream is accepted and its handler not launched, or never will be. -/
  | accepted
  | dropped
  /-- The application's handler runs. -/
  | running
  | panicked
  /-- Holds the write side of the gate: before the store, and after it. -/
  | storing
  | stored
  | recorded
  | terminated
  | returned
  deriving DecidableEq

structure Accepted where
  m : Unread
  handler : Handler
  deriving DecidableEq

/-- Where the drain's wait stands; `again` is the predicate's second look. -/
inductive Waiter
  | idle
  | probing (again underside : Bool)
  | loading (again : Bool)
  | counting
  | tainting
  | waiting
  | quiescent
  | expired
  deriving DecidableEq

end Serving

open Serving in
structure Serving where
  /-- Unread frames, and a transport that confirms nothing any more. -/
  inbox : Bool → List Unread
  dead : Bool
  ingressPending : Int
  wake : Bool
  reader : Reader
  obligations : List UInt64
  tainted : Bool
  /-- The admission gate: its read side, its write side, and the reader's one-shot releaser. -/
  held : Bool
  writer : Option Nat
  released : Bool
  terminate : Bool
  streams : List Accepted
  waiter : Waiter
  /-- The peer's side: a panic's `STREAM_ERR` is on its way, or received. -/
  panicErr : Bool
  peerSaw : Bool
  /-- Ghost: the frames that arrived, the frames retired, the calls handed to a handler, the sections of the gate begun
  and (with the taint as it then was) closed. -/
  arrived : List Unread
  disposed : List Unread
  handed : List Unread
  begun : Nat
  sections : List (Unread × Bool)
  /-- Ghost: the taint when an obligation last closed; the unary panics owed a reply, and those whose reply was offered. -/
  taintedAtClose : Bool
  panics : List Unread
  offered : List Unread

namespace Serving

def start : Serving where
  inbox := fun _ => []
  dead := false
  ingressPending := 0
  wake := false
  reader := .parked
  obligations := []
  tainted := false
  held := false
  writer := none
  released := true
  terminate := false
  streams := []
  waiter := .idle
  panicErr := false
  peerSaw := false
  arrived := []
  disposed := []
  handed := []
  begun := 0
  sections := []
  taintedAtClose := false
  panics := []
  offered := []

/-! ## Obligations -/

def openObligation (s : Serving) (call : UInt64) : Serving :=
  { s with obligations := if call ∈ s.obligations then s.obligations else call :: s.obligations }

/-- The hook wakes the drain whether or not there was one to close. -/
def closeObligation (s : Serving) (call : UInt64) : Serving :=
  { s with
    obligations := s.obligations.filter (· ≠ call)
    wake := true
    taintedAtClose := if call ∈ s.obligations then s.tainted else s.taintedAtClose }

/-! ## The gate -/

/-- `endAdmit`. -/
def endAdmit (s : Serving) (m : Unread) : Serving :=
  { s with held := false, sections := s.sections ++ [(m, s.tainted)] }

/-- The releaser's `release`: once per arming. -/
def release (s : Serving) (m : Unread) : Serving :=
  { s with
    released := true
    held := s.held && s.released
    sections := if s.released then s.sections else s.sections ++ [(m, s.tainted)] }

/-- `beginAdmit`: the read side and the taint under it; `none` while a store holds the gate. -/
def beginAdmit (s : Serving) (m : Unread) (admitted : Reader) : Option Serving :=
  if s.writer.isSome then none
  else if s.tainted then some { s with reader := .retiring (some m) (some (some .handlerPanicked)) }
  else some { s with held := true, begun := s.begun + 1, reader := admitted }

/-! ## Steps -/

/-- How a send that failed ends the loop. -/
inductive Failure
  | quiet
  | poisoned
  | dataPlane
  deriving DecidableEq

def Failure.exit : Failure → Option Serve.LoopErr
  | .quiet => none
  | .poisoned => some .poisoned
  | .dataPlane => some .dataPlaneFailed

/-- What the outside decides for the reader. -/
inductive ReadAct
  /-- Readiness commits on an underside. -/
  | reserve (underside : Bool)
  /-- The receive fails before that, and after it. -/
  | interrupted (f : Failure)
  | torn (f : Failure)
  | take
  /-- The frame is taken and not delivered: a fault of this frame alone. -/
  | fault
  | next
  /-- A frame of an open stream, or a `STREAM_*` frame that must not be. -/
  | routed (violation : Bool)
  /-- A unary cancel, or a kind nobody expects. -/
  | cancel
  | refuse (r : Refusal)
  | enter
  | handlerReturns (replies : Bool)
  | handlerPanics (elapsed : Bool)
  | sent
  | sendFails (f : Failure)
  | reject
  | violation
  | accept
  | publish (won : Bool)
  deriving DecidableEq

def setStream (s : Serving) (j : Nat) (h : Handler) : Serving :=
  { s with streams := s.streams.modify j fun a => { a with handler := h } }

/-- The frame leaves the underside's queue. -/
def pop (s : Serving) (u : Bool) (rest : List Unread) : Serving :=
  { s with inbox := Function.update s.inbox u rest }

/-- A step of the reader. -/
def read (continueAfterPanic : Bool) (s : Serving) (a : ReadAct) : Option Serving :=
  match s.reader with
  | .parked =>
    match a with
    | .reserve u => some { s with ingressPending := s.ingressPending + 1, reader := .reserved u }
    | .interrupted f => some { s with reader := .exited f.exit }
    | _ => none
  | .reserved u =>
    match a, s.inbox u with
    | .torn f, _ => some { s with dead := true, reader := .retiring none (some f.exit) }
    | .take, m :: rest => some { s.pop u rest with reader := .fence m }
    | .fault, m :: rest =>
      if m.frame.kind = .unaryReq then some { s.pop u rest with reader := .declined m }
      else some { s.pop u rest with reader := .retiring (some m) none }
    | _, _ => none
  | .fence m =>
    if a ≠ .next then none
    else if s.tainted then some { s with reader := .retiring (some m) (some (some .handlerPanicked)) }
    else some { s with reader := .route m }
  | .route m =>
    match a with
    | .next =>
      if m.frame.kind = .unaryReq then some { s with reader := .admitUnary m }
      else if m.frame.kind = .streamOpen then some { s with reader := .admitOpen m }
      else none
    | .routed violation =>
      if Serve.isStreamKind m.frame.kind = false ∧ m.frame.kind ≠ .cancel ∨ m.frame.kind = .streamOpen ∧ violation = false then none
      else if violation then some { s with dead := true, reader := .retiring (some m) (some (some .poisoned)) }
      else some { s with reader := .retiring (some m) none }
    | .cancel =>
      if Serve.isStreamKind m.frame.kind ∨ m.frame.kind = .unaryReq then none else some { s with reader := .checking m }
    | _ => none
  | .declined m => if a = .next then some { s.openObligation m.call with reader := .declining m } else none
  | .declining m =>
    match a with
    | .sent => some { s.closeObligation m.call with reader := .retiring (some m) none }
    | .sendFails f => some { s.closeObligation m.call with reader := .retiring (some m) (some f.exit) }
    | _ => none
  | .admitUnary m => if a = .next then s.beginAdmit m (.openUnary m) else none
  | .openUnary m =>
    if a = .next then some { s.openObligation m.call with released := false, reader := .dispatch m } else none
  | .dispatch m =>
    match a with
    | .refuse r => if r = .elapsed ∧ m.frame.budget ≤ 0 then none else some { s with reader := .dispatched m r.reply }
    | .enter => some { s.release m with reader := .handling m, handed := s.handed ++ [m] }
    | _ => none
  | .handling m =>
    match a with
    | .handlerReturns replies => some { s with reader := .dispatched m (if replies then .plain else .none) }
    | .handlerPanics elapsed =>
      if elapsed = true ∧ m.frame.budget ≤ 0 then none
      else some { s with reader := .recovering m (if elapsed then .none else .panic) }
    | _ => none
  | .recovering m reply =>
    if a = .next then
      some { s with
        tainted := s.tainted || !continueAfterPanic
        reader := .dispatched m reply
        panics := s.panics ++ (if reply = .panic then [m] else []) }
    else none
  | .dispatched m reply =>
    if a ≠ .next then none
    else if reply = .none then some { s.release m with reader := .closing m }
    else some { s.release m with reader := .sending m reply }
  | .sending m reply =>
    match a with
    | .sent => some { s with reader := .closing m, offered := s.offered ++ (if reply = .panic then [m] else []) }
    | .sendFails f =>
      some { s.release m with
        reader := .retiring (some m) (some f.exit), offered := s.offered ++ (if reply = .panic then [m] else []) }
    | _ => none
  | .closing m => if a = .next then some { s.closeObligation m.call with reader := .checking m } else none
  | .checking m =>
    if a ≠ .next then none
    else if s.tainted then some { s.release m with reader := .retiring (some m) (some (some .handlerPanicked)) }
    else some { s.release m with reader := .retiring (some m) none }
  | .admitOpen m => if a = .next then s.beginAdmit m (.opening m) else none
  | .opening m =>
    match a with
    | .reject => some { s with reader := .opened m false }
    | .violation => some { s with reader := .opened m true }
    | .accept =>
      some { s.openObligation m.call with
        streams := s.streams ++ [⟨m, .accepted⟩], reader := .publishing m s.streams.length }
    | _ => none
  | .publishing m j =>
    match a with
    | .publish true => some { s with reader := .launching m j }
    | .publish false => some { s.setStream j .dropped with reader := .opened m false }
    | _ => none
  | .launching m j =>
    if a = .next then some { s.setStream j .running with reader := .opened m false, handed := s.handed ++ [m] } else none
  | .opened m violation =>
    if a ≠ .next then none
    else if violation then some { s.endAdmit m with dead := true, reader := .retiring (some m) (some (some .poisoned)) }
    else some { s.endAdmit m with reader := .retiring (some m) none }
  | .retiring m exit =>
    if a = .next then
      some { s with
        ingressPending := s.ingressPending - 1
        wake := true
        disposed := s.disposed ++ m.toList
        reader := exit.elim .parked .exited }
    else none
  | .exited _ => none

inductive HandlerAct
  | returns
  | panics
  | next
  /-- `TerminateHandlerError`, won or lost. -/
  | terminate (won : Bool)
  deriving DecidableEq

/-- A step of the handler goroutine of stream `j`. -/
def handle (continueAfterPanic : Bool) (s : Serving) (j : Nat) (h : Handler) (a : HandlerAct) : Option Serving :=
  match h, a with
  | .running, .returns => some (s.setStream j .returned)
  | .running, .panics => some (s.setStream j .panicked)
  | .panicked, .next =>
    if continueAfterPanic then some (s.setStream j .recorded)
    else if s.held ∨ s.writer.isSome then none
    else some ({ s with writer := some j }.setStream j .storing)
  | .storing, .next => some ({ s with tainted := true }.setStream j .stored)
  | .stored, .next => some ({ s with writer := none }.setStream j .recorded)
  | .recorded, .terminate won => some ({ s with panicErr := s.panicErr || won }.setStream j .terminated)
  | .terminated, .next => some ({ s with terminate := s.terminate || !continueAfterPanic }.setStream j .returned)
  | _, _ => none

/-- One load of the drain's predicate, or a turn of its wait; `spurious` is a probe that cannot confirm. -/
def look (s : Serving) (spurious : Bool) : Option Serving :=
  match s.waiter with
  | .idle => some { s with waiter := .probing false false }
  | .probing again u =>
    if s.dead = true ∨ spurious = true ∨ s.inbox u ≠ [] then some { s with waiter := .waiting }
    else some { s with waiter := if u then .loading again else .probing again true }
  | .loading again =>
    if s.ingressPending ≠ 0 then some { s with waiter := .waiting }
    else some { s with waiter := if again then .quiescent else .counting }
  | .counting => some { s with waiter := if s.obligations = [] then .tainting else .waiting }
  | .tainting => some { s with waiter := if s.tainted || spurious then .waiting else .probing true false }
  | .waiting => if s.wake then some { s with wake := false, waiter := .probing false false } else none
  | .quiescent | .expired => none

inductive Act
  | arrive (underside : Bool) (f : Frame)
  | peerReceives
  | fail
  | read (a : ReadAct)
  | handler (j : Nat) (a : HandlerAct)
  /-- The stream engine closes the obligation of an accepted stream: at `CloseSend`, at a terminal, at an ack's hand-off or
  from the emitter. -/
  | closeStream (j : Nat)
  | look (spurious : Bool)
  | expire
  deriving DecidableEq

def step (continueAfterPanic : Bool) (s : Serving) : Act → Option Serving
  | .arrive u f =>
    let m : Unread := ⟨s.arrived.length, f, s.peerSaw⟩
    some { s with inbox := Function.update s.inbox u (s.inbox u ++ [m]), arrived := s.arrived ++ [m] }
  | .peerReceives => if s.panicErr then some { s with peerSaw := true } else none
  | .fail => some { s with dead := true }
  | .read a => s.read continueAfterPanic a
  | .handler j a =>
    match s.streams[j]? with
    | some st => s.handle continueAfterPanic j st.handler a
    | none => none
  | .closeStream j =>
    match s.streams[j]? with
    | some st => some (s.closeObligation st.m.call)
    | none => none
  | .look spurious => s.look spurious
  | .expire => if s.waiter = .waiting then some { s with waiter := .expired } else none

end Serving

end Styx
