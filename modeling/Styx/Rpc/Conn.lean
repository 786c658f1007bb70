/-
A `ClientConn` across its generations: the admission gate and the routing state, the
callers that pass them (`invokeCore`, `openStreamByID`), the calls they leave in the
tables, the read loops, and the supervisor's goroutine, which closes the gate, promotes,
joins and tears down (`clientconn.go`, `stream.go`, `host.go`, `reload.go`,
`lifecycle/reload.go`).

A caller's step is one thing others can see: a load of the routing state, `Enter`,
`Leave`, a compare-and-swap on its call, the send. A call is its state and the `terminate`
that won it; `CallTable` has its functions act by act.

The transport is its contract: a send that reports a context's end, an encode failure or
one of the never-published sentinels has put nothing on the wire, any other failure may
have.
-/
import Styx.Rpc.CallTable
import Styx.Rpc.Dispatch

namespace Styx

open Machine

namespace Conn

/-! ## Errors -/

/-- The public sentinels `IsRetryable` asks for, and any other. -/
inductive Sentinel
  | outcomeUnknown
  | pluginUnavailable
  | drained
  | backpressure
  | requestDeclined
  | other
  deriving DecidableEq

abbrev Err := List Sentinel

/-- No invocation returns a `PluginCrashError`. -/
def isRetryable (e : Err) : Bool :=
  if .outcomeUnknown ∈ e then false
  else .pluginUnavailable ∈ e || .drained ∈ e || .backpressure ∈ e || .requestDeclined ∈ e

/-- What the sends and the sweeps hand to the table; `cause` is the failure inside it. -/
inductive Cause
  /-- A send proved never published. -/
  | unsent
  /-- A send whose acceptance is unknown. -/
  | unknownSend (cause : Err)
  /-- An answer that could not be decoded or taken. -/
  | discarded (cause : Err)
  | unavailable
  | connFault (cause : Err)
  | tornDown
  deriving DecidableEq

def Cause.err : Cause → Err
  | .unsent => [.other]
  | .unknownSend e | .discarded e | .connFault e => e ++ [.outcomeUnknown]
  | .unavailable => [.pluginUnavailable]
  | .tornDown => [.outcomeUnknown]

abbrev Op := CallTable.Op Unit Cause

inductive NeverPublished
  | unimplementedFrameKind
  | payloadTooLarge
  | backpressure
  deriving DecidableEq

inductive CtxErr
  | canceled
  | deadlineExceeded
  deriving DecidableEq

/-- What a send returns. -/
inductive Sent
  | ok
  /-- The fill send alone: the message could not be encoded, or the context ended first. -/
  | fillFailed
  | ctx (e : CtxErr)
  | neverPublished (k : NeverPublished)
  | unknown (e : Err)
  deriving DecidableEq

/-- Whether the frame may be on the wire after it. -/
def Sent.wire : Sent → Bool → Prop
  | .ok, onWire => onWire = true
  | .unknown _, _ => True
  | _, onWire => onWire = false

instance : ∀ {r : Sent} {w : Bool}, Decidable (r.wire w)
  | .ok, w => inferInstanceAs (Decidable (w = true))
  | .unknown _, _ => inferInstanceAs (Decidable True)
  | .fillFailed, w | .ctx _, w | .neverPublished _, w => inferInstanceAs (Decidable (w = false))

/-- What an invocation returns. -/
inductive Return
  | response
  | err (e : Err)
  /-- An application's status, a not-found or a recovered panic. -/
  | status
  | ctx (e : CtxErr)
  /-- A response, or a status detail, this side cannot decode. -/
  | undecodable
  | marshal
  | neverPublished (k : NeverPublished)
  /-- Whatever an opener of a stream returns. -/
  | stream
  deriving DecidableEq

/-- `none`: no error. -/
def Return.wraps : Return → Option Err
  | .response => none
  | .err e => some e
  | .neverPublished .backpressure => some [.other, .backpressure]
  | .neverPublished _ | .status | .ctx _ | .undecodable | .marshal | .stream => some [.other]

def Return.retryable (r : Return) : Bool := r.wraps.any isRetryable

/-! ## Calls -/

/-- A table entry of a generation. Ghost: the `terminate` that won it. -/
structure Call where
  gen : Nat
  state : CallState
  winner : Option Op
  deriving DecidableEq

namespace Call

/-- `terminate`, at its compare-and-swap. -/
def terminate (c : Call) (op : Op) : Call :=
  if c.state ∈ op.sources then { c with state := op.target, winner := some op } else c

/-- `terminalError` and `translateResult`; `decodes` is the codec's answer. -/
def result (op : Op) (decodes : Bool) : Return :=
  match op with
  | .complete _ | .completeMsg _ => if decodes then .response else .undecodable
  | .fail st =>
    if st.code = statusCodeRequestDeclined then .err [.requestDeclined]
    else if decodes then .status
    else .undecodable
  | .cancel => .ctx .canceled
  | .deadlineExceeded => .ctx .deadlineExceeded
  | .outcomeUnknown cause | .reject cause | .failAllNotDispatched cause | .failAllDispatched cause => .err cause.err

end Call

/-! ## Callers -/

inductive Kind
  | unary
  /-- A stream opener, on a transport that reports or one that does not. -/
  | stream (reporting : Bool)
  deriving DecidableEq

/-- Where a request is at the peer. -/
inductive Wire
  | off
  | sent
  | declined
  /-- Answered by the dispatcher, no handler having run. -/
  | refused
  /-- Handed to a handler. -/
  | handled
  deriving DecidableEq

/-- The writer's intent of an enqueued `STREAM_OPEN`. -/
inductive Intent
  | none
  | queued (g : Nat)
  | pushed
  | reported
  deriving DecidableEq

/-- What follows a `Leave`. -/
inductive After
  | wait
  | answer (r : Return)
  deriving DecidableEq

inductive Pc
  | fresh
  | checked
  | entered
  | loaded (g : Nat)
  | submitted (g : Nat)
  | sending (g : Nat)
  | classifying (r : Sent)
  | leaving (k : After)
  | waiting
  | abandoning (e : CtxErr)
  | done (r : Return)
  /-- The application's code has panicked between `Enter` and `Leave`, and nothing is deferred. -/
  | panicked
  deriving DecidableEq

structure Caller where
  kind : Kind
  pc : Pc
  call : Option Call
  wire : Wire
  intent : Intent
  /-- Ghost: the generation routed at `Enter`; the `Enter`s that returned true, and the `Leave`s. -/
  admitted : Option Nat
  enters : Nat
  leaves : Nat
  deriving DecidableEq

def newCaller (kind : Kind) : Caller := ⟨kind, .fresh, none, .off, .none, none, 0, 0⟩

inductive CallerAct
  | check
  | enter
  | load
  /-- The context has ended, the request does not encode, the stream cannot be opened. -/
  | refuse (r : Return)
  /-- Sizing or marshalling the request panics, or a stream's option does. -/
  | panic
  | submit
  /-- For a stream, whether its `Publish` wins. -/
  | publish (won : Bool)
  | send (r : Sent) (onWire : Bool)
  | enqueue (ok : Bool)
  | classify
  | leave
  | receive (decodes : Bool)
  | expire
  | abandon (e : CtxErr)
  | cancel
  /-- The writer pushes an enqueued open, and reports it. -/
  | push
  | report
  /-- The peer takes the request off the wire. -/
  | decline
  | refuseDispatch
  | handle
  deriving DecidableEq

/-- What a caller's step does at the gate. -/
inductive GateOp
  | none
  | enter
  | leave
  deriving DecidableEq

/-- A step of a caller: itself after it, its act at the gate, and the generation it hands its opening frame to. -/
structure Move where
  caller : Caller
  gate : GateOp := .none
  handed : Option Nat := none

namespace Caller

/-- The errors `refuse` may return with. -/
def refusal : Kind → Return → Bool
  | .unary, .ctx _ | .unary, .marshal => true
  | .stream _, .stream => true
  | _, _ => false

/-- `sendRequest`'s classification. -/
def classify (c : Caller) (r : Sent) : Caller :=
  match r with
  | .ok => { c with pc := .leaving .wait }
  | .fillFailed => { c with call := c.call.map (·.terminate (.reject .unsent)), pc := .leaving (.answer .marshal) }
  | .ctx .deadlineExceeded =>
    { c with call := c.call.map (·.terminate .deadlineExceeded), pc := .leaving (.answer (.ctx .deadlineExceeded)) }
  | .ctx .canceled => { c with call := c.call.map (·.terminate .cancel), pc := .leaving (.answer (.ctx .canceled)) }
  | .neverPublished k =>
    { c with call := c.call.map (·.terminate (.reject .unsent)), pc := .leaving (.answer (.neverPublished k)) }
  | .unknown e => { c with call := c.call.map (·.terminate (.outcomeUnknown (.unknownSend e))), pc := .leaving .wait }

/-- `Publish` of a unary call. -/
def publish (c : Caller) (g : Nat) : Caller :=
  match c.call with
  | some x =>
    if x.state = .submitted then { c with call := some { x with state := .published }, pc := .sending g }
    else { c with pc := .leaving .wait }
  | none => { c with pc := .leaving .wait }

def step (isOpen : Bool) (routed : Option Nat) (c : Caller) (a : CallerAct) : Option Move :=
  match a with
  | .check =>
    if c.pc ≠ .fresh then none
    else if routed.isSome then some { caller := { c with pc := .checked } }
    else some { caller := { c with pc := .done (.err [.pluginUnavailable]) } }
  | .enter =>
    if c.pc ≠ .checked then none
    else if isOpen then some { caller := { c with pc := .entered, admitted := routed, enters := c.enters + 1 }, gate := .enter }
    else some { caller := { c with pc := .done (.err [.drained]) } }
  | .load =>
    if c.pc ≠ .entered then none
    else
      match routed with
      | some g => some { caller := { c with pc := .loaded g } }
      | none => some { caller := { c with pc := .leaving (.answer (.err [.pluginUnavailable])) } }
  | .refuse r =>
    match c.pc with
    | .loaded _ => if refusal c.kind r then some { caller := { c with pc := .leaving (.answer r) } } else none
    | _ => none
  | .panic =>
    match c.pc with
    | .loaded _ => some { caller := { c with pc := .panicked } }
    | _ => none
  | .submit =>
    match c.pc with
    | .loaded g =>
      some { caller := { c with
        pc := .submitted g, call := if c.kind = .unary then some ⟨g, .submitted, none⟩ else c.call } }
    | _ => none
  | .publish won =>
    match c.pc with
    | .submitted g =>
      if c.kind = .unary then some { caller := c.publish g }
      else if won then some { caller := { c with pc := .sending g } }
      else some { caller := { c with pc := .leaving (.answer .stream) } }
    | _ => none
  | .send r onWire =>
    match c.pc with
    | .sending g =>
      if c.kind = .stream true ∨ ¬ r.wire onWire then none
      else
        some {
          caller := { c with
            wire := if onWire then .sent else .off
            pc := if c.kind = .unary then .classifying r else .leaving (.answer .stream) }
          handed := some g }
    | _ => none
  | .enqueue ok =>
    match c.pc with
    | .sending g =>
      if c.kind ≠ .stream true then none
      else if ok then some { caller := { c with intent := .queued g, pc := .done .stream } }
      else some { caller := { c with pc := .leaving (.answer .stream) } }
    | _ => none
  | .classify =>
    match c.pc with
    | .classifying r => some { caller := c.classify r }
    | _ => none
  | .leave =>
    match c.pc with
    | .leaving .wait => some { caller := { c with pc := .waiting, leaves := c.leaves + 1 }, gate := .leave }
    | .leaving (.answer r) => some { caller := { c with pc := .done r, leaves := c.leaves + 1 }, gate := .leave }
    | _ => none
  | .receive decodes =>
    match c.pc, c.call.bind (·.winner) with
    | .waiting, some op => some { caller := { c with pc := .done (Call.result op decodes) } }
    | _, _ => none
  | .expire =>
    if c.pc = .waiting then some { caller := { c with call := c.call.map (·.terminate .deadlineExceeded) } } else none
  | .abandon e => if c.pc = .waiting then some { caller := { c with pc := .abandoning e } } else none
  | .cancel =>
    match c.pc with
    | .abandoning e => some { caller := { c with call := c.call.map (·.terminate .cancel), pc := .done (.ctx e) } }
    | _ => none
  | .push =>
    match c.intent with
    | .queued g => some { caller := { c with intent := .pushed, wire := .sent }, handed := some g }
    | _ => none
  | .report =>
    match c.intent with
    | .queued _ | .pushed => some { caller := { c with intent := .reported, leaves := c.leaves + 1 }, gate := .leave }
    | _ => none
  | .decline => if c.wire = .sent then some { caller := { c with wire := .declined } } else none
  | .refuseDispatch => if c.wire = .sent then some { caller := { c with wire := .refused } } else none
  | .handle => if c.wire = .sent then some { caller := { c with wire := .handled } } else none

section

variable (isOpen : Bool) (routed : Option Nat) (c : Caller)

/-- What a step of a caller can be. -/
inductive Moves : CallerAct → Move → Prop
  | checked : c.pc = .fresh → Moves .check { caller := { c with pc := .checked } }
  | unrouted : c.pc = .fresh → Moves .check { caller := { c with pc := .done (.err [.pluginUnavailable]) } }
  | entered : c.pc = .checked → isOpen = true →
    Moves .enter { caller := { c with pc := .entered, admitted := routed, enters := c.enters + 1 }, gate := .enter }
  | drained : c.pc = .checked → Moves .enter { caller := { c with pc := .done (.err [.drained]) } }
  | loaded {g : Nat} : c.pc = .entered → routed = some g → Moves .load { caller := { c with pc := .loaded g } }
  | lost : c.pc = .entered → Moves .load { caller := { c with pc := .leaving (.answer (.err [.pluginUnavailable])) } }
  | refused {g : Nat} {r : Return} : c.pc = .loaded g → Moves (.refuse r) { caller := { c with pc := .leaving (.answer r) } }
  | panicked {g : Nat} : c.pc = .loaded g → Moves .panic { caller := { c with pc := .panicked } }
  | submitted {g : Nat} : c.pc = .loaded g → c.kind = .unary →
    Moves .submit { caller := { c with pc := .submitted g, call := some ⟨g, .submitted, none⟩ } }
  | reserved {g : Nat} : c.pc = .loaded g → c.kind ≠ .unary → Moves .submit { caller := { c with pc := .submitted g } }
  | published {g : Nat} {won : Bool} : c.pc = .submitted g → c.kind = .unary → Moves (.publish won) { caller := c.publish g }
  | opened {g : Nat} {won : Bool} : c.pc = .submitted g → c.kind ≠ .unary →
    Moves (.publish won) { caller := { c with pc := .sending g } }
  | unopened {g : Nat} {won : Bool} : c.pc = .submitted g → c.kind ≠ .unary →
    Moves (.publish won) { caller := { c with pc := .leaving (.answer .stream) } }
  | sent {g : Nat} {r : Sent} {onWire : Bool} {w : Wire} : c.pc = .sending g → c.kind = .unary → (r.wire true ∨ w = .off) →
    Moves (.send r onWire) { caller := { c with wire := w, pc := .classifying r }, handed := some g }
  | streamed {g : Nat} {r : Sent} {onWire : Bool} {w : Wire} : c.pc = .sending g → c.kind ≠ .unary →
    Moves (.send r onWire) { caller := { c with wire := w, pc := .leaving (.answer .stream) }, handed := some g }
  | queued {g : Nat} {ok : Bool} : c.pc = .sending g → c.kind = .stream true →
    Moves (.enqueue ok) { caller := { c with intent := .queued g, pc := .done .stream } }
  | unqueued {g : Nat} {ok : Bool} : c.pc = .sending g → c.kind = .stream true →
    Moves (.enqueue ok) { caller := { c with pc := .leaving (.answer .stream) } }
  | classified {r : Sent} : c.pc = .classifying r → Moves .classify { caller := c.classify r }
  | left : c.pc = .leaving .wait →
    Moves .leave { caller := { c with pc := .waiting, leaves := c.leaves + 1 }, gate := .leave }
  | answered {r : Return} : c.pc = .leaving (.answer r) →
    Moves .leave { caller := { c with pc := .done r, leaves := c.leaves + 1 }, gate := .leave }
  | received {op : Op} {decodes : Bool} : c.pc = .waiting → c.call.bind (·.winner) = some op →
    Moves (.receive decodes) { caller := { c with pc := .done (Call.result op decodes) } }
  | expired : c.pc = .waiting → Moves .expire { caller := { c with call := c.call.map (·.terminate .deadlineExceeded) } }
  | abandoned {e : CtxErr} : c.pc = .waiting → Moves (.abandon e) { caller := { c with pc := .abandoning e } }
  | cancelled {e : CtxErr} : c.pc = .abandoning e →
    Moves .cancel { caller := { c with call := c.call.map (·.terminate .cancel), pc := .done (.ctx e) } }
  | pushed {g : Nat} : c.intent = .queued g →
    Moves .push { caller := { c with intent := .pushed, wire := .sent }, handed := some g }
  | reported : c.intent ≠ .none → c.intent ≠ .reported →
    Moves .report { caller := { c with intent := .reported, leaves := c.leaves + 1 }, gate := .leave }
  | taken {a : CallerAct} (w : Wire) : c.wire = .sent → Moves a { caller := { c with wire := w } }

end

theorem step_moves {isOpen : Bool} {routed : Option Nat} {c : Caller} {a : CallerAct} {m : Move}
    (hs : c.step isOpen routed a = some m) : Moves isOpen routed c a m := by
  cases a <;> simp only [step] at hs <;> (repeat' split at hs) <;> cases hs
  all_goals first
    | exact .taken _ (by assumption)
    | constructor <;> first | assumption | simp_all

end Caller

/-! ## The supervisor's goroutine -/

/-- `FailAll`'s loop over its snapshot; `second` is the attempt on a published call. -/
structure Sweep where
  gen : Nat
  cause : Cause
  rest : List Nat
  second : Bool
  deriving DecidableEq

def Sweep.op (w : Sweep) : Op := if w.second then .failAllDispatched w.cause else .failAllNotDispatched .unavailable

/-- What a teardown is of, and the stragglers its join has seen; a crash's has made none. -/
structure Teardown where
  gen : Nat
  seen : Option (List Nat)
  deriving DecidableEq

inductive HostPc
  | idle
  /-- The routing state is stored; `Open` is next, in `wireConnState` and in `Run` after it. -/
  | opening (old : Option Nat)
  | reopening (old : Nat)
  | serving
  /-- In `Close`, for a cutoff or for a teardown. -/
  | closing (ch : Nat) (td : Option Teardown)
  | shut
  /-- The cutoff's `Close` has returned its context's error. -/
  | failed
  /-- In `joinPublishedResponses`: at its top, and in `PublishedCount`. -/
  | joining (old : Nat)
  | counting (old : Nat) (final : Bool) (rest seen : List Nat)
  | stopping (td : Teardown)
  | failing (td : Teardown) (w : Sweep)
  | reaping (td : Teardown)
  deriving DecidableEq

inductive HostAct
  | wire
  | open
  | close
  | wake
  | expire
  | promote
  | look (readable : Bool)
  | giveUp
  | count
  | crash
  | stop
  | sweep
  | reap
  deriving DecidableEq

end Conn

open Conn in
structure Conn where
  /-- The gate. -/
  isOpen : Bool
  active : Int
  drained : Option Nat
  /-- The channels made, and those closed. -/
  chans : Nat
  closed : List Nat
  /-- The routing state: the generation it holds. -/
  routed : Option Nat
  gens : Nat
  /-- Each generation's read loop runs; its data plane has failed. -/
  reading : Nat → Bool
  faulted : Nat → Bool
  host : HostPc
  callers : List Caller
  /-- The `FailAll`s a data-plane fault has started. -/
  sweeps : List Sweep
  /-- Ghost: who handed an opening frame to which generation's transport; the generations retired, with the stragglers
  reported. -/
  handed : List (Nat × Nat)
  retired : List (Nat × Nat)

namespace Conn

def start : Conn where
  isOpen := false
  active := 0
  drained := none
  chans := 0
  closed := []
  routed := none
  gens := 0
  reading := fun _ => false
  faulted := fun _ => false
  host := .idle
  callers := []
  sweeps := []
  handed := []
  retired := []

/-! ## Steps -/

/-- `Enter` that returns true, and `Leave`. -/
def enter (s : Conn) : Conn := { s with active := s.active + 1 }

def leave (s : Conn) : Conn :=
  if s.active - 1 = 0 then
    { s with active := s.active - 1, closed := s.closed ++ s.drained.toList, drained := none }
  else { s with active := s.active - 1 }

def gateOp (s : Conn) : GateOp → Conn
  | .none => s
  | .enter => s.enter
  | .leave => s.leave

/-- `Close`, up to its wait; `next` is what follows a join that need not wait. -/
def shutGate (s : Conn) (td : Option Teardown) (next : HostPc) : Conn :=
  if s.active = 0 then { s with isOpen := false, host := next }
  else { s with isOpen := false, drained := some s.chans, chans := s.chans + 1, host := .closing s.chans td }

/-- The calls of a generation. -/
def callsOf (s : Conn) (g : Nat) : List Nat :=
  (List.range s.callers.length).filter fun j => (s.callers[j]?.bind (·.call)).any (·.gen == g)

def failAll (s : Conn) (g : Nat) (cause : Cause) : Sweep := ⟨g, cause, s.callsOf g, false⟩

/-- A teardown's steps after `StopAdmission`. -/
def fail (s : Conn) (td : Teardown) : HostPc := .failing td (s.failAll td.gen .tornDown)

/-- `wireConnState`, up to its `Open`; in a reload there is an old generation to retire. -/
def wire (s : Conn) (old : Option Nat) : Conn :=
  { s with
    routed := some s.gens
    gens := s.gens + 1
    reading := Function.update s.reading s.gens true
    host := .opening old }

/-- `StopAdmission`: only routing this generation still owns is cleared. -/
def stopAdmission (s : Conn) (td : Teardown) : Conn :=
  if s.routed = some td.gen then { s with routed := none }.shutGate (some td) (s.fail td)
  else { s with host := s.fail td }

/-- The current instance has ended; its teardown starts. -/
def crash (s : Conn) : Option Conn := s.routed.map fun g => s.stopAdmission ⟨g, none⟩

/-- One attempt of a sweep: the callers after it, and the loop. -/
def attempt (s : Conn) (w : Sweep) (j : Nat) (rest : List Nat) : List Caller × Sweep :=
  match s.callers[j]?.bind (·.call) with
  | some x =>
    if x.state ∈ w.op.sources then
      (s.callers.modify j fun c => { c with call := c.call.map (·.terminate w.op) }, { w with rest, second := false })
    else (s.callers, if w.second then { w with rest, second := false } else { w with second := true })
  | none => (s.callers, { w with rest, second := false })

def hostStep (s : Conn) (a : HostAct) : Option Conn :=
  match s.host with
  | .idle => if a = .wire then some (s.wire none) else none
  | .opening old =>
    if a = .open then some { s with isOpen := true, host := old.elim .serving .reopening } else none
  | .reopening old => if a = .open then some { s with isOpen := true, host := .joining old } else none
  | .serving =>
    if a = .close then some (s.shutGate none .shut)
    else if a = .crash then s.crash
    else none
  | .closing ch td =>
    match a with
    | .wake => if ch ∈ s.closed then some { s with host := td.elim .shut s.fail } else none
    | .expire =>
      some { s with drained := if s.drained = some ch then none else s.drained, host := td.elim .failed s.fail }
    | _ => none
  | .shut =>
    if a = .open then some { s with isOpen := true, host := .serving }
    else if a = .promote then some (s.wire s.routed)
    else if a = .crash then s.crash
    else none
  | .failed => if a = .open then some { s with isOpen := true, host := .serving } else none
  | .joining old =>
    match a with
    | .look true => some s
    | .look false => some { s with host := .counting old false (s.callsOf old) [] }
    | .giveUp => some { s with host := .counting old true (s.callsOf old) [] }
    | _ => none
  | .counting old final rest seen =>
    if a ≠ .count then none
    else
      match rest with
      | j :: rest =>
        let published := (s.callers[j]?.bind (·.call)).any (·.state == .published)
        some { s with host := .counting old final rest (if published then seen ++ [j] else seen) }
      | [] =>
        if final = true ∨ seen = [] then some { s with host := .stopping ⟨old, some seen⟩ }
        else some { s with host := .joining old }
  | .stopping td => if a = .stop then some (s.stopAdmission td) else none
  | .failing td w =>
    if a ≠ .sweep then none
    else
      match w.rest with
      | j :: rest => some { s with callers := (s.attempt w j rest).1, host := .failing td (s.attempt w j rest).2 }
      | [] => some { s with host := .reaping td }
  | .reaping td =>
    if a ≠ .reap then none
    else
      match td.seen with
      | some seen =>
        some { s with
          reading := Function.update s.reading td.gen false
          retired := s.retired ++ [(td.gen, seen.length)]
          host := .serving }
      | none => some { s with reading := Function.update s.reading td.gen false, host := .idle }

section

variable (s : Conn)

/-- What a step of the supervisor's goroutine can be. -/
inductive HostMoves : HostAct → Conn → Prop
  | wired : s.host = .idle → HostMoves .wire (s.wire none)
  | opened {old : Option Nat} : s.host = .opening old →
    HostMoves .open { s with isOpen := true, host := old.elim .serving .reopening }
  | reopened {old : Nat} : s.host = .reopening old → HostMoves .open { s with isOpen := true, host := .joining old }
  | resumed : s.host = .shut ∨ s.host = .failed → HostMoves .open { s with isOpen := true, host := .serving }
  | closes : s.host = .serving → HostMoves .close (s.shutGate none .shut)
  | crashed {g : Nat} : s.host = .serving ∨ s.host = .shut → s.routed = some g →
    HostMoves .crash (s.stopAdmission ⟨g, none⟩)
  | woken {ch : Nat} {td : Option Teardown} : s.host = .closing ch td → ch ∈ s.closed →
    HostMoves .wake { s with host := td.elim .shut s.fail }
  | expired {ch : Nat} {td : Option Teardown} {d : Option Nat} : s.host = .closing ch td →
    (d = none ∨ d = s.drained ∧ s.drained ≠ some ch) →
    HostMoves .expire { s with drained := d, host := td.elim .failed s.fail }
  | promoted : s.host = .shut → HostMoves .promote (s.wire s.routed)
  | readable {old : Nat} : s.host = .joining old → HostMoves (.look true) s
  | counts {a : HostAct} {old : Nat} {final : Bool} : s.host = .joining old →
    HostMoves a { s with host := .counting old final (s.callsOf old) [] }
  | counted {old j : Nat} {final : Bool} {rest seen l : List Nat} : s.host = .counting old final (j :: rest) seen →
    l = (if (s.callers[j]?.bind (·.call)).any (·.state == .published) then seen ++ [j] else seen) →
    HostMoves .count { s with host := .counting old final rest l }
  | joined {old : Nat} {final : Bool} {seen : List Nat} : s.host = .counting old final [] seen →
    HostMoves .count { s with host := .stopping ⟨old, some seen⟩ }
  | rejoins {old : Nat} {final : Bool} {seen : List Nat} : s.host = .counting old final [] seen →
    HostMoves .count { s with host := .joining old }
  | stops {td : Teardown} : s.host = .stopping td → HostMoves .stop (s.stopAdmission td)
  | fails {td : Teardown} {w : Sweep} {j : Nat} {rest : List Nat} : s.host = .failing td w → w.rest = j :: rest →
    HostMoves .sweep { s with callers := (s.attempt w j rest).1, host := .failing td (s.attempt w j rest).2 }
  | swept {td : Teardown} {w : Sweep} : s.host = .failing td w → HostMoves .sweep { s with host := .reaping td }
  | retired {td : Teardown} {seen : List Nat} : s.host = .reaping td → td.seen = some seen → HostMoves .reap { s with
      reading := Function.update s.reading td.gen false
      retired := s.retired ++ [(td.gen, seen.length)]
      host := .serving }
  | reaped {td : Teardown} : s.host = .reaping td →
    HostMoves .reap { s with reading := Function.update s.reading td.gen false, host := .idle }

end

theorem hostStep_moves {s t : Conn} {a : HostAct} (hs : s.hostStep a = some t) : HostMoves s a t := by
  unfold hostStep at hs
  (repeat' split at hs) <;> first | cases hs | obtain ⟨g, hr, rfl⟩ := Option.map_eq_some_iff.mp hs
  all_goals
    try simp only [ne_eq, not_not] at *
    subst_vars
    constructor <;> first | assumption | simp_all

inductive Act
  | spawn (kind : Kind)
  | caller (j : Nat) (a : CallerAct)
  /-- The read loop dispatches an answer, or fails the call of one it cannot take. -/
  | reply (j : Nat) (op : Op)
  /-- The data plane fails: the read loop exits, or an opener escalates. -/
  | fault (g : Nat) (exits : Bool) (cause : Err)
  | sweep (i : Nat)
  | host (a : HostAct)
  deriving DecidableEq

/-- The answers to a request, by what became of it: a decline has its own code, and no other answer has. -/
def answers : Wire → Op → Bool
  | .handled, .complete _ | .handled, .completeMsg _ => true
  | .handled, .fail st | .refused, .fail st => st.code != statusCodeRequestDeclined
  | .declined, .fail st => st.code == statusCodeRequestDeclined
  | .handled, .outcomeUnknown (.discarded _) | .refused, .outcomeUnknown (.discarded _)
  | .declined, .outcomeUnknown (.discarded _) => true
  | _, _ => false

/-- What `Server.answerDeclined` sends answers a decline. -/
theorem answers_declined (callID : UInt64) (reason : Bytes) :
    ∀ st ∈ (declinedStatusFrame callID reason).status, answers .declined (.fail st) = true := by
  rintro st ⟨⟩
  rfl

/-- Nothing `dispatchUnary` sends answers one. -/
theorem answers_dispatchUnary {M : Type} {services : UInt64 → Option ServiceDesc} {f : Frame} {req : Request M}
    {recvAt before after : Int} {out : HandlerOutcome M} {env : ResponseEnvelope M} {st : FrameStatus}
    (henv : env ∈ dispatchUnary services f req recvAt before after out) (hst : env.frame.status = some st) :
    answers .handled (.fail st) = true ∧ answers .refused (.fail st) = true ∧ answers .declined (.fail st) = false := by
  suffices hcode : st.code ≠ statusCodeRequestDeclined by simp [answers, hcode]
  simp only [dispatchUnary] at henv
  repeat' split at henv
  all_goals simp only [List.mem_singleton, List.not_mem_nil] at henv
  all_goals subst henv; cases hst
  all_goals first
    | exact ServiceDesc.handle_code ‹_›
    | exact (by decide : statusCodeInternal ≠ statusCodeRequestDeclined)
    | exact (by decide : statusCodeServiceNotFound ≠ statusCodeRequestDeclined)

def callerStep (s : Conn) (j : Nat) (a : CallerAct) : Option Conn :=
  match s.callers[j]? with
  | none => none
  | some c =>
    (c.step s.isOpen s.routed a).map fun m =>
      { s.gateOp m.gate with
        callers := s.callers.set j m.caller
        handed := s.handed ++ (m.handed.map ((j, ·))).toList }

def step (s : Conn) : Act → Option Conn
  | .spawn kind => some { s with callers := s.callers ++ [newCaller kind] }
  | .caller j a => s.callerStep j a
  | .reply j op =>
    match s.callers[j]? with
    | none => none
    | some c =>
      match c.call with
      | none => none
      | some x =>
        if s.reading x.gen ∧ answers c.wire op then
          some { s with callers := s.callers.set j { c with call := some (x.terminate op) } }
        else none
  | .fault g exits cause =>
    if s.reading g then
      some { s with
        reading := if exits then Function.update s.reading g false else s.reading
        faulted := Function.update s.faulted g true
        sweeps := s.sweeps ++ [s.failAll g (.connFault cause)] }
    else none
  | .sweep i =>
    match s.sweeps[i]? with
    | none => none
    | some w =>
      match w.rest with
      | [] => none
      | j :: rest => some { s with callers := (s.attempt w j rest).1, sweeps := s.sweeps.set i (s.attempt w j rest).2 }
  | .host a => s.hostStep a

end Conn

end Styx
