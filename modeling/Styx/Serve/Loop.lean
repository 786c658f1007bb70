/-
The plugin's serve loop: one frame received, dispatched and answered at a time.

A reply that cannot be encoded is answered with a status and costs its call only.
A reply the transport will not take, because its body is above the direction's
limit or because a rejecting ring is full, is read as the peer having gone: the
loop returns without an error, the call's obligation stays open and nothing
answers the host (`reply_refused`). What a reply needs is room (`Room`); where
every reply has it, every request is answered and the loop goes on
(`served_iff_room`).

The loop runs on one goroutine, so one iteration is one step. What it asks of the
outside (the frame, the clock, the handler, the transport's answer to each send) is
its `Io`.
-/
import Styx.Lib.Machine
import Styx.Rpc.Dispatch

namespace Styx

namespace Serve

open Machine

/-! ## Decoding -/

/-- What building a request message and decoding into it comes to. -/
inductive Decode (M : Type)
  | msg (m : M)
  | error (text : Bytes)
  | panicked (text : Bytes)

def maxDecodeFaultBytes : Nat := 512

def isRuneStart (b : UInt8) : Bool := b &&& 0xC0 != 0x80

/-- The cut, moved back to the start of a rune. -/
def runeCut (detail : Bytes) : Nat → Nat
  | 0 => 0
  | cut + 1 => if isRuneStart (detail.getD (cut + 1) 0) then cut + 1 else runeCut detail cut

/-- A decode failure's text, bounded. -/
def decodeFaultText (detail : Bytes) : Bytes :=
  if detail.length ≤ maxDecodeFaultBytes then detail
  else detail.take (runeCut detail maxDecodeFaultBytes) ++ utf8 "... (truncated)"

/-! ## The session's wiring -/

/-- The fixed parts of a serving session, over its message type. -/
structure Server (M : Type) where
  services : UInt64 → Option ServiceDesc
  /-- The request type of a servable method, decoded from a payload. -/
  unmarshal : UInt64 → UInt64 → Bytes → Decode M
  marshal : M → Except Bytes Bytes
  /-- Transport and codec can encode in place: the size, and how the fill ends. -/
  filler : M → Option (Nat × Except Bytes Bytes)
  maxPayload : Nat
  streaming : Bool
  continueAfterPanic : Bool

variable {M : Type}

def Server.newRequest (srv : Server M) (service method : UInt64) : Bool :=
  (srv.services service).any fun h => (h.methods method).isSome

def Server.decodeUnaryRequest (srv : Server M) (f : Frame) : Request M :=
  if srv.newRequest f.service f.method then
    match srv.unmarshal f.service f.method f.payload with
    | .msg m => ⟨some m, []⟩
    | .error text => ⟨none, decodeFaultText text⟩
    | .panicked text => ⟨none, decodeFaultText (utf8 "panicked: " ++ text)⟩
  else ⟨none, []⟩

/-! ## Sends -/

/-- What the transport has to say to one send, its size apart. -/
inductive Answer
  | accepted
  | backpressure
  | ctxDone
  | poisoned
  | closed
  deriving DecidableEq

inductive SendErr
  | payloadTooLarge
  | backpressure
  | ctxDone
  | poisoned
  | closed
  deriving DecidableEq

/-- Admission: the region's state, the size, and then the writer's own answer. -/
def Server.admission (srv : Server M) (size : Nat) : Answer → Option SendErr
  | .closed => some .closed
  | .poisoned => some .poisoned
  | .accepted => if srv.maxPayload < size then some .payloadTooLarge else none
  | .backpressure => if srv.maxPayload < size then some .payloadTooLarge else some .backpressure
  | .ctxDone => if srv.maxPayload < size then some .payloadTooLarge else some .ctxDone

/-- `Send`: the frame the transport has accepted. -/
def Server.send (srv : Server M) (f : Frame) (a : Answer) : Except SendErr Frame :=
  match srv.admission (wirePayload f).length a with
  | some e => .error e
  | none => .ok f

/-- A reply goes out by fill where it can, and a failure to encode it is answered. -/
def Server.sendUnaryResponse (srv : Server M) (env : ResponseEnvelope M) (first second : Answer) :
    Except SendErr Frame :=
  match env.msg with
  | none => srv.send env.frame first
  | some m =>
    if env.frame.kind ≠ .unaryResp then srv.send env.frame first
    else
      match srv.filler m with
      | some (size, filled) =>
        match srv.admission size first with
        | some e => .error e
        | none =>
          match filled with
          | .ok payload => .ok { env.frame with payload }
          | .error text => srv.send (internalStatusFrame env.frame text) second
      | none =>
        match srv.marshal m with
        | .error merr => srv.send (internalStatusFrame env.frame merr) first
        | .ok payload => srv.send { env.frame with payload } first

/-! ## The loop -/

/-- What became of a stream frame. -/
inductive Routed
  | ok
  | fenced
  | violation
  deriving DecidableEq

/-- The outside's part in one iteration. -/
structure Io (M : Type) where
  recvAt : Int
  /-- The clock before the handler and after it. -/
  before : Int
  after : Int
  out : HandlerOutcome M
  /-- The transport's answers: to the reply, and to the status that stands in for it. -/
  first : Answer
  second : Answer
  /-- The CANCEL's call is a live stream. -/
  live : Bool
  routed : Routed

/-- What the receive comes to. -/
inductive Inbound
  | frame (f : Frame)
  /-- A frame taken and declined; the fault names its call. -/
  | consumeFault (callID : UInt64) (kind : FrameKind) (detail : Bytes)
  | frameLocal
  | poisoned
  /-- The data plane has failed under a healthy part of it. -/
  | ioError
  /-- Peer close, local close, or the context. -/
  | closed

inductive LoopErr
  | poisoned
  | dataPlaneFailed
  | handlerPanicked
  deriving DecidableEq

/-- One consumed request and what was accepted for it. -/
structure Entry where
  request : Frame
  recvAt : Int
  before : Int
  after : Int
  replies : List Frame

structure State where
  /-- Open response obligations, by call. -/
  obligations : UInt64 → Bool
  tainted : Bool
  /-- What the loop has returned, if it has. -/
  ended : Option (Option LoopErr)
  /-- Ghost: the requests consumed so far. -/
  log : List Entry

def State.finish (s : State) (e : Option LoopErr) : State := { s with ended := some e }

/-- `terminalLoopExit` for a send that failed on a data plane without a recorded failure. -/
def sendExit : SendErr → Option LoopErr
  | .poisoned => some .poisoned
  | _ => none

def isStreamKind : FrameKind → Bool
  | .streamOpen | .streamMsg | .streamAck | .streamClose | .streamErr | .streamChunk => true
  | _ => false

/-- A handler of this request runs and panics, and the policy does not carry on. -/
def Server.taints (srv : Server M) (f : Frame) (io : Io M) : Bool :=
  !srv.continueAfterPanic && (srv.decodeUnaryRequest f).msg.isSome && !elapsed f io.recvAt io.before &&
    io.out matches .panicked _

/-- The replies of one request, in order, until one is not accepted. -/
def Server.sendAll (srv : Server M) (first second : Answer) :
    List (ResponseEnvelope M) → List Frame × Option SendErr
  | [] => ([], none)
  | env :: envs =>
    match srv.sendUnaryResponse env first second with
    | .error e => ([], some e)
    | .ok f =>
      let (fs, e) := srv.sendAll first second envs
      (f :: fs, e)

/-- The unary part of `dispatchNonStreamFrame`. -/
def Server.dispatchUnaryFrame (srv : Server M) (s : State) (f : Frame) (io : Io M) : State :=
  if s.tainted then s.finish (some .handlerPanicked)
  else
    let s : State := { s with obligations := Function.update s.obligations f.callID true }
    let envs := dispatchUnary srv.services f (srv.decodeUnaryRequest f) io.recvAt io.before io.after io.out
    let s : State := { s with tainted := srv.taints f io }
    let (replies, e) := srv.sendAll io.first io.second envs
    let s : State := { s with log := s.log ++ [⟨f, io.recvAt, io.before, io.after, replies⟩] }
    match e with
    | some .poisoned => s.finish (some .poisoned)
    | some _ => s.finish none
    | none =>
      let s : State := { s with obligations := Function.update s.obligations f.callID false }
      if s.tainted then s.finish (some .handlerPanicked) else s

/-- `answerDeclinedRequest`: the obligation spans the send whatever it comes to. -/
def Server.answerDeclined (srv : Server M) (s : State) (callID : UInt64) (detail : Bytes) (io : Io M) : State :=
  let s : State := { s with obligations := Function.update s.obligations callID false }
  let reply := declinedStatusFrame callID detail
  let entry (replies : List Frame) : Entry :=
    ⟨{ reply with kind := .unaryReq, status := none }, io.recvAt, io.before, io.after, replies⟩
  match srv.send reply io.first with
  | .ok r => { s with log := s.log ++ [entry [r]] }
  | .error e => { s with log := s.log ++ [entry []] }.finish (sendExit e)

/-- `serveOneFrame`. -/
def Server.serveOneFrame (srv : Server M) (s : State) (m : Inbound) (io : Io M) : State :=
  match m with
  | .consumeFault callID kind detail => if kind = .unaryReq then srv.answerDeclined s callID detail io else s
  | .frameLocal => s
  | .poisoned => s.finish (some .poisoned)
  | .ioError => s.finish (some .dataPlaneFailed)
  | .closed => s.finish none
  | .frame f =>
    if s.tainted then s.finish (some .handlerPanicked)
    else if isStreamKind f.kind then
      if srv.streaming then
        match io.routed with
        | .ok => s
        | .fenced => s.finish (some .handlerPanicked)
        | .violation => s.finish (some .poisoned)
      else s.finish (some .poisoned)
    else if f.kind = .cancel ∧ srv.streaming ∧ io.live then
      if io.routed = .violation then s.finish (some .poisoned) else s
    else if f.kind = .cancel ∧ ¬ srv.streaming ∧ f.control ≠ 0 then s.finish (some .poisoned)
    else if f.kind = .unaryReq then srv.dispatchUnaryFrame s f io
    else s

/-- `runServeLoop`, one iteration. -/
def Server.step (srv : Server M) (s : State) (a : Inbound × Io M) : Option State :=
  if s.ended.isSome then none else some (srv.serveOneFrame s a.1 a.2)

/-! ## The property -/

/-- The request has its one reply, or its positive budget has run out. -/
def Entry.Answered (e : Entry) : Prop :=
  (∃ r, e.replies = [r] ∧ r.callID = e.request.callID ∧ (r.kind = .unaryResp ∨ r.kind = .unaryErr)) ∨
    (e.replies = [] ∧ 0 < e.request.budget ∧
      (e.recvAt + e.request.budget ≤ e.before ∨ e.recvAt + e.request.budget ≤ e.after))

/-- Every consumed request is answered and its obligation closed, and the loop has
not returned as if the peer had gone. -/
structure Served (s : State) : Prop where
  answered : ∀ e ∈ s.log, e.Answered
  closed : ∀ e ∈ s.log, s.obligations e.request.callID = false
  ended : s.ended ≠ some none

/-- An open, healthy transport, a live context and no taint. -/
def Server.Healthy (srv : Server M) : Inbound × Io M → Prop
  | (m, io) =>
    (io.first = .accepted ∨ io.first = .backpressure) ∧ (io.second = .accepted ∨ io.second = .backpressure) ∧
      match m with
      | .poisoned | .ioError | .closed => False
      | .frame f => srv.taints f io = false
      | _ => True

def Server.Fits (srv : Server M) (s : FrameStatus) : Prop := (encodeStatus (some s)).length ≤ srv.maxPayload

/-- There is room for a response: for its encoding, or for the status of a failure to encode it. -/
def Server.RoomFor (srv : Server M) (m : M) (second : Answer) : Prop :=
  match srv.filler m with
  | some (size, .ok _) => size ≤ srv.maxPayload
  | some (size, .error text) =>
    size ≤ srv.maxPayload ∧ srv.Fits ⟨statusCodeInternal, text, []⟩ ∧ second = .accepted
  | none =>
    match srv.marshal m with
    | .ok payload => payload.length ≤ srv.maxPayload
    | .error merr => srv.Fits ⟨statusCodeInternal, merr, []⟩

/-- There is room for what answers the request, and the ring takes it. -/
def Server.Room (srv : Server M) (f : Frame) (io : Io M) : Prop :=
  io.first = .accepted ∧
    match srv.services f.service with
    | none => srv.Fits ⟨statusCodeServiceNotFound, utf8 "service not found", []⟩
    | some h =>
      let req := srv.decodeUnaryRequest f
      if req.decodeFault ≠ [] then
        srv.Fits ⟨statusCodeInternal, utf8 "request decode failed: " ++ req.decodeFault, []⟩
      else
        match h.handle f.method req.msg io.out with
        | .status s => srv.Fits s
        | .resp (some m) => srv.RoomFor m io.second
        | _ => True

/-- The request is refused before any handler runs, by its service or its bytes. -/
def Server.refuses (srv : Server M) (f : Frame) : Bool :=
  (srv.services f.service).isNone || (srv.decodeUnaryRequest f).decodeFault != []

/-- A reply is owed: the budget has not run out at either reading of the clock; the
second one is made only after a handler. -/
def Server.owes (srv : Server M) (f : Frame) (io : Io M) : Bool :=
  !elapsed f io.recvAt io.before && (srv.refuses f || !elapsed f io.recvAt io.after)

/-- A healthy step in which a reply, where one is owed, has room. -/
def Server.Roomy (srv : Server M) (_ : State) (a : Inbound × Io M) : Prop :=
  srv.Healthy a ∧
    match a with
    | (.frame f, io) => f.kind = .unaryReq → srv.owes f io = true → srv.Room f io
    | (.consumeFault _ kind detail, io) =>
      kind = .unaryReq → io.first = .accepted ∧ srv.Fits ⟨statusCodeRequestDeclined, detail, []⟩
    | _ => True

/-! ## One request -/

variable {srv : Server M} {s t : State} {f r : Frame} {io : Io M} {env : ResponseEnvelope M}

theorem admission_none {size : Nat} {a : Answer} (h : a = .accepted ∨ a = .backpressure) :
    srv.admission size a = none ↔ a = .accepted ∧ size ≤ srv.maxPayload := by
  rcases h with rfl | rfl
  · simp only [Server.admission, true_and]
    split <;> simp <;> omega
  · simp only [Server.admission, reduceCtorEq, false_and, iff_false]
    split <;> simp

theorem send_ok {a : Answer} (h : a = .accepted ∨ a = .backpressure) :
    srv.send f a = .ok r ↔ (a = .accepted ∧ (wirePayload f).length ≤ srv.maxPayload) ∧ r = f := by
  rw [← admission_none h]
  simp only [Server.send]
  split
  · next e he => simp [he]
  · next he => simp [he, eq_comm]

/-- A frame that answers a request. -/
def RepliesTo (f r : Frame) : Prop := r.callID = f.callID ∧ (r.kind = .unaryResp ∨ r.kind = .unaryErr)

theorem send_status {st : FrameStatus} {a : Answer} (h : a = .accepted ∨ a = .backpressure) :
    ((∃ r, srv.send (statusFrame f st) a = .ok r) ↔ a = .accepted ∧ srv.Fits st) ∧
      ∀ r, srv.send (statusFrame f st) a = .ok r → RepliesTo f r := by
  simp only [send_ok h]
  refine ⟨⟨?_, fun hr => ⟨_, hr, rfl⟩⟩, ?_⟩
  · rintro ⟨r, hr, -⟩
    exact hr
  · rintro r ⟨-, rfl⟩
    exact ⟨rfl, .inr rfl⟩

theorem send_response {m : M} (h₁ : io.first = .accepted ∨ io.first = .backpressure)
    (h₂ : io.second = .accepted ∨ io.second = .backpressure) :
    ((∃ r, srv.sendUnaryResponse ⟨responseFrame f, some m⟩ io.first io.second = .ok r) ↔
        io.first = .accepted ∧ srv.RoomFor m io.second) ∧
      ∀ r, srv.sendUnaryResponse ⟨responseFrame f, some m⟩ io.first io.second = .ok r → RepliesTo f r := by
  simp only [Server.sendUnaryResponse, Server.RoomFor, responseFrame, ne_eq, not_true, if_false]
  cases hfill : srv.filler m with
  | some fill =>
    obtain ⟨size, filled⟩ := fill
    dsimp only
    have hadm : srv.admission size io.first = none ↔ io.first = .accepted ∧ size ≤ srv.maxPayload :=
      admission_none h₁
    cases had : srv.admission size io.first with
    | some e =>
      have hno : ¬ (io.first = .accepted ∧ size ≤ srv.maxPayload) := by simp [← hadm, had]
      simp only [reduceCtorEq, exists_false, false_iff, false_implies, implies_true, and_true]
      cases filled with
      | ok payload => exact hno
      | error text => exact fun h => hno ⟨h.1, h.2.1⟩
    | none =>
      obtain ⟨hacc, hsize⟩ := hadm.mp had
      cases filled with
      | ok payload => simp [RepliesTo, hacc, hsize]
      | error text =>
        have hst := @send_status M srv (responseFrame f) ⟨statusCodeInternal, text, []⟩ io.second h₂
        refine ⟨hst.1.trans ?_, hst.2⟩
        simp [hacc, hsize, and_comm]
  | none =>
    cases hm : srv.marshal m with
    | ok payload =>
      simp only [send_ok h₁, wirePayload, carriesStatusBody]
      refine ⟨?_, ?_⟩
      · simp
      · rintro r ⟨-, rfl⟩
        exact ⟨rfl, .inl rfl⟩
    | error merr => exact @send_status M srv (responseFrame f) _ _ h₁

/-- **Where a reply is owed the dispatcher hands over one**, and it goes out exactly
if there is room for it. -/
theorem dispatch_owed (h₁ : io.first = .accepted ∨ io.first = .backpressure)
    (h₂ : io.second = .accepted ∨ io.second = .backpressure) (ho : srv.owes f io = true) :
    ∃ env, dispatchUnary srv.services f (srv.decodeUnaryRequest f) io.recvAt io.before io.after io.out = [env] ∧
      ((∃ r, srv.sendUnaryResponse env io.first io.second = .ok r) ↔ srv.Room f io) ∧
      ∀ r, srv.sendUnaryResponse env io.first io.second = .ok r → RepliesTo f r := by
  simp only [Server.owes, Server.refuses, Bool.and_eq_true, Bool.not_eq_true', Bool.or_eq_true, bne_iff_ne] at ho
  simp only [dispatchUnary, Server.Room, ho.1, Bool.false_eq_true, if_false]
  have status : ∀ st, ((∃ r, srv.sendUnaryResponse (statusEnvelope f st) io.first io.second = .ok r) ↔
      io.first = .accepted ∧ srv.Fits st) ∧
        ∀ r, srv.sendUnaryResponse (statusEnvelope f st) io.first io.second = .ok r → RepliesTo f r :=
    fun st => send_status h₁
  cases hsvc : srv.services f.service with
  | none => exact ⟨_, rfl, status _⟩
  | some h =>
    by_cases hfault : (srv.decodeUnaryRequest f).decodeFault = []
    · have hafter : elapsed f io.recvAt io.after = false := by simpa [hsvc, hfault] using ho.2
      simp only [hfault, hafter, ne_eq, not_true, Bool.false_eq_true, if_false]
      cases hh : h.handle f.method (srv.decodeUnaryRequest f).msg io.out with
      | status st => exact ⟨_, rfl, status st⟩
      | err ended text => exact absurd hh ServiceDesc.handle_ne_err
      | resp m =>
        refine ⟨_, rfl, ?_⟩
        cases m with
        | some m => exact send_response h₁ h₂
        | none =>
          simp only [Server.sendUnaryResponse, send_ok h₁, responseFrame, wirePayload, carriesStatusBody]
          refine ⟨by simp, ?_⟩
          rintro r ⟨-, rfl⟩
          exact ⟨rfl, .inl rfl⟩
    · simp only [hfault, ne_eq, not_false_eq_true, if_true]
      exact ⟨_, rfl, status _⟩

theorem dispatch_not_owed (ho : srv.owes f io = false) :
    dispatchUnary srv.services f (srv.decodeUnaryRequest f) io.recvAt io.before io.after io.out = [] ∧
      (elapsed f io.recvAt io.before = true ∨ elapsed f io.recvAt io.after = true) := by
  simp only [Server.owes, Server.refuses, Bool.and_eq_false_iff, Bool.not_eq_false', Bool.or_eq_false_iff,
    Option.isNone_eq_false_iff, bne_eq_false_iff_eq] at ho
  rcases ho with hb | ⟨⟨hsvc, hfault⟩, ha⟩
  · exact ⟨by simp [dispatchUnary, hb], .inl hb⟩
  · refine ⟨?_, .inr ha⟩
    obtain ⟨h, hh⟩ := Option.isSome_iff_exists.mp hsvc
    simp [dispatchUnary, hh, hfault, ha]

/-- The state after a request whose reply, if one was owed, has gone out. -/
def State.done (s : State) (f : Frame) (io : Io M) (replies : List Frame) : State :=
  { s with
    obligations := Function.update (Function.update s.obligations f.callID true) f.callID false
    tainted := false
    log := s.log ++ [⟨f, io.recvAt, io.before, io.after, replies⟩] }

theorem frame_not_owed (hs : s.tainted = false) (ht : srv.taints f io = false) (ho : srv.owes f io = false) :
    srv.dispatchUnaryFrame s f io = s.done f io [] := by
  simp [Server.dispatchUnaryFrame, hs, ht, (dispatch_not_owed ho).1, Server.sendAll, State.done]

theorem frame_room (hs : s.tainted = false) (ht : srv.taints f io = false)
    (henv : dispatchUnary srv.services f (srv.decodeUnaryRequest f) io.recvAt io.before io.after io.out = [env])
    (hr : srv.sendUnaryResponse env io.first io.second = .ok r) : srv.dispatchUnaryFrame s f io = s.done f io [r] := by
  simp [Server.dispatchUnaryFrame, hs, ht, henv, hr, Server.sendAll, State.done]

theorem frame_refused {e : SendErr} (hs : s.tainted = false)
    (henv : dispatchUnary srv.services f (srv.decodeUnaryRequest f) io.recvAt io.before io.after io.out = [env])
    (hr : srv.sendUnaryResponse env io.first io.second = .error e) : (srv.dispatchUnaryFrame s f io).ended ≠ none ∧
      (srv.dispatchUnaryFrame s f io).obligations f.callID = true := by
  simp only [Server.dispatchUnaryFrame, hs, henv, Server.sendAll, hr, Bool.false_eq_true, if_false]
  cases e <;> simp [State.finish]

/-! ## Whole runs -/

structure Inv (s : State) : Prop where
  served : Served s
  tainted : s.tainted = false

theorem Inv.done (hi : Inv s) {replies : List Frame}
    (ha : Entry.Answered ⟨f, io.recvAt, io.before, io.after, replies⟩) : Inv (s.done f io replies) := by
  refine ⟨⟨fun e he => ?_, fun e he => ?_, hi.served.ended⟩, rfl⟩
  · rcases List.mem_append.mp he with he | he
    · exact hi.served.answered e he
    · exact List.mem_singleton.mp he ▸ ha
  · simp only [State.done, Function.update_apply]
    split
    · rfl
    · next hne =>
      rcases List.mem_append.mp he with he | he
      · exact hi.served.closed e he
      · exact absurd (congrArg (·.request.callID) (List.mem_singleton.mp he)) hne

theorem Inv.finish (hi : Inv s) (e : LoopErr) : Inv (s.finish (some e)) :=
  ⟨⟨hi.served.answered, hi.served.closed, by simp [State.finish]⟩, hi.tainted⟩

theorem Inv.unary (hi : Inv s) (hg : srv.Roomy s (.frame f, io)) (hk : f.kind = .unaryReq) :
    Inv (srv.dispatchUnaryFrame s f io) := by
  obtain ⟨⟨h₁, h₂, ht⟩, hroom⟩ := hg
  cases ho : srv.owes f io with
  | false =>
    rw [frame_not_owed hi.tainted ht ho]
    refine hi.done (.inr ⟨rfl, ?_⟩)
    rcases (dispatch_not_owed ho).2 with he | he
    · exact ⟨(elapsed_iff.mp he).1, .inl (elapsed_iff.mp he).2⟩
    · exact ⟨(elapsed_iff.mp he).1, .inr (elapsed_iff.mp he).2⟩
  | true =>
    obtain ⟨env, henv, hiff, hrep⟩ := dispatch_owed h₁ h₂ ho
    obtain ⟨r, hr⟩ := hiff.mpr (hroom hk ho)
    rw [frame_room hi.tainted ht henv hr]
    exact hi.done (.inl ⟨r, rfl, hrep r hr⟩)

/-- A declined request is answered, and the loop goes on, exactly if there is room. -/
theorem declined_ok {callID : UInt64} {detail : Bytes} (hi : Inv s) (hn : s.ended = none)
    (h₁ : io.first = .accepted ∨ io.first = .backpressure) :
    (io.first = .accepted ∧ srv.Fits ⟨statusCodeRequestDeclined, detail, []⟩ →
        Inv (srv.answerDeclined s callID detail io) ∧ (srv.answerDeclined s callID detail io).ended = none) ∧
      ((srv.answerDeclined s callID detail io).ended = none →
        io.first = .accepted ∧ srv.Fits ⟨statusCodeRequestDeclined, detail, []⟩) := by
  have hsend : ∀ r, srv.send (declinedStatusFrame callID detail) io.first = .ok r ↔
      (io.first = .accepted ∧ srv.Fits ⟨statusCodeRequestDeclined, detail, []⟩) ∧
        r = declinedStatusFrame callID detail := fun r => send_ok h₁
  refine ⟨fun hroom => ?_, fun hend => ?_⟩
  · simp only [Server.answerDeclined, (hsend _).mpr ⟨hroom, rfl⟩]
    refine ⟨⟨⟨fun e he => ?_, fun e he => ?_, hi.served.ended⟩, hi.tainted⟩, hn⟩
    · rcases List.mem_append.mp he with he | he
      · exact hi.served.answered e he
      · exact List.mem_singleton.mp he ▸ .inl ⟨_, rfl, rfl, .inr rfl⟩
    · simp only [Function.update_apply]
      split
      · rfl
      · next hne =>
        rcases List.mem_append.mp he with he | he
        · exact hi.served.closed e he
        · exact absurd (congrArg (·.request.callID) (List.mem_singleton.mp he)) hne
  · simp only [Server.answerDeclined] at hend
    split at hend
    · next r hr => exact ((hsend r).mp hr).1
    · simp [State.finish] at hend

theorem step_some {a : Inbound × Io M} (h : srv.step s a = some t) :
    s.ended = none ∧ srv.serveOneFrame s a.1 a.2 = t := by
  obtain ⟨hn, h⟩ := unless_some h
  exact ⟨by simpa using hn, Option.some.inj h⟩

theorem Inv.step {a : Inbound × Io M} (hi : Inv s) (hg : srv.Roomy s a) (h : srv.step s a = some t) : Inv t := by
  obtain ⟨m, io⟩ := a
  obtain ⟨hn, rfl⟩ := step_some h
  cases m with
  | poisoned | ioError | closed => exact hg.1.2.2.elim
  | frameLocal => exact hi
  | consumeFault callID kind detail =>
    simp only [Server.serveOneFrame]
    split
    · next hk => exact ((declined_ok hi hn hg.1.1).1 (hg.2 hk)).1
    · exact hi
  | frame f =>
    simp only [Server.serveOneFrame, hi.tainted, Bool.false_eq_true, if_false]
    split
    · split
      · split
        · exact hi
        · exact hi.finish _
        · exact hi.finish _
      · exact hi.finish _
    split
    · split
      · exact hi.finish _
      · exact hi
    split
    · exact hi.finish _
    split
    · next hk => exact hi.unary hg hk
    · exact hi

structure Start (s : State) : Prop where
  log : s.log = []
  tainted : s.tainted = false
  ended : s.ended = none

theorem Start.inv (h : Start s) : Inv s :=
  ⟨⟨by simp [h.log], by simp [h.log], by simp [h.ended]⟩, h.tainted⟩

def Consumes : Inbound → Prop
  | .frame f => f.kind = .unaryReq
  | .consumeFault _ kind _ => kind = .unaryReq
  | _ => False

theorem room_of_served (hi : Inv s) (h₁ : io.first = .accepted ∨ io.first = .backpressure)
    (h₂ : io.second = .accepted ∨ io.second = .backpressure) (ho : srv.owes f io = true)
    (hn : (srv.dispatchUnaryFrame s f io).ended = none) : srv.Room f io := by
  obtain ⟨env, henv, hiff, -⟩ := dispatch_owed h₁ h₂ ho
  cases hr : srv.sendUnaryResponse env io.first io.second with
  | ok r => exact hiff.mp ⟨r, hr⟩
  | error e => exact absurd hn (frame_refused hi.tainted henv hr).1

theorem running_of_room (hi : Inv s) (hn : s.ended = none) (hg : srv.Roomy s (.frame f, io))
    (hk : f.kind = .unaryReq) : (srv.dispatchUnaryFrame s f io).ended = none := by
  obtain ⟨⟨h₁, h₂, ht⟩, hroom⟩ := hg
  cases ho : srv.owes f io with
  | false => rw [frame_not_owed hi.tainted ht ho]; exact hn
  | true =>
    obtain ⟨env, henv, hiff, -⟩ := dispatch_owed h₁ h₂ ho
    obtain ⟨r, hr⟩ := hiff.mpr (hroom hk ho)
    rw [frame_room hi.tainted ht henv hr]
    exact hn

/-- **A reply costs its call only, exactly if it has room.** Where each reply owed has room, every request consumed has its one
reply or has run out of its budget; and the next is served if and only if its reply has room. -/
theorem served_iff_room (hs : Start s) (h : Reach srv.step srv.Roomy s t) :
    Served t ∧ ∀ m io u, Consumes m → srv.Healthy (m, io) → srv.step t (m, io) = some u →
      ((Served u ∧ u.ended = none) ↔ srv.Roomy t (m, io)) := by
  have hi : Inv t := h.invariant hs.inv fun hi hg hstep => hi.step hg hstep
  refine ⟨hi.served, fun m io u hc hh hstep => ?_⟩
  have hinv : srv.Roomy t (m, io) → Served u := fun hg => (hi.step hg hstep).served
  obtain ⟨hn, rfl⟩ := step_some hstep
  refine ⟨?_, fun hg => ⟨hinv hg, ?_⟩⟩
  · rintro ⟨-, hend⟩
    refine ⟨hh, ?_⟩
    cases m with
    | frame f =>
      intro hk ho
      simp only [Server.serveOneFrame, hi.tainted, show f.kind = .unaryReq from hk, isStreamKind, Bool.false_eq_true,
        if_false, if_true, reduceCtorEq, false_and] at hend
      exact room_of_served hi hh.1 hh.2.1 ho hend
    | consumeFault callID kind detail =>
      intro hk
      simp only [Server.serveOneFrame, if_pos hk] at hend
      exact (declined_ok hi hn hh.1).2 hend
    | _ => trivial
  · cases m with
    | frame f =>
      simp only [Server.serveOneFrame, hi.tainted, show f.kind = .unaryReq from hc, isStreamKind, Bool.false_eq_true,
        if_false, if_true, reduceCtorEq, false_and]
      exact running_of_room hi hn hg hc
    | consumeFault callID kind detail =>
      simp only [Server.serveOneFrame, if_pos (show kind = .unaryReq from hc)]
      exact ((declined_ok hi hn hh.1).1 (hg.2 hc)).2
    | _ => exact hc.elim

/-- One echo service behind a direction that takes payloads of up to four bytes. -/
def echoServer : Server Bytes where
  services := fun i => if i = 1 then some ⟨"echo", fun m => if m = 1 then some "Echo" else none⟩ else none
  unmarshal := fun _ _ payload => .msg payload
  marshal := .ok
  filler := fun _ => none
  maxPayload := 4
  streaming := false
  continueAfterPanic := false

def emptyState : State := ⟨fun _ => false, false, none, []⟩

theorem emptyState_start : Start emptyState := ⟨rfl, rfl, rfl⟩

/-- Call 7 without a deadline, answered by the handler with `resp` on a ring with room. -/
def echoCall (resp : Bytes) : Inbound × Io Bytes :=
  (.frame ⟨7, .unaryReq, 1, 1, 0, [1], none, 0⟩, ⟨0, 1, 2, .resp (some resp), .accepted, .accepted, false, .ok⟩)

theorem echoCall_healthy (resp : Bytes) : echoServer.Healthy (echoCall resp) := ⟨.inl rfl, .inl rfl, rfl⟩

theorem served_iff_room_echo :
    Served (echoServer.serveOneFrame emptyState (echoCall [1, 2]).1 (echoCall [1, 2]).2) := by
  have hroom : echoServer.Roomy emptyState (echoCall [1, 2]) :=
    ⟨echoCall_healthy _, fun _ _ => ⟨rfl, show 2 ≤ 4 by decide⟩⟩
  exact (served_iff_room emptyState_start (.tail .refl hroom rfl)).1

/-- **A response above the direction's limit ends the loop**, without an error, with
its call unanswered and its obligation open. -/
theorem reply_refused : ¬ ∀ (srv : Server Bytes) (s t : State), Start s →
    Reach srv.step (fun _ a => srv.Healthy a) s t → Served t := by
  intro h
  have hrun := h echoServer emptyState _ emptyState_start (.tail .refl (echoCall_healthy [1, 2, 3, 4, 5]) rfl)
  exact hrun.ended rfl

end Serve

end Styx
