/-
The plugin's unary dispatcher: from a request frame to the frames that answer it.

A request is decoded where it is received, so what arrives here is a message, or
the text of the failure that stopped the decode, or nothing (no method to decode
for). Application code is whatever it answers with (`HandlerOutcome`); the clock is
read twice. Everything else is a function of those.
-/
import Styx.Transport.Frame

namespace Styx

def utf8 (s : String) : Bytes := s.toUTF8.toList

/-! ## Deadlines -/

def reanchor (budget receivedAt : Int) : Int := receivedAt + budget

/-- The deadline `dispatchUnary` gives a request: none for a budget that is not positive. -/
def dispatchDeadline (f : Frame) (recvAt : Int) : Option Int :=
  if f.budget > 0 then some (reanchor f.budget recvAt) else none

/-- The request's budget has run out at `now`. -/
def elapsed (f : Frame) (recvAt now : Int) : Bool := (dispatchDeadline f recvAt).any (· ≤ now)

theorem elapsed_iff {f : Frame} {recvAt now : Int} :
    elapsed f recvAt now = true ↔ 0 < f.budget ∧ recvAt + f.budget ≤ now := by
  simp only [elapsed, dispatchDeadline, reanchor]
  split
  · next hpos => simpa using fun _ => hpos
  · next hpos =>
    simp only [Option.any_none, Bool.false_eq_true, false_iff, not_and]
    omega

/-! ## Statuses -/

def statusCodeServiceNotFound : UInt32 := 0xFFFFFF01
def statusCodeMethodNotFound : UInt32 := 0xFFFFFF02
def statusCodeInternal : UInt32 := 0xFFFFFF03
def statusCodeHandlerPanic : UInt32 := 0xFFFFFF08
def statusCodeRequestDeclined : UInt32 := 0xFFFFFF09
def statusCodeReservedMin : UInt32 := statusCodeServiceNotFound

/-- The application's own code for an internal error. -/
def codeInternal : UInt32 := 8

def statusFrame (f : Frame) (s : FrameStatus) : Frame :=
  { callID := f.callID, kind := .unaryErr, service := f.service, method := f.method, budget := 0, payload := []
    status := some s, control := 0 }

def internalStatusFrame (f : Frame) (message : Bytes) : Frame := statusFrame f ⟨statusCodeInternal, message, []⟩

/-- Only the call is named: a declined frame yields nothing else. -/
def declinedStatusFrame (callID : UInt64) (reason : Bytes) : Frame :=
  { callID, kind := .unaryErr, service := 0, method := 0, budget := 0, payload := []
    status := some ⟨statusCodeRequestDeclined, reason, []⟩, control := 0 }

/-! ## Handlers -/

/-- What a call of application code comes to. -/
inductive HandlerOutcome (M : Type)
  | resp (m : Option M)
  /-- A `*styx.Status`; each detail marshals, or fails with a text. -/
  | status (code : UInt32) (message : Bytes) (details : List (Except Bytes Bytes))
  | error (message : Bytes)
  | panicked (text : Bytes)

/-- The details marshalled in order, up to the first that fails. -/
def marshalDetails : List (Except Bytes Bytes) → Except Bytes (List Bytes)
  | [] => .ok []
  | .error merr :: _ => .error merr
  | .ok raw :: ds =>
    match marshalDetails ds with
    | .ok raws => .ok (raw :: raws)
    | .error merr => .error merr

/-- A handler may not pass a framework code for its own. -/
def statusFromHandlerErr (code : UInt32) (message : Bytes) (details : List (Except Bytes Bytes)) : FrameStatus :=
  let code := if statusCodeReservedMin ≤ code then statusCodeInternal else code
  match marshalDetails details with
  | .ok details => ⟨code, message, details⟩
  | .error merr => ⟨codeInternal, merr, []⟩

inductive HandleResult (M : Type)
  | resp (m : Option M)
  | status (s : FrameStatus)
  /-- A fault of the adapter itself; `ended` for a context's error. -/
  | err (ended : Bool) (text : Bytes)

/-- A registered service: its name and, by ID, the names of the methods it can serve. -/
structure ServiceDesc where
  serviceName : String
  methods : UInt64 → Option String

/-- `serviceHandler.Handle`. -/
def ServiceDesc.handle {M : Type} (h : ServiceDesc) (methodID : UInt64) (req : Option M) (out : HandlerOutcome M) :
    HandleResult M :=
  match h.methods methodID with
  | none =>
    .status ⟨statusCodeMethodNotFound,
      utf8 ("method " ++ toString methodID.toNat ++ " not found in " ++ h.serviceName.quote), []⟩
  | some name =>
    match req with
    | none =>
      .status ⟨statusCodeInternal,
        utf8 ("no request was decoded for method " ++ name.quote ++ " of " ++ h.serviceName.quote), []⟩
    | some _ =>
      match out with
      | .resp m => .resp m
      | .status code message details => .status (statusFromHandlerErr code message details)
      | .error message => .status ⟨codeInternal, message, []⟩
      | .panicked text => .status ⟨statusCodeHandlerPanic, text, []⟩

section

variable {M : Type} {h : ServiceDesc} {methodID : UInt64} {req : Option M} {out : HandlerOutcome M}

theorem ServiceDesc.handle_ne_err {ended : Bool} {text : Bytes} : h.handle methodID req out ≠ .err ended text := by
  simp only [ServiceDesc.handle]
  split
  · simp
  · split
    · simp
    · split <;> simp

/-- A handler's status never has the declined code: it is reserved. -/
theorem ServiceDesc.handle_code {st : FrameStatus} (hr : h.handle methodID req out = .status st) :
    st.code ≠ statusCodeRequestDeclined := by
  simp only [ServiceDesc.handle, statusFromHandlerErr] at hr
  (repeat' split at hr) <;> cases hr
  case h_1.isFalse.refl hfree =>
    rintro rfl
    exact hfree (by decide)
  all_goals dsimp only; decide

end

/-! ## Dispatch -/

/-- A request as the receive path left it; an empty fault is none. -/
structure Request (M : Type) where
  msg : Option M
  decodeFault : Bytes

/-- A frame to send, with the message its payload is still to be made of. -/
structure ResponseEnvelope (M : Type) where
  frame : Frame
  msg : Option M

def statusEnvelope {M : Type} (f : Frame) (s : FrameStatus) : ResponseEnvelope M := ⟨statusFrame f s, none⟩

def responseFrame (f : Frame) : Frame :=
  { callID := f.callID, kind := .unaryResp, service := f.service, method := f.method, budget := 0, payload := []
    status := none, control := 0 }

def dispatchUnary {M : Type} (services : UInt64 → Option ServiceDesc) (f : Frame) (req : Request M)
    (recvAt before after : Int) (out : HandlerOutcome M) : List (ResponseEnvelope M) :=
  if elapsed f recvAt before then []
  else
    match services f.service with
    | none => [statusEnvelope f ⟨statusCodeServiceNotFound, utf8 "service not found", []⟩]
    | some h =>
      if req.decodeFault ≠ [] then
        [statusEnvelope f ⟨statusCodeInternal, utf8 "request decode failed: " ++ req.decodeFault, []⟩]
      else
        let r := h.handle f.method req.msg out
        if elapsed f recvAt after then []
        else
          match r with
          | .err ended text => if ended then [] else [statusEnvelope f ⟨statusCodeInternal, text, []⟩]
          | .status s => [statusEnvelope f s]
          | .resp m => [⟨responseFrame f, m⟩]

end Styx
