/-
The frame, the data plane's unit: what `internal/transport` hands from a caller
to a transport and back, before any wire is chosen.

`Status` rides only the two error kinds, whose wire body is its encoding; every
other kind's body is `Payload`. A nil and an empty payload are one value here,
as they are to every function below; `wire` is the one place where absence is
told apart, and it is an `Option` there.
-/
import Mathlib.Data.List.Basic

namespace Styx

abbrev Bytes := List UInt8

/-- `transport.FrameKind`; `unassigned` is every byte without a name. -/
inductive FrameKind
  | unaryReq | unaryResp | cancel
  | streamOpen | streamMsg | streamAck | streamClose | streamErr
  | unaryErr | streamChunk
  | unassigned (k : UInt8)
  deriving DecidableEq

structure FrameStatus where
  code : UInt32
  message : Bytes
  details : List Bytes
  deriving DecidableEq

structure Frame where
  callID : UInt64
  kind : FrameKind
  service : UInt64
  method : UInt64
  /-- A `time.Duration`: nanoseconds, signed, 64 bits. -/
  budget : Int
  payload : Bytes
  status : Option FrameStatus
  control : UInt64
  deriving DecidableEq

/-- The largest message either transport admits, in bytes. -/
def maxFrameSize : Nat := 1 <<< 20

def carriesStatusBody (k : FrameKind) : Bool := k == .unaryErr || k == .streamErr

def putUint32BE (n : Nat) : Bytes :=
  [UInt8.ofNat (n >>> 24), UInt8.ofNat (n >>> 16), UInt8.ofNat (n >>> 8), UInt8.ofNat n]

/-- Code, length-prefixed message, count-prefixed details; nil encodes as the
zero status. -/
def encodeStatus (s : Option FrameStatus) : Bytes :=
  let s := s.getD ⟨0, [], []⟩
  putUint32BE s.code.toNat ++ putUint32BE s.message.length ++ putUint32BE s.details.length ++
    s.message ++ s.details.flatMap fun d => putUint32BE d.length ++ d

/-- The bytes a payload-carrying frame puts on the wire. -/
def wirePayload (f : Frame) : Bytes :=
  if carriesStatusBody f.kind then encodeStatus f.status else f.payload

end Styx
