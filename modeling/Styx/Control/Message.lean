/-
Control messages and the lifecycle states they are legal in.

Only the messages a serving connection carries are given a body; the handshake
kinds are in the table and nothing more. A body keeps the fields the modelled
code reads.
-/
import Mathlib.Logic.Basic

namespace Styx

inductive MessageKind
  | hello
  | helloAck
  | attachRegion
  | attachRegionAck
  | heartbeat
  | heartbeatAck
  | drain
  | drainAck
  | resume
  | resumeAck
  | saveState
  | saveStateAck
  | shutdown
  | shutdownAck
  | poisoned
  | restore
  | restoreAck
  deriving DecidableEq

inductive LifecycleState
  | handshaking
  | attaching
  | serving
  | draining
  | shuttingDown
  | restoring
  deriving DecidableEq

def legalByState : LifecycleState → List MessageKind
  | .handshaking => [.hello, .helloAck]
  | .attaching => [.attachRegion, .attachRegionAck]
  | .serving => [.heartbeat, .heartbeatAck, .drain, .saveState, .saveStateAck, .shutdown, .poisoned]
  | .draining => [.drainAck, .resume, .resumeAck, .saveState, .saveStateAck, .shutdown, .poisoned]
  | .shuttingDown => [.shutdownAck, .poisoned]
  | .restoring => [.restore, .restoreAck]

def legal (state : LifecycleState) (kind : MessageKind) : Bool := (legalByState state).contains kind

inductive ControlMessage
  | heartbeat (sequence : Nat)
  | heartbeatAck (sequence : Nat)
  | drain (deadlineUnixNano : Int)
  | drainAck
  | resume
  | resumeAck
  | saveState
  | saveStateAck
  | shutdown
  deriving DecidableEq

namespace ControlMessage

def kind : ControlMessage → MessageKind
  | .heartbeat _ => .heartbeat
  | .heartbeatAck _ => .heartbeatAck
  | .drain _ => .drain
  | .drainAck => .drainAck
  | .resume => .resume
  | .resumeAck => .resumeAck
  | .saveState => .saveState
  | .saveStateAck => .saveStateAck
  | .shutdown => .shutdown

def isHeartbeat (m : ControlMessage) : Bool := m.kind == .heartbeat

end ControlMessage

/-- The check of `recvExpected`: anything else is a protocol violation. -/
def expected (state : LifecycleState) (want : MessageKind) (m : ControlMessage) : Bool :=
  legal state m.kind && m.kind == want

theorem expected_kind {state : LifecycleState} {want : MessageKind} {m : ControlMessage}
    (h : expected state want m = true) : m.kind = want := by
  simp only [expected, Bool.and_eq_true, beq_iff_eq] at h
  exact h.2

end Styx
