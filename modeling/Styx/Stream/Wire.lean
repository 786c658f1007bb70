/-
What a receiver makes of the frames of one direction, as a fold over the data lane.

`Received` is the receiver's side of a direction: the number it expects next, the train it
holds, whether it has seen the half-close, and the messages it has made. `take` is one
frame; it refuses what `Dispatch` would fault.
-/
import Styx.Stream.Moves

namespace Styx

structure Received where
  expectedSeq : Nat
  accum : Bytes
  closed : Bool
  got : List Bytes
  deriving DecidableEq

def Received.take (p : ChunkPolicy) (r : Received) : StreamFrame → Option Received
  | .streamMsg seq payload =>
    if r.closed ∨ seq ≠ r.expectedSeq then none
    else
      match Stream.message p r.accum payload with
      | none => none
      | some msg => some ⟨r.expectedSeq + 1, [], r.closed, r.got ++ [msg]⟩
  | .streamChunk seq payload =>
    if r.closed ∨ seq ≠ r.expectedSeq then none
    else if payload.length = 0 ∨ payload.length ≠ p.recvInline then none
    else if Stream.accumFits r.accum.length payload.length p.ceiling then
      some { r with expectedSeq := r.expectedSeq + 1, accum := r.accum ++ payload }
    else none
  | .streamClose finalSeq payload =>
    if r.accum ≠ [] ∨ r.closed ∨ finalSeq ≠ r.expectedSeq - 1 then none
    else some { r with closed := true, got := r.got ++ if payload.length > 0 then [payload] else [] }
  | .streamErr _ => some r
  | .streamOpen _ _ | .streamAck _ | .cancel _ => none

/-- The frames on a lane, from a receiver that is `none` until the `STREAM_OPEN` makes it
`init`. A `STREAM_ERR` for a call that is not there is dropped. -/
def arrive (p : ChunkPolicy) (opening : StreamFrame) (init : Received) :
    Option Received → StreamFrame → Option (Option Received)
  | none, .streamErr _ => some none
  | none, f => if f = opening then some (some init) else none
  | some r, f => (r.take p f).map some

def arriveAll (p : ChunkPolicy) (opening : StreamFrame) (init : Received) (st : Option Received)
    (data : List StreamFrame) : Option (Option Received) :=
  data.foldlM (arrive p opening init) st

section Fold

variable {p : ChunkPolicy} {opening f : StreamFrame} {init r r' : Received} {st st' : Option Received} {data : List StreamFrame} {payload : Bytes} {seq : Nat}

theorem arriveAll_append {frames : List StreamFrame} (h : arriveAll p opening init st data = some st') :
    arriveAll p opening init st (data ++ frames) = arriveAll p opening init st' frames := by
  unfold arriveAll at *
  rw [List.foldlM_append, h]
  rfl

theorem arriveAll_cons_some : arriveAll p opening init (some r) (f :: data) =
    (r.take p f).bind fun r' => arriveAll p opening init (some r') data := by
  simp only [arriveAll, List.foldlM_cons, arrive]
  cases r.take p f <;> rfl

theorem arriveAll_single_some : arriveAll p opening init (some r) [f] = (r.take p f).map some := by
  rw [arriveAll_cons_some]
  cases r.take p f <;> rfl

theorem take_msg (h : r.take p (.streamMsg seq payload) = some r') : r.closed = false ∧ seq = r.expectedSeq ∧
      ∃ msg, Stream.message p r.accum payload = some msg ∧ r' = ⟨r.expectedSeq + 1, [], r.closed, r.got ++ [msg]⟩ := by
  simp only [Received.take] at h
  split at h
  · cases h
  next hc =>
  obtain ⟨hc, hseq⟩ := not_or.mp hc
  split at h
  · cases h
  next msg hmsg => exact ⟨by simpa using hc, by simpa using hseq, msg, hmsg, (Option.some.inj h).symm⟩

theorem take_chunk (h : r.take p (.streamChunk seq payload) = some r') :
    r.closed = false ∧ seq = r.expectedSeq ∧ ¬ (payload.length = 0 ∨ payload.length ≠ p.recvInline) ∧
      Stream.accumFits r.accum.length payload.length p.ceiling = true ∧
      r' = { r with expectedSeq := r.expectedSeq + 1, accum := r.accum ++ payload } := by
  simp only [Received.take] at h
  split at h
  · cases h
  next hc =>
  obtain ⟨hc, hseq⟩ := not_or.mp hc
  split at h
  · cases h
  next hlen =>
  split at h
  · next hfit => exact ⟨by simpa using hc, by simpa using hseq, hlen, hfit, (Option.some.inj h).symm⟩
  · cases h

theorem take_close {finalSeq : Nat} (h : r.take p (.streamClose finalSeq payload) = some r') :
    r.accum = [] ∧ r.closed = false ∧ finalSeq = r.expectedSeq - 1 ∧
      r' = { r with closed := true, got := r.got ++ if payload.length > 0 then [payload] else [] } := by
  simp only [Received.take] at h
  split at h
  · cases h
  next hc =>
  obtain ⟨hacc, hc⟩ := not_or.mp hc
  obtain ⟨hc, hseq⟩ := not_or.mp hc
  exact ⟨by simpa using hacc, by simpa using hc, by simpa using hseq, (Option.some.inj h).symm⟩

theorem take_closed (hc : r.closed = true) (h : r.take p f = some r') : r' = r ∧ ∃ status, f = .streamErr status := by
  cases f with
  | streamErr status => exact ⟨(Option.some.inj h).symm, status, rfl⟩
  | _ => simp [Received.take, hc] at h

theorem arriveAll_closed (hc : r.closed = true) (h : arriveAll p opening init (some r) data = some st') :
    st' = some r := by
  induction data with
  | nil => exact (Option.some.inj h).symm
  | cons f data ih =>
    rw [arriveAll_cons_some] at h
    obtain ⟨r', hr', hrest⟩ := Option.bind_eq_some_iff.mp h
    obtain ⟨rfl, -⟩ := take_closed hc hr'
    exact ih hrest

theorem arriveAll_some (h : arriveAll p opening init (some r) data = some st') :
    (∃ r', st' = some r') ∧ ∀ credits payload, .streamOpen credits payload ∉ data := by
  induction data generalizing r with
  | nil => exact ⟨⟨r, (Option.some.inj h).symm⟩, by simp⟩
  | cons f data ih =>
    rw [arriveAll_cons_some] at h
    obtain ⟨r', hr', h⟩ := Option.bind_eq_some_iff.mp h
    obtain ⟨hst, hno⟩ := ih h
    refine ⟨hst, fun credits payload hmem => ?_⟩
    rcases List.mem_cons.mp hmem with heq | htail
    · rw [← heq] at hr'
      simp [Received.take] at hr'
    · exact hno credits payload htail

theorem arriveAll_err (status : FrameStatus) : arriveAll p opening init st [.streamErr status] = some st := by
  cases st <;> rfl

end Fold

namespace Stream

/-- What this side has made of the peer's direction. -/
def received (s : Stream) : Received :=
  ⟨s.expectedSeq, s.recvAccum, s.closeRemote, s.delivered ++ s.recvCh.map RecvItem.payload⟩

variable {s : Stream} {p : ChunkPolicy} {f : StreamFrame} {r : Received}

theorem remoteEOF_received : s.remoteEOF.terminalErr = false → s.recvAccum = [] →
    s.remoteEOF.received = s.received := by
  intro _ hacc
  unfold remoteEOF terminate
  dsimp only
  split
  · split
    · simp [received, hacc]
    · rfl
  · rfl

/-- **A frame the fold takes, with room in the queue, is not faulted**, and a stream that
it does not end with an error has made of it what the fold says. -/
theorem dispatch_take (hl : s.isLive = true) (hroom : s.closeRemote = false → s.recvCh.length < s.recvCap)
    (ht : s.received.take p f = some r) :
    (s.dispatch p f).2 = true ∧ ((s.dispatch p f).1.terminalErr = false → (s.dispatch p f).1.received = r) := by
  simp only [dispatch, hl, if_true]
  cases f with
  | streamMsg seq payload =>
    obtain ⟨hc, hseq, msg, hmsg, rfl⟩ := take_msg ht
    simp only [received] at hc hseq hmsg
    simp [onStreamMsg, hc, hseq, hmsg, hroom hc, received]
  | streamChunk seq payload =>
    obtain ⟨hc, hseq, hlen, hfit, rfl⟩ := take_chunk ht
    simp only [received] at hc hseq hfit
    simp only [onStreamChunk, hc, hseq, if_neg hlen, hfit, ne_eq, not_true, Bool.false_eq_true, if_false, if_true]
    simp [received, hc]
  | streamClose finalSeq payload =>
    obtain ⟨hacc, hc, hseq, rfl⟩ := take_close ht
    simp only [received] at hacc hc hseq
    simp only [onStreamClose, hacc, hc, hseq, ne_eq, not_true, Bool.false_eq_true, if_false, hroom hc, if_true]
    split <;>
    · refine ⟨rfl, fun hterm => ?_⟩
      rw [remoteEOF_received hterm rfl]
      simp [received, hacc]
  | streamErr status =>
    refine ⟨rfl, fun hterm => ?_⟩
    simp only [onStreamErr] at hterm
    repeat' split at hterm
    all_goals simp [terminate, hl, terminalErr] at hterm
  | streamOpen credits payload | streamAck v | cancel code => simp [Received.take] at ht

end Stream

end Styx
