/-
The consumer's first look at a descriptor (`classify` in
`internal/transport/shm/transport.go`): fail closed on anything a conforming
producer does not write, and poison the region for it.
-/
import Styx.Shm.Traced

namespace Styx

/-- The transport kind of a ring kind, and whether it travels without a payload. -/
def unmapKind (k : RingKind) (chunkingActive : Bool) : Option (FrameKind × Bool) :=
  match k with
  | .unaryReq => some (.unaryReq, false)
  | .unaryResp => some (.unaryResp, false)
  | .unaryErr => some (.unaryErr, false)
  | .cancel => some (.cancel, true)
  | .streamOpen => some (.streamOpen, false)
  | .streamMsg => some (.streamMsg, false)
  | .streamAck => some (.streamAck, true)
  | .streamClose => some (.streamClose, false)
  | .streamErr => some (.streamErr, false)
  | .streamChunk => if chunkingActive then some (.streamChunk, false) else none

/-- `errBadFrame`: the region is poisoned with cause `badFrame`. -/
inductive BadFrame
  | badFrame
  deriving DecidableEq

/-- Classify an inbound descriptor; a kind word with a high byte is no `RingKind`. -/
def classify (checksum chunkingActive : Bool) (d : Descriptor) : Except BadFrame (FrameKind × Bool) :=
  let allowed : UInt16 := if checksum then flagCRC32CPresent else 0
  if d.flags &&& ~~~allowed ≠ 0 then .error .badFrame
  else
    match unmapKind d.kind chunkingActive with
    | none => .error .badFrame
    | some (tk, descriptorOnly) =>
      if d.budgetNS < 0 then .error .badFrame
      else if descriptorOnly ∧ (d.flags ≠ 0 ∨ d.payloadOffset ≠ 0 ∨ d.payloadLength ≠ 0 ∨ d.allocSeq ≠ 0) then
        .error .badFrame
      else .ok (tk, descriptorOnly)

/-- `decodedFrame` for the kinds whose body is the payload. -/
def decodedFrame (d : Descriptor) (tk : FrameKind) (payload : Bytes) : Frame :=
  { callID := d.callID, kind := tk, service := d.serviceID, method := d.methodID, budget := d.budgetNS,
    payload, status := none, control := d.reserved }

theorem unmapKind_of_mapKind {k : FrameKind} {ch b : Bool} {rk : RingKind} (h : mapKind k ch = some (rk, b)) :
    unmapKind rk ch = some (k, b) := by
  cases k with
  | streamChunk =>
    obtain ⟨hc, h⟩ := Machine.guard_some h
    cases h; simp [unmapKind, hc]
  | unassigned k => cases h
  | _ => cases h; rfl

/-- **Among conforming sides only the budget can fail**: a descriptor built from
an intent, under the settings the two sides share, is refused exactly if its
budget is negative. -/
theorem classify_builtFrom {ch ck : Bool} {i : Intent} {d : Descriptor} (h : BuiltFrom ch ck i d) :
    classify ck ch d =
      if d.budgetNS < 0 then .error .badFrame else .ok (i.frame.kind, i.lane == .lifecycle) := by
  have hflags : d.flags &&& ~~~(if ck then flagCRC32CPresent else 0) = 0 := by
    rcases h.flags with hf | ⟨hck, -, hf⟩
    · simp [hf]
    · rw [hf, hck]; decide
  simp only [classify, hflags, unmapKind_of_mapKind h.kind]
  by_cases hb : d.budgetNS < 0
  · simp [hb]
  · have hbare : i.lane = .lifecycle →
        d.flags = 0 ∧ d.payloadOffset = 0 ∧ d.payloadLength = 0 ∧ d.allocSeq = 0 := by
      intro hl
      have hf : d.flags = 0 := h.flags.resolve_right fun hx => hx.2.1 hl
      exact ⟨hf, (h.bare hl).2⟩
    simpa [hb] using hbare

end Styx
