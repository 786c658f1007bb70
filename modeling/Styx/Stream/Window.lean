/-
The credit window of a stream's sending side, whatever the peer acknowledges.

The reader takes an acknowledgement in two critical sections of the counter: the bound
check reads the admitted count, and `replenishStrict` raises the acknowledged one. The
admitted count has the message under way in it, so an acknowledgement of a message that
the transport has no frame of passes the check; a rollback then leaves the acknowledged
count above the admitted one, and more credit than was granted (`window_overrun`). Where
no such acknowledgement comes the window holds (`window_kept`): what is admitted for good
never goes down.
-/
import Mathlib.Tactic.Ring
import Styx.Stream.Flow

namespace Styx

open Machine

/-- The credit left, on the source's words. -/
def CreditCounter.available (c : CreditCounter) : UInt64 := .ofNat c.granted - (.ofNat c.sent - .ofNat c.acked)

theorem CreditCounter.available_add {c : CreditCounter} (hg : c.granted < 2 ^ 32) (hle : c.acked ≤ c.sent)
    (hw : c.sent ≤ c.acked + c.granted) : c.available.toNat + (c.sent - c.acked) = c.granted := by
  unfold available
  rw [← UInt64.ofNat_sub hle, ← UInt64.ofNat_sub (by omega), UInt64.toNat_ofNat_of_lt']
  · omega
  · show c.granted - (c.sent - c.acked) < 2 ^ 64
    omega

namespace Stream

variable {e : Env} {s s' : Stream} {effects : List Effect} {p : ChunkPolicy} {a : SendAct}

/-- The message under way, while the transport has no frame of it. -/
def invisible (s : Stream) : Nat :=
  match s.sender with
  | .sending _ | .fragment _ 0 => 1
  | _ => 0

/-- Whether the step puts that message's first frame on the lane. -/
def started (s : Stream) (effects : List Effect) : Nat := s.invisible * (effects.filterMap Effect.dataFrame).length

/-- A train is never of empty fragments: `sendChunked` refuses a zero limit. -/
def Chunks (p : ChunkPolicy) (s : Stream) : Prop :=
  match s.sender with
  | .admitting payload => chunked p payload = true → p.sendInline ≠ 0
  | .fragment _ _ => p.sendInline ≠ 0
  | _ => True

theorem Chunks.senderStep (h : s.Chunks e.policy) (hs : s.senderStep e a = some (s', effects)) : s'.Chunks e.policy := by
  cases senderStep_move hs with
  | sendMsg _ _ _ _ hchunk => exact hchunk
  | admitted hpc _ hpc' =>
    rcases hpc' with rfl | ⟨rfl, hch, -⟩
    · trivial
    · unfold Chunks at h
      rw [hpc] at h
      exact h hch
  | sent _ hlane | fragmentEnd _ hlane => cases hlane <;> trivial
  | fragment hpc =>
    unfold Chunks at h
    rw [hpc] at h
    exact h
  | retry => exact h
  | unsent _ ha => rcases ha with ⟨-, rfl⟩ | ⟨deadline, rfl⟩ <;> trivial
  | closeUnsent _ ha => rcases ha with ⟨rfl, -⟩ | ⟨⟨deadline, rfl⟩, -⟩ | ⟨-, rfl, -⟩ <;> trivial
  | _ => trivial

/-- The other goroutines, and the frames of the peer that are no acknowledgement, leave the sender and its credit alone. -/
structure Apart (s s' : Stream) : Prop where
  sender : s'.sender = s.sender
  sendCredit : s'.sendCredit = s.sendCredit

theorem apart_ends (h : Ends s s') : Apart s s' := by
  obtain ⟨_, _, _, _, _, rfl⟩ := h.frame
  exact ⟨rfl, rfl⟩

/-- **What is admitted for good never goes down**: of the admitted messages only the one
without a frame is ever rolled back. -/
theorem admitted_senderStep {n : Nat} (hc : s.Chunks e.policy) (hn : n + s.invisible ≤ s.sendCredit.sent)
    (hs : s.senderStep e a = some (s', effects)) : n + s.started effects + s'.invisible ≤ s'.sendCredit.sent := by
  -- A step publishes at most one frame, and most leave no message without one.
  have hone : effects.length ≤ 1 := by cases senderStep_move hs <;> simp
  have hle : s.started effects ≤ s.invisible :=
    Nat.le_trans (Nat.mul_le_mul_left _ (Nat.le_trans (List.length_filterMap_le _ _) hone)) (Nat.le_of_eq (Nat.mul_one _))
  have hquiet : s'.sendCredit = s.sendCredit → s'.invisible = 0 →
      n + s.started effects + s'.invisible ≤ s'.sendCredit.sent := by
    intro hsame h0
    rw [hsame, h0]
    omega
  cases senderStep_move hs with
  | admitted hpc _ hpc' =>
    rcases hpc' with rfl | ⟨rfl, -⟩ <;>
    · simp only [started, invisible, hpc, List.filterMap_nil, List.length_nil] at hn ⊢
      omega
  | sent _ hlane | fragmentEnd _ hlane => cases hlane <;> exact hquiet rfl rfl
  | @fragment payload off hpc =>
    unfold Chunks at hc
    rw [hpc] at hc
    refine hquiet rfl ?_
    obtain ⟨k, hk⟩ := Nat.exists_eq_succ_of_ne_zero (n := off + e.policy.sendInline) (by omega)
    simp only [invisible, hk]
  | rollback hpc =>
    rcases hpc with hpc | hpc <;>
    · simp only [started, Stream.rollback, CreditCounter.release, invisible, hpc, List.filterMap_nil, List.length_nil] at hn ⊢
      omega
  | retry => simpa [started] using hn
  | unsent _ ha => rcases ha with ⟨-, rfl⟩ | ⟨deadline, rfl⟩ <;> exact hquiet rfl rfl
  | closeUnsent _ ha => rcases ha with ⟨rfl, -⟩ | ⟨⟨deadline, rfl⟩, -⟩ | ⟨-, rfl, -⟩ <;> exact hquiet rfl rfl
  | fail => exact hquiet (apart_ends (ends_mapCtx _)).sendCredit rfl
  | complete => exact hquiet (apart_ends ends_completed).sendCredit rfl
  | _ => exact hquiet rfl rfl

theorem apart_step {a : Act} (hs : s.step e a = some (s', effects)) (ha : ∀ sa, a ≠ .sender sa) : Apart s s' := by
  cases a with
  | opener a =>
    obtain ⟨s₁, _, _, _, _, _, hends, -, -, rfl⟩ := openerStep_frame hs
    exact ⟨(apart_ends hends).sender, (apart_ends hends).sendCredit⟩
  | sender sa => exact absurd rfl (ha sa)
  | receiver a =>
    obtain ⟨⟨_, _, _, _, _, _, _, rfl⟩, -⟩ := receiverStep_frame hs
    exact ⟨rfl, rfl⟩
  | acker a =>
    obtain ⟨_, _, _, _, _, _, rfl⟩ := ackStep_frame hs
    exact ⟨rfl, rfl⟩
  | finisher a =>
    obtain ⟨_, _, _, _, rfl⟩ := finishStep_frame hs
    exact ⟨rfl, rfl⟩
  | ending a => exact apart_ends (endStep_ends hs).1

theorem apart_dispatch {f : StreamFrame} (hf : ∀ v, f ≠ .streamAck v) : Apart s (s.dispatch p f).1 := by
  obtain ⟨_, _, _, _, _, acked, hread, hends⟩ := dispatch_frame s p f
  have hacked : acked = s.sendCredit.acked := hread.acked.resolve_right fun h => hf acked h.1
  subst hacked
  exact ⟨(apart_ends hends).sender, (apart_ends hends).sendCredit⟩

theorem Apart.invisible (h : Apart s s') : s'.invisible = s.invisible := by
  unfold Stream.invisible
  rw [h.sender]

end Stream

open Styx.Stream

/-- A stream, the acknowledgement between its two critical sections, and the count of messages handed to the transport. -/
structure Window where
  stream : Stream
  checked : Option Nat
  started : Nat

namespace Window

inductive Act
  | own (room drained : Bool) (a : Stream.Act)
  /-- A frame from the peer other than an acknowledgement. -/
  | frame (f : StreamFrame)
  /-- `onStreamAck` as far as its bound check; one that fails it changes nothing. -/
  | check (v : Nat)
  | replenish

def new (side : StreamSide) (cfg : StreamConfig) : Window := ⟨newStream side cfg, none, 0⟩

def step (p : ChunkPolicy) (w : Window) : Act → Option Window
  | .own room drained (.sender a) =>
    (w.stream.senderStep ⟨p, room, drained⟩ a).map fun r => { w with stream := r.1, started := w.started + w.stream.started r.2 }
  | .own room drained a => (w.stream.step ⟨p, room, drained⟩ a).map fun r => { w with stream := r.1 }
  | .frame (.streamAck _) => none
  | .frame f => if w.checked = none then some { w with stream := (w.stream.dispatch p f).1 } else none
  | .check v =>
    if w.checked = none ∧ w.stream.isLive ∧ v ≠ 0 ∧ v ≤ w.stream.sendCredit.sent then some { w with checked := some v } else none
  | .replenish =>
    match w.checked with
    | none => none
    | some v => some { w with
        checked := none, stream := { w.stream with sendCredit := (w.stream.sendCredit.replenishStrict v).getD w.stream.sendCredit } }

variable {p : ChunkPolicy} {w w' : Window}

/-- With nothing between them the two sections are the stream's `dispatch`. -/
theorem replenish_check {v : Nat} (hs : run (step p) w [.check v, .replenish] = some w') :
    w' = { w with stream := (w.stream.dispatch p (.streamAck v)).1 } := by
  simp only [run] at hs
  split at hs
  · cases hs
  next w₁ hcheck =>
  obtain ⟨⟨hnone, hl, h0, hle⟩, ⟨⟩⟩ := guard_some hcheck
  cases hs
  simp only [dispatch, onStreamAck, hl, h0, Nat.not_lt.mpr hle, if_true, if_false, hnone]
  cases w.stream.sendCredit.replenishStrict v <;> rfl

/-- The acknowledgement is of messages the transport has a frame of. -/
def Visible (w : Window) : Act → Prop
  | .check v => v + w.stream.invisible ≤ w.stream.sendCredit.sent
  | _ => True

instance (w : Window) (a : Act) : Decidable (w.Visible a) :=
  match a with
  | .check v => inferInstanceAs (Decidable (v + w.stream.invisible ≤ w.stream.sendCredit.sent))
  | .own _ _ _ | .frame _ | .replenish => isTrue trivial

/-- What is counted is admitted for good, and no more is admitted than the window allows. -/
structure Inv (p : ChunkPolicy) (N : Nat) (w : Window) : Prop where
  granted : w.stream.sendCredit.granted = N
  acked : w.stream.sendCredit.acked + w.stream.invisible ≤ w.stream.sendCredit.sent
  checked : ∀ v, w.checked = some v → v + w.stream.invisible ≤ w.stream.sendCredit.sent
  started : w.started + w.stream.invisible ≤ w.stream.sendCredit.sent
  window : w.stream.sendCredit.sent ≤ w.stream.sendCredit.acked + w.stream.sendCredit.granted
  chunks : w.stream.Chunks p

variable {N : Nat}

theorem Inv.apart {s' : Stream} (h : Inv p N w) (hs : Apart w.stream s') : Inv p N { w with stream := s' } := by
  refine ⟨?_, ?_, fun v hv => ?_, ?_, ?_, ?_⟩
  · simpa only [hs.sendCredit] using h.granted
  · simpa only [hs.sendCredit, hs.invisible] using h.acked
  · simpa only [hs.sendCredit, hs.invisible] using h.checked v hv
  · simpa only [hs.sendCredit, hs.invisible] using h.started
  · simpa only [hs.sendCredit] using h.window
  · simpa only [Chunks, hs.sender] using h.chunks

theorem Inv.step {a : Act} (h : Inv p N w) (hg : w.Visible a) (hs : w.step p a = some w') : Inv p N w' := by
  cases a with
  | own room drained a =>
    by_cases hsa : ∃ sa, a = .sender sa
    · obtain ⟨sa, rfl⟩ := hsa
      obtain ⟨⟨s', effects⟩, hstep, rfl⟩ := Option.map_eq_some_iff.mp hs
      have hsp := spends_senderStep hstep
      have hfor : ∀ n, n + w.stream.invisible ≤ w.stream.sendCredit.sent → n + s'.invisible ≤ s'.sendCredit.sent := by
        intro n hn
        have := admitted_senderStep h.chunks hn hstep
        omega
      refine ⟨hsp.granted.trans h.granted, ?_, fun v hv => hfor v (h.checked v hv), ?_, ?_, h.chunks.senderStep hstep⟩
      · show s'.sendCredit.acked + s'.invisible ≤ s'.sendCredit.sent
        rw [hsp.acked]
        exact hfor _ h.acked
      · exact admitted_senderStep h.chunks h.started hstep
      · show s'.sendCredit.sent ≤ s'.sendCredit.acked + s'.sendCredit.granted
        rw [hsp.acked, hsp.granted]
        exact hsp.window h.window
    · have hne : ∀ sa, a ≠ .sender sa := fun sa heq => hsa ⟨sa, heq⟩
      have hs : (w.stream.step ⟨p, room, drained⟩ a).map (fun r => { w with stream := r.1 }) = some w' := by
        cases a with
        | sender sa => exact absurd rfl (hne sa)
        | _ => exact hs
      obtain ⟨⟨s', effects⟩, hstep, rfl⟩ := Option.map_eq_some_iff.mp hs
      exact h.apart (apart_step hstep hne)
  | frame f =>
    cases f with
    | streamAck v => cases hs
    | _ =>
      obtain ⟨-, ⟨⟩⟩ := guard_some hs
      exact h.apart (apart_dispatch (by simp))
  | check v =>
    obtain ⟨-, ⟨⟩⟩ := guard_some hs
    refine ⟨h.granted, h.acked, fun v' hv => ?_, h.started, h.window, h.chunks⟩
    cases hv
    exact hg
  | replenish =>
    simp only [Window.step] at hs
    split at hs <;> cases hs
    next v hv =>
    have hle := h.checked v hv
    unfold CreditCounter.replenishStrict
    split
    · exact ⟨h.granted, h.acked, nofun, h.started, h.window, h.chunks⟩
    · exact ⟨h.granted, hle, nofun, h.started, by have := h.window; simp only [Option.getD_some]; omega, h.chunks⟩

/-- **The window holds** for every peer that acknowledges no message before the transport has a frame of it. -/
theorem window_kept (side : StreamSide) (credits : UInt32) (shape : StreamShape) (payload : Bytes) (p : ChunkPolicy) {w : Window}
    (h : Reach (step p) Visible (new side ⟨credits.toNat, shape, payload⟩) w) :
    w.stream.sendCredit.granted = StreamConfig.grant ⟨credits.toNat, shape, payload⟩ ∧
    w.stream.sendCredit.acked ≤ w.stream.sendCredit.sent ∧
    w.stream.sendCredit.sent ≤ w.stream.sendCredit.acked + w.stream.sendCredit.granted ∧
    w.stream.sendCredit.available.toNat + (w.stream.sendCredit.sent - w.stream.sendCredit.acked) = w.stream.sendCredit.granted ∧
    w.started ≤ w.stream.sendCredit.acked + w.stream.sendCredit.granted := by
  have hinv : Inv p (StreamConfig.grant ⟨credits.toNat, shape, payload⟩) w := by
    refine h.invariant ?_ fun hi hg hs => hi.step hg hs
    exact ⟨rfl, Nat.le_refl 0, nofun, Nat.le_refl 0, Nat.zero_le _, trivial⟩
  have hacked := hinv.acked
  have hstarted := hinv.started
  have hbound : w.stream.sendCredit.granted < 2 ^ 32 := by
    rw [hinv.granted, StreamConfig.grant]
    split
    · decide
    · exact credits.toNat_lt
  refine ⟨hinv.granted, by omega, hinv.window, ?_, by have := hinv.window; omega⟩
  exact CreditCounter.available_add hbound (by omega) hinv.window

def unchunked : ChunkPolicy := ⟨false, 0, 0, 0⟩

def sample : Window := new .server ⟨(1 : UInt32).toNat, .bidiStreaming, []⟩

def own (a : SendAct) : Act := .own true true (.sender a)

/-- One message sent and acknowledged. -/
def acknowledged : Window :=
  (run (guarded (step unchunked) Visible) sample
    [own (.sendMsg [7]), own .reserve, own (.transmit .accepted), .check 1, .replenish]).get (by decide +kernel)

theorem window_kept_acknowledged : acknowledged.started = 1 ∧ acknowledged.stream.sendCredit.acked = 1 ∧
    acknowledged.stream.sendCredit.available.toNat +
      (acknowledged.stream.sendCredit.sent - acknowledged.stream.sendCredit.acked) = acknowledged.stream.sendCredit.granted :=
  ⟨by decide +kernel, by decide +kernel,
    (window_kept .server 1 .bidiStreaming [] unchunked (Reach.of_guarded (Option.some_get _).symm)).2.2.2.1⟩

/-- **An acknowledgement of a message under way**, which the transport then refuses: one acknowledged, none sent,
and two units of the one granted. -/
theorem window_overrun :
    (run (step unchunked) sample [own (.sendMsg [7]), own .reserve, .check 1, .replenish,
      own (.transmit (.neverPublished true))]).map
        (fun w => (w.stream.sendCredit.sent, w.stream.sendCredit.acked, w.stream.sendCredit.available)) = some (0, 1, 2) := by
  decide +kernel

end Window

end Styx
