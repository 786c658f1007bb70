/-
One direction of a stream: the sender `X`, the receiver `Y`, the frames on the data lane
between them and the acknowledgements on the way back.

Two facts tie the ends together. The frames on the lane fold from where the receiver
stands to where the sender stands (`wire`): so no number is skipped, reissued or sent past
a half-close, whatever was rolled back or retried, and what is handed over arrives. And
the receiver has seen, holds or is sent no more messages than the sender has admitted,
which is at most a window past what was acknowledged (`count`, `window`): so the queue has
room.

There is one exception to arrival, and it is the source's own. A client-streaming method's
response rides the server's `STREAM_CLOSE`, and the receiver makes a message of that frame
only if it carries bytes; so an empty response is handed over and never made. Runs with
one are looked at under `lax`.
-/
import Styx.Stream.Sound
import Styx.Stream.Wire

namespace Styx

namespace Stream

variable {e : Env} {X X' Y Y' : Stream} {effects : List Effect} {p q : ChunkPolicy} {opened lax : Bool}
  {data : List StreamFrame} {acks : List Nat} {init r : Received} {st : Option Received} {opening f : StreamFrame} {a : SendAct} {payload : Bytes} {finalSeq : Nat}

/-! ## Where the sender stands -/

def Broken (X : Stream) : Prop :=
  (∃ deadline, X.sender = .failing deadline) ∨ X.sender = .idle ∧ X.terminalErr = true

/-- Where a receiver stands that has all the sender has sent. -/
def Next (X : Stream) (r : Received) : Prop :=
  match X.sender with
  | .sending _ => r.expectedSeq = X.sendSeq ∧ r.accum = [] ∧ r.closed = false
  | .fragment payload off => r.expectedSeq = X.sendSeq ∧ r.accum = payload.take off ∧ r.closed = false
  | .committing | .discharging | .completing => r.expectedSeq = X.sendSeq + 1 ∧ r.accum = [] ∧ r.closed = true
  | _ => r.expectedSeq = X.sendSeq + 1 ∧ r.accum = [] ∧ r.closed = X.sendClosed

/-- What such a receiver has made: all that was handed over, or all but an empty response. -/
def Carried (lax : Bool) (X : Stream) (r : Received) : Prop :=
  r.got = X.handed ∨ lax = true ∧ X.responds = true ∧ r.closed = true ∧ X.handed = r.got ++ [[]]

def Answers (lax : Bool) (X : Stream) : Prop :=
  lax = true ∨ ∀ payload finalSeq, X.sender = .closing payload finalSeq → X.responds = true → payload ≠ []

/-- Where the direction stands, with a receiver that does not exist before the `STREAM_OPEN`. -/
def Sends (lax : Bool) (X : Stream) (init : Received) : Option Received → Prop
  | none => X.sender = .idle ∧ X.opener ≠ .confirm ∧ X.opener ≠ .opened ∧ X.Next init ∧ X.handed = [] ∧ init.got = X.openHanded
  | some r => X.opener ≠ .publish ∧ X.opener ≠ .send ∧ (X.Broken ∨ X.Next r) ∧ X.Carried lax r

theorem Carried.open (h : X.Carried lax r) (hc : r.closed = false) : r.got = X.handed :=
  h.resolve_right fun ⟨_, _, hcl, _⟩ => by simp [hc] at hcl

theorem Carried.ends (h : X.Carried lax r) (he : Ends X X') : X'.Carried lax r := by
  obtain ⟨_, _, _, _, _, rfl⟩ := he.frame
  exact h

def unsent (X : Stream) : Nat :=
  match X.sender with
  | .sending _ | .fragment _ _ => 1
  | _ => 0

def credited (ch : List RecvItem) : Nat := ch.countP RecvItem.credited

def ackTop (Y : Stream) : Nat :=
  match Y.acker with
  | .published cum => cum
  | _ => Y.recvCredit.ackedOut

structure Flow (lax : Bool) (p : ChunkPolicy) (X Y : Stream) (opened : Bool) (data : List StreamFrame) (acks : List Nat) :
    Prop where
  wire : Y.terminalErr = false → ∃ st,
    arriveAll p X.openFrame Y.received (if opened then some Y.received else none) data = some st ∧
      X.Sends lax Y.received st
  cap : Y.recvCap = X.sendCredit.granted + 1
  window : X.sendCredit.sent ≤ X.sendCredit.acked + X.sendCredit.granted
  order : (X.sendCredit.acked :: acks).Pairwise (· < ·)
  bound : ∀ v ∈ X.sendCredit.acked :: acks, v ≤ Y.ackTop
  count : Y.recvCredit.consumed + Y.delivering + credited Y.recvCh + data.countP StreamFrame.isMsg + X.unsent ≤
    X.sendCredit.sent

/-! ## Steps of one side that the direction does not see -/

/-- The sender's `STREAM_OPEN`, and what it has handed over. -/
def said (X : Stream) : StreamFrame × List Bytes × Bool × List Bytes := (X.openFrame, X.openHanded, X.responds, X.handed)

/-- What the direction sees of its sender. -/
structure SameSend (X X' : Stream) : Prop where
  sender : X'.sender = X.sender
  opener : X'.opener = X.opener
  sendSeq : X'.sendSeq = X.sendSeq
  sendClosed : X'.sendClosed = X.sendClosed
  sendCredit : X'.sendCredit = X.sendCredit
  said : X'.said = X.said
  failed : X.terminalErr = true → X'.terminalErr = true

theorem SameSend.next (h : SameSend X X') (hn : X.Next r) : X'.Next r := by
  unfold Next at *
  rw [h.sender, h.sendSeq, h.sendClosed]
  exact hn

theorem SameSend.hands (h : SameSend X X') :
    X'.openFrame = X.openFrame ∧ X'.openHanded = X.openHanded ∧ X'.responds = X.responds ∧ X'.handed = X.handed := by
  simpa [Stream.said] using h.said

theorem Sends.opens (h : X.Sends lax init st) (hsame : SameSend X { X' with opener := X.opener })
    (hnone : st = none → X'.opener ≠ .confirm ∧ X'.opener ≠ .opened)
    (hsome : st ≠ none → X'.opener ≠ .publish ∧ X'.opener ≠ .send) : X'.Sends lax init st := by
  have hnext : ∀ r, X.Next r → X'.Next r := fun r hn => hsame.next hn
  obtain ⟨-, hopen, hresp, hhanded⟩ := hsame.hands
  cases st with
  | none =>
    obtain ⟨h₁, -, -, h₂, h₃, h₄⟩ := h
    exact ⟨hsame.sender.trans h₁, (hnone rfl).1, (hnone rfl).2, hnext _ h₂, hhanded.trans h₃, h₄.trans hopen.symm⟩
  | some r =>
    obtain ⟨-, -, hn, hc⟩ := h
    refine ⟨(hsome (by simp)).1, (hsome (by simp)).2, hn.imp ?_ (hnext r), ?_⟩
    · rintro (⟨deadline, hpc⟩ | ⟨hpc, hterm⟩)
      · exact .inl ⟨deadline, hsame.sender.trans hpc⟩
      · exact .inr ⟨hsame.sender.trans hpc, hsame.failed hterm⟩
    · rw [Carried, show X'.handed = X.handed from hhanded, show X'.responds = X.responds from hresp]
      exact hc

theorem SameSend.sends (h : SameSend X X') (hs : X.Sends lax init st) : X'.Sends lax init st := by
  have hX : { X' with opener := X.opener } = X' := by rw [← h.opener]
  refine hs.opens (hX ▸ h) (fun hn => ?_) fun hn => ?_
  · subst hn
    exact h.opener ▸ ⟨hs.2.1, hs.2.2.1⟩
  · obtain ⟨r, rfl⟩ := Option.ne_none_iff_exists'.mp hn
    exact h.opener ▸ ⟨hs.1, hs.2.1⟩

theorem SameSend.unsent (h : SameSend X X') : X'.unsent = X.unsent := by
  unfold Stream.unsent
  rw [h.sender]

theorem Flow.ofSend (h : Flow lax p X Y opened data acks) (hX : SameSend X X') : Flow lax p X' Y opened data acks := by
  refine ⟨fun hY => ?_, ?_, ?_, ?_, ?_, ?_⟩
  · obtain ⟨st, hst, hsends⟩ := h.wire hY
    exact ⟨st, by rw [hX.hands.1]; exact hst, hX.sends hsends⟩
  all_goals rw [hX.sendCredit]
  · exact h.cap
  · exact h.window
  · exact h.order
  · exact h.bound
  · rw [hX.unsent]
    exact h.count

/-- What the direction sees of its receiver. -/
structure SameRecv (Y Y' : Stream) : Prop where
  failed : Y.terminalErr = true → Y'.terminalErr = true
  received : Y'.terminalErr = false → Y'.received = Y.received
  recvCap : Y'.recvCap = Y.recvCap
  recvCh : Y'.recvCh = Y.recvCh
  delivering : Y'.delivering = Y.delivering
  recvCredit : Y'.recvCredit = Y.recvCredit
  acker : Y'.acker = Y.acker

theorem Flow.ofRecv (h : Flow lax p X Y opened data acks) (hY : SameRecv Y Y') : Flow lax p X Y' opened data acks := by
  refine ⟨fun hterm => ?_, hY.recvCap ▸ h.cap, h.window, h.order, ?_, ?_⟩
  · rw [hY.received hterm]
    exact h.wire (by by_contra hne; simp [hY.failed (by simpa using hne)] at hterm)
  · have : Y'.ackTop = Y.ackTop := by
      unfold ackTop
      rw [hY.acker, hY.recvCredit]
    rw [this]
    exact h.bound
  · rw [hY.recvCredit, hY.delivering, hY.recvCh]
    exact h.count

theorem sameSend_ends (h : Ends X X') : SameSend X X' := by
  have hfailed := h.terminalErr
  obtain ⟨_, _, _, _, _, rfl⟩ := h.frame
  exact ⟨rfl, rfl, rfl, rfl, rfl, rfl, hfailed⟩

theorem sameRecv_ends (hs : Y.RecvSound) (h : Ends Y Y') : SameRecv Y Y' := by
  have hfailed := h.terminalErr
  cases h with
  | same => exact ⟨hfailed, fun _ => rfl, rfl, rfl, rfl, rfl, rfl⟩
  | ended code tc l status hl hboth hcode =>
    refine ⟨hfailed, fun hterm => ?_, rfl, rfl, rfl, rfl, rfl⟩
    -- Only a completion leaves no error, and then no train was pending.
    have hcomp : code = .completed := by
      cases code <;> simp [terminalErr] at hterm ⊢
    have hb := hboth hcomp
    simp only [bothClosed, Bool.and_eq_true] at hb
    simp [received, hs.accum hb.2]

/-! ## The sender's steps -/

theorem arriveAll_data {r' : Received} (h : r.take p f = some r') :
    arriveAll p opening init (some r) ([Effect.data f].filterMap Effect.dataFrame) = some (some r') := by
  simp [Effect.dataFrame, arriveAll_single_some, h]

theorem not_broken (h₁ : X.sender ≠ .idle ∨ X.terminalErr = false) (h₂ : ∀ deadline, X.sender ≠ .failing deadline) :
    ¬ X.Broken := by
  rintro (⟨deadline, hpc⟩ | ⟨hpc, hterm⟩)
  · exact h₂ deadline hpc
  · rcases h₁ with hne | hfalse
    · exact hne hpc
    · simp [hfalse] at hterm

theorem take_fragment {off : Nat} (hin : q.sendInline = p.recvInline) (hce : q.ceiling = p.ceiling)
    (h0 : 0 < q.sendInline) (hlen : q.sendInline < payload.length) (hceil : payload.length ≤ q.ceiling)
    (hoff : off < payload.length) (hacc : r.accum = payload.take off) (hcl : r.closed = false) :
    r.take p (fragmentFrame q payload off r.expectedSeq) =
      some (if lastFragment q payload off then ⟨r.expectedSeq + 1, [], false, r.got ++ [payload]⟩
        else ⟨r.expectedSeq + 1, payload.take (off + q.sendInline), false, r.got⟩) := by
  unfold fragmentFrame
  split
  · next hlast =>
    have hle : payload.length ≤ off + q.sendInline := by simpa [lastFragment] using hlast
    have hne : payload.take off ≠ [] := by
      intro hnil
      have := congrArg List.length hnil
      simp only [List.length_take, List.length_nil] at this
      omega
    have hmsg : message p r.accum (payload.drop off) = some payload := by
      have hlen' : (payload.drop off).length = payload.length - off := List.length_drop
      simp only [message, hacc, if_neg hne, completeRecvAccum, accumFits, List.length_take, hlen']
      rw [if_neg (by omega), if_pos (by simp only [decide_eq_true_eq]; omega), List.take_append_drop]
    simp [Received.take, hcl, hmsg]
  · next hlast =>
    have hgt : off + q.sendInline < payload.length := by simpa [lastFragment] using hlast
    have hlen' : ((payload.drop off).take q.sendInline).length = q.sendInline := by
      rw [List.length_take, List.length_drop]
      omega
    simp only [Received.take, hcl, ne_eq, not_true, or_self, Bool.false_eq_true, if_false, hlen', accumFits, hacc,
      List.length_take]
    rw [if_neg (by omega), if_pos (by simp only [decide_eq_true_eq]; omega), List.take_add]

theorem carried_close (hpc : X.sender = .closing payload finalSeq) (ha : X.Answers lax) (hgot : r.got = X.handed) :
    Carried lax { X with handed := X.handed ++ X.closeHanded payload }
      { r with closed := true, got := r.got ++ if payload.length > 0 then [payload] else [] } := by
  show _ ∨ lax = true ∧ X.responds = true ∧ _
  simp only [closeHanded]
  by_cases hp : payload = []
  · subst hp
    cases hresp : X.responds with
    | true =>
      rcases ha with hlax | ha
      · exact .inr ⟨hlax, rfl, trivial, by simp [hgot]⟩
      · exact absurd rfl (ha [] finalSeq hpc hresp)
    | false => exact .inl (by simp [hgot])
  · have hlen : payload.length > 0 := List.length_pos_iff.mpr hp
    exact .inl (by simp [hgot, hp, hlen])

/-- **What the sender does to the lane**: the receiver that had everything takes what the
step publishes, and stands where the sender then stands. -/
theorem next_senderStep (hn : X.Broken ∨ X.Next r) (hcar : X.Carried lax r) (hX : X.SendSound q)
    (hin : q.sendInline = p.recvInline) (hce : q.ceiling = p.ceiling) (he : e.policy = q)
    (ha : a ≠ .transmit .connErr) (hans : X.Answers lax) (hs : X.senderStep e a = some (X', effects)) :
    ∃ r', arriveAll p opening init (some r) (effects.filterMap Effect.dataFrame) = some (some r') ∧
      (X'.Broken ∨ X'.Next r') ∧ X'.Carried lax r' := by
  have hpos := hX.pos
  unfold SenderAt at hpos
  subst he
  have hnext : X.sender ≠ .idle ∨ X.terminalErr = false → (∀ deadline, X.sender ≠ .failing deadline) → X.Next r :=
    fun h₁ h₂ => hn.resolve_left (not_broken h₁ h₂)
  clear hn
  unfold Next at hnext
  cases senderStep_move hs with
  | sendMsg _ hpc hterm | closeSend _ hpc hterm =>
    rw [hpc] at hnext
    exact ⟨r, rfl, .inr (hnext (.inr hterm) (by simp)), hcar⟩
  | tooLong hpc | abandon hpc | commit hpc | discharge hpc =>
    rw [hpc] at hnext
    exact ⟨r, rfl, .inr (hnext (by simp) (by simp)), hcar⟩
  | admitted hpc _ hpc' =>
    rw [hpc] at hpos hnext
    obtain ⟨hseq, hacc, hcl⟩ := hnext (by simp) (by simp)
    have hclosed : X.sendClosed = false := hX.closed.trans hpos.2.1
    rcases hpc' with rfl | ⟨rfl, -⟩
    · exact ⟨r, rfl, .inr ⟨hseq, hacc, hcl.trans hclosed⟩, hcar⟩
    · exact ⟨r, rfl, .inr ⟨hseq, by simp [hacc], hcl.trans hclosed⟩, hcar⟩
  | @sent payload _ _ hpc hlane =>
    rw [hpc] at hpos hnext
    obtain ⟨hseq, hacc, hcl⟩ := hnext (by simp) (by simp)
    have hclosed : X.sendClosed = false := hX.closed.trans hpos.2.1
    have htake : r.take p (.streamMsg X.sendSeq payload) = some ⟨r.expectedSeq + 1, [], r.closed, r.got ++ [payload]⟩ := by
      simp [Received.take, hcl, hseq, hacc, message]
    refine ⟨_, arriveAll_data htake, ?_, .inl (by rw [hcar.open hcl])⟩
    cases hlane with
    | accepted => exact .inr (by simp [Next, hseq, hcl, hclosed])
    | ctxErr => exact .inl (.inl ⟨_, rfl⟩)
  | fragment hpc hlast =>
    rw [hpc] at hpos hnext
    obtain ⟨-, hc, hpos, h0, hlen, hceil, hoff⟩ := hpos
    obtain ⟨hseq, hacc, hcl⟩ := hnext (by simp) (by simp)
    have htake := take_fragment hin hce h0 hlen hceil hoff hacc hcl
    rw [hseq, hlast] at htake
    exact ⟨_, arriveAll_data htake, .inr (by simp [Next]), .inl (hcar.open hcl)⟩
  | fragmentEnd hpc hlane hlast =>
    rw [hpc] at hpos hnext
    obtain ⟨-, hc, hpos, h0, hlen, hceil, hoff⟩ := hpos
    obtain ⟨hseq, hacc, hcl⟩ := hnext (by simp) (by simp)
    have hclosed : X.sendClosed = false := hX.closed.trans hc
    have htake := take_fragment hin hce h0 hlen hceil hoff hacc hcl
    rw [hseq] at htake
    refine ⟨_, arriveAll_data htake, ?_, .inl ?_⟩
    swap
    · unfold fragmentHanded
      split <;> simp [hcar.open hcl]
    cases hlane with
    | accepted => exact .inr (by simp [Next, hclosed, hlast rfl])
    | ctxErr => exact .inl (.inl ⟨_, rfl⟩)
  | rollback hpc =>
    refine ⟨r, rfl, .inr ?_, hcar⟩
    simp only [Next, Stream.rollback]
    rcases hpc with hpc | hpc <;>
    · rw [hpc] at hpos hnext
      obtain ⟨hseq, hacc, hcl⟩ := hnext (by simp) (by simp)
      have hclosed : X.sendClosed = false := hX.closed.trans hpos.2.1
      exact ⟨by omega, by simpa using hacc, hcl.trans hclosed.symm⟩
  | retry hpc => exact ⟨r, rfl, .inr (hnext (by simp [hpc]) (by simp [hpc])), hcar⟩
  | unsent _ ha' =>
    obtain ⟨deadline, rfl⟩ := ha'.resolve_left fun hc => ha (hc.1 ▸ rfl)
    exact ⟨r, rfl, .inl (.inl ⟨_, rfl⟩), hcar⟩
  | @closeSent payload _ hpc | @closeCtx payload _ _ hpc =>
    rw [hpc] at hpos hnext
    obtain ⟨hc, rfl⟩ := hpos
    obtain ⟨hseq, hacc, hcl⟩ := hnext (by simp) (by simp)
    have hclosed : X.sendClosed = false := hX.closed.trans hc
    have htake : r.take p (.streamClose X.sendSeq payload) =
        some { r with closed := true, got := r.got ++ if payload.length > 0 then [payload] else [] } := by
      simp [Received.take, hacc, hcl, hclosed, hseq]
    refine ⟨_, arriveAll_data htake, ?_, carried_close hpc hans (hcar.open (hcl.trans hclosed))⟩
    first
      | exact .inl (.inl ⟨_, rfl⟩)
      | exact .inr (by simp [Next, hseq, hacc])
  | closeUnsent hpc ha' =>
    rw [hpc] at hpos hnext
    rcases ha' with ⟨rfl, rfl⟩ | ⟨⟨deadline, rfl⟩, rfl⟩ | hc
    · exact ⟨r, rfl, .inr (hnext (by simp) (by simp)), hcar⟩
    · exact ⟨r, rfl, .inl (.inl ⟨_, rfl⟩), hcar⟩
    · exact absurd (hc.1 ▸ rfl) ha
  | @fail deadline hpc =>
    rw [hpc] at hpos
    exact ⟨r, rfl, .inl (.inr ⟨rfl, terminalErr_mapCtx hX hpos deadline⟩), (hcar.ends (ends_mapCtx deadline) :)⟩
  | complete hpc =>
    rw [hpc] at hpos hnext
    obtain ⟨hseq, hacc, hcl⟩ := hnext (by simp) (by simp)
    obtain ⟨_, _, _, _, _, heq⟩ := (ends_completed (s := X)).frame
    refine ⟨r, rfl, .inr ?_, (hcar.ends ends_completed :)⟩
    rw [heq]
    exact ⟨hseq, hacc, hcl.trans (hX.closed.trans hpos.2).symm⟩

theorem Sends.senderStep (h : X.Sends lax init st) (hX : X.SendSound q)
    (hin : q.sendInline = p.recvInline) (hce : q.ceiling = p.ceiling) (he : e.policy = q)
    (ha : a ≠ .transmit .connErr) (hans : X.Answers lax) (hs : X.senderStep e a = some (X', effects)) :
    ∃ st', arriveAll p opening init st (effects.filterMap Effect.dataFrame) = some st' ∧ X'.Sends lax init st' := by
  cases st with
  | none =>
    -- Before its stream is open there is no sender.
    obtain ⟨hpc, -, hop, -⟩ := h
    cases a <;> simp [Stream.senderStep, hpc, hop] at hs
  | some r =>
    obtain ⟨h₁, h₂, hn, hcar⟩ := h
    obtain ⟨r', harr, hn'⟩ := next_senderStep hn hcar hX hin hce he ha hans hs
    have hopener : X'.opener = X.opener := by
      obtain ⟨X₁, _, _, _, _, _, _, _, hends, rfl⟩ := senderStep_frame hs
      obtain ⟨_, _, _, _, _, rfl⟩ := hends.frame
      rfl
    exact ⟨some r', harr, hopener ▸ h₁, hopener ▸ h₂, hn'⟩

/-- What the sender's step does to the credit: no message reaches the lane that was not
admitted, and none is admitted past the window. -/
structure Spends (X X' : Stream) (effects : List Effect) : Prop where
  granted : X'.sendCredit.granted = X.sendCredit.granted
  acked : X'.sendCredit.acked = X.sendCredit.acked
  count : ∀ n, n + X.unsent ≤ X.sendCredit.sent →
    n + (effects.filterMap Effect.dataFrame).countP StreamFrame.isMsg + X'.unsent ≤ X'.sendCredit.sent
  window : X.sendCredit.sent ≤ X.sendCredit.acked + X.sendCredit.granted →
    X'.sendCredit.sent ≤ X.sendCredit.acked + X.sendCredit.granted

theorem Spends.of_eq (hc : X'.sendCredit = X.sendCredit)
    (hu : (effects.filterMap Effect.dataFrame).countP StreamFrame.isMsg + X'.unsent ≤ X.unsent) : Spends X X' effects := by
  refine ⟨by rw [hc], by rw [hc], fun n hn => ?_, fun hw => by rw [hc]; exact hw⟩
  rw [hc]
  omega

theorem Spends.rollback (hc : X'.sendCredit = X.sendCredit.release) (hu : X.unsent = 1) (hu' : X'.unsent = 0) :
    Spends X X' [] := by
  refine ⟨by rw [hc]; rfl, by rw [hc]; rfl, fun n hn => ?_, fun hw => ?_⟩
  · rw [hc]
    simp only [CreditCounter.release, List.filterMap_nil, List.countP_nil]
    omega
  · rw [hc]
    simp only [CreditCounter.release]
    omega

theorem spends_senderStep (hs : X.senderStep e a = some (X', effects)) : Spends X X' effects := by
  have hframe : ∀ payload off seq, [fragmentFrame e.policy payload off seq].countP StreamFrame.isMsg =
      if lastFragment e.policy payload off then 1 else 0 := by
    intro payload off seq
    unfold fragmentFrame
    split <;> simp [StreamFrame.isMsg]
  cases senderStep_move hs with
  | admitted hpc hroom hpc' =>
    have hun : X.unsent = 0 := by simp [unsent, hpc]
    refine ⟨rfl, rfl, fun n hn => ?_, fun hw => by simp only; omega⟩
    rcases hpc' with rfl | ⟨rfl, -⟩ <;>
    · simp [unsent]
      omega
  | sent hpc hlane =>
    have hun : X.unsent = 1 := by simp [unsent, hpc]
    cases hlane <;> exact .of_eq rfl (by rw [hun]; simp [unsent, Effect.dataFrame, StreamFrame.isMsg])
  | @fragment payload off hpc hlast =>
    have hun : X.unsent = 1 := by simp [unsent, hpc]
    have hcount := hframe payload off X.sendSeq
    rw [hlast] at hcount
    exact .of_eq rfl (by rw [hun]; simp [unsent, Effect.dataFrame, hcount])
  | @fragmentEnd payload off _ pc hpc hlane =>
    have hun : X.unsent = 1 := by simp [unsent, hpc]
    have hcount := hframe payload off X.sendSeq
    refine .of_eq rfl ?_
    rw [hun, List.filterMap_cons, Effect.dataFrame, List.filterMap_nil, hcount]
    cases hlane <;> split <;> simp [unsent]
  | rollback hpc => exact .rollback rfl (by rcases hpc with hpc | hpc <;> simp [unsent, hpc]) rfl
  | retry => exact .of_eq rfl (by simp)
  | unsent _ ha =>
    rcases ha with ⟨-, rfl⟩ | ⟨deadline, rfl⟩ <;> exact .of_eq rfl (by simp [unsent])
  | closeUnsent _ ha =>
    rcases ha with ⟨rfl, -⟩ | ⟨⟨deadline, rfl⟩, -⟩ | ⟨-, rfl, -⟩ <;> exact .of_eq rfl (by simp [unsent])
  | fail =>
    obtain ⟨_, _, _, _, _, heq⟩ := (ends_mapCtx (s := X) _).frame
    exact .of_eq (by rw [heq]) (by simp [unsent])
  | complete =>
    obtain ⟨_, _, _, _, _, heq⟩ := (ends_completed (s := X)).frame
    exact .of_eq (by rw [heq]) (by simp [unsent])
  | _ => exact .of_eq rfl (by simp [unsent, List.filterMap_cons, Effect.dataFrame, StreamFrame.isMsg])

/-- **The sender's step**, seen by the direction. -/
theorem Flow.senderStep (h : Flow lax p X Y opened data acks) (hX : X.SendSound q)
    (hin : q.sendInline = p.recvInline) (hce : q.ceiling = p.ceiling) (he : e.policy = q)
    (ha : a ≠ .transmit .connErr) (hans : X.Answers lax) (hs : X.senderStep e a = some (X', effects)) :
    Flow lax p X' Y opened (data ++ effects.filterMap Effect.dataFrame) acks := by
  have hsp := spends_senderStep hs
  have hopen : X'.openFrame = X.openFrame := by
    obtain ⟨X₁, _, _, _, _, _, _, _, hends, heq⟩ := senderStep_frame hs
    have hgr := hsp.granted
    obtain ⟨_, _, _, _, _, rfl⟩ := hends.frame
    subst heq
    unfold openFrame
    rw [hgr]
  refine ⟨fun hY => ?_, ?_, ?_, ?_, ?_, ?_⟩
  · obtain ⟨st, hst, hsends⟩ := h.wire hY
    obtain ⟨st', hst', hsends'⟩ := hsends.senderStep hX hin hce he ha hans hs
    exact ⟨st', by rw [hopen, arriveAll_append hst]; exact hst', hsends'⟩
  · rw [hsp.granted]
    exact h.cap
  · rw [hsp.acked, hsp.granted]
    exact hsp.window h.window
  · rw [hsp.acked]
    exact h.order
  · rw [hsp.acked]
    exact h.bound
  · have := hsp.count _ h.count
    rw [List.countP_append]
    omega

/-! ## The opener's steps -/

theorem SameSend.refl (X : Stream) : SameSend X X := ⟨rfl, rfl, rfl, rfl, rfl, rfl, id⟩

theorem Sends.publishes (h : X.Sends lax init st) (hpc : X.opener = .send) {pc : OpenPc}
    (hpc' : pc ≠ .publish ∧ pc ≠ .send) :
    ∃ st', arriveAll p X.openFrame init st ([Effect.data X.openFrame].filterMap Effect.dataFrame) = some st' ∧
      Sends lax { X.publishOpen with opener := pc } init st' := by
  cases st with
  | none =>
    obtain ⟨-, -, -, hn, hh, hgot⟩ := h
    refine ⟨some init, ?_, hpc'.1, hpc'.2, .inr hn, .inl ?_⟩
    · simp [Effect.dataFrame, arriveAll, arrive, openFrame]
    · rw [hgot, publishOpen, hh, List.nil_append]
  | some r => exact absurd hpc h.2.1

theorem Sends.openerStep {a : OpenAct} (h : X.Sends lax init st) (hcomp : X.phase = .term .completed → st ≠ none)
    (hs : X.openerStep a = some (X', effects)) :
    ∃ st', arriveAll p X.openFrame init st (effects.filterMap Effect.dataFrame) = some st' ∧ X'.Sends lax init st' := by
  cases openerStep_move hs with
  | publish hpc hph =>
    refine ⟨st, rfl, h.opens ⟨rfl, rfl, rfl, rfl, rfl, rfl, ?_⟩ (by simp) fun hne => ?_⟩
    · simp [terminalErr, hph]
    · obtain ⟨r, rfl⟩ := Option.ne_none_iff_exists'.mp hne
      exact absurd hpc h.1
  | late | unknown | unsent | ended => exact ⟨st, rfl, h.opens (.refl X) (by simp) (by simp)⟩
  | sent hpc | sentCtx hpc => exact h.publishes hpc (by simp)
  | confirm hpc =>
    have hopen : st ≠ none := by
      rintro rfl
      exact h.2.1 hpc
    exact ⟨st, rfl, h.opens ⟨rfl, rfl, rfl, rfl, rfl, rfl, id⟩ (fun hn => absurd hn hopen) (by simp)⟩
  | @ambiguous deadline =>
    have hsame := sameSend_ends (ends_mapCtx (s := X) deadline)
    exact ⟨st, rfl, h.opens { hsame with opener := rfl } (by simp) (by simp)⟩
  | discard =>
    have hsame := sameSend_ends (X := X) (ends_terminate .crashed (by simp))
    exact ⟨st, rfl, h.opens { hsame with opener := rfl } (by simp) (by simp)⟩
  | resolve =>
    refine ⟨st, rfl, h.opens ⟨rfl, rfl, rfl, rfl, rfl, rfl, id⟩ (fun hn => ?_) fun _ => ?_⟩
    · have : X.phase ≠ .term .completed := fun hc => hcomp hc hn
      simp [this]
    · dsimp only
      split <;> simp

/-- **The opener's step**, seen by the direction it opens. -/
theorem Flow.openerStep {a : OpenAct} (h : Flow lax p X Y opened data acks)
    (hcomp : X.phase = .term .completed → Y.terminalErr = false →
      ∀ st, arriveAll p X.openFrame Y.received (if opened then some Y.received else none) data = some st → st ≠ none)
    (hs : X.openerStep a = some (X', effects)) :
    Flow lax p X' Y opened (data ++ effects.filterMap Effect.dataFrame) acks := by
  have hmsg : (effects.filterMap Effect.dataFrame).countP StreamFrame.isMsg = 0 := by
    rcases (openerStep_effects hs).1 with rfl | ⟨-, rfl⟩
    · rfl
    · simp [Effect.dataFrame, openFrame, StreamFrame.isMsg]
  have hframe : X'.openFrame = X.openFrame ∧ X'.sendCredit = X.sendCredit ∧ X'.unsent = X.unsent := by
    obtain ⟨X₁, _, _, _, _, _, hends, -, -, rfl⟩ := openerStep_frame hs
    obtain ⟨_, _, _, _, _, rfl⟩ := hends.frame
    exact ⟨rfl, rfl, rfl⟩
  obtain ⟨hopen, hcredit, hun⟩ := hframe
  refine ⟨fun hY => ?_, ?_, ?_, ?_, ?_, ?_⟩
  · obtain ⟨st, hst, hsends⟩ := h.wire hY
    obtain ⟨st', hst', hsends'⟩ := hsends.openerStep (fun hc => hcomp hc hY st hst) hs
    exact ⟨st', by rw [hopen, arriveAll_append hst]; exact hst', hsends'⟩
  all_goals rw [hcredit]
  · exact h.cap
  · exact h.window
  · exact h.order
  · exact h.bound
  · rw [List.countP_append, hmsg, hun]
    exact h.count

/-! ## The receiver's steps -/

theorem Flow.pops (h : Flow lax p X Y opened data acks) (hY : SameRecv Y { Y' with
      recvCh := Y.recvCh, delivered := Y.delivered, delivering := Y.delivering, recvCredit := Y.recvCredit })
    (hrec : Y'.terminalErr = false → Y'.received = Y.received) (hout : Y'.recvCredit.ackedOut = Y.recvCredit.ackedOut)
    (hcount : Y'.recvCredit.consumed + Y'.delivering + credited Y'.recvCh ≤
      Y.recvCredit.consumed + Y.delivering + credited Y.recvCh) : Flow lax p X Y' opened data acks := by
  refine ⟨fun hterm => ?_, hY.recvCap ▸ h.cap, h.window, h.order, ?_, ?_⟩
  · rw [hrec hterm]
    exact h.wire (by by_contra hne; exact absurd (hY.failed (by simpa using hne)) (by simpa [terminalErr] using hterm))
  · have htop : Y'.ackTop = Y.ackTop := by
      have hacker : Y'.acker = Y.acker := hY.acker
      unfold ackTop
      rw [hacker, hout]
    rw [htop]
    exact h.bound
  · have := h.count
    omega

/-- **A receiver's step**: what it takes from the queue it returns, and counts once. -/
theorem Flow.receiverStep {a : RecvAct} (h : Flow lax p X Y opened data acks)
    (hs : Y.receiverStep e a = some (Y', effects)) : Flow lax p X Y' opened data acks := by
  cases receiverStep_move hs with
  | @pop it _ hq =>
    refine h.pops ⟨id, fun _ => rfl, rfl, rfl, rfl, rfl, rfl⟩ (fun _ => ?_) rfl ?_
    · simp [received, hq]
    · rw [hq]
      unfold credited
      rw [List.countP_cons]
      cases it.credited with
      | true =>
        simp only [if_true]
        omega
      | false => simp
  | deliver hpos =>
    refine h.pops ⟨id, fun _ => rfl, rfl, rfl, rfl, rfl, rfl⟩ (fun _ => rfl) rfl ?_
    dsimp only
    omega
  | arm | eof => exact h.ofRecv ⟨id, fun _ => rfl, rfl, rfl, rfl, rfl, rfl⟩

/-- The acknowledgement on a lifecycle frame. -/
def ackOf : StreamFrame → Option Nat
  | .streamAck v => some v
  | _ => none

def acksOf (effects : List Effect) : List Nat := (effects.filterMap Effect.lifeFrame).filterMap ackOf

theorem Flow.acknowledged (h : Flow lax p X Y opened data acks) {token : LifecycleToken} {ackedOut : Nat} {acker : AckPc}
    {armed deferred : Bool} {reArms : Nat} {new : List Nat}
    (hY' : Y' = { Y with token, recvCredit := { Y.recvCredit with ackedOut }, acker, armed, deferred, reArms })
    (hle : Y.ackTop ≤ Y'.ackTop) (hnew : new = [] ∨ ∃ cum, new = [cum] ∧ Y.ackTop < cum ∧ cum ≤ Y'.ackTop) :
    Flow lax p X Y' opened data (acks ++ new) := by
  refine ⟨?_, by rw [hY']; exact h.cap, h.window, ?_, ?_, by rw [hY']; exact h.count⟩
  · rw [hY']
    exact h.wire
  · rcases hnew with rfl | ⟨cum, rfl, hlt, -⟩
    · rw [List.append_nil]
      exact h.order
    · rw [← List.cons_append, List.pairwise_append]
      refine ⟨h.order, List.pairwise_singleton _ _, fun v hv w hw => ?_⟩
      rw [List.mem_singleton.mp hw]
      exact Nat.lt_of_le_of_lt (h.bound v hv) hlt
  · intro v hv
    rw [← List.cons_append] at hv
    rcases List.mem_append.mp hv with hold | hmem
    · exact Nat.le_trans (h.bound v hold) hle
    · rcases hnew with rfl | ⟨cum, rfl, -, hcum⟩
      · cases hmem
      · rw [List.mem_singleton.mp hmem]
        exact hcum

theorem acksOf_arm (h : ∀ x ∈ effects, x = .appendArm) : acksOf effects = [] := by
  have hnil : effects.filterMap Effect.lifeFrame = [] := List.filterMap_eq_nil_iff.mpr fun x hx => by rw [h x hx]; rfl
  rw [acksOf, hnil]
  rfl

theorem acks_ackStep {a : AckAct} (hY : Y.RecvSound) (hs : Y.ackStep a = some (Y', effects)) :
    Y.ackTop ≤ Y'.ackTop ∧
      (acksOf effects = [] ∨ ∃ cum, acksOf effects = [cum] ∧ Y.ackTop < cum ∧ cum ≤ Y'.ackTop) := by
  have hack := hY.ack
  unfold AckAt at hack
  cases ackStep_move hs with
  | pop hpc | check hpc | quit hpc | token hpc | lose hpc | build hpc | refused hpc | backOff hpc | owe hpc
  | ended hpc | discharge hpc =>
    exact ⟨by simp [ackTop, hpc], .inl rfl⟩
  | @sent cum hpc =>
    rw [hpc] at hack
    have htop : Y.ackTop = Y.recvCredit.ackedOut := by simp [ackTop, hpc]
    refine ⟨?_, .inr ⟨cum, rfl, by rw [htop]; exact hack.1, Nat.le_refl _⟩⟩
    rw [htop]
    exact Nat.le_of_lt hack.1
  | settle hpc =>
    rw [hpc] at hack
    exact ⟨by simp [ackTop, hpc, CreditCounter.advanceAckedOut, hack.1], .inl rfl⟩
  | release hpc _ heff => exact ⟨by simp [ackTop, hpc], .inl (acksOf_arm heff)⟩
  | @cancel ok hpc => exact ⟨by simp [ackTop, hpc], .inl (by cases ok <;> rfl)⟩
  | reArm _ heff => exact ⟨Nat.le_refl _, .inl (acksOf_arm heff)⟩

/-- **The dispatcher's step**, seen by the direction it acknowledges. -/
theorem Flow.ackStep {a : AckAct} (h : Flow lax p X Y opened data acks) (hY : Y.RecvSound)
    (hs : Y.ackStep a = some (Y', effects)) : Flow lax p X Y' opened data (acks ++ acksOf effects) := by
  obtain ⟨_, _, _, _, _, _, heq⟩ := ackStep_frame hs
  obtain ⟨hle, hnew⟩ := acks_ackStep hY hs
  exact h.acknowledged heq hle hnew

/-! ## Frames delivered -/

theorem RecvSound.ackTop_le (h : Y.RecvSound) : Y.ackTop ≤ Y.recvCredit.consumed := by
  have hack := h.ack
  unfold ackTop
  unfold AckAt at hack
  split at hack <;> simp_all <;> omega

theorem Flow.acksSublist {acks' : List Nat} (h : Flow lax p X Y opened data acks) (hsub : acks'.Sublist acks) :
    Flow lax p X Y opened data acks' :=
  have hcons : (X.sendCredit.acked :: acks').Sublist (X.sendCredit.acked :: acks) := hsub.cons_cons _
  ⟨h.wire, h.cap, h.window, h.order.sublist hcons, fun w hw => h.bound w (hcons.subset hw), h.count⟩

/-- **An acknowledgement delivered** is above the last and within what was sent. -/
theorem Flow.ackTaken {v : Nat} (h : Flow lax p X Y opened data (v :: acks)) (hY : Y.RecvSound) (p' : ChunkPolicy) :
    (X.dispatch p' (.streamAck v)).2 = true ∧ Flow lax p (X.dispatch p' (.streamAck v)).1 Y opened data acks := by
  have hlt : X.sendCredit.acked < v := (List.pairwise_cons.mp h.order).1 v (by simp)
  have hsent : v ≤ X.sendCredit.sent := by
    have hv : v ≤ Y.ackTop := h.bound v (by simp)
    have htop := hY.ackTop_le
    have hcount := h.count
    omega
  have hdisp : X.dispatch p' (.streamAck v) =
      (if X.isLive then { X with sendCredit := { X.sendCredit with acked := v } } else X, true) := by
    simp only [dispatch, onStreamAck, CreditCounter.replenishStrict]
    split
    · rw [if_neg (by omega), if_neg (by omega), if_neg (by omega)]
    · rfl
  rw [hdisp]
  refine ⟨rfl, ?_⟩
  have hsub : (v :: acks).Sublist (X.sendCredit.acked :: v :: acks) := List.sublist_cons_self _ _
  dsimp only
  split
  · refine ⟨h.wire, h.cap, ?_, h.order.sublist hsub, fun w hw => h.bound w (hsub.subset hw), h.count⟩
    have := h.window
    show X.sendCredit.sent ≤ v + X.sendCredit.granted
    omega
  · exact h.acksSublist (List.sublist_cons_self _ _)

theorem Flow.room (h : Flow lax p X Y opened data acks) (hY : Y.RecvSound) (hc : Y.closeRemote = false) :
    Y.recvCh.length + data.countP StreamFrame.isMsg < Y.recvCap := by
  have hlen : Y.recvCh.length = credited Y.recvCh := (List.countP_eq_length.mpr (hY.queue hc)).symm
  have hcount := h.count
  have hwin := h.window
  have hcap := h.cap
  have hacked : X.sendCredit.acked ≤ Y.ackTop := h.bound _ (by simp)
  have htop := hY.ackTop_le
  omega

theorem arriveAll_some_congr {opening' : StreamFrame} {init' : Received} :
    arriveAll p opening init (some r) data = arriveAll p opening' init' (some r) data := by
  induction data generalizing r with
  | nil => rfl
  | cons f data ih =>
    rw [arriveAll_cons_some, arriveAll_cons_some]
    cases r.take p f with
    | none => rfl
    | some r' => exact ih

theorem Flow.delivered (h : Flow lax p X Y opened (f :: data) acks)
    (hwire : (Y.dispatch p f).1.terminalErr = false → ∃ st,
      arriveAll p X.openFrame (Y.dispatch p f).1.received (some (Y.dispatch p f).1.received) data = some st ∧
        X.Sends lax (Y.dispatch p f).1.received st) :
    Flow lax p X (Y.dispatch p f).1 true data acks := by
  obtain ⟨_, _, recvCh, _, _, _, hread, hends⟩ := dispatch_frame Y p f
  obtain ⟨_, _, _, _, _, heq⟩ := hends.frame
  refine ⟨hwire, by rw [heq]; exact h.cap, h.window, h.order, by rw [heq]; exact h.bound, ?_⟩
  have hcount := h.count
  rw [List.countP_cons] at hcount
  have hch : credited recvCh ≤ credited Y.recvCh + if f.isMsg = true then 1 else 0 := by
    rcases hread.queue with hsame | ⟨-, payload, ⟨hmsg, happ⟩ | ⟨-, happ⟩⟩
    · rw [hsame]
      omega
    · simp [happ, hmsg, credited]
    · simp [happ, credited]
  rw [heq]
  dsimp only
  omega

/-- **A data frame delivered** is one the receiver takes. -/
theorem Flow.dataTaken (h : Flow lax p X Y true (f :: data) acks) (hY : Y.RecvSound) :
    (Y.dispatch p f).2 = true ∧ Flow lax p X (Y.dispatch p f).1 true data acks := by
  have hwire : Y.terminalErr = false → ∃ r st, Y.received.take p f = some r ∧
      (∀ opening init, arriveAll p opening init (some r) data = some st) ∧ X.Sends lax Y.received st := by
    intro hterm
    obtain ⟨st, hst, hsends⟩ := h.wire hterm
    rw [if_pos rfl, arriveAll_cons_some] at hst
    obtain ⟨r, hr, hst⟩ := Option.bind_eq_some_iff.mp hst
    exact ⟨r, st, hr, fun _ _ => arriveAll_some_congr.trans hst, hsends⟩
  have hinit : ∀ init init' r, X.Sends lax init (some r) → X.Sends lax init' (some r) := fun _ _ _ h => h
  by_cases hl : Y.isLive = true
  · obtain ⟨r, st, hr, hst, hsends⟩ := hwire (terminalErr_isLive hl)
    obtain ⟨hok, hrec⟩ := dispatch_take hl (fun hc => by have := h.room hY hc; omega) hr
    refine ⟨hok, h.delivered fun hterm => ?_⟩
    obtain ⟨⟨r', rfl⟩, -⟩ := arriveAll_some (hst X.openFrame Y.received)
    rw [hrec hterm]
    exact ⟨some r', hst _ _, hinit _ _ _ hsends⟩
  · have heq : Y.dispatch p f = (Y, true) := by simp [dispatch, hl]
    rw [heq]
    refine ⟨rfl, ?_⟩
    have hflow := h.delivered (p := p) (f := f)
    rw [heq] at hflow
    refine hflow fun hterm => ?_
    obtain ⟨r, st, hr, hst, hsends⟩ := hwire hterm
    -- It completed: the half-close was the last frame of the direction.
    have hclosed : Y.received.closed = true := by
      refine hY.completed ?_
      unfold terminalErr at hterm
      unfold isLive at hl
      split at hterm <;> simp_all
    obtain ⟨rfl, -⟩ := take_closed hclosed hr
    exact ⟨st, hst _ _, hsends⟩

theorem Flow.errSent (h : Flow lax p X Y opened data acks) (status : FrameStatus) :
    Flow lax p X Y opened (data ++ [.streamErr status]) acks := by
  refine ⟨fun hY => ?_, h.cap, h.window, h.order, h.bound, ?_⟩
  · obtain ⟨st, hst, hsends⟩ := h.wire hY
    exact ⟨st, (arriveAll_append hst).trans (arriveAll_err status), hsends⟩
  · simpa [StreamFrame.isMsg] using h.count

theorem Flow.unopened (h : Flow lax p X Y false (f :: data) acks) (hY : Y.terminalErr = false) :
    (∃ status, f = .streamErr status) ∧ Flow lax p X Y false data acks ∨
    f = X.openFrame ∧ Flow lax p X Y true data acks ∧ (∀ credits payload, .streamOpen credits payload ∉ data) ∧
      X.opener ≠ .publish ∧ X.opener ≠ .send := by
  obtain ⟨st, hst, hsends⟩ := h.wire hY
  have hcount : Y.recvCredit.consumed + Y.delivering + credited Y.recvCh + data.countP StreamFrame.isMsg + X.unsent ≤
      X.sendCredit.sent := by
    have := h.count
    rw [List.countP_cons] at this
    omega
  simp only [arriveAll, List.foldlM_cons, Bool.false_eq_true, if_false] at hst
  unfold arrive at hst
  split at hst
  · next status _ =>
    exact .inl ⟨⟨status, rfl⟩, fun _ => ⟨st, hst, hsends⟩, h.cap, h.window, h.order, h.bound, hcount⟩
  · next heq _ =>
    split at hst
    · next hopen =>
      have hrest : arriveAll p X.openFrame Y.received (some Y.received) data = some st := hst
      obtain ⟨⟨r, rfl⟩, hno⟩ := arriveAll_some hrest
      exact .inr ⟨hopen, ⟨fun _ => ⟨some r, hrest, hsends⟩, h.cap, h.window, h.order, h.bound, hcount⟩, hno, hsends.1,
        hsends.2.1⟩
    · cases hst
  · next heq => cases heq

/-! ## Steps of either side -/

theorem sameSend_dispatch (p : ChunkPolicy) (hf : ∀ v, f ≠ .streamAck v) :
    SameSend X (X.dispatch p f).1 := by
  obtain ⟨_, _, _, _, _, acked, hread, hends⟩ := dispatch_frame X p f
  have hacked : acked = X.sendCredit.acked := hread.acked.resolve_right fun h => hf acked h.1
  have hsame := sameSend_ends hends
  subst hacked
  exact ⟨hsame.sender, hsame.opener, hsame.sendSeq, hsame.sendClosed, hsame.sendCredit, hsame.said, hsame.failed⟩

theorem sameRecv_dispatch (p : ChunkPolicy) (hY : Y.RecvSound)
    (hf : (∃ v, f = .streamAck v) ∨ ∃ code, f = .cancel code) : SameRecv Y (Y.dispatch p f).1 := by
  have hrefl : SameRecv Y Y := ⟨id, fun _ => rfl, rfl, rfl, rfl, rfl, rfl⟩
  unfold dispatch
  split
  swap
  · exact hrefl
  rcases hf with ⟨v, rfl⟩ | ⟨code, rfl⟩
  · simp only [onStreamAck]
    split
    · exact hrefl
    split
    · exact hrefl
    split
    · exact hrefl
    · exact ⟨id, fun _ => rfl, rfl, rfl, rfl, rfl, rfl⟩
  · simp only [onTeardownCancel]
    split
    · exact sameRecv_ends hY (ends_terminate _ (by simp))
    split
    · exact sameRecv_ends hY (ends_terminate _ (by simp))
    · exact hrefl

theorem frames_nil {g : Effect → Option StreamFrame} (h : ∀ x ∈ effects, g x = none) : effects.filterMap g = [] :=
  List.filterMap_eq_nil_iff.mpr h

theorem acksOf_nil (h : ∀ x ∈ effects, x.lifeFrame = none) : acksOf effects = [] := by
  rw [acksOf, frames_nil h]
  rfl

/-- **A step of the sending side.** -/
theorem Flow.sendStep {a : Act} (h : Flow lax p X Y opened data acks) (hX : X.SendSound q)
    (hin : q.sendInline = p.recvInline) (hce : q.ceiling = p.ceiling) (he : e.policy = q)
    (ha : a ≠ .sender (.transmit .connErr)) (hans : X.Answers lax)
    (hcomp : X.phase = .term .completed → Y.terminalErr = false →
      ∀ st, arriveAll p X.openFrame Y.received (if opened then some Y.received else none) data = some st → st ≠ none)
    (hs : X.step e a = some (X', effects)) : Flow lax p X' Y opened (data ++ effects.filterMap Effect.dataFrame) acks := by
  -- All but the opener and the sender leave what the direction sees.
  have hother : (∀ x ∈ effects, x.dataFrame = none) → SameSend X X' →
      Flow lax p X' Y opened (data ++ effects.filterMap Effect.dataFrame) acks := by
    intro hdata hsame
    rw [frames_nil hdata, List.append_nil]
    exact h.ofSend hsame
  cases a with
  | opener a => exact h.openerStep hcomp hs
  | sender a => exact h.senderStep hX hin hce he (fun hc => ha (hc ▸ rfl)) hans hs
  | receiver a =>
    obtain ⟨⟨_, _, _, _, _, _, _, rfl⟩, heff⟩ := receiverStep_frame hs
    exact hother (fun x hx => (arm_effects heff x hx).1) ⟨rfl, rfl, rfl, rfl, rfl, rfl, id⟩
  | acker a =>
    have heff := ackStep_effects hs
    obtain ⟨_, _, _, _, _, _, rfl⟩ := ackStep_frame hs
    exact hother (fun x hx => (heff x hx).1) ⟨rfl, rfl, rfl, rfl, rfl, rfl, id⟩
  | finisher a =>
    have heff := finishStep_effects hs
    obtain ⟨_, _, _, _, rfl⟩ := finishStep_frame hs
    exact hother (fun x hx => (heff x hx).1) ⟨rfl, rfl, rfl, rfl, rfl, rfl, id⟩
  | ending a =>
    obtain ⟨hends, rfl⟩ := endStep_ends hs
    exact hother (by simp) (sameSend_ends hends)

/-- **A step of the receiving side.** -/
theorem Flow.recvStep {a : Act} (h : Flow lax p X Y opened data acks) (hY : Y.RecvSound)
    (hs : Y.step e a = some (Y', effects)) : Flow lax p X Y' opened data (acks ++ acksOf effects) := by
  have hother : (∀ x ∈ effects, x.lifeFrame = none) → Flow lax p X Y' opened data acks →
      Flow lax p X Y' opened data (acks ++ acksOf effects) := by
    intro hlife hflow
    rw [acksOf_nil hlife, List.append_nil]
    exact hflow
  cases a with
  | opener a =>
    have heff : ∀ x ∈ effects, x.lifeFrame = none := by
      rcases (openerStep_effects hs).1 with rfl | ⟨-, rfl⟩ <;> simp [Effect.lifeFrame]
    obtain ⟨Y₁, phase, _, _, _, _, hends, hphase, -, rfl⟩ := openerStep_frame hs
    refine hother heff ((h.ofRecv (sameRecv_ends hY hends)).ofRecv ⟨?_, fun _ => rfl, rfl, rfl, rfl, rfl, rfl⟩)
    intro hterm
    rcases hphase with rfl | ⟨hph, -⟩
    · exact hterm
    · simp [terminalErr, hph] at hterm
  | sender a =>
    have heff := fun x hx => (senderStep_effects hs x hx).1
    obtain ⟨Y₁, _, _, _, _, _, _, _, hends, rfl⟩ := senderStep_frame hs
    exact hother heff ((h.ofRecv (sameRecv_ends hY hends)).ofRecv
      ⟨id, fun _ => rfl, rfl, rfl, rfl, rfl, rfl⟩)
  | receiver a =>
    exact hother (fun x hx => (arm_effects (receiverStep_frame hs).2 x hx).2.1) (h.receiverStep hs)
  | acker a => exact h.ackStep hY hs
  | finisher a =>
    have heff := finishStep_effects hs
    obtain ⟨_, _, _, _, heq⟩ := finishStep_frame hs
    have hacks : acksOf effects = [] := by
      unfold acksOf
      refine List.filterMap_eq_nil_iff.mpr fun f hf => ?_
      obtain ⟨x, hx, hxf⟩ := List.mem_filterMap.mp hf
      rw [((heff x hx).2.2 f hxf).2]
      rfl
    rw [hacks, List.append_nil, heq]
    exact h.ofRecv ⟨id, fun _ => rfl, rfl, rfl, rfl, rfl, rfl⟩
  | ending a =>
    obtain ⟨hends, rfl⟩ := endStep_ends hs
    exact hother (by simp) (h.ofRecv (sameRecv_ends hY hends))

/-- What a side puts on the lifecycle lane is an acknowledgement or a `CANCEL` with a
code. -/
def LifeFrame (f : StreamFrame) : Prop := (∃ v, f = .streamAck v) ∨ ∃ code, f = .cancel code ∧ TeardownCode code

theorem Sound.life {a : Act} (h : X.Sound q) (hs : X.step e a = some (X', effects)) :
    ∀ f ∈ effects.filterMap Effect.lifeFrame, LifeFrame f := by
  have hnone : (∀ x ∈ effects, x.lifeFrame = none) → ∀ f ∈ effects.filterMap Effect.lifeFrame, LifeFrame f := by
    intro hlife f hf
    rw [frames_nil hlife] at hf
    cases hf
  cases a with
  | opener a =>
    refine hnone ?_
    rcases (openerStep_effects hs).1 with rfl | ⟨-, rfl⟩ <;> simp [Effect.lifeFrame]
  | sender a => exact hnone fun x hx => (senderStep_effects hs x hx).1
  | receiver a => exact hnone fun x hx => (arm_effects (receiverStep_frame hs).2 x hx).2.1
  | acker a =>
    intro f hf
    obtain ⟨x, hx, hxf⟩ := List.mem_filterMap.mp hf
    rcases (ackStep_effects hs x hx).2.2 f hxf with hack | ⟨hpc, rfl⟩
    · exact .inl hack
    · exact .inr ⟨_, rfl, h.tear.left (.inr hpc)⟩
  | finisher a =>
    intro f hf
    obtain ⟨x, hx, hxf⟩ := List.mem_filterMap.mp hf
    obtain ⟨hpc | hpc, rfl⟩ := (finishStep_effects hs x hx).2.2 f hxf
    · exact .inr ⟨_, rfl, h.tear.winner (.inr hpc)⟩
    · exact .inr ⟨_, rfl, h.tear.owed (.inr hpc)⟩
  | ending a =>
    obtain ⟨-, rfl⟩ := endStep_ends hs
    exact hnone (by simp)

theorem dispatch_cancel {code : UInt32} (h : TeardownCode code) : (X.dispatch p (.cancel code)).2 = true := by
  unfold dispatch
  split
  · rcases h with rfl | rfl
    · rfl
    · rfl
  · rfl

/-! ## The response under way -/

theorem Answers.congr (h : X.Answers lax) (hk : X'.sender = X.sender ∧ X'.responds = X.responds) : X'.Answers lax := by
  unfold Answers
  rw [hk.1, hk.2]
  exact h

theorem senderStep_closing (hs : X.senderStep e a = some (X', effects))
    (hpc : X'.sender = .closing payload finalSeq) : a = .closeSend payload ∧ X'.responds = X.responds := by
  cases senderStep_move hs with
  | admitted _ _ hpc' => rcases hpc' with rfl | ⟨rfl, -⟩ <;> cases hpc
  | sent _ hlane | fragmentEnd _ hlane => cases hlane <;> cases hpc
  | retry hpc' => simp [hpc'] at hpc
  | unsent _ ha => rcases ha with ⟨-, rfl⟩ | ⟨deadline, rfl⟩ <;> cases hpc
  | closeUnsent _ ha => rcases ha with ⟨rfl, -⟩ | ⟨⟨deadline, rfl⟩, -⟩ | ⟨-, rfl, -⟩ <;> cases hpc
  | closeSend =>
    cases hpc
    exact ⟨rfl, rfl⟩
  | _ => cases hpc

theorem closing_ends (h : Ends X X') : X'.sender = X.sender ∧ X'.responds = X.responds := by
  obtain ⟨_, _, _, _, _, rfl⟩ := h.frame
  exact ⟨rfl, rfl⟩

theorem closing_arm (X : Stream) : X.arm.1.sender = X.sender ∧ X.arm.1.responds = X.responds := by
  obtain ⟨⟨_, heq⟩, -⟩ := arm_frame (show X.arm = (X.arm.1, X.arm.2) from rfl)
  rw [heq]
  exact ⟨rfl, rfl⟩

theorem closing_dispatch (X : Stream) (p : ChunkPolicy) (f : StreamFrame) :
    (X.dispatch p f).1.sender = X.sender ∧ (X.dispatch p f).1.responds = X.responds := by
  obtain ⟨_, _, _, _, _, _, -, hends⟩ := dispatch_frame X p f
  obtain ⟨hpc, hresp⟩ := closing_ends hends
  exact ⟨hpc, hresp⟩

theorem Answers.step {a : Act} (h : X.Answers lax) (hs : X.step e a = some (X', effects))
    (hclose : ∀ payload, a = .sender (.closeSend payload) → lax = true ∨ (X.responds = true → payload ≠ [])) :
    X'.Answers lax := by
  cases a with
  | sender a =>
    rcases h with hlax | -
    · exact .inl hlax
    by_cases hlax : lax = true
    · exact .inl hlax
    refine .inr fun payload finalSeq hpc hresp => ?_
    obtain ⟨rfl, heq⟩ := senderStep_closing hs hpc
    exact (hclose payload rfl).resolve_left hlax (heq ▸ hresp)
  | opener a =>
    obtain ⟨s₁, _, _, _, _, _, he, -, -, rfl⟩ := openerStep_frame hs
    obtain ⟨hpc, hresp⟩ := closing_ends he
    exact h.congr ⟨hpc, hresp⟩
  | receiver a =>
    obtain ⟨⟨_, _, _, _, _, _, _, rfl⟩, -⟩ := receiverStep_frame hs
    exact h.congr ⟨rfl, rfl⟩
  | acker a =>
    obtain ⟨_, _, _, _, _, _, rfl⟩ := ackStep_frame hs
    exact h.congr ⟨rfl, rfl⟩
  | finisher a =>
    obtain ⟨_, _, _, _, rfl⟩ := finishStep_frame hs
    exact h.congr ⟨rfl, rfl⟩
  | ending a => exact h.congr (closing_ends (endStep_ends hs).1)

end Stream

end Styx
