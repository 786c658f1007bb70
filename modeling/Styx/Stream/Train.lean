/-
Messages above the inline limit: the train of fragments a sender cuts one into, and what
a receiver makes of any fragments it accepts.

`sendChunked` numbers and sends a train's fragments one by one, between whatever else
the connection does. `onStreamChunk` and `onStreamMsg` take a fragment only if it is the
next by number and of the one length it can have, so a train accepted from any peer is
the cut of the message it makes.
-/
import Styx.Lib.Pieces
import Styx.Stream.Link
import Styx.Stream.Solo
import Mathlib.Tactic.Ring

namespace Styx

open Machine

/-- The fragments of a message: full ones, and an ordinary `STREAM_MSG` with the rest. -/
def train (limit : Nat) (payload : Bytes) (seq : Nat) : List StreamFrame :=
  (List.range (Pieces.count limit payload.length)).map fun i =>
    if i + 1 = Pieces.count limit payload.length then .streamMsg (seq + i) (Pieces.piece limit payload i)
    else .streamChunk (seq + i) (Pieces.piece limit payload i)

inductive ChunkTransport
  | shm (maxSendPayload maxRecvPayload : Nat)
  | burst (inlineMax inboundInlineMax : Nat)
  /-- One that never carries the frame kind. -/
  | other
  deriving DecidableEq

def chunkPolicyFor (tr : ChunkTransport) (active : Bool) (ceiling : Nat) : ChunkPolicy :=
  if ¬ active ∨ ceiling = 0 then ⟨false, 0, 0, 0⟩
  else
    match tr with
    | .shm maxSendPayload maxRecvPayload => ⟨true, ceiling, maxSendPayload, maxRecvPayload⟩
    | .burst inlineMax inboundInlineMax => ⟨true, ceiling, inlineMax, inboundInlineMax⟩
    | .other => ⟨false, 0, 0, 0⟩

/-- The transport as its other end has it. -/
def ChunkTransport.peer : ChunkTransport → ChunkTransport
  | .shm maxSendPayload maxRecvPayload => .shm maxRecvPayload maxSendPayload
  | .burst inlineMax inboundInlineMax => .burst inboundInlineMax inlineMax
  | .other => .other

theorem chunkPolicyFor_peer (tr : ChunkTransport) (active : Bool) (ceiling : Nat) :
    (chunkPolicyFor tr active ceiling).sendInline = (chunkPolicyFor tr.peer active ceiling).recvInline ∧
      (chunkPolicyFor tr active ceiling).recvInline = (chunkPolicyFor tr.peer active ceiling).sendInline ∧
      (chunkPolicyFor tr active ceiling).ceiling = (chunkPolicyFor tr.peer active ceiling).ceiling := by
  unfold chunkPolicyFor
  split
  · exact ⟨rfl, rfl, rfl⟩
  · cases tr <;> exact ⟨rfl, rfl, rfl⟩

/-- Two engines over one transport. -/
def LinkConfig.ofTransport (tr : ChunkTransport) (active : Bool) (ceiling capacity : Nat) (method : UInt64 → StreamShape) :
    LinkConfig where
  table side := ⟨side, capacity, chunkPolicyFor (if side = .client then tr else tr.peer) active ceiling⟩
  method := method
  side _ := rfl
  inline side := by
    cases side
    · exact (chunkPolicyFor_peer tr active ceiling).1
    · exact (chunkPolicyFor_peer tr active ceiling).2.1.symm
  ceiling side := by
    cases side
    · exact (chunkPolicyFor_peer tr active ceiling).2.2
    · exact (chunkPolicyFor_peer tr active ceiling).2.2.symm

namespace Stream

variable {e : Env} {X X' X₀ : Stream} {effects : List Effect} {p q : ChunkPolicy} {payload : Bytes} {k : Nat}

theorem lastFragment_iff (hn : 0 < q.sendInline) (hk : k < Pieces.count q.sendInline payload.length) :
    lastFragment q payload (k * q.sendInline) = true ↔ k + 1 = Pieces.count q.sendInline payload.length := by
  have hle : Pieces.count q.sendInline payload.length ≤ k + 1 ↔ payload.length ≤ (k + 1) * q.sendInline :=
    Pieces.count_le_iff hn
  rw [Nat.succ_mul] at hle
  simp only [lastFragment, decide_eq_true_eq]
  omega

theorem fragmentFrame_eq (hn : 0 < q.sendInline) (hk : k < Pieces.count q.sendInline payload.length) (seq : Nat) :
    fragmentFrame q payload (k * q.sendInline) (seq + k) =
      if k + 1 = Pieces.count q.sendInline payload.length then .streamMsg (seq + k) (Pieces.piece q.sendInline payload k)
      else .streamChunk (seq + k) (Pieces.piece q.sendInline payload k) := by
  unfold fragmentFrame
  by_cases hlast : lastFragment q payload (k * q.sendInline) = true
  · rw [if_pos hlast, if_pos ((lastFragment_iff hn hk).mp hlast)]
    have hlen : (payload.drop (k * q.sendInline)).length ≤ q.sendInline := by
      simp only [lastFragment, decide_eq_true_eq] at hlast
      rw [List.length_drop]
      omega
    rw [Pieces.piece, List.take_of_length_le hlen]
  · rw [if_neg hlast, if_neg fun h => hlast ((lastFragment_iff hn hk).mpr h)]
    rfl

theorem take_train (hk : k < Pieces.count q.sendInline payload.length) (hn : 0 < q.sendInline) (seq : Nat) :
    (train q.sendInline payload seq).take (k + 1) =
      (train q.sendInline payload seq).take k ++ [fragmentFrame q payload (k * q.sendInline) (seq + k)] := by
  have hlen : k < (train q.sendInline payload seq).length := by simpa [train] using hk
  rw [List.take_succ_eq_append_getElem hlen]
  simp [train, fragmentFrame_eq hn hk]

/-- What a train under way has of the sender. -/
structure SameTrain (X X' : Stream) : Prop where
  sender : X'.sender = X.sender
  sendSeq : X'.sendSeq = X.sendSeq
  sent : X'.sendCredit.sent = X.sendCredit.sent
  handed : X'.handed = X.handed
  opener : X'.opener = X.opener

theorem SameTrain.refl (X : Stream) : SameTrain X X := ⟨rfl, rfl, rfl, rfl, rfl⟩

theorem sameTrain_ends (h : Ends X X') : SameTrain X X' := by
  obtain ⟨_, _, _, _, _, rfl⟩ := h.frame
  exact ⟨rfl, rfl, rfl, rfl, rfl⟩

theorem sameTrain_dispatch (X : Stream) (p : ChunkPolicy) (f : StreamFrame) : SameTrain X (X.dispatch p f).1 := by
  obtain ⟨_, _, _, _, _, _, -, hends⟩ := dispatch_frame X p f
  obtain ⟨_, _, _, _, _, heq⟩ := hends.frame
  rw [heq]
  exact ⟨rfl, rfl, rfl, rfl, rfl⟩

theorem sameTrain_arm (X : Stream) : SameTrain X X.arm.1 := by
  obtain ⟨⟨_, heq⟩, -⟩ := arm_frame (show X.arm = (X.arm.1, X.arm.2) from rfl)
  rw [heq]
  exact ⟨rfl, rfl, rfl, rfl, rfl⟩

theorem sameTrain_step {a : Act} (hs : X.step e a = some (X', effects)) (hopen : X.opener = .opened)
    (ha : ∀ sa, a ≠ .sender sa) : SameTrain X X' := by
  cases a with
  | opener a => cases a <;> simp [step, openerStep, hopen] at hs
  | sender sa => exact absurd rfl (ha sa)
  | receiver a =>
    obtain ⟨⟨_, _, _, _, _, _, _, rfl⟩, -⟩ := receiverStep_frame hs
    exact ⟨rfl, rfl, rfl, rfl, rfl⟩
  | acker a =>
    obtain ⟨_, _, _, _, _, _, rfl⟩ := ackStep_frame hs
    exact ⟨rfl, rfl, rfl, rfl, rfl⟩
  | finisher a =>
    obtain ⟨_, _, _, _, rfl⟩ := finishStep_frame hs
    exact ⟨rfl, rfl, rfl, rfl, rfl⟩
  | ending a => exact sameTrain_ends (endStep_ends hs).1

/-- A train of `payload` under way: `X₀` is the stream as `SendMsg` found it, `out` the frames sent so far. -/
inductive Progress (q : ChunkPolicy) (payload : Bytes) (X₀ X : Stream) (out : List StreamFrame) : Prop
  | admitting : X.sender = .admitting payload → X.sendSeq = X₀.sendSeq → X.sendCredit.sent = X₀.sendCredit.sent →
    X.handed = X₀.handed → out = [] → Progress q payload X₀ X out
  | fragment (k : Nat) : X.sender = .fragment payload (k * q.sendInline) → k < Pieces.count q.sendInline payload.length →
    X.sendSeq = X₀.sendSeq + 1 + k → X.sendCredit.sent = X₀.sendCredit.sent + 1 → X.handed = X₀.handed →
    out = (train q.sendInline payload (X₀.sendSeq + 1)).take k → Progress q payload X₀ X out
  | sent : X.sender = .idle → X.sendSeq = X₀.sendSeq + Pieces.count q.sendInline payload.length →
    X.sendCredit.sent = X₀.sendCredit.sent + 1 → X.handed = X₀.handed ++ [payload] →
    out = train q.sendInline payload (X₀.sendSeq + 1) → Progress q payload X₀ X out

variable {out : List StreamFrame}

section

variable (h : Progress q payload X₀ X out)
include h

theorem Progress.keeps (hk : SameTrain X X') : Progress q payload X₀ X' out := by
  cases h with
  | admitting hpc hseq hsent hh hout =>
    exact .admitting (hk.sender.trans hpc) (hk.sendSeq.trans hseq) (hk.sent.trans hsent) (hk.handed.trans hh) hout
  | fragment k hpc hlt hseq hsent hh hout =>
    exact .fragment k (hk.sender.trans hpc) hlt (hk.sendSeq.trans hseq) (hk.sent.trans hsent) (hk.handed.trans hh) hout
  | sent hpc hseq hsent hh hout =>
    exact .sent (hk.sender.trans hpc) (hk.sendSeq.trans hseq) (hk.sent.trans hsent) (hk.handed.trans hh) hout

/-- One credit unit is taken, whatever the number of fragments to come. -/
theorem Progress.reserve (hn : 0 < q.sendInline) (hc : chunked q payload = true)
    (hceil : payload.length ≤ q.ceiling) (he : e.policy = q) (hs : X.senderStep e .reserve = some (X', effects)) :
    Progress q payload X₀ X' (out ++ effects.filterMap Effect.dataFrame) := by
  simp only [Stream.senderStep] at hs
  split at hs
  swap
  · cases hs
  next payload' c hpc hres =>
  cases hs
  unfold CreditCounter.reserve at hres
  split at hres <;> cases hres
  cases h with
  | admitting hpc' hseq hsent hh hout =>
    rw [hpc'] at hpc
    cases hpc
    subst hout
    have hlen : 0 < payload.length := by
      simp only [chunked, Bool.and_eq_true, decide_eq_true_eq] at hc
      omega
    simp only [admitted, he, hc, if_true, if_neg (Nat.not_lt.mpr hceil), List.filterMap_nil, List.append_nil]
    refine .fragment 0 (by simp) ((Pieces.lt_count_iff hn).mpr (by omega)) (by simp [hseq]) (by simp [hsent]) hh rfl
  | fragment k hpc' | sent hpc' => rw [hpc'] at hpc; cases hpc

theorem Progress.accepted (hn : 0 < q.sendInline) (he : e.policy = q)
    (hs : X.senderStep e (.transmit .accepted) = some (X', effects)) :
    Progress q payload X₀ X' (out ++ effects.filterMap Effect.dataFrame) := by
  cases h with
  | admitting hpc | sent hpc => simp [Stream.senderStep, hpc] at hs
  | fragment k hpc hlt hseq hsent hh hout =>
    simp only [Stream.senderStep, hpc, fragmentAnswered, Option.some.injEq, Prod.mk.injEq, he] at hs
    obtain ⟨rfl, rfl⟩ := hs
    have hframe : out ++ ([Effect.data (fragmentFrame q payload (k * q.sendInline) X.sendSeq)].filterMap Effect.dataFrame) =
        (train q.sendInline payload (X₀.sendSeq + 1)).take (k + 1) := by
      rw [take_train hlt hn, hout, hseq]
      rfl
    rw [hframe]
    by_cases hlast : lastFragment q payload (k * q.sendInline) = true
    · have hk := (lastFragment_iff hn hlt).mp hlast
      rw [if_pos hlast]
      refine .sent rfl (by simp only [hseq]; omega) hsent (by simp [hh, fragmentHanded, hlast]) ?_
      rw [hk, List.take_of_length_le (by simp [train])]
    · have hk : k + 1 ≠ Pieces.count q.sendInline payload.length := fun h => hlast ((lastFragment_iff hn hlt).mpr h)
      rw [if_neg hlast]
      refine .fragment (k + 1) ?_ (by omega) (by simp only [hseq]; omega) hsent (by simp [hh, fragmentHanded, hlast]) rfl
      simp only [Nat.succ_mul]

theorem Progress.retried (hne : ∀ payload, X.sender ≠ .fragment payload 0)
    (hs : X.senderStep e (.transmit (.neverPublished true)) = some (X', effects)) :
    Progress q payload X₀ X' (out ++ effects.filterMap Effect.dataFrame) := by
  cases h with
  | admitting hpc | sent hpc => simp [Stream.senderStep, hpc] at hs
  | fragment k hpc hlt hseq hsent hh hout =>
    have hoff : k * q.sendInline ≠ 0 := fun h => hne payload (h ▸ hpc)
    simp only [Stream.senderStep, hpc, fragmentAnswered, if_neg hoff, if_true, Option.some.injEq, Prod.mk.injEq] at hs
    obtain ⟨rfl, rfl⟩ := hs
    rw [List.filterMap_nil, List.append_nil]
    exact .fragment k hpc hlt hseq hsent hh hout

end

end Stream

open Styx.Stream

theorem CallStep.keeps {pol : Policies} {shape : StreamShape} {c c' : Call} {lbl : Option (StreamSide × Stream.Act)}
    {side : StreamSide} {X : Stream} {lax : Bool} (hs : CallStep pol shape c lbl c') (hi : CallInv lax pol shape c)
    (hX : c.stream side = some X) (hopen : X.opener = .opened) (hl : ∀ sa, lbl ≠ some (side, .sender sa)) :
    ∃ X', c'.stream side = some X' ∧ SameTrain X X' := by
  -- The side's stream is replaced, or stays.
  have hcase : ∀ (side' : StreamSide) (Z : Option Stream), (side' = side → ∃ X', Z = some X' ∧ SameTrain X X') →
      ∃ X', Function.update c.stream side' Z side = some X' ∧ SameTrain X X' := by
    intro side' Z hZ
    by_cases hside : side' = side
    · subst hside
      rw [Function.update_self]
      exact hZ rfl
    · rw [Function.update_of_ne (Ne.symm hside)]
      exact ⟨X, hX, .refl X⟩
  have hdispatch : ∀ (side' : StreamSide) (f : StreamFrame),
      ∃ X', CallInv.dispatched pol c side' f side = some X' ∧ SameTrain X X' := by
    intro side' f
    refine hcase side' _ fun hside => ?_
    subst hside
    exact ⟨_, by rw [hX]; rfl, sameTrain_dispatch X _ f⟩
  cases hs with
  | same | err | refuses => exact ⟨X, hX, .refl X⟩
  | step side' hX' hstep he ha =>
    refine hcase side' _ fun hside => ?_
    subst hside
    rw [hX] at hX'
    cases hX'
    exact ⟨_, rfl, sameTrain_step hstep hopen fun sa h => hl sa (by rw [h])⟩
  | arm side' hX' =>
    refine hcase side' _ fun hside => ?_
    subst hside
    rw [hX] at hX'
    cases hX'
    exact ⟨_, rfl, sameTrain_arm X⟩
  | opens scfg hn =>
    refine hcase .client _ fun hside => ?_
    subst hside
    rw [hX] at hn
    cases hn
  | accepts hhead =>
    refine hcase .server _ fun hside => ?_
    subst hside
    rw [(hi.openTaken hhead).1] at hX
    cases hX
  | dataTaken side' hhead _ => exact hdispatch side' _
  | lifeTaken side' hhead => exact hdispatch side' _

/-! ## A train on the link -/

namespace Link

def published (cfg : LinkConfig) (l : Link) (side : StreamSide) (id : UInt64) : Act → List StreamFrame
  | .run side' (.stream id' (.sender a)) =>
    if side' = side ∧ id' = id then
      match (l.table side).step (cfg.table side) (.stream id (.sender a)) with
      | none => []
      | some (_, out) => ofCall id (onLane .data out)
    else []
  | _ => []

variable {cfg : LinkConfig} {l l' : Link} {side : StreamSide} {id : UInt64}

theorem published_nil {a : Act} (h : ∀ sa, a ≠ .run side (.stream id (.sender sa))) : l.published cfg side id a = [] := by
  unfold published
  split
  · next side' id' sa =>
    rw [if_neg]
    rintro ⟨rfl, rfl⟩
    exact h sa rfl
  · rfl

theorem step_sender {a : SendAct} (hs : l.step cfg (.run side (.stream id (.sender a))) = some l') :
    ∃ X X' e effects, (l.table side).streams id = some X ∧ e.policy = (cfg.table side).policy ∧
      X.senderStep e a = some (X', effects) ∧ (l'.table side).streams id = some X' ∧
      l.published cfg side id (.run side (.stream id (.sender a))) = effects.filterMap Effect.dataFrame := by
  simp only [Link.step] at hs
  split at hs
  swap
  · cases hs
  split at hs
  · cases hs
  next t out hstep =>
  cases hs
  obtain ⟨X, X', effects, -, hX, hw⟩ := Table.streamStep_some hstep
  refine ⟨X, X', _, effects, hw.stream, rfl, hX, ?_, ?_⟩
  · simp [put, hw.streams]
  · simp only [published, and_self, if_true, hstep]
    rw [hw.out, ofCall_sentOf_data]

end Link

/-- A link, and the frames that one sender has published since it was watched. -/
structure Sending where
  link : Link
  out : List StreamFrame

namespace Sending

variable {cfg : LinkConfig} {side : StreamSide} {id : UInt64} {payload : Bytes} {X₀ : Stream} {x y : Sending}

def step (cfg : LinkConfig) (side : StreamSide) (id : UInt64) (x : Sending) (a : Link.Act) : Option Sending :=
  match x.link.step cfg a with
  | none => none
  | some l => some ⟨l, x.out ++ x.link.published cfg side id a⟩

def begun (x : Sending) (side : StreamSide) (id : UInt64) : Bool :=
  match (x.link.table side).streams id with
  | none => false
  | some X =>
    match X.sender with
    | .fragment _ off => off ≠ 0
    | _ => false

/-- The sender is in one `SendMsg`, and its `Send`s do not fail: the first fragment is accepted, and a later one may be
refused for want of room any number of times. The rest of the connection does as it likes. -/
def smooth (side : StreamSide) (id : UInt64) (x : Sending) : Link.Act → Bool
  | .run side' (.stream id' (.sender a)) =>
    if side' = side ∧ id' = id then a = .reserve ∨ a = .transmit .accepted ∨ a = .transmit (.neverPublished true) ∧ x.begun side id
    else true
  | _ => true

def Unfailed (side : StreamSide) (id : UInt64) (x : Sending) (a : Link.Act) : Prop :=
  x.link.Reliable a ∧ x.smooth side id a = true

instance (x : Sending) (a : Link.Act) : Decidable (Unfailed side id x a) := by
  unfold Unfailed
  infer_instance

structure Inv (cfg : LinkConfig) (side : StreamSide) (id : UInt64) (payload : Bytes) (X₀ : Stream) (x : Sending) : Prop where
  link : Link.Inv true cfg x.link
  train : ∃ X, (x.link.table side).streams id = some X ∧ X.opener = .opened ∧
    Progress (cfg.table side).policy payload X₀ X x.out

theorem Inv.step {a : Link.Act} (h : Inv cfg side id payload X₀ x) (hn : 0 < (cfg.table side).policy.sendInline)
    (hc : chunked (cfg.table side).policy payload = true) (hceil : payload.length ≤ (cfg.table side).policy.ceiling)
    (hg : Unfailed side id x a) (hs : x.step cfg side id a = some y) : Inv cfg side id payload X₀ y := by
  simp only [Sending.step] at hs
  split at hs
  · cases hs
  next l' hstep =>
  cases hs
  obtain ⟨X, hX, hopen, hprog⟩ := h.train
  refine ⟨h.link.step hg.1 (.of_lax _ a) hstep, ?_⟩
  by_cases hact : ∃ sa, a = .run side (.stream id (.sender sa))
  · obtain ⟨sa, rfl⟩ := hact
    obtain ⟨X₁, X', e, effects, hX₁, he, hsa, hX', hpub⟩ := Link.step_sender hstep
    rw [hX] at hX₁
    cases hX₁
    have hopen' : X'.opener = .opened := by
      obtain ⟨X₂, _, _, _, _, _, _, _, hends, rfl⟩ := senderStep_frame hsa
      exact (sameTrain_ends hends).opener.trans hopen
    refine ⟨X', hX', hopen', ?_⟩
    dsimp only
    rw [hpub]
    have hsmooth := hg.2
    simp only [smooth, and_self, if_true, decide_eq_true_eq] at hsmooth
    rcases hsmooth with rfl | rfl | ⟨rfl, hbegun⟩
    · exact hprog.reserve hn hc hceil he hsa
    · exact hprog.accepted hn he hsa
    · refine hprog.retried (fun payload' hpc => ?_) hsa
      simp [begun, hX, hpc] at hbegun
  · have hno : ∀ sa, a ≠ .run side (.stream id (.sender sa)) := fun sa h => hact ⟨sa, h⟩
    have hlbl : ∀ sa, Link.actOf id a ≠ some (side, .sender sa) := by
      intro sa h
      unfold Link.actOf at h
      split at h
      · next side' id' a' =>
        obtain ⟨hid, ⟨⟩⟩ := guard_some h
        exact hno sa (by rw [hid])
      · cases h
    obtain ⟨X', hX', hk⟩ := ((h.link.moves hg.1 hstep).call id).keeps (h.link.call id) hX hopen hlbl
    refine ⟨X', hX', hk.opener.trans hopen, ?_⟩
    dsimp only
    rw [Link.published_nil hno, List.append_nil]
    exact hprog.keeps hk

/-- **The train of one `SendMsg`**: its frames, its numbers and its one unit of credit, and the message at the peer. -/
theorem exact_train {l₀ l₁ : Link} (h₀ : Reach (Link.step cfg) Link.Reliable Link.start l₀)
    (hX₀ : (l₀.table side).streams id = some X₀) (hactive : (cfg.table side).policy.active = true)
    (hlen : (cfg.table side).policy.sendInline < payload.length) (hceil : payload.length ≤ (cfg.table side).policy.ceiling)
    (hsend : l₀.step cfg (.run side (.stream id (.sender (.sendMsg payload)))) = some l₁)
    (h : Reach (step cfg side id) (Unfailed side id) ⟨l₁, []⟩ x) :
    0 < (cfg.table side).policy.sendInline ∧ ∃ X, (x.link.table side).streams id = some X ∧
      Progress (cfg.table side).policy payload X₀ X x.out ∧
      (X.sender = .idle → ∀ Y, (x.link.table side.peer).streams id = some Y → Y.terminalErr = false →
        Link.ofCall id (x.link.data side) = [] →
        Y.delivered ++ Y.recvCh.map RecvItem.payload = X₀.handed ++ [payload]) := by
  have hc : chunked (cfg.table side).policy payload = true := by simp [chunked, hactive, hlen]
  -- `SendMsg` has found the stream open, and the limit not zero.
  obtain ⟨X, X₁, e, effects, hX, he, hsa, hX₁, -⟩ := Link.step_sender hsend
  rw [hX₀] at hX
  cases hX
  obtain ⟨hcond, hsa⟩ := guard_some hsa
  obtain ⟨hopen, -, -, -, hzero⟩ := hcond
  have hn : 0 < (cfg.table side).policy.sendInline := by
    rw [he] at hzero
    exact Nat.pos_of_ne_zero fun h0 => hzero ⟨hc, h0⟩
  cases hsa
  have hlink₀ : Link.Inv true cfg l₀ :=
    Link.inv_reach cfg (h₀.mono fun l a hrel => ⟨hrel, .of_lax l a⟩)
  have hinv₀ : Inv cfg side id payload X₀ ⟨l₁, []⟩ :=
    ⟨hlink₀.step (show l₀.Reliable (.run side (.stream id (.sender (.sendMsg payload)))) from trivial) trivial hsend, _, hX₁, hopen, .admitting rfl rfl rfl rfl rfl⟩
  have hinv : Inv cfg side id payload X₀ x := h.invariant hinv₀ fun hi hg hs => hi.step hn hc hceil hg hs
  obtain ⟨X, hX, -, hprog⟩ := hinv.train
  refine ⟨hn, X, hX, hprog, fun hidle Y hY hterm hlane => ?_⟩
  have hhanded : X.handed = X₀.handed ++ [payload] := by
    cases hprog with
    | admitting hpc | fragment k hpc => rw [hidle] at hpc; cases hpc
    | sent _ _ _ hh => exact hh
  obtain ⟨r, hst, hcarried⟩ := (hinv.link.call id).carried (show (x.link.call id).stream side = some X from hX) hY hterm
  rw [show (x.link.call id).data side = [] from hlane] at hst
  cases hst
  rcases hcarried with hgot | ⟨-, -, -, hempty⟩
  · exact hgot.trans hhanded
  · -- An empty response is no train.
    rw [hhanded] at hempty
    have := (List.append_inj' hempty rfl).2
    simp only [List.cons.injEq, and_true] at this
    rw [this] at hlen
    simp at hlen

end Sending

/-! ## Any sender -/

namespace Stream

variable {e : Env} {s s' : Stream} {effects : List Effect} {p : ChunkPolicy} {payload : Bytes} {seq : Nat}

theorem onStreamMsg_ok (h : (s.onStreamMsg p seq payload).2 = true) :
    seq = s.expectedSeq ∧ ∃ msg, message p s.recvAccum payload = some msg ∧ (s.onStreamMsg p seq payload).1 =
        { s with recvAccum := [], expectedSeq := s.expectedSeq + 1, recvCh := s.recvCh ++ [⟨msg, true⟩] } := by
  revert h
  unfold onStreamMsg
  split
  · intro h
    cases h
  split
  · intro h
    cases h
  next hseq =>
  split
  · intro h
    cases h
  next msg hmsg =>
  dsimp only
  split
  · exact fun _ => ⟨by simpa using hseq, msg, hmsg, rfl⟩
  · intro h
    cases h

theorem onStreamChunk_ok (h : (s.onStreamChunk p seq payload).2 = true) :
    seq = s.expectedSeq ∧ 0 < payload.length ∧ payload.length = p.recvInline ∧
      s.recvAccum.length + payload.length ≤ p.ceiling ∧ (s.onStreamChunk p seq payload).1 =
        { s with expectedSeq := s.expectedSeq + 1, recvAccum := s.recvAccum ++ payload } := by
  revert h
  unfold onStreamChunk
  split
  · intro h
    cases h
  split
  · intro h
    cases h
  next hseq =>
  split
  · intro h
    cases h
  next hlen =>
  split
  · next hfit => exact fun _ => ⟨by simpa using hseq, by omega, by omega, by simpa [accumFits] using hfit, rfl⟩
  · intro h
    cases h

theorem onStreamClose_ok {finalSeq : Nat} (h : (s.onStreamClose finalSeq payload).2 = true) :
    s.recvAccum = [] ∧ Ends { s with
      closeRemote := true, recvClosed := true
      recvCh := s.recvCh ++ if payload = [] then [] else [⟨payload, false⟩] } (s.onStreamClose finalSeq payload).1 := by
  revert h
  unfold onStreamClose
  split
  · intro h
    cases h
  next hacc =>
  split
  · intro h
    cases h
  dsimp only
  split
  · intro h
    cases h
  split
  · next hlen =>
    have hne : payload ≠ [] := List.length_pos_iff.mp hlen
    split
    · exact fun _ => ⟨by simpa using hacc, ends_completed⟩
    · intro h
      cases h
  · next hlen =>
    have hnil : payload = [] := by simpa using hlen
    intro _
    simp only [hnil, if_true, List.append_nil]
    exact ⟨by simpa using hacc, ends_completed⟩

/-- What the receiving side holds: its messages, and its train unless the stream ends. -/
structure Holds (s s' : Stream) : Prop where
  queue : s'.delivered ++ s'.recvCh.map RecvItem.payload = s.delivered ++ s.recvCh.map RecvItem.payload
  seq : s'.expectedSeq = s.expectedSeq
  accum : s'.recvAccum = s.recvAccum ∧ s'.isLive = s.isLive ∨ s'.recvAccum = [] ∧ s'.isLive = false

theorem holds_ends (h : Ends s s') : Holds s s' := by
  cases h with
  | same => exact ⟨rfl, rfl, .inl ⟨rfl, rfl⟩⟩
  | ended => exact ⟨rfl, rfl, .inr ⟨rfl, rfl⟩⟩

theorem holds_step {a : Act} (hs : s.step e a = some (s', effects)) : Holds s s' := by
  have hinbox : a ≠ .receiver .pop → s'.inbox = s.inbox := step_inbox hs
  by_cases hpop : a = .receiver .pop
  · subst hpop
    cases receiverStep_move (show s.receiverStep e .pop = _ from hs) with
    | pop hch => exact ⟨by simp [hch], rfl, .inl ⟨rfl, rfl⟩⟩
  have hin := hinbox hpop
  simp only [inbox, Prod.mk.injEq] at hin
  obtain ⟨hch, hdel, hseq, -, -⟩ := hin
  refine ⟨by rw [hch, hdel], hseq, ?_⟩
  cases a with
  | opener a =>
    obtain ⟨s₁, phase, _, _, _, _, hends, hphase, -, rfl⟩ := openerStep_frame hs
    have hlive : isLive { s₁ with phase } = s₁.isLive := by
      rcases hphase with rfl | ⟨hsub, rfl⟩
      · rfl
      · simp [isLive, hsub]
    rcases (holds_ends hends).accum with ⟨hacc, hl⟩ | ⟨hacc, hl⟩
    · exact .inl ⟨hacc, hlive.trans hl⟩
    · exact .inr ⟨hacc, hlive.trans hl⟩
  | sender a =>
    obtain ⟨s₁, _, _, _, _, _, _, _, hends, rfl⟩ := senderStep_frame hs
    exact (holds_ends hends).accum
  | receiver a =>
    obtain ⟨⟨_, _, _, _, _, _, _, rfl⟩, -⟩ := receiverStep_frame hs
    exact .inl ⟨rfl, rfl⟩
  | acker a =>
    obtain ⟨_, _, _, _, _, _, rfl⟩ := ackStep_frame hs
    exact .inl ⟨rfl, rfl⟩
  | finisher a =>
    obtain ⟨_, _, _, _, rfl⟩ := finishStep_frame hs
    exact .inl ⟨rfl, rfl⟩
  | ending a => exact (holds_ends (endStep_ends hs).1).accum

theorem dispatch_refused {f : StreamFrame} (hl : s.isLive = true) (h : (s.dispatch p f).2 = false) :
    (s.dispatch p f).1.delivered = s.delivered ∧ (s.dispatch p f).1.recvCh = s.recvCh ∧
      (s.dispatch p f).1.isLive = s.isLive ∧
      ((s.dispatch p f).1.recvAccum = s.recvAccum ∨ (s.dispatch p f).1.recvAccum = []) := by
  revert h
  simp only [dispatch, hl, if_true]
  cases f with
  | streamMsg seq payload =>
    simp only [onStreamMsg]
    repeat' split
    all_goals intro h
    all_goals first | cases h; done | exact ⟨rfl, rfl, hl, .inl rfl⟩ | exact ⟨rfl, rfl, hl, .inr rfl⟩
  | streamChunk seq payload =>
    simp only [onStreamChunk]
    repeat' split
    all_goals intro h
    all_goals first | cases h; done | exact ⟨rfl, rfl, hl, .inl rfl⟩
  | streamAck v =>
    simp only [onStreamAck]
    repeat' split
    all_goals intro h
    all_goals first | cases h; done | exact ⟨rfl, rfl, hl, .inl rfl⟩
  | streamClose finalSeq payload =>
    simp only [onStreamClose]
    repeat' split
    all_goals intro h
    all_goals first | cases h; done | exact ⟨rfl, rfl, hl, .inl rfl⟩
  | streamErr status =>
    intro h
    cases h
  | cancel code =>
    simp only [onTeardownCancel]
    repeat' split
    all_goals intro h
    all_goals first | cases h; done | exact ⟨rfl, rfl, hl, .inl rfl⟩
  | streamOpen credits payload => exact fun _ => ⟨rfl, rfl, hl, .inl rfl⟩

end Stream

/-- The messages and the unfinished train that frames spell, by their kinds alone. -/
structure Trains where
  made : List (List Bytes)
  pending : List Bytes
  deriving DecidableEq

def Trains.take (t : Trains) : StreamFrame → Trains
  | .streamChunk _ payload => { t with pending := t.pending ++ [payload] }
  | .streamMsg _ payload => ⟨t.made ++ [t.pending ++ [payload]], []⟩
  | .streamClose _ payload => if payload = [] then t else { t with made := t.made ++ [[payload]] }
  | _ => t

def trains (frames : List StreamFrame) : Trains := frames.foldl Trains.take ⟨[], []⟩

def StreamFrame.seq? : StreamFrame → Option Nat
  | .streamChunk seq _ => some seq
  | .streamMsg seq _ => some seq
  | _ => none

/-- A stream under the frames of any peer. -/
structure Inbound where
  s : Stream
  /-- The frames it took. -/
  taken : List StreamFrame
  /-- The reader has faulted the connection, and reads no more. -/
  faulted : Bool

namespace Inbound

inductive Act
  | frame (f : StreamFrame)
  | act (e : Env) (a : Stream.Act)

def new (s : Stream) : Inbound := ⟨s, [], false⟩

def step (p : ChunkPolicy) (x : Inbound) : Act → Option Inbound
  | .frame f =>
    if x.faulted then none
    else if x.s.isLive then
      if (x.s.dispatch p f).2 then some { x with s := (x.s.dispatch p f).1, taken := x.taken ++ [f] }
      else some { x with s := (x.s.dispatch p f).1, faulted := true }
    else some x
  | .act e a =>
    match x.s.step e a with
    | none => none
    | some (s', _) => some { x with s := s' }

/-- One payload by itself, or the cut of a message that is above the limit and within the ceiling. -/
def TrainOk (p : ChunkPolicy) (t : List Bytes) : Prop :=
  (∃ payload, t = [payload]) ∨
    t = Pieces.split p.recvInline t.flatten ∧ p.recvInline < t.flatten.length ∧ t.flatten.length ≤ p.ceiling

structure Inv (p : ChunkPolicy) (s₀ : Stream) (x : Inbound) : Prop where
  queue : x.s.delivered ++ x.s.recvCh.map RecvItem.payload =
    s₀.recvCh.map RecvItem.payload ++ (trains x.taken).made.map List.flatten
  made : ∀ t ∈ (trains x.taken).made, TrainOk p t
  full : ∀ c ∈ (trains x.taken).pending, c.length = p.recvInline ∧ 0 < p.recvInline
  fits : (trains x.taken).pending.flatten.length ≤ p.ceiling
  seqs : x.taken.filterMap StreamFrame.seq? = List.range' 1 (x.taken.filterMap StreamFrame.seq?).length
  expected : x.faulted = false → x.s.expectedSeq = (x.taken.filterMap StreamFrame.seq?).length + 1
  accum : x.s.recvAccum = (trains x.taken).pending.flatten ∧ x.s.isLive = true ∨
    x.s.recvAccum = [] ∧ (x.s.isLive = false ∨ x.faulted = true)

theorem trains_append (frames : List StreamFrame) (f : StreamFrame) :
    trains (frames ++ [f]) = (trains frames).take f := by
  simp [trains, List.foldl_append]

variable {p : ChunkPolicy} {s₀ s' : Stream} {x y : Inbound} {f : StreamFrame} {payload : Bytes} {seq : Nat}

section

variable (h : Inv p s₀ x)
include h

theorem Inv.holding (hl : x.s.isLive = true) (hf : x.faulted = false) : x.s.recvAccum = (trains x.taken).pending.flatten := by
  rcases h.accum with ⟨hacc, -⟩ | ⟨-, hdead | hfault⟩
  · exact hacc
  · rw [hl] at hdead; cases hdead
  · rw [hf] at hfault; cases hfault

theorem Inv.pending_nil (hnil : (trains x.taken).pending.flatten = []) : (trains x.taken).pending = [] := by
  cases hp : (trains x.taken).pending with
  | nil => rfl
  | cons c cs =>
    have hc := h.full c (by simp [hp])
    rw [hp, List.flatten_cons, List.append_eq_nil_iff] at hnil
    rw [hnil.1] at hc
    simp only [List.length_nil] at hc
    omega

theorem Inv.holds (hs : Stream.Holds x.s s') : Inv p s₀ { x with s := s' } := by
  refine ⟨hs.queue.trans h.queue, h.made, h.full, h.fits, h.seqs, fun hf => hs.seq.trans (h.expected hf), ?_⟩
  rcases hs.accum with ⟨hacc, hl⟩ | ⟨hacc, hl⟩
  · simp only [hacc, hl]
    exact h.accum
  · exact .inr ⟨hacc, .inl hl⟩

theorem Inv.other (hs : Stream.Holds x.s s') (ht : (trains x.taken).take f = trains x.taken)
    (hf : f.seq? = none) : Inv p s₀ { x with s := s', taken := x.taken ++ [f] } := by
  have hseq : (x.taken ++ [f]).filterMap StreamFrame.seq? = x.taken.filterMap StreamFrame.seq? := by simp [hf]
  have h' := h.holds hs
  refine ⟨?_, ?_, ?_, ?_, ?_, ?_, ?_⟩
  all_goals simp only [trains_append, ht, hseq]
  exacts [h'.queue, h'.made, h'.full, h'.fits, h'.seqs, h'.expected, h'.accum]

theorem Inv.seqs_next (hf : f.seq? = some seq) (hseq : seq = x.s.expectedSeq) (hfault : x.faulted = false) :
    (x.taken ++ [f]).filterMap StreamFrame.seq? = List.range' 1 ((x.taken ++ [f]).filterMap StreamFrame.seq?).length ∧
      ((x.taken ++ [f]).filterMap StreamFrame.seq?).length = (x.taken.filterMap StreamFrame.seq?).length + 1 := by
  have happ : (x.taken ++ [f]).filterMap StreamFrame.seq? = x.taken.filterMap StreamFrame.seq? ++ [seq] := by simp [hf]
  have hlen : ((x.taken ++ [f]).filterMap StreamFrame.seq?).length = (x.taken.filterMap StreamFrame.seq?).length + 1 := by
    simp [happ]
  refine ⟨?_, hlen⟩
  rw [hlen, happ, List.range'_concat, ← h.seqs, hseq, h.expected hfault]
  simp [Nat.add_comm]

/-- **A message made**: the payload by itself, or the train it completes. -/
theorem Inv.msg (hl : x.s.isLive = true) (hf : x.faulted = false)
    (hok : (x.s.onStreamMsg p seq payload).2 = true) : Inv p s₀ { x with
      s := (x.s.onStreamMsg p seq payload).1, taken := x.taken ++ [.streamMsg seq payload] } := by
  obtain ⟨hseq, msg, hmsg, heq⟩ := Stream.onStreamMsg_ok hok
  obtain ⟨hseqs, hlen⟩ := h.seqs_next (f := .streamMsg seq payload) rfl hseq hf
  have hacc := h.holding hl hf
  have htrain : msg = ((trains x.taken).pending ++ [payload]).flatten ∧ TrainOk p ((trains x.taken).pending ++ [payload]) := by
    unfold Stream.message at hmsg
    split at hmsg
    · next hnil =>
      rw [hacc] at hnil
      have hp := h.pending_nil hnil
      cases hmsg
      exact ⟨by simp [hp], .inl ⟨payload, by simp [hp]⟩⟩
    · next hne =>
      obtain ⟨hbounds, hmsg⟩ := unless_some hmsg
      obtain ⟨hfit, ⟨⟩⟩ := guard_some hmsg
      simp only [Stream.accumFits, decide_eq_true_eq] at hfit
      have hmake : x.s.recvAccum ++ payload = ((trains x.taken).pending ++ [payload]).flatten := by simp [hacc]
      refine ⟨hmake, .inr ⟨?_, ?_, ?_⟩⟩
      · refine Pieces.eq_split_of_canonical (by omega) ⟨_, payload, rfl, fun c hc => (h.full c hc).1, by omega, by omega⟩
      · -- At least one full fragment came before.
        rw [hacc] at hne
        cases hp : (trains x.taken).pending with
        | nil => simp [hp] at hne
        | cons c cs =>
          have hc := (h.full c (by simp [hp])).1
          simp only [List.cons_append, List.flatten_cons, List.flatten_append, List.length_append, hc, List.flatten_nil,
            List.append_nil]
          omega
      · rw [← hmake, List.length_append]
        exact hfit
  obtain ⟨hmake, htrain⟩ := htrain
  refine ⟨?_, ?_, ?_, ?_, hseqs, fun _ => ?_, ?_⟩
  all_goals simp only [trains_append, Trains.take]
  · rw [heq, List.map_append, ← List.append_assoc, h.queue]
    simp [hmake]
  · intro t ht
    rcases List.mem_append.mp ht with ht | ht
    · exact h.made t ht
    · rw [List.mem_singleton.mp ht]
      exact htrain
  · simp
  · simp
  · rw [heq, hlen]
    exact congrArg (· + 1) (h.expected hf)
  · rw [heq]
    exact .inl ⟨rfl, hl⟩

/-- **A fragment taken** is full, and keeps the train within the ceiling. -/
theorem Inv.chunk (hl : x.s.isLive = true) (hf : x.faulted = false)
    (hok : (x.s.onStreamChunk p seq payload).2 = true) : Inv p s₀ { x with
      s := (x.s.onStreamChunk p seq payload).1, taken := x.taken ++ [.streamChunk seq payload] } := by
  obtain ⟨hseq, hpos, hfull, hfit, heq⟩ := Stream.onStreamChunk_ok hok
  obtain ⟨hseqs, hlen⟩ := h.seqs_next (f := .streamChunk seq payload) rfl hseq hf
  have hacc := h.holding hl hf
  refine ⟨?_, ?_, ?_, ?_, hseqs, fun _ => ?_, ?_⟩
  all_goals simp only [trains_append, Trains.take]
  · rw [heq]
    exact h.queue
  · exact h.made
  · intro c hc
    rcases List.mem_append.mp hc with hc | hc
    · exact h.full c hc
    · rw [List.mem_singleton.mp hc]
      exact ⟨hfull, by omega⟩
  · rw [hacc] at hfit
    simpa using hfit
  · rw [heq, hlen]
    exact congrArg (· + 1) (h.expected hf)
  · rw [heq]
    exact .inl ⟨by simp [hacc], hl⟩

theorem Inv.close {finalSeq : Nat} (hl : x.s.isLive = true) (hf : x.faulted = false)
    (hok : (x.s.onStreamClose finalSeq payload).2 = true) :
    Inv p s₀ { x with
      s := (x.s.onStreamClose finalSeq payload).1, taken := x.taken ++ [.streamClose finalSeq payload] } := by
  obtain ⟨hnil, hends⟩ := Stream.onStreamClose_ok hok
  have hp := h.pending_nil ((h.holding hl hf).symm.trans hnil)
  have hholds := Stream.holds_ends hends
  have hseq : (x.taken ++ [StreamFrame.streamClose finalSeq payload]).filterMap StreamFrame.seq? =
      x.taken.filterMap StreamFrame.seq? := by simp [StreamFrame.seq?]
  refine ⟨?_, ?_, ?_, ?_, ?_, fun _ => ?_, ?_⟩
  all_goals simp only [trains_append, Trains.take, hseq]
  · refine hholds.queue.trans ?_
    by_cases hpay : payload = []
    · simpa [hpay] using h.queue
    · simp [hpay, ← List.append_assoc, h.queue]
  · split
    · exact h.made
    · intro t ht
      rcases List.mem_append.mp ht with ht | ht
      · exact h.made t ht
      · exact .inl ⟨payload, List.mem_singleton.mp ht⟩
  · split <;> simp [hp]
  · split <;> simp [hp]
  · exact h.seqs
  · exact hholds.seq.trans (h.expected hf)
  · have hflat : (if payload = [] then trains x.taken else
        { trains x.taken with made := (trains x.taken).made ++ [[payload]] }).pending.flatten = [] := by
      split <;> simp [hp]
    rw [hflat]
    rcases hholds.accum with ⟨hacc, hl'⟩ | ⟨hacc, hl'⟩
    · exact .inl ⟨hacc.trans hnil, hl'.trans hl⟩
    · exact .inr ⟨hacc, .inl hl'⟩

theorem Inv.frame (hl : x.s.isLive = true) (hf : x.faulted = false) (hok : (x.s.dispatch p f).2 = true) :
    Inv p s₀ { x with s := (x.s.dispatch p f).1, taken := x.taken ++ [f] } := by
  simp only [Stream.dispatch, hl, if_true] at hok ⊢
  cases f with
  | streamMsg seq payload => exact h.msg hl hf hok
  | streamChunk seq payload => exact h.chunk hl hf hok
  | streamClose finalSeq payload => exact h.close hl hf hok
  | streamAck v =>
    refine h.other ?_ rfl rfl
    simp only [Stream.onStreamAck]
    repeat' split
    all_goals exact ⟨rfl, rfl, .inl ⟨rfl, rfl⟩⟩
  | streamErr status =>
    refine h.other ?_ rfl rfl
    simp only [Stream.onStreamErr]
    repeat' split
    all_goals exact Stream.holds_ends (Stream.ends_terminate _ (by simp))
  | cancel code =>
    refine h.other ?_ rfl rfl
    simp only [Stream.onTeardownCancel]
    repeat' split
    all_goals first | exact Stream.holds_ends (Stream.ends_terminate _ (by simp)) | exact Stream.holds_ends .same
  | streamOpen credits payload => cases hok

theorem Inv.step {a : Act} (hs : x.step p a = some y) : Inv p s₀ y := by
  cases a with
  | frame f =>
    obtain ⟨hfault, hs⟩ := unless_some hs
    have hf : x.faulted = false := by simpa using hfault
    split at hs
    swap
    · cases hs
      exact h
    next hl =>
    split at hs <;> cases hs
    · next hok => exact h.frame hl hf hok
    · next hno =>
      obtain ⟨hdel, hch, hl', hacc⟩ := Stream.dispatch_refused hl (by simpa using hno)
      refine ⟨by rw [hdel, hch]; exact h.queue, h.made, h.full, h.fits, h.seqs, nofun, ?_⟩
      rcases hacc with hacc | hacc
      · exact .inl ⟨hacc.trans (h.holding hl hf), hl'.trans hl⟩
      · exact .inr ⟨hacc, .inr rfl⟩
  | act e a =>
    simp only [Inbound.step] at hs
    split at hs
    · cases hs
    next s' _ hstep =>
    cases hs
    exact h.holds (Stream.holds_step hstep)

end

theorem inv_new (hs : Solo.Admitted s₀) : Inv p s₀ (new s₀) := by
  have hnew : s₀.delivered = [] ∧ s₀.expectedSeq = 1 ∧ s₀.recvAccum = [] ∧ s₀.isLive = true := by
    cases hs <;> exact ⟨rfl, rfl, rfl, rfl⟩
  obtain ⟨hdel, hseq, hacc, hl⟩ := hnew
  exact ⟨by simp [new, hdel, trains], by simp [new, trains], by simp [new, trains], by simp [new, trains], rfl,
    fun _ => hseq, .inl ⟨hacc, hl⟩⟩

/-- What a receiver makes of any frames it takes. -/
structure Reassembles (p : ChunkPolicy) (s₀ : Stream) (x : Inbound) : Prop where
  /-- Its messages are the trains of the frames it took, in order, after what it was opened with. -/
  queue : x.s.delivered ++ x.s.recvCh.map RecvItem.payload =
    s₀.recvCh.map RecvItem.payload ++ (trains x.taken).made.map List.flatten
  /-- Each is one payload, or the cut of a message above the limit and within the ceiling. -/
  made : ∀ t ∈ (trains x.taken).made, TrainOk p t
  /-- The frames are numbered one by one. -/
  seqs : x.taken.filterMap StreamFrame.seq? = List.range' 1 (x.taken.filterMap StreamFrame.seq?).length
  bounded : x.s.recvAccum.length ≤ p.ceiling
  /-- The sum that is compared with the ceiling does not wrap. -/
  nowrap : p.ceiling < 2 ^ 32 → ∀ n < 2 ^ 63, x.s.recvAccum.length + n < 2 ^ 64
  ended : x.s.isLive = false → x.s.recvAccum = []

/-- **Only cuts are accepted**, whatever the peer sends. -/
theorem reassembles (hs : Solo.Admitted s₀) (h : Reach (step p) Any (new s₀) x) : Reassembles p s₀ x := by
  have hi : Inv p s₀ x := h.invariant (inv_new hs) fun hi _ hstep => hi.step hstep
  have hbound : x.s.recvAccum.length ≤ p.ceiling := by
    rcases hi.accum with ⟨hacc, -⟩ | ⟨hacc, -⟩
    · rw [hacc]
      exact hi.fits
    · simp [hacc]
  refine ⟨hi.queue, hi.made, hi.seqs, hbound, fun hc n hn => by omega, fun hl => ?_⟩
  rcases hi.accum with ⟨-, hlive⟩ | ⟨hacc, -⟩
  · rw [hl] at hlive
    cases hlive
  · exact hacc

end Inbound

/-! ## Both ways -/

/-- **Chunked messages reassemble exactly.** A `SendMsg` none of whose `Send`s fails sends the cut of its message, and the
peer makes exactly that message of it; and no peer can make a receiver accept anything but such a cut. -/
theorem chunks_exact :
    (∀ (cfg : LinkConfig) (l₀ l₁ : Link) (side : StreamSide) (id : UInt64) (X₀ : Stream) (payload : Bytes) (x : Sending),
      Reach (Link.step cfg) Link.Reliable Link.start l₀ → (l₀.table side).streams id = some X₀ →
      (cfg.table side).policy.active = true → (cfg.table side).policy.sendInline < payload.length →
      payload.length ≤ (cfg.table side).policy.ceiling →
      l₀.step cfg (.run side (.stream id (.sender (.sendMsg payload)))) = some l₁ →
      Reach (Sending.step cfg side id) (Sending.Unfailed side id) ⟨l₁, []⟩ x →
      ∃ X, (x.link.table side).streams id = some X ∧
        x.out <+: train (cfg.table side).policy.sendInline payload (X₀.sendSeq + 1) ∧
        (X.sender = .idle →
          x.out = train (cfg.table side).policy.sendInline payload (X₀.sendSeq + 1) ∧
          X.sendSeq = X₀.sendSeq + Pieces.count (cfg.table side).policy.sendInline payload.length ∧
          X.sendCredit.sent = X₀.sendCredit.sent + 1 ∧
          ∀ Y, (x.link.table side.peer).streams id = some Y → Y.terminalErr = false →
            Link.ofCall id (x.link.data side) = [] →
            Y.delivered ++ Y.recvCh.map RecvItem.payload = X₀.handed ++ [payload]) ∧
        ∀ i, i + 1 < Pieces.count (cfg.table side).policy.sendInline payload.length →
          (Pieces.piece (cfg.table side).policy.sendInline payload i).length = (cfg.table side).policy.sendInline) ∧
    ∀ (p : ChunkPolicy) (s₀ : Stream) (x : Inbound), Solo.Admitted s₀ → Reach (Inbound.step p) Any (Inbound.new s₀) x →
      Inbound.Reassembles p s₀ x := by
  refine ⟨fun cfg l₀ l₁ side id X₀ payload x h₀ hX₀ hactive hlen hceil hsend h => ?_,
    fun p s₀ x hs h => Inbound.reassembles hs h⟩
  obtain ⟨hn, X, hX, hprog, hdeliver⟩ := Sending.exact_train h₀ hX₀ hactive hlen hceil hsend h
  refine ⟨X, hX, ?_, fun hidle => ?_, fun i hi => Pieces.length_piece hn hi⟩
  · cases hprog with
    | admitting _ _ _ _ hout => exact hout ▸ List.nil_prefix
    | fragment k _ _ _ _ _ hout => exact hout ▸ List.take_prefix _ _
    | sent _ _ _ _ hout => exact hout ▸ List.prefix_rfl
  · cases hprog with
    | admitting hpc => rw [hidle] at hpc; cases hpc
    | fragment k hpc => rw [hidle] at hpc; cases hpc
    | sent _ hseq hsent _ hout => exact ⟨hout, hseq, hsent, hdeliver hidle⟩

def trainConfig : LinkConfig := .ofTransport (.shm 4 6) true 64 1 fun _ => .bidiStreaming

def trainOpened : Link := (run (guarded (Link.step trainConfig) Link.Reliable) Link.start
  [.run .client (.openClient 7 ⟨2, .bidiStreaming, []⟩ 1000), .run .client (.stream 7 (.opener .publish)),
    .run .client (.stream 7 (.opener (.send .accepted false))), .deliver .server .data true 1000,
    .run .client (.stream 7 (.opener .confirm))]).get (by decide +kernel)

def trainSend : Link.Act := .run .client (.stream 7 (.sender (.sendMsg [1, 2, 3, 4, 5, 6])))

def trainSent : Sending :=
  (run (guarded (Sending.step trainConfig .client 7) (Sending.Unfailed .client 7))
    ⟨(trainOpened.step trainConfig trainSend).get (by decide +kernel), []⟩
    [.run .client (.stream 7 (.sender .reserve)), .run .client (.stream 7 (.sender (.transmit .accepted))),
      .deliver .server .data true 0, .run .client (.stream 7 (.sender (.transmit (.neverPublished true)))),
      .run .client (.stream 7 (.sender (.transmit .accepted))), .deliver .server .data true 0]).get (by decide +kernel)

def trainClient : Stream := ((trainOpened.table .client).streams 7).get (by decide +kernel)

def trainServer : Stream := ((trainSent.link.table .server).streams 7).get (by decide +kernel)

/-- A train, then a fragment that is not full. -/
def trainHostile : Inbound :=
  (run (Inbound.step ⟨true, 64, 6, 4⟩) (Inbound.new (Table.acceptedStream 2 .bidiStreaming []))
    [.frame (.streamChunk 1 [1, 2, 3, 4]), .frame (.streamMsg 2 [5]), .frame (.streamChunk 3 [6])]).get (by decide +kernel)

theorem chunks_exact_sample : trainSent.out = [.streamChunk 1 [1, 2, 3, 4], .streamMsg 2 [5, 6]] ∧
    trainServer.delivered ++ trainServer.recvCh.map RecvItem.payload = [[1, 2, 3, 4, 5, 6]] ∧
    trainHostile.Reassembles ⟨true, 64, 6, 4⟩ (Table.acceptedStream 2 .bidiStreaming []) := by
  obtain ⟨X, hX, -, hsent, -⟩ := chunks_exact.1 trainConfig trainOpened
    ((trainOpened.step trainConfig trainSend).get (by decide +kernel)) .client 7 trainClient [1, 2, 3, 4, 5, 6] trainSent
    (Reach.of_guarded (Option.some_get _).symm) (Option.some_get _).symm rfl (by decide) (by decide)
    (Option.some_get _).symm (Reach.of_guarded (Option.some_get _).symm)
  have hidle : (((trainSent.link.table .client).streams 7).map Stream.sender) = some .idle := by decide +kernel
  rw [hX] at hidle
  obtain ⟨hout, -, -, hgot⟩ := hsent (Option.some.inj hidle)
  refine ⟨hout.trans (by decide +kernel), ?_, chunks_exact.2 _ _ _ (.accepted 2 .bidiStreaming [])
    (Reach.of_run (Option.some_get _).symm)⟩
  exact (hgot trainServer (Option.some_get _).symm (by decide +kernel) (by decide +kernel)).trans (by decide +kernel)

end Styx
