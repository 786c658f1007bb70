/-
The burst composite (`internal/rpcruntime/burst.go`): shared memory and a socket behind
one transport.

A unary payload above the shared-memory limit of its direction travels over the socket,
everything else over shared memory. The sender decides by its outbound limit, the receiver
checks by its inbound one (`checkBurstOrigin`), and each end derives both from the
geometry of the region. A burst send holds the send gate from before its buffer is made
until its frame is out, so one frame at a time is on the socket, and past the gate a
cancelled fill no longer selects its outcome.
-/
import Styx.Shm.Fitting
import Styx.Transport.UdsPair

namespace Styx

open Machine Function

namespace Burst

/-! ## Routing -/

inductive Side
  | host
  | plugin
  deriving DecidableEq

namespace Side

def peer : Side → Side
  | .host => .plugin
  | .plugin => .host

/-- Its end of the socket. -/
def socket : Side → Bool
  | .host => true
  | .plugin => false

/-- The one kind an end accepts off the socket. -/
def inboundKind : Side → FrameKind
  | .host => .unaryResp
  | .plugin => .unaryReq

@[simp] theorem peer_peer {side : Side} : side.peer.peer = side := by cases side <;> rfl

@[simp] theorem socket_peer {side : Side} : side.peer.socket = !side.socket := by cases side <;> rfl

theorem socket_inj {side side' : Side} (h : side.socket = side'.socket) : side = side' := by
  cases side <;> cases side' <;> first | rfl | cases h

end Side

/-- What the two ends of a connection share. -/
structure Shared where
  layout : Region.Layout
  settings : Settings
  ceiling : UInt32

namespace Shared

/-- The direction an end writes. -/
def outbound (c : Shared) : Side → Region.ArenaGeometry
  | .host => c.layout.arenaHP
  | .plugin => c.layout.arenaPH

/-- `MaxSendPayload` of an end's shared-memory transport. -/
def inlineMax (c : Shared) (side : Side) : UInt32 := c.settings.sendLimit (c.outbound side)

/-- `MaxRecvPayload`. -/
def inboundInlineMax (c : Shared) (side : Side) : UInt32 := slabSizeLast (c.outbound side.peer) - c.settings.overhead

/-- The socket is built without the control word, and capped at the ceiling. -/
def socketConfig (c : Shared) : UDSConfig := ⟨false, c.ceiling⟩

def unary (k : FrameKind) : Bool := k == .unaryReq || k == .unaryResp

def routesToBurst (c : Shared) (side : Side) (kind : FrameKind) (size : Int) : Bool :=
  unary kind && decide ((c.inlineMax side).toNat < size)

def checkCeiling (c : Shared) (size : Int) : Bool := decide (size ≤ c.ceiling.toNat)

end Shared

inductive OriginFault
  | kind
  | withinLimit
  | aboveCeiling
  deriving DecidableEq

/-- What the receiver checks of a frame off the socket; a fault condemns the connection. -/
def Shared.checkBurstOrigin (c : Shared) (side : Side) (f : Frame) : Except OriginFault Unit :=
  if f.kind ≠ side.inboundKind then .error .kind
  else if f.payload.length ≤ (c.inboundInlineMax side).toNat then .error .withinLimit
  else if c.ceiling.toNat < f.payload.length then .error .aboveCeiling
  else .ok ()

/-! ## Senders -/

/-- What a `Send` or `SendPayloadFill` returns. -/
inductive Result
  | ok
  /-- What the connection ended with. -/
  | outcome
  | tooLarge
  /-- The context's error, from the gate. -/
  | ctx
  | fillFailed (how : FillResult)
  /-- The socket's own error, or shared memory's. -/
  | socket (r : SendResult)
  | ring
  deriving DecidableEq

def Result.isCtx : Result → Bool
  | .ctx => true
  | .socket r => r.ctx
  | _ => false

inductive SendPc
  | entered
  /-- In the shared-memory transport's send, and with its frame accepted there. -/
  | ring
  | queued
  /-- `enterSendGate`: the first look at the context, the try, the wait, the look with the gate held. -/
  | gateCheck
  | gateTry
  | gateWait
  | gateHeld
  | admitted
  | filling
  /-- The frame is whole and `burst.Send` is next. -/
  | filled
  | writing
  | returned (r : Result)
  deriving DecidableEq

def SendPc.holds : SendPc → Bool
  | .gateHeld | .admitted | .filling | .filled | .writing => true
  | _ => false

/-- Between the ceiling check and the buffer. -/
def SendPc.gating : SendPc → Bool
  | .gateCheck | .gateTry | .gateWait | .gateHeld | .admitted => true
  | _ => false

/-- Ghost: what a call has done. -/
structure Trace where
  allocated : Bool := false
  ran : Nat := 0
  socket : Nat := 0
  ring : Nat := 0
  deriving DecidableEq

/-- One call. A fill's frame has its payload once the fill has run. -/
structure Sender where
  frame : Frame
  fill : Option PayloadFill
  /-- Its context has ended. -/
  ended : Bool
  pc : SendPc
  trace : Trace

namespace Sender

def size (s : Sender) : Int :=
  match s.fill with
  | none => s.frame.payload.length
  | some p => p.size

/-- What the shared-memory transport weighs: a status is sent for the kinds that carry one. -/
def wireSize (s : Sender) : Int :=
  match s.fill with
  | none => (wirePayload s.frame).length
  | some p => p.size

def sending (s : Sender) : Sender := { s with pc := .writing, trace := { s.trace with socket := s.trace.socket + 1 } }

def intent (s : Sender) (k : Nat) : Intent := ⟨k, s.frame, laneOf s.frame.kind, none, s.fill⟩

end Sender

/-- A buffer of `n` zero bytes after `bytes` were written from its start. -/
def window (n : Nat) (bytes : Bytes) : Bytes := bytes.take n ++ List.replicate (n - bytes.length) 0

@[simp] theorem length_window {n : Nat} {bytes : Bytes} : (window n bytes).length = n := by
  simp only [window, List.length_append, List.length_take, List.length_replicate]
  omega

inductive Terminal
  | live
  | locallyClosing
  | failed
  deriving DecidableEq

/-- One end. -/
structure End where
  terminal : Terminal
  /-- A poison is filed. -/
  poison : Bool
  gate : Option Nat
  calls : Nat → Option Sender
  /-- Accepted by shared memory, not yet with the writer. -/
  queue : List Intent

namespace End

def put (e : End) (k : Nat) (s : Sender) : End := { e with calls := Function.update e.calls k (some s) }

/-- Return with the gate released. -/
def leave (e : End) (k : Nat) (s : Sender) (r : Result) : End := { e with gate := none }.put k { s with pc := .returned r }

/-- `burstSendResult`. -/
def sendResult (e : End) : SendResult → Result
  | .ok => .ok
  | r => if e.terminal = .locallyClosing ∨ e.poison = true then .outcome else .socket r

/-- The sender at the gate can be cancelled: its context has ended, and the send runs under it. -/
def cancellable (e : End) : Bool := (e.gate.bind e.calls).any fun s => s.fill.isNone && s.ended

/-- The next check or effect of a sender, but for the call of `burst.Send`. -/
def next (c : Shared) (side : Side) (e : End) (x : UDSTransport) (k : Nat) (s : Sender) : Option End :=
  match s.pc with
  | .entered =>
    if e.terminal ≠ .live then some (e.put k { s with pc := .returned .outcome })
    else if ¬ c.routesToBurst side s.frame.kind s.size then some (e.put k { s with pc := .ring })
    else if ¬ c.checkCeiling s.size then some (e.put k { s with pc := .returned .tooLarge })
    else some (e.put k { s with pc := .gateCheck })
  | .gateCheck =>
    if s.ended then some (e.put k { s with pc := .returned .ctx }) else some (e.put k { s with pc := .gateTry })
  | .gateTry =>
    if e.gate = none then some ({ e with gate := some k }.put k { s with pc := .gateHeld })
    else some (e.put k { s with pc := .gateWait })
  | .gateHeld => if s.ended then some (e.leave k s .ctx) else some (e.put k { s with pc := .admitted })
  | .admitted =>
    if e.terminal ≠ .live then some (e.leave k s .outcome)
    else
      match s.fill with
      | none => some (e.put k { s with pc := .filled })
      | some _ => some (e.put k { s with pc := .filling, trace := { s.trace with allocated := true } })
  | .filling =>
    match s.fill with
    | none => none
    | some p =>
      let r := p.fn p.size.toNat
      let trace := { s.trace with ran := s.trace.ran + 1 }
      match r.2 with
      | .ok =>
        some (e.put k { s with frame := { s.frame with payload := window p.size.toNat r.1 }, pc := .filled, trace })
      | how => some (e.leave k { s with trace } (.fillFailed how))
  | .writing =>
    if x.writing = none then x.sends.getLast?.map fun entry => e.leave k s (e.sendResult entry.result) else none
  | _ => none

end End

/-! ## The connection -/

structure Link where
  ends : Side → End
  socket : UDSPair
  /-- The writer of each end's direction. -/
  ring : Side → Sys

namespace Link

inductive Act
  | call (side : Side) (k : Nat) (f : Frame) (fill : Option PayloadFill)
  | cancel (side : Side) (k : Nat)
  | next (side : Side) (k : Nat)
  /-- The blocked select: the gate comes free, or the context ends. -/
  | enter (side : Side) (k : Nat)
  | giveUp (side : Side) (k : Nat)
  /-- Shared memory takes the frame or refuses it, and tells its fate. -/
  | submit (side : Side) (k : Nat) (accepts : Bool)
  | report (side : Side) (k : Nat) (published : Bool)
  | feed (side : Side) (j : Nat) (late : Bool)
  | ring (side : Side) (a : Sys.Act)
  | socket (side : Side) (a : UDSTransport.Act)
  | terminate (side : Side) (t : Terminal)
  | poison (side : Side)

/-- The end of `side` becomes `e`. -/
def setEnd (l : Link) (side : Side) (e : End) : Link := { l with ends := Function.update l.ends side e }

def setRing (l : Link) (side : Side) (r : Sys) : Link := { l with ring := Function.update l.ring side r }

/-- Not a call of `Send`, and not the end of a context that the frame under way is not sent under. -/
def socketMay (e : End) : UDSTransport.Act → Bool
  | .send _ => false
  | .writeFails (.ctx _) => e.cancellable
  | _ => true

def feedAct (i : Intent) (late : Bool) : Sys.Act := if i.lane = .lifecycle then .lifecycle i else .data i late

def step (c : Shared) (l : Link) : Act → Option Link
  | .call side k f fill =>
    match (l.ends side).calls k with
    | none => some (l.setEnd side ((l.ends side).put k ⟨f, fill, false, .entered, {}⟩))
    | some _ => none
  | .cancel side k =>
    match (l.ends side).calls k with
    | some s => some (l.setEnd side ((l.ends side).put k { s with ended := true }))
    | none => none
  | .next side k =>
    match (l.ends side).calls k with
    | some s =>
      if s.pc = .filled then
        (l.socket.step c.socketConfig (side.socket, .send s.frame)).map fun p =>
          { l with socket := p }.setEnd side
            ((l.ends side).put k s.sending)
      else ((l.ends side).next c side (l.socket.ends side.socket) k s).map (l.setEnd side)
    | none => none
  | .enter side k =>
    match (l.ends side).calls k with
    | some s =>
      if s.pc = .gateWait ∧ (l.ends side).gate = none then
        some (l.setEnd side ({ l.ends side with gate := some k }.put k { s with pc := .gateHeld }))
      else none
    | none => none
  | .giveUp side k =>
    match (l.ends side).calls k with
    | some s =>
      if s.pc = .gateWait ∧ s.ended = true then
        some (l.setEnd side ((l.ends side).put k { s with pc := .returned .ctx }))
      else none
    | none => none
  | .submit side k accepts =>
    match (l.ends side).calls k with
    | some s =>
      if s.pc ≠ .ring then none
      else if s.wireSize < 0 ∨ (c.inlineMax side).toNat < s.wireSize then
        some (l.setEnd side ((l.ends side).put k { s with pc := .returned .tooLarge }))
      else if accepts then
        some (l.setEnd side ({ l.ends side with queue := (l.ends side).queue ++ [s.intent k] }.put k
          { s with pc := .queued, trace := { s.trace with ring := s.trace.ring + 1 } }))
      else some (l.setEnd side ((l.ends side).put k { s with pc := .returned .ring }))
    | none => none
  | .report side k published =>
    match (l.ends side).calls k with
    | some s =>
      if s.pc = .queued then
        some (l.setEnd side ((l.ends side).put k { s with pc := .returned (if published then .ok else .ring) }))
      else none
    | none => none
  | .feed side j late =>
    match (l.ends side).queue[j]? with
    | some i =>
      ((l.ring side).step (feedAct i late)).map fun r =>
        (l.setRing side r).setEnd side { l.ends side with queue := (l.ends side).queue.eraseIdx j }
    | none => none
  | .ring side a => if a.fed.isSome then none else ((l.ring side).step a).map (l.setRing side)
  | .socket side a =>
    if socketMay (l.ends side) a then
      (l.socket.step c.socketConfig (side.socket, a)).map fun p => { l with socket := p }
    else none
  | .terminate side t =>
    if (l.ends side).terminal = .live then some (l.setEnd side { l.ends side with terminal := t }) else none
  | .poison side => some (l.setEnd side { l.ends side with poison := true })

end Link

/-! ## What each position means -/

structure Bursts (c : Shared) (side : Side) (s : Sender) : Prop where
  routes : c.routesToBurst side s.frame.kind s.size = true
  ceiling : s.size ≤ c.ceiling.toNat

/-- The frame of a sender in `burst.Send`: under way, or done and last in the log. -/
inductive OnSocket (x : UDSTransport) (s : Sender) : Prop
  | under : x.writing.map Writing.frame = some s.frame → OnSocket x s
  | done (entry : SendEntry) : x.writing = none → x.sends.getLast? = some entry → entry.frame = s.frame →
    (s.fill.isSome = true → entry.result.ctx = false) → OnSocket x s

/-- **What a call has done, by where it stands.** -/
inductive Told (c : Shared) (side : Side) (x : UDSTransport) (s : Sender) : Prop
  | entered : s.pc = .entered → s.trace = {} → Told c side x s
  | ring : s.pc = .ring → s.trace = {} → c.routesToBurst side s.frame.kind s.size = false → Told c side x s
  | queued : s.pc = .queued → s.trace = { ring := 1 } → c.routesToBurst side s.frame.kind s.size = false → Told c side x s
  | gating : s.pc.gating = true → s.trace = {} → Bursts c side s → Told c side x s
  | filling : s.pc = .filling → s.trace = { allocated := true } → Bursts c side s → Told c side x s
  | filled : s.pc = .filled → s.trace.socket = 0 → s.trace.ring = 0 → Bursts c side s →
    s.frame.payload.length = s.size → Told c side x s
  | writing : s.pc = .writing → s.trace.socket = 1 → s.trace.ring = 0 → Bursts c side s → OnSocket x s → Told c side x s
  | refused (r : Result) : s.pc = .returned r → s.trace = {} → r = .outcome ∨ r = .tooLarge → Told c side x s
  | viaRing (r : Result) (n : Nat) : s.pc = .returned r → s.trace = { ring := n } → n ≤ 1 → (r = .ok → n = 1) →
    c.routesToBurst side s.frame.kind s.size = false → Told c side x s
  | viaSocket (r : Result) : s.pc = .returned r → Bursts c side s → s.trace.ring = 0 → s.trace.socket ≤ 1 →
    (r = .ok → s.trace.socket = 1 ∧ s.frame ∈ x.sent) → (s.fill.isSome = true → r.isCtx = true → s.trace = {}) →
    Told c side x s

/-- The caller's side of the bargain: an end sends the kind its peer takes, in a frame as the runtime makes it. -/
def Honest (c : Shared) (side : Side) (f : Frame) : Prop :=
  Shared.unary f.kind = true → f.kind = side.peer.inboundKind ∧ f.Proper c.socketConfig

/-- A frame the routing rule puts on the socket. -/
structure Routed (c : Shared) (side : Side) (f : Frame) : Prop where
  kind : f.kind = side.peer.inboundKind
  proper : f.Proper c.socketConfig
  above : (c.inlineMax side).toNat < f.payload.length
  ceiling : f.payload.length ≤ c.ceiling.toNat

structure EndInv (c : Shared) (side : Side) (e : End) (x : UDSTransport) : Prop where
  honest : ∀ k s, e.calls k = some s → Honest c side s.frame
  gate : ∀ k s, e.calls k = some s → s.pc.holds = true → e.gate = some k
  told : ∀ k s, e.calls k = some s → Told c side x s
  writing : ∀ w ∈ x.writing, Routed c side w.frame
  sends : ∀ entry ∈ x.sends, Routed c side entry.frame

section

variable {c : Shared} {side : Side} {e e' : End} {x y : UDSTransport} {k : Nat} {s s' : Sender} {r : SendResult}

theorem EndInv.putAt (h : EndInv c side e x) (hcalls : e'.calls = update e.calls k (some s'))
    (hothers : ∀ k', k' ≠ k → e.gate = some k' → e'.gate = some k') (hhonest : Honest c side s'.frame)
    (hgate : s'.pc.holds = true → e'.gate = some k) (htold : Told c side y s')
    (hrest : ∀ k' s, k' ≠ k → e.calls k' = some s → Told c side y s) (hw : ∀ w ∈ y.writing, Routed c side w.frame)
    (hsends : ∀ entry ∈ y.sends, Routed c side entry.frame) : EndInv c side e' y := by
  have hother : ∀ {k' s}, k' ≠ k → e'.calls k' = some s → e.calls k' = some s := by
    intro k' s hk hs
    rwa [hcalls, update_of_ne hk] at hs
  have hself : ∀ {s}, e'.calls k = some s → s = s' := by
    intro s hs
    rw [hcalls, update_self] at hs
    exact (Option.some.inj hs).symm
  refine ⟨fun k' s hs => ?_, fun k' s hs hh => ?_, fun k' s hs => ?_, hw, hsends⟩
  · by_cases hk : k' = k
    · subst hk
      exact hself hs ▸ hhonest
    · exact h.honest k' s (hother hk hs)
  · by_cases hk : k' = k
    · subst hk
      exact hgate (hself hs ▸ hh)
    · exact hothers k' hk (h.gate k' s (hother hk hs) hh)
  · by_cases hk : k' = k
    · subst hk
      exact hself hs ▸ htold
    · exact hrest k' s hk (hother hk hs)

theorem EndInv.put (h : EndInv c side e x) (hcalls : e'.calls = update e.calls k (some s'))
    (hothers : ∀ k', k' ≠ k → e.gate = some k' → e'.gate = some k') (hhonest : Honest c side s'.frame)
    (hgate : s'.pc.holds = true → e'.gate = some k) (htold : Told c side x s') : EndInv c side e' x :=
  h.putAt hcalls hothers hhonest hgate htold (fun k' s _ hs => h.told k' s hs) h.writing h.sends

theorem EndInv.move (h : EndInv c side e x) (hs : e.calls k = some s)
    (hcalls : e'.calls = update e.calls k (some s')) (hframe : s'.frame = s.frame) (hg : e'.gate = e.gate)
    (hholds : s'.pc.holds = true → s.pc.holds = true) (htold : Told c side x s') : EndInv c side e' x :=
  h.put hcalls (fun _ _ hg' => hg ▸ hg') (hframe ▸ h.honest k s hs) (fun hh => hg ▸ h.gate k s hs (hholds hh)) htold

theorem EndInv.enter (h : EndInv c side e x) (hs : e.calls k = some s) (hfree : e.gate = none)
    (hcalls : e'.calls = update e.calls k (some s')) (hframe : s'.frame = s.frame) (hg : e'.gate = some k) (htold : Told c side x s') :
    EndInv c side e' x :=
  h.put hcalls (fun _ _ hg' => by rw [hfree] at hg'; cases hg') (hframe ▸ h.honest k s hs) (fun _ => hg) htold

theorem EndInv.leave {r : Result} (h : EndInv c side e x) (hs : e.calls k = some s) (hh : s.pc.holds = true)
    (hframe : s'.frame = s.frame) (htold : Told c side x { s' with pc := .returned r }) :
    EndInv c side (e.leave k s' r) x := by
  refine h.put rfl (fun k' hk hg' => ?_) (hframe ▸ h.honest k s hs) (fun hh => by cases hh) htold
  rw [h.gate k s hs hh] at hg'
  exact absurd (Option.some.inj hg').symm hk

namespace Told

section

variable (h : Told c side x s)
include h

theorem of_entered (hp : s.pc = .entered) : s.trace = {} := by
  cases h <;> simp_all [SendPc.gating]

theorem of_ring (hp : s.pc = .ring) : s.trace = {} ∧ c.routesToBurst side s.frame.kind s.size = false := by
  cases h <;> simp_all [SendPc.gating]

theorem of_queued (hp : s.pc = .queued) : s.trace = { ring := 1 } ∧ c.routesToBurst side s.frame.kind s.size = false := by
  cases h <;> simp_all [SendPc.gating]

theorem of_gating (hp : s.pc.gating = true) : s.trace = {} ∧ Bursts c side s := by
  cases h with
  | gating _ ht hb => exact ⟨ht, hb⟩
  | refused _ hpc | viaRing _ _ hpc | viaSocket _ hpc => rw [hpc] at hp; cases hp
  | _ hpc => rw [hpc] at hp; cases hp

theorem of_filling (hp : s.pc = .filling) : s.trace = { allocated := true } ∧ Bursts c side s := by
  cases h <;> simp_all [SendPc.gating]

theorem of_filled (hp : s.pc = .filled) :
    s.trace.socket = 0 ∧ s.trace.ring = 0 ∧ Bursts c side s ∧ s.frame.payload.length = s.size := by
  cases h <;> simp_all [SendPc.gating]

theorem of_writing (hp : s.pc = .writing) : s.trace.socket = 1 ∧ s.trace.ring = 0 ∧ Bursts c side s ∧ OnSocket x s := by
  cases h <;> simp_all [SendPc.gating]

end

end Told

theorem sendResult_isCtx (h : (e.sendResult r).isCtx = true) : r.ctx = true := by
  unfold End.sendResult at h
  split at h
  · cases h
  split at h
  · cases h
  · exact h

theorem sendResult_ok (h : e.sendResult r = .ok) : r = .ok := by
  unfold End.sendResult at h
  split at h
  · rfl
  split at h <;> cases h

theorem OnSocket.of_none (h : OnSocket x s) (hnone : x.writing = none) : ∃ entry, x.sends.getLast? = some entry ∧
    entry.frame = s.frame ∧ (s.fill.isSome = true → entry.result.ctx = false) := by
  cases h with
  | under hw => rw [hnone] at hw; cases hw
  | done entry _ hl hframe hnot => exact ⟨entry, hl, hframe, hnot⟩

theorem mem_sent {entry : SendEntry} (h : entry ∈ x.sends) (hok : entry.result = .ok) : entry.frame ∈ x.sent :=
  List.mem_filterMap.mpr ⟨entry, h, if_pos hok⟩

theorem EndInv.next (h : EndInv c side e x) (hs : e.calls k = some s) (hn : e.next c side x k s = some e') :
    EndInv c side e' x := by
  have ht := h.told k s hs
  unfold End.next at hn
  split at hn
  · next hpc =>
    have hzero := ht.of_entered hpc
    split at hn
    · cases hn
      exact h.move hs rfl rfl rfl (fun hh => by cases hh) (.refused .outcome rfl hzero (.inl rfl))
    split at hn
    · next hr =>
      cases hn
      exact h.move hs rfl rfl rfl (fun hh => by cases hh) (.ring rfl hzero (Bool.eq_false_iff.mpr hr))
    next hr =>
    split at hn
    · cases hn
      exact h.move hs rfl rfl rfl (fun hh => by cases hh) (.refused .tooLarge rfl hzero (.inr rfl))
    · next hceil =>
      cases hn
      have hb : Bursts c side s := ⟨not_not.mp hr, by simpa [Shared.checkCeiling] using hceil⟩
      exact h.move hs rfl rfl rfl (fun hh => by cases hh) (.gating rfl hzero ⟨hb.routes, hb.ceiling⟩)
  · next hpc =>
    obtain ⟨hzero, hb⟩ := ht.of_gating (by rw [hpc]; rfl)
    split at hn <;> cases hn
    · exact h.move hs rfl rfl rfl (fun hh => by cases hh)
        (.viaSocket .ctx rfl ⟨hb.routes, hb.ceiling⟩ (by rw [hzero]) (by rw [hzero]; decide) (by simp) (fun _ _ => hzero))
    · exact h.move hs rfl rfl rfl (fun hh => by cases hh) (.gating rfl hzero ⟨hb.routes, hb.ceiling⟩)
  · next hpc =>
    obtain ⟨hzero, hb⟩ := ht.of_gating (by rw [hpc]; rfl)
    split at hn <;> cases hn
    · next hfree => exact h.enter hs hfree rfl rfl rfl (.gating rfl hzero ⟨hb.routes, hb.ceiling⟩)
    · exact h.move hs rfl rfl rfl (fun hh => by cases hh) (.gating rfl hzero ⟨hb.routes, hb.ceiling⟩)
  · next hpc =>
    obtain ⟨hzero, hb⟩ := ht.of_gating (by rw [hpc]; rfl)
    split at hn <;> cases hn
    · exact h.leave hs (by rw [hpc]; rfl) rfl
        (.viaSocket .ctx rfl ⟨hb.routes, hb.ceiling⟩ (by rw [hzero]) (by rw [hzero]; decide) (by simp) (fun _ _ => hzero))
    · exact h.move hs rfl rfl rfl (fun _ => by rw [hpc]; rfl) (.gating rfl hzero ⟨hb.routes, hb.ceiling⟩)
  · next hpc =>
    obtain ⟨hzero, hb⟩ := ht.of_gating (by rw [hpc]; rfl)
    have hholds : s.pc.holds = true := by rw [hpc]; rfl
    split at hn
    · cases hn
      exact h.leave hs hholds rfl (.refused .outcome rfl hzero (.inl rfl))
    split at hn <;> cases hn
    · next hfill =>
      have hsize : (s.frame.payload.length : Int) = s.size := by simp [Sender.size, hfill]
      exact h.move hs rfl rfl rfl (fun _ => hholds)
        (.filled rfl (by rw [hzero]) (by rw [hzero]) ⟨hb.routes, hb.ceiling⟩ hsize)
    · exact h.move hs rfl rfl rfl (fun _ => hholds) (.filling rfl (by rw [hzero]) ⟨hb.routes, hb.ceiling⟩)
  · next hpc =>
    obtain ⟨htrace, hb⟩ := ht.of_filling hpc
    have hholds : s.pc.holds = true := by rw [hpc]; rfl
    split at hn
    · cases hn
    next p hfill =>
    have hsize : s.size = p.size := by simp [Sender.size, hfill]
    have hb' : ∀ {frame pc trace}, frame.kind = s.frame.kind → Bursts c side ⟨frame, s.fill, s.ended, pc, trace⟩ := by
      intro frame pc trace hk
      have hsz : Sender.size ⟨frame, s.fill, s.ended, pc, trace⟩ = s.size := by simp [Sender.size, hfill]
      exact ⟨by rw [hsz]; exact hk ▸ hb.routes, hsz ▸ hb.ceiling⟩
    dsimp only at hn
    split at hn
    · cases hn
      refine h.put rfl (fun _ _ hg => hg) (fun hu => ?_) (fun _ => h.gate k s hs hholds) ?_
      · obtain ⟨hk, hp⟩ := h.honest k s hs hu
        refine ⟨hk, hp.budget, ?_, hp.control⟩
        have hbody := hp.status
        rw [hk] at hbody ⊢
        cases side <;> exact hbody
      · refine .filled rfl (by rw [htrace]) (by rw [htrace]) (hb' rfl) ?_
        have hpos : 0 ≤ p.size := by
          have := hb.routes
          simp only [Shared.routesToBurst, Bool.and_eq_true, decide_eq_true_eq, hsize] at this
          omega
        simp only [length_window, Sender.size, hfill]
        omega
    · cases hn
      exact h.leave hs hholds rfl (.viaSocket _ rfl (hb' rfl) (by simp [htrace]) (by simp [htrace]) (by simp) (by simp [Result.isCtx]))
  · next hpc =>
    obtain ⟨h1, h2, hb, hon⟩ := ht.of_writing hpc
    obtain ⟨hnone, hn⟩ := guard_some hn
    obtain ⟨entry, hlast, rfl⟩ := Option.map_eq_some_iff.mp hn
    obtain ⟨entry', hl, hframe, hnot⟩ := hon.of_none hnone
    obtain rfl := Option.some.inj (hlast.symm.trans hl)
    refine h.leave hs (by rw [hpc]; rfl) rfl (.viaSocket _ rfl ⟨hb.routes, hb.ceiling⟩ h2 (Nat.le_of_eq h1)
      (fun hok => ⟨h1, ?_⟩) fun hf hctx => ?_)
    · exact hframe ▸ mem_sent (List.mem_of_getLast? hlast) (sendResult_ok hok)
    · have hres := sendResult_isCtx hctx
      rw [hnot hf] at hres
      cases hres
  · cases hn

/-! ### The socket's turns -/

theorem Told.mono (h : Told c side x s) (hsent : ∀ f ∈ x.sent, f ∈ y.sent) (hon : s.pc = .writing → OnSocket y s) :
    Told c side y s := by
  cases h with
  | entered h1 h2 => exact .entered h1 h2
  | ring h1 h2 h3 => exact .ring h1 h2 h3
  | queued h1 h2 h3 => exact .queued h1 h2 h3
  | gating h1 h2 h3 => exact .gating h1 h2 h3
  | filling h1 h2 h3 => exact .filling h1 h2 h3
  | filled h1 h2 h3 h4 h5 => exact .filled h1 h2 h3 h4 h5
  | writing h1 h2 h3 h4 _ => exact .writing h1 h2 h3 h4 (hon h1)
  | refused r h1 h2 h3 => exact .refused r h1 h2 h3
  | viaRing r n h1 h2 h3 h4 h5 => exact .viaRing r n h1 h2 h3 h4 h5
  | viaSocket r h1 h2 h3 h4 h5 h6 =>
    exact .viaSocket r h1 h2 h3 h4 (fun hok => (h5 hok).imp_right (hsent _)) h6

theorem Told.cancelled (h : Told c side x s) : Told c side x { s with ended := true } := by
  cases h with
  | entered h1 h2 => exact .entered h1 h2
  | ring h1 h2 h3 => exact .ring h1 h2 h3
  | queued h1 h2 h3 => exact .queued h1 h2 h3
  | gating h1 h2 h3 => exact .gating h1 h2 ⟨h3.routes, h3.ceiling⟩
  | filling h1 h2 h3 => exact .filling h1 h2 ⟨h3.routes, h3.ceiling⟩
  | filled h1 h2 h3 h4 h5 => exact .filled h1 h2 h3 ⟨h4.routes, h4.ceiling⟩ h5
  | writing h1 h2 h3 h4 h5 =>
    refine .writing h1 h2 h3 ⟨h4.routes, h4.ceiling⟩ ?_
    cases h5 with
    | under hu => exact .under hu
    | done entry hn hl hf hc => exact .done entry hn hl hf hc
  | refused r h1 h2 h3 => exact .refused r h1 h2 h3
  | viaRing r n h1 h2 h3 h4 h5 => exact .viaRing r n h1 h2 h3 h4 h5
  | viaSocket r h1 h2 h3 h4 h5 h6 => exact .viaSocket r h1 ⟨h2.routes, h2.ceiling⟩ h3 h4 h5 h6

theorem sent_mono {entries : List SendEntry} (h : y.sends = x.sends ++ entries) : ∀ f ∈ x.sent, f ∈ y.sent := by
  intro f hf
  simp only [UDSTransport.sent, h, List.filterMap_append, List.mem_append]
  exact .inl hf

theorem EndInv.cancellable (h : EndInv c side e x) (hs : e.calls k = some s) (hh : s.pc.holds = true)
    (hc : e.cancellable = true) : s.fill = none := by
  simp only [End.cancellable, h.gate k s hs hh, Option.bind_some, hs, Option.any_some, Bool.and_eq_true,
    Option.isNone_iff_eq_none] at hc
  exact hc.1

/-- **A turn of the socket that is not a call.** -/
theorem EndInv.socket {a : UDSTransport.Act} (h : EndInv c side e x) (hmay : Link.socketMay e a = true)
    (hm : UDSTransport.SendMove x y a) : EndInv c side e y := by
  cases hm with
  | begun f ha | refused f r ha =>
    rw [ha] at hmay
    cases hmay
  | kept _ hs hw =>
    have hsent : y.sent = x.sent := by simp only [UDSTransport.sent, hs]
    refine ⟨h.honest, h.gate, fun k s hk => (h.told k s hk).mono (by simp [hsent]) fun hpc => ?_, fun w hy => ?_, hs ▸ h.sends⟩
    · obtain ⟨-, -, -, hon⟩ := (h.told k s hk).of_writing hpc
      cases hon with
      | under hu => exact .under (hw.trans hu)
      | done entry hn hl hf hc =>
        rw [hn, Option.map_none, Option.map_eq_none_iff] at hw
        exact .done entry hw (hs ▸ hl) hf hc
    · rw [Option.mem_def.mp hy, Option.map_some] at hw
      obtain ⟨w', hx, hframe⟩ := Option.map_eq_some_iff.mp hw.symm
      exact hframe ▸ h.writing w' hx
  | ended entry hnot hw hy hs hctx =>
    refine ⟨h.honest, h.gate, fun k s hk => (h.told k s hk).mono (sent_mono hs) fun hpc => ?_, by simp [hy], ?_⟩
    · obtain ⟨-, -, -, hon⟩ := (h.told k s hk).of_writing hpc
      cases hon with
      | done _ hn => rw [hn] at hw; cases hw
      | under hu =>
        rw [hw] at hu
        refine .done entry hy (by rw [hs]; exact List.getLast?_concat) (Option.some.inj hu) fun hf => ?_
        -- a context can only end a send that runs under it
        by_contra hres
        obtain ⟨deadline, rfl⟩ := hctx (by simpa using hres)
        rw [h.cancellable hk (by rw [hpc]; rfl) hmay] at hf
        cases hf
    · intro entry' hentry
      rw [hs, List.mem_append, List.mem_singleton] at hentry
      rcases hentry with hentry | rfl
      · exact h.sends entry' hentry
      · obtain ⟨w, hx, hframe⟩ := Option.map_eq_some_iff.mp hw
        exact hframe ▸ h.writing w hx

theorem EndInv.congr (h : EndInv c side e x) (hw : y.writing = x.writing) (hs : y.sends = x.sends) : EndInv c side e y :=
  h.socket (a := .recv) rfl (.kept (by simp) hs (by rw [hw]))

theorem EndInv.routed (h : EndInv c side e x) (hs : e.calls k = some s) (hpc : s.pc = .filled) : Routed c side s.frame := by
  obtain ⟨-, -, hb, hlen⟩ := (h.told k s hs).of_filled hpc
  have hr := hb.routes
  simp only [Shared.routesToBurst, Bool.and_eq_true, decide_eq_true_eq] at hr
  obtain ⟨hk, hp⟩ := h.honest k s hs hr.1
  have hc := hb.ceiling
  exact ⟨hk, hp, by omega, by omega⟩

/-- **The call of `burst.Send`.** -/
theorem EndInv.send (h : EndInv c side e x) (hs : e.calls k = some s) (hpc : s.pc = .filled)
    (hm : UDSTransport.SendMove x y (.send s.frame)) : EndInv c side (e.put k s.sending) y := by
  obtain ⟨h1, h2, hb, -⟩ := (h.told k s hs).of_filled hpc
  have hrouted := h.routed hs hpc
  have hgate := h.gate k s hs (by rw [hpc]; rfl)
  have htold : OnSocket y s.sending → Told c side y s.sending :=
    .writing rfl (by simp [Sender.sending, h1]) h2 ⟨hb.routes, hb.ceiling⟩
  -- whoever else stands in `burst.Send` would hold the gate too
  have hrest : ∀ entries, y.sends = x.sends ++ entries → ∀ k' s', k' ≠ k → e.calls k' = some s' → Told c side y s' := by
    intro entries hsends k' s' hk hs'
    refine (h.told k' s' hs').mono (sent_mono hsends) fun hw => ?_
    have := h.gate k' s' hs' (by rw [hw]; rfl)
    rw [hgate] at this
    exact absurd (Option.some.inj this).symm hk
  cases hm with
  | kept hnot | ended entry hnot => exact absurd rfl (hnot s.frame)
  | begun f hf hnone hsends hw =>
    cases hf
    refine h.putAt rfl (fun _ _ hg => hg) (h.honest k s hs) (fun _ => hgate) (htold (.under hw))
      (hrest [] (by rw [hsends, List.append_nil])) (fun w hy => ?_) (hsends ▸ h.sends)
    rw [Option.mem_def.mp hy] at hw
    exact Option.some.inj hw ▸ hrouted
  | refused f r hf hnone hctx hok hw hsends =>
    cases hf
    have hlast : y.sends.getLast? = some ⟨s.frame, [], r⟩ := by rw [hsends]; exact List.getLast?_concat
    refine h.putAt rfl (fun _ _ hg => hg) (h.honest k s hs) (fun _ => hgate) (htold (.done _ hw hlast rfl fun _ => hctx))
      (hrest _ hsends) (by simp [hw]) fun entry hentry => ?_
    rw [hsends, List.mem_append, List.mem_singleton] at hentry
    rcases hentry with hentry | rfl
    · exact h.sends entry hentry
    · exact hrouted

/-! ### What it comes to -/

theorem inboundInlineMax_eq (hclamp : c.settings.maxPayload = 0) : c.inboundInlineMax side = c.inlineMax side.peer := by
  simp [Shared.inboundInlineMax, Shared.inlineMax, Settings.sendLimit, hclamp]

/-- What the routing rule puts on the socket passes the peer's check of it. -/
theorem Routed.origin {f : Frame} (h : Routed c side f) (hclamp : c.settings.maxPayload = 0) :
    c.checkBurstOrigin side.peer f = .ok () := by
  have habove := h.above
  have hceil := h.ceiling
  rw [Shared.checkBurstOrigin, inboundInlineMax_eq hclamp, Side.peer_peer, if_neg (not_not.mpr h.kind), if_neg (by omega),
    if_neg (by omega)]

theorem Told.once (h : Told c side x s) : s.trace.socket + s.trace.ring ≤ 1 ∧
    (s.trace.socket = 1 → c.routesToBurst side s.frame.kind s.size = true) ∧
    (s.trace.ring = 1 → c.routesToBurst side s.frame.kind s.size = false) ∧
    (s.pc = .returned .ok → s.trace.socket + s.trace.ring = 1 ∧ (s.trace.socket = 1 → s.frame ∈ x.sent)) := by
  cases h with
  | entered h1 h2 => simp [h1, h2]
  | ring h1 h2 h3 | queued h1 h2 h3 => simp [h1, h2, h3]
  | gating h1 h2 h3 => exact ⟨by simp [h2], by simp [h2], by simp [h2], fun hp => by rw [hp] at h1; cases h1⟩
  | filling h1 h2 h3 => simp [h1, h2]
  | filled h1 h2 h3 => simp [h1, h2, h3]
  | writing h1 h2 h3 h4 => simp [h1, h2, h3, h4.routes]
  | refused r h1 h2 h3 =>
    refine ⟨by simp [h2], by simp [h2], by simp [h2], fun hp => ?_⟩
    rw [h1] at hp
    cases hp
    simp at h3
  | viaRing r n h1 h2 h3 h4 h5 =>
    refine ⟨by simpa [h2] using h3, by simp [h2], fun _ => h5, fun hp => ?_⟩
    rw [h1] at hp
    cases hp
    simp [h2, h4 rfl]
  | viaSocket r h1 h2 h3 h4 h5 =>
    refine ⟨by omega, fun _ => h2.routes, (fun h => by rw [h3] at h; cases h), fun hp => ?_⟩
    rw [h1] at hp
    cases hp
    obtain ⟨hone, hsent⟩ := h5 rfl
    exact ⟨by omega, fun _ => hsent⟩

theorem Told.refused_of_above (h : Told c side x s)
    (hceil : (c.inlineMax side).toNat ≤ c.ceiling.toNat) (hu : Shared.unary s.frame.kind = true)
    (hsize : c.ceiling.toNat < s.size) : s.trace = {} ∧ ∀ r, s.pc = .returned r → r = .outcome ∨ r = .tooLarge := by
  have hr : c.routesToBurst side s.frame.kind s.size = true := by
    simp only [Shared.routesToBurst, hu, Bool.true_and, decide_eq_true_eq]
    omega
  have hb : ¬ Bursts c side s := fun hb => by
    have := hb.ceiling
    omega
  cases h with
  | entered h1 h2 => exact ⟨h2, fun r hp => by rw [h1] at hp; cases hp⟩
  | refused r h1 h2 h3 =>
    refine ⟨h2, fun r' hp => ?_⟩
    rw [h1] at hp
    cases hp
    exact h3
  | ring _ _ h3 | queued _ _ h3 => rw [hr] at h3; cases h3
  | viaRing _ _ _ _ _ _ h5 => rw [hr] at h5; cases h5
  | gating _ _ h3 | filling _ _ h3 => exact absurd h3 hb
  | filled _ _ _ h4 | writing _ _ _ h4 => exact absurd h4 hb
  | viaSocket _ _ h2 => exact absurd h2 hb

theorem Told.untouched {r : Result} (h : Told c side x s) (hf : s.fill.isSome = true)
    (hr : c.routesToBurst side s.frame.kind s.size = true) (hpc : s.pc = .returned r) (hctx : r.isCtx = true) :
    s.trace = {} := by
  cases h with
  | refused _ _ h2 => exact h2
  | viaRing _ _ _ _ _ _ h5 => rw [hr] at h5; cases h5
  | viaSocket r' h1 _ _ _ _ h6 =>
    rw [hpc] at h1
    cases h1
    exact h6 hf hctx
  | gating h1 => rw [hpc] at h1; cases h1
  | _ h1 => rw [hpc] at h1; cases h1

end

/-! ## Over whole runs -/

namespace Link

variable {c : Shared} {l l' : Link} {side : Side} {e : End}

structure Inv (c : Shared) (l : Link) : Prop where
  socket : UDSPair.Inv c.socketConfig l.socket
  ends : ∀ side, EndInv c side (l.ends side) (l.socket.ends side.socket)
  ring : ∀ side, (l.ring side).Inv ∧ (l.ring side).Fitting c.settings (c.outbound side)

theorem Inv.setEnd (h : Inv c l) (he : EndInv c side e (l.socket.ends side.socket)) : Inv c (l.setEnd side e) := by
  refine ⟨h.socket, fun side' => ?_, h.ring⟩
  by_cases hside : side' = side
  · subst hside
    simpa [Link.setEnd] using he
  · simpa [Link.setEnd, update_of_ne hside] using h.ends side'

theorem Inv.setRing {a : Sys.Act} {r : Sys} (h : Inv c l) (hg : ∀ side, Region.ArenaRules (c.outbound side))
    (hr : (l.ring side).step a = some r) : Inv c (l.setRing side r) := by
  refine ⟨h.socket, h.ends, fun side' => ?_⟩
  by_cases hside : side' = side
  · subst hside
    obtain ⟨hi, hf⟩ := h.ring side'
    simpa [Link.setRing] using ⟨hi.step hr, hf.step (hg side') hi hr⟩
  · simpa [Link.setRing, update_of_ne hside] using h.ring side'

theorem Inv.setSocket {a : UDSTransport.Act} {p : UDSPair} (h : Inv c l)
    (hp : l.socket.step c.socketConfig (side.socket, a) = some p) (ha : UDSPair.Sends c.socketConfig (side.socket, a))
    (he : ∀ y, UDSTransport.SendMove (l.socket.ends side.socket) y a → EndInv c side e y) :
    Inv c ({ l with socket := p }.setEnd side e) := by
  obtain ⟨x, out, hx, -, rfl⟩ := UDSPair.step_some hp
  refine ⟨h.socket.step ha hp, fun side' => ?_, h.ring⟩
  by_cases hside : side' = side
  · subst hside
    simpa [Link.setEnd] using he x (UDSTransport.sendMove_step hx)
  · have hne : side'.socket ≠ side.socket := fun heq => hside (Side.socket_inj heq)
    simp only [Link.setEnd, update_of_ne hside, if_neg hne]
    exact (h.ends side').congr rfl rfl

/-- Callers keep to their end's kind. -/
def Calls (c : Shared) : Act → Prop
  | .call side _ f _ => Honest c side f
  | _ => True

theorem Inv.step {a : Act} (h : Inv c l) (hg : ∀ side, Region.ArenaRules (c.outbound side)) (hc : Calls c a)
    (hs : l.step c a = some l') : Inv c l' := by
  cases a <;> simp only [Link.step] at hs
  case call side k f fill =>
    split at hs <;> cases hs
    next hnone =>
    exact h.setEnd ((h.ends side).put rfl (fun _ _ hg => hg) hc (fun hh => by cases hh) (.entered rfl rfl))
  case cancel side k =>
    split at hs <;> cases hs
    next s hk =>
    exact h.setEnd ((h.ends side).move hk rfl rfl rfl id ((h.ends side).told k s hk).cancelled)
  case next side k =>
    split at hs
    swap
    · cases hs
    next s hk =>
    split at hs
    · next hpc =>
      obtain ⟨p, hp, rfl⟩ := Option.map_eq_some_iff.mp hs
      refine h.setSocket hp (fun f hf => ?_) fun y hm => (h.ends side).send hk hpc hm
      cases hf
      exact ((h.ends side).routed hk hpc).proper
    · obtain ⟨e, he, rfl⟩ := Option.map_eq_some_iff.mp hs
      exact h.setEnd ((h.ends side).next hk he)
  case enter side k =>
    split at hs
    swap
    · cases hs
    next s hk =>
    obtain ⟨hcond, ⟨⟩⟩ := guard_some hs
    obtain ⟨hzero, hb⟩ := ((h.ends side).told k s hk).of_gating (by rw [hcond.1]; rfl)
    exact h.setEnd ((h.ends side).enter hk hcond.2 rfl rfl rfl (.gating rfl hzero ⟨hb.routes, hb.ceiling⟩))
  case giveUp side k =>
    split at hs
    swap
    · cases hs
    next s hk =>
    obtain ⟨hcond, ⟨⟩⟩ := guard_some hs
    obtain ⟨hzero, hb⟩ := ((h.ends side).told k s hk).of_gating (by rw [hcond.1]; rfl)
    exact h.setEnd ((h.ends side).move hk rfl rfl rfl (fun hh => by cases hh)
      (.viaSocket .ctx rfl ⟨hb.routes, hb.ceiling⟩ (by rw [hzero]) (by rw [hzero]; decide) (by simp) (fun _ _ => hzero)))
  case submit side k accepts =>
    split at hs
    swap
    · cases hs
    next s hk =>
    obtain ⟨hpc, hs⟩ := unless_some hs
    obtain ⟨hzero, hr⟩ := ((h.ends side).told k s hk).of_ring (not_not.mp hpc)
    split at hs
    · cases hs
      exact h.setEnd ((h.ends side).move hk rfl rfl rfl (fun hh => by cases hh) (.refused .tooLarge rfl hzero (.inr rfl)))
    split at hs <;> cases hs
    · exact h.setEnd ((h.ends side).move hk rfl rfl rfl (fun hh => by cases hh) (.queued rfl (by rw [hzero]) hr))
    · exact h.setEnd ((h.ends side).move hk rfl rfl rfl (fun hh => by cases hh)
        (.viaRing .ring 0 rfl hzero (by omega) (by simp) hr))
  case report side k published =>
    split at hs
    swap
    · cases hs
    next s hk =>
    obtain ⟨hpc, ⟨⟩⟩ := guard_some hs
    obtain ⟨htrace, hr⟩ := ((h.ends side).told k s hk).of_queued hpc
    exact h.setEnd ((h.ends side).move hk rfl rfl rfl (fun hh => by cases hh)
      (.viaRing _ 1 rfl htrace (Nat.le_refl 1) (fun _ => rfl) hr))
  case feed side j late =>
    split at hs
    swap
    · cases hs
    obtain ⟨r, hr, rfl⟩ := Option.map_eq_some_iff.mp hs
    have he := h.ends side
    exact (h.setRing hg hr).setEnd ⟨he.honest, he.gate, he.told, he.writing, he.sends⟩
  case ring side a =>
    obtain ⟨-, hs⟩ := unless_some hs
    obtain ⟨r, hr, rfl⟩ := Option.map_eq_some_iff.mp hs
    exact h.setRing hg hr
  case socket side a =>
    obtain ⟨hmay, hs⟩ := guard_some hs
    obtain ⟨p, hp, rfl⟩ := Option.map_eq_some_iff.mp hs
    have hnot : UDSPair.Sends c.socketConfig (side.socket, a) := fun f hf => by
      simp only at hf
      rw [hf] at hmay
      cases hmay
    have hset := h.setSocket hp hnot fun y hm => (h.ends side).socket hmay hm
    rwa [Link.setEnd, update_eq_self] at hset
  case terminate side t =>
    obtain ⟨-, ⟨⟩⟩ := guard_some hs
    have he := h.ends side
    exact h.setEnd ⟨he.honest, he.gate, he.told, he.writing, he.sends⟩
  case poison side =>
    cases hs
    have he := h.ends side
    exact h.setEnd ⟨he.honest, he.gate, he.told, he.writing, he.sends⟩

/-- A connection as both ends leave it when they have attached. -/
structure Attached (c : Shared) (l : Link) : Prop where
  ends : ∀ side, l.ends side = ⟨.live, false, none, fun _ => none, []⟩
  socket : l.socket = UDSPair.start
  ring : ∀ side, (l.ring side).Attached c.settings (c.outbound side)

theorem Attached.inv (h : l.Attached c) : Inv c l := by
  refine ⟨h.socket ▸ UDSPair.Inv.start, fun side => ?_, fun side => ⟨(h.ring side).start.inv, (h.ring side).fitting⟩⟩
  rw [h.ends side, h.socket]
  exact ⟨by simp, by simp, by simp, by simp [UDSPair.start, UDSTransport.fresh], by simp [UDSPair.start, UDSTransport.fresh]⟩

theorem Attached.reach (h : l.Attached c) (hg : ∀ side, Region.ArenaRules (c.outbound side))
    (hr : Reach (step c) (fun _ => Calls c) l l') : Inv c l' :=
  hr.invariant h.inv fun hi hc hs => hi.step hg hc hs

/-- **Each end routes as the other expects.** -/
structure Agrees (c : Shared) (l : Link) : Prop where
  /-- A call uses one underside at most, the one the rule names; one that returned no error used it. -/
  once : ∀ side k s, (l.ends side).calls k = some s → s.trace.socket + s.trace.ring ≤ 1 ∧
    (s.trace.socket = 1 → c.routesToBurst side s.frame.kind s.size = true) ∧
    (s.trace.ring = 1 → c.routesToBurst side s.frame.kind s.size = false) ∧
    (s.pc = .returned .ok → s.trace.socket + s.trace.ring = 1 ∧
      (s.trace.socket = 1 → s.frame ∈ (l.socket.ends side.socket).sent))
  /-- What comes off the socket passes the checks of the end that reads it. -/
  socket : ∀ side, UDSTransport.Unoffended (l.socket.ends side.socket) ∧
    ∀ f ∈ (l.socket.ends side.socket).returned, c.checkBurstOrigin side f = .ok ()
  /-- What is out on a ring passes the length and class checks of the end that reads it. -/
  ring : ∀ side, ∀ d ∈ (l.ring side).w.ring.outstanding, Writer.Fits c.settings (c.outbound side) d
  /-- A payload above the ceiling is refused, with nothing done. -/
  ceiling : ∀ side k s, (l.ends side).calls k = some s → Shared.unary s.frame.kind = true → c.ceiling.toNat < s.size →
    s.trace = {} ∧ ∀ r, s.pc = .returned r → r = .outcome ∨ r = .tooLarge
  /-- A fill that returns a context error never ran, and nothing was written for it. -/
  cancelled : ∀ side k s r, (l.ends side).calls k = some s → s.fill.isSome = true →
    c.routesToBurst side s.frame.kind s.size = true → s.pc = .returned r → r.isCtx = true → s.trace = {}

/-- **Burst routing agreement.** Whatever the interleaving of callers, cancellations, socket turns and ring writers, each
payload is found on the one underside its size names, where the peer takes it; above the ceiling nothing is begun, and a
fill cancelled on its way to the socket was never run. -/
theorem burst_routing (c : Shared) (input : Region.Layout) (log : List Exact)
    (hl : Region.deriveLayout input [] = .ok (c.layout, log)) (hclamp : c.settings.maxPayload = 0)
    (hceil : ∀ side, c.inlineMax side ≤ c.ceiling) (l l' : Link) (h0 : l.Attached c)
    (hr : Reach (step c) (fun _ => Calls c) l l') : Agrees c l' := by
  obtain ⟨hgeo, -⟩ := (Region.deriveLayout_safe.of_ok hl).1
  have hg : ∀ side, Region.ArenaRules (c.outbound side) := by
    intro side
    cases side with
    | host => exact hgeo.arenaHP
    | plugin => exact hgeo.arenaPH
  have hi := h0.reach hg hr
  refine ⟨fun side k s hs => ((hi.ends side).told k s hs).once, fun side => ⟨?_, fun f hf => ?_⟩,
    fun side => (hi.ring side).2.out,
    fun side k s hs => ((hi.ends side).told k s hs).refused_of_above (UInt32.le_iff_toNat_le.mp (hceil side)),
    fun side k s r hs => ((hi.ends side).told k s hs).untouched⟩
  · have := (hi.socket.direction side.peer.socket).unoffended
    rwa [Side.socket_peer, Bool.not_not] at this
  · -- what one end returned its peer has sent, and the peer sends what is routed there
    have hsent : f ∈ (l'.socket.ends side.peer.socket).sent := by
      have hprefix := hi.socket.returned_prefix side.peer.socket
      rw [Side.socket_peer, Bool.not_not] at hprefix
      rw [Side.socket_peer]
      exact hprefix.subset hf
    obtain ⟨entry, hentry, hframe⟩ := List.mem_filterMap.mp hsent
    have hrouted := (hi.ends side.peer).sends entry hentry
    obtain ⟨-, ⟨⟩⟩ := guard_some hframe
    have := hrouted.origin hclamp
    rwa [Side.peer_peer] at this

/-- The small layout, whose limit is 4092 bytes either way, under a ceiling above it. -/
def small : Shared := ⟨Region.smallLayout, Sys.smallSettings, 5000⟩

/-- The classes of its other direction. -/
def returnTable : ClassTable where
  classes := [⟨4096, 2, 0⟩]
  nonempty := by decide
  slabSize_pos := by decide
  slabCount_pos := by decide
  contiguous := by decide
  fits := by decide

def returnStart : Sys := { Sys.smallStart with w := { Sys.smallStart.w with arena := Arena.new returnTable (fun _ => 0) 7 1 } }

def smallStart : Link where
  ends _ := ⟨.live, false, none, fun _ => none, []⟩
  socket := UDSPair.start
  ring
    | .host => Sys.smallStart
    | .plugin => returnStart

theorem smallStart_attached : smallStart.Attached small where
  ends _ := rfl
  socket := rfl
  ring side := by
    cases side with
    | host => exact Sys.smallStart_attached
    | plugin =>
      exact
        { start :=
            { pc := rfl
              stuck := rfl
              arena := ⟨returnTable, fun _ => 0, 7, 1, rfl⟩
              table := fun _ => rfl
              frees := rfl
              order := by decide
              fits := by decide
              unread := fun _ _ => rfl }
          empty := rfl
          checksum := rfl
          chunkingActive := rfl
          maxStored := rfl
          classes := rfl
          generation := rfl }

/-- One byte above the limit. -/
def bigFrame (kind : FrameKind) : Frame := ⟨7, kind, 1, 2, 0, List.replicate 4093 9, none, 0⟩

/-- The host sends it, and the plugin reads it off the socket. -/
def bigActs (kind : FrameKind) : List Act :=
  .call .host 0 (bigFrame kind) none :: List.replicate 6 (.next .host 0) ++
    [.socket .host .tryWrite, .socket .host (.wrote 37), .socket .host .tryWrite, .socket .host (.wrote 4093), .next .host 0,
      .socket .plugin .recv, .socket .plugin .tryRead, .socket .plugin (.read 37), .socket .plugin .tryRead,
      .socket .plugin (.read 4093)]

def bigEnd : Link := (run (step small) smallStart (bigActs .unaryReq)).get (by decide +kernel)

/-- The host sends a response of that size. -/
def strayEnd : Link := (run (step small) smallStart (bigActs .unaryResp)).get (by decide +kernel)

theorem burst_routing_small : (bigEnd.socket.ends false).returned.length = 1 ∧ Agrees small bigEnd := by
  obtain ⟨log, hl⟩ := Region.smallInput_derives
  have hcalls : ∀ a ∈ bigActs .unaryReq, Calls small a := by
    have hbig : Honest small .host (bigFrame .unaryReq) := fun _ => ⟨rfl, ⟨isInt64_zero, rfl, fun _ => rfl⟩⟩
    intro a ha
    cases a with
    | call side k f fill =>
      simp only [bigActs, List.cons_append, List.mem_cons, List.mem_append, List.mem_replicate, reduceCtorEq, Act.call.injEq,
        and_false, or_false, List.not_mem_nil] at ha
      obtain ⟨rfl, -, rfl, -⟩ := ha
      exact hbig
    | _ => trivial
  exact ⟨by decide +kernel, burst_routing small Region.smallInput log hl rfl
    (fun side => by cases side <;> decide) smallStart bigEnd smallStart_attached
    (Reach.of_run_of (Option.some_get _).symm hcalls)⟩

/-- **An end that sends its peer's kind** has its frame accepted, and the peer condemns the connection for it. -/
theorem burst_routing_stray : Reach (step small) Any smallStart strayEnd ∧
    (∃ s ∈ (strayEnd.ends .host).calls 0, s.pc = .returned .ok ∧ s.frame.kind = .unaryResp) ∧
    ∃ f ∈ (strayEnd.socket.ends false).returned, small.checkBurstOrigin .plugin f = .error .kind := by
  have hend : ((strayEnd.ends .host).calls 0).any (fun s => s.pc = .returned .ok ∧ s.frame.kind = .unaryResp) = true ∧
      (strayEnd.socket.ends false).returned.any (fun f => small.checkBurstOrigin .plugin f = .error .kind) = true := by
    decide +kernel
  obtain ⟨s, hs, hdone⟩ := (Option.any_eq_true _ _).mp hend.1
  obtain ⟨f, hf, hfault⟩ := List.any_eq_true.mp hend.2
  exact ⟨Reach.of_run (Option.some_get _).symm, ⟨s, hs, of_decide_eq_true hdone⟩, f, hf, of_decide_eq_true hfault⟩

end Link

end Burst

end Styx
