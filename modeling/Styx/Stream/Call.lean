/-
One call between two engines: a stream on each side, and the frames of the call on the
four lanes.

A call is in one of four conditions. It is fresh; or the opener has a stream and the
accepter has not seen the `STREAM_OPEN`, where the accepter's stream is the one the
`STREAM_OPEN` will make; or both have one; or the accepter has refused it, and whatever
still arrives there is discarded. In the second and third the two directions are `Flow`s.
-/
import Styx.Stream.Flow
import Styx.Stream.Table

namespace Styx

open Function Styx.Stream

def StreamSide.peer : StreamSide → StreamSide
  | .client => .server
  | .server => .client

@[simp] theorem StreamSide.peer_peer (side : StreamSide) : side.peer.peer = side := by cases side <;> rfl

@[simp] theorem StreamSide.peer_ne (side : StreamSide) : side.peer ≠ side := by cases side <;> simp [peer]

@[simp] theorem StreamSide.ne_peer (side : StreamSide) : side ≠ side.peer := by cases side <;> simp [peer]

/-- The two policies, equal on the two ends of each direction. -/
structure Policies where
  of : StreamSide → ChunkPolicy
  inline : ∀ side, (of side).sendInline = (of side.peer).recvInline
  ceiling : ∀ side, (of side).ceiling = (of side.peer).ceiling

/-- The call as it stands: `taken` is set once the accepter has its `STREAM_OPEN`; `data`
and `life` are by the side that published the frames. -/
@[ext] structure Call where
  stream : StreamSide → Option Stream
  taken : Bool
  data : StreamSide → List StreamFrame
  life : StreamSide → List StreamFrame

variable {pol : Policies} {shape : StreamShape} {S : StreamSide → Stream} {opened lax : Bool}
  {data life : StreamSide → List StreamFrame} {side : StreamSide} {e : Env} {X' X : Stream} {effects : List Effect}
  {f opening : StreamFrame} {rest : List StreamFrame} {frames : List StreamFrame}
  {init : Received} {a : Act} {lbl : Option (StreamSide × Stream.Act)}

/-! ## Both directions -/

structure Joined (lax : Bool) (pol : Policies) (S : StreamSide → Stream) (opened : Bool) (data life : StreamSide → List StreamFrame) :
    Prop where
  sound : ∀ side, (S side).Sound (pol.of side)
  flow : ∀ side, Flow lax (pol.of side.peer) (S side) (S side.peer) (side = .server || opened) (data side)
    ((life side.peer).filterMap ackOf)
  life : ∀ side, ∀ f ∈ life side, LifeFrame f
  /-- Until then the accepter's stream is as the `STREAM_OPEN` makes it. -/
  fresh : opened = false → ∃ credits shape payload, S .server = Table.acceptedStream credits shape payload

theorem Joined.update {d l : List StreamFrame} {d' l' : List StreamFrame}
    (hsound : ∀ side', side' ≠ side → (S side').Sound (pol.of side'))
    (hX : X.Sound (pol.of side))
    (hsend : Flow lax (pol.of side.peer) X (S side.peer) (side = .server || opened) d (l'.filterMap ackOf))
    (hrecv : Flow lax (pol.of side) (S side.peer) X (side.peer = .server || opened) d' (l.filterMap ackOf))
    (hlife : (∀ f ∈ l, LifeFrame f) ∧ ∀ f ∈ l', LifeFrame f)
    (hfresh : opened = false → ∃ credits shape payload,
      Function.update S side X .server = Table.acceptedStream credits shape payload)
    (hd : data side = d) (hl : life side = l) (hd' : data side.peer = d') (hl' : life side.peer = l') :
    Joined lax pol (Function.update S side X) opened data life := by
  have hcase : ∀ side', side' = side ∨ side' = side.peer := by
    intro side'
    cases side <;> cases side' <;> simp [StreamSide.peer]
  refine ⟨fun side' => ?_, fun side' => ?_, fun side' => ?_, hfresh⟩
  · rcases hcase side' with rfl | rfl
    · rw [Function.update_self]
      exact hX
    · rw [Function.update_of_ne side.peer_ne]
      exact hsound _ side.peer_ne
  · rcases hcase side' with rfl | rfl
    · rw [Function.update_self, Function.update_of_ne side'.peer_ne, hd, hl']
      exact hsend
    · rw [StreamSide.peer_peer, Function.update_self, Function.update_of_ne side.peer_ne, hd', hl]
      exact hrecv
  · rcases hcase side' with rfl | rfl
    · rw [hl]
      exact hlife.1
    · rw [hl']
      exact hlife.2

section

variable (h : Joined lax pol S opened data life)
include h

theorem Joined.recvFlow (side : StreamSide) :
    Flow lax (pol.of side) (S side.peer) (S side) (side.peer = .server || opened) (data side.peer)
      ((life side).filterMap ackOf) := by
  have := h.flow side.peer
  rwa [StreamSide.peer_peer] at this

/-- A client whose stream completed has seen the accepter's half-close, so its
`STREAM_OPEN` is out. -/
theorem Joined.opened_of_completed
    (hcomp : (S side).phase = .term .completed) (st : Option Received) (hst : arriveAll (pol.of side.peer) opening init
      (if (side = .server || opened) then some (S side.peer).received else none) (data side) = some st) : st ≠ none := by
  rintro rfl
  cases hb : (side = .server || opened) with
  | true =>
    rw [hb, if_pos rfl] at hst
    obtain ⟨⟨_, hr⟩, -⟩ := arriveAll_some hst
    cases hr
  | false =>
    obtain ⟨hside, hopen⟩ := Bool.or_eq_false_iff.mp hb
    obtain rfl : side = .client := by
      cases side
      · rfl
      · simp at hside
    -- The accepter of an unopened call has sent nothing.
    obtain ⟨credits, shape, payload, hfresh⟩ := h.fresh hopen
    have hclosed : (S .client).received.closed = true := (h.sound .client).recv.completed hcomp
    obtain ⟨st', hst', hsends⟩ := (h.recvFlow .client).wire (by simp [terminalErr, hcomp])
    rw [if_pos (by rfl)] at hst'
    obtain rfl := arriveAll_closed hclosed hst'
    rw [show S StreamSide.client.peer = _ from hfresh] at hsends
    obtain ⟨-, -, (⟨deadline, hpc⟩ | ⟨-, hterm⟩) | hnext, -⟩ := hsends
    · cases hpc
    · cases hterm
    · have := hnext.2.2
      rw [hclosed] at this
      simp [Table.acceptedStream, newStream] at this

theorem Joined.keepFresh (hside : side = .client ∨ opened = true) (hf : opened = false) : ∃ credits shape payload,
      Function.update S side X' .server = Table.acceptedStream credits shape payload := by
  obtain rfl : side = .client := hside.resolve_right (by simp [hf])
  rw [Function.update_of_ne (by simp)]
  exact h.fresh hf

/-- **A step of one side.** -/
theorem Joined.step (hs : (S side).step e a = some (X', effects))
    (he : e.policy = pol.of side) (ha : a ≠ .sender (.transmit .connErr)) (hans : (S side).Answers lax)
    (hside : side = .client ∨ opened = true) : Joined lax pol (Function.update S side X') opened
      (Function.update data side (data side ++ effects.filterMap Effect.dataFrame))
      (Function.update life side (life side ++ effects.filterMap Effect.lifeFrame)) := by
  refine Joined.update (fun side' _ => h.sound side') ((h.sound side).step hs he ha)
    ((h.flow side).sendStep (h.sound side).send (pol.inline side) (pol.ceiling side) he ha hans
      (fun hc _ st hst => h.opened_of_completed hc st hst) hs)
    ?_ ⟨?_, h.life side.peer⟩ (h.keepFresh hside) (Function.update_self _ _ _) (Function.update_self _ _ _)
    (Function.update_of_ne side.peer_ne _ _) (Function.update_of_ne side.peer_ne _ _)
  · rw [List.filterMap_append]
    exact (h.recvFlow side).recvStep (h.sound side).recv hs
  · intro f hf
    rcases List.mem_append.mp hf with hold | hnew
    · exact h.life side f hold
    · exact (h.sound side).life hs f hnew

theorem Joined.arm (hs : (S side).arm = (X', effects))
    (hside : side = .client ∨ opened = true) : Joined lax pol (Function.update S side X') opened data life := by
  have hsound := (h.sound side).arm hs
  obtain ⟨⟨_, rfl⟩, -⟩ := arm_frame hs
  exact Joined.update (fun side' _ => h.sound side') hsound
    ((h.flow side).ofSend ⟨rfl, rfl, rfl, rfl, rfl, rfl, id⟩)
    ((h.recvFlow side).ofRecv ⟨id, fun _ => rfl, rfl, rfl, rfl, rfl, rfl⟩)
    ⟨h.life side, h.life side.peer⟩ (h.keepFresh hside) rfl rfl rfl rfl

theorem Joined.err (side : StreamSide) (status : FrameStatus) :
    Joined lax pol S opened (Function.update data side (data side ++ [.streamErr status])) life := by
  refine ⟨h.sound, ?_, h.life, h.fresh⟩
  exact (Function.forall_update_iff data fun side' d => Flow lax _ (S side') (S side'.peer) _ d _).mpr
    ⟨(h.flow side).errSent status, fun side' _ => h.flow side'⟩

/-- **A data frame delivered** to a side that has its stream. -/
theorem Joined.dataTaken (hhead : data side.peer = f :: rest) (hside : side = .client ∨ opened = true) :
    ((S side).dispatch (pol.of side) f).2 = true ∧
      Joined lax pol (Function.update S side ((S side).dispatch (pol.of side) f).1) opened
        (Function.update data side.peer rest) life := by
  have hopen : (side.peer = .server || opened) = true := by
    rcases hside with rfl | rfl <;> simp [StreamSide.peer]
  have hrecv := h.recvFlow side
  rw [hhead, hopen] at hrecv
  obtain ⟨hok, hflow⟩ := hrecv.dataTaken (h.sound side).recv
  refine ⟨hok, Joined.update (fun side' _ => h.sound side') ((h.sound side).dispatch _ f) ?_ (hopen ▸ hflow)
    ⟨h.life side, h.life side.peer⟩ (h.keepFresh hside) (Function.update_of_ne side.ne_peer _ _) rfl
    (Function.update_self _ _ _) rfl⟩
  -- Its own direction does not see the frame, which is no acknowledgement.
  by_cases hl : (S side).isLive = true
  · refine (h.flow side).ofSend (sameSend_dispatch _ fun v hv => ?_)
    obtain ⟨st, hst, -⟩ := hrecv.wire (terminalErr_isLive hl)
    rw [if_pos rfl, arriveAll_cons_some, hv] at hst
    simp [Received.take] at hst
  · rw [show ((S side).dispatch (pol.of side) f).1 = S side by simp [dispatch, hl]]
    exact h.flow side

/-- **A lifecycle frame delivered** to a side that has its stream. -/
theorem Joined.lifeTaken (hhead : life side.peer = f :: rest) (hside : side = .client ∨ opened = true) :
    ((S side).dispatch (pol.of side) f).2 = true ∧
      Joined lax pol (Function.update S side ((S side).dispatch (pol.of side) f).1) opened data
        (Function.update life side.peer rest) := by
  have hframe : LifeFrame f := h.life side.peer f (by simp [hhead])
  have hlife : (∀ f ∈ life side, LifeFrame f) ∧ ∀ f ∈ rest, LifeFrame f :=
    ⟨h.life side, fun g hg => h.life side.peer g (by simp [hhead, hg])⟩
  have hrecv := (h.recvFlow side).ofRecv (sameRecv_dispatch (pol.of side) (h.sound side).recv
    (hframe.imp id fun hcancel => hcancel.imp fun _ hc => hc.1))
  have hsend := h.flow side
  rw [hhead] at hsend
  have hupdate : ∀ {flag : Bool}, Flow lax (pol.of side.peer) ((S side).dispatch (pol.of side) f).1 (S side.peer)
      (side = .server || opened) (data side) (rest.filterMap ackOf) → flag = true →
      flag = true ∧ Joined lax pol (Function.update S side ((S side).dispatch (pol.of side) f).1) opened data
        (Function.update life side.peer rest) := fun hflow hok =>
    ⟨hok, Joined.update (fun side' _ => h.sound side') ((h.sound side).dispatch _ f) hflow hrecv hlife
      (h.keepFresh hside) rfl (Function.update_of_ne side.ne_peer _ _) rfl (Function.update_self _ _ _)⟩
  rcases hframe with ⟨v, rfl⟩ | ⟨code, rfl, hcode⟩
  · obtain ⟨hok, hflow⟩ := hsend.ackTaken (h.sound side.peer).recv (pol.of side)
    exact hupdate hflow hok
  · exact hupdate (hsend.ofSend (sameSend_dispatch _ (by simp))) (dispatch_cancel hcode)

end

/-! ## The call -/

structure Fixed (X X' : Stream) : Prop where
  shape : X'.shape = X.shape
  openPayload : X'.openPayload = X.openPayload
  granted : X'.sendCredit.granted = X.sendCredit.granted

theorem fixed_ends (h : Ends X X') : Fixed X X' := by
  obtain ⟨_, _, _, _, _, rfl⟩ := h.frame
  exact ⟨rfl, rfl, rfl⟩

theorem fixed_step (hs : X.step e a = some (X', effects)) : Fixed X X' := by
  cases a with
  | opener a =>
    obtain ⟨X₁, _, _, _, _, _, hends, -, -, rfl⟩ := openerStep_frame hs
    exact ⟨(fixed_ends hends).shape, (fixed_ends hends).openPayload, (fixed_ends hends).granted⟩
  | sender a =>
    have hgranted := (spends_senderStep hs).granted
    obtain ⟨X₁, _, _, _, _, _, _, _, hends, rfl⟩ := senderStep_frame hs
    exact ⟨(fixed_ends hends).shape, (fixed_ends hends).openPayload, hgranted⟩
  | receiver a =>
    obtain ⟨⟨_, _, _, _, _, _, _, rfl⟩, -⟩ := receiverStep_frame hs
    exact ⟨rfl, rfl, rfl⟩
  | acker a =>
    obtain ⟨_, _, _, _, _, _, rfl⟩ := ackStep_frame hs
    exact ⟨rfl, rfl, rfl⟩
  | finisher a =>
    obtain ⟨_, _, _, _, rfl⟩ := finishStep_frame hs
    exact ⟨rfl, rfl, rfl⟩
  | ending a => exact fixed_ends (endStep_ends hs).1

theorem fixed_dispatch (X : Stream) (p : ChunkPolicy) (f : StreamFrame) : Fixed X (X.dispatch p f).1 := by
  obtain ⟨_, _, _, _, _, _, -, hends⟩ := dispatch_frame X p f
  exact ⟨(fixed_ends hends).shape, (fixed_ends hends).openPayload, (fixed_ends hends).granted⟩

structure Past (X : Stream) (frames : List StreamFrame) : Prop where
  publish : X.opener ≠ .publish
  send : X.opener ≠ .send
  none : ∀ credits payload, .streamOpen credits payload ∉ frames

theorem Past.tail (h : Past X (f :: frames)) : Past X frames :=
  ⟨h.publish, h.send, fun credits payload hmem => h.none credits payload (by simp [hmem])⟩

theorem Past.step (h : Past X frames)
    (hs : X.step e a = some (X', effects)) : Past X' (frames ++ effects.filterMap Effect.dataFrame) := by
  have hother : X'.opener = X.opener → (∀ x ∈ effects, ∀ credits payload, x ≠ .data (.streamOpen credits payload)) →
      Past X' (frames ++ effects.filterMap Effect.dataFrame) := by
    intro hpc heff
    refine ⟨hpc ▸ h.publish, hpc ▸ h.send, fun credits payload hmem => ?_⟩
    rcases List.mem_append.mp hmem with hold | hnew
    · exact h.none credits payload hold
    · obtain ⟨x, hx, hxf⟩ := List.mem_filterMap.mp hnew
      unfold Effect.dataFrame at hxf
      split at hxf
      · cases hxf
        exact heff _ hx credits payload rfl
      · cases hxf
  have hnone : (∀ x ∈ effects, x.dataFrame = Option.none) →
      ∀ x ∈ effects, ∀ credits payload, x ≠ .data (.streamOpen credits payload) := by
    rintro heff x hx credits payload rfl
    exact absurd (heff _ hx) (by simp [Effect.dataFrame])
  cases a with
  | opener a =>
    obtain ⟨heff, hpub, hsend⟩ := openerStep_effects hs
    obtain rfl := heff.resolve_right fun hc => h.send hc.1
    exact ⟨hpub, fun hc => h.publish (hsend hc), by simpa using h.none⟩
  | sender a =>
    have heff := fun x hx => (senderStep_effects hs x hx).2.2
    obtain ⟨X₁, _, _, _, _, _, _, _, hends, rfl⟩ := senderStep_frame hs
    obtain ⟨_, _, _, _, _, rfl⟩ := hends.frame
    exact hother rfl heff
  | receiver a =>
    obtain ⟨⟨_, _, _, _, _, _, _, rfl⟩, heff⟩ := receiverStep_frame hs
    exact hother rfl (hnone fun x hx => (arm_effects heff x hx).1)
  | acker a =>
    have heff := ackStep_effects hs
    obtain ⟨_, _, _, _, _, _, rfl⟩ := ackStep_frame hs
    exact hother rfl (hnone fun x hx => (heff x hx).1)
  | finisher a =>
    have heff := finishStep_effects hs
    obtain ⟨_, _, _, _, rfl⟩ := finishStep_frame hs
    exact hother rfl (hnone fun x hx => (heff x hx).1)
  | ending a =>
    obtain ⟨hends, rfl⟩ := endStep_ends hs
    obtain ⟨_, _, _, _, _, rfl⟩ := hends.frame
    exact hother rfl (by simp)

theorem Past.dispatch (h : Past X frames) (p : ChunkPolicy) (f : StreamFrame) :
    Past (X.dispatch p f).1 frames := by
  obtain ⟨_, _, _, _, _, _, -, hends⟩ := dispatch_frame X p f
  obtain ⟨_, _, _, _, _, heq⟩ := hends.frame
  rw [heq]
  exact ⟨h.publish, h.send, h.none⟩

/-- The stream the opener's `STREAM_OPEN` will make. -/
def accepter (X : Stream) : Stream :=
  Table.acceptedStream X.sendCredit.granted X.shape (if X.shape = .serverStreaming then X.openPayload else [])

theorem Fixed.accepter (h : Fixed X X') : accepter X' = accepter X := by
  simp only [Styx.accepter, h.shape, h.openPayload, h.granted]

def pair (X Y : Stream) : StreamSide → Stream
  | .client => X
  | .server => Y

@[simp] theorem update_pair {Y : Stream} : Function.update (pair X Y) .client X' = pair X' Y := by
  funext side
  cases side <;> simp [pair, Function.update]

def Errs (frames : List StreamFrame) : Prop := ∀ f ∈ frames, ∃ status, f = .streamErr status

theorem Errs.tail (h : Errs (f :: frames)) : Errs frames := fun g hg => h g (by simp [hg])

inductive CallInv (lax : Bool) (pol : Policies) (shape : StreamShape) (c : Call) : Prop
  | fresh : (∀ side, c.stream side = none) → c.taken = false → (∀ side, Errs (c.data side)) → (∀ side, c.life side = []) →
    CallInv lax pol shape c
  | opening (X : Stream) : c.stream .client = some X → c.stream .server = none → c.taken = false → X.shape = shape →
    0 < X.sendCredit.granted → X.sendCredit.granted ≤ defaultStreamCredit → Errs (c.data .server) → c.life .server = [] →
    Joined lax pol (pair X (accepter X)) false c.data c.life → CallInv lax pol shape c
  | joined (S : StreamSide → Stream) : (∀ side, c.stream side = some (S side)) → c.taken = true →
    Joined lax pol S true c.data c.life → Past (S .client) (c.data .client) → CallInv lax pol shape c
  | refused (X : Stream) : c.stream .client = some X → c.stream .server = none → c.taken = true →
    X.Sound (pol.of .client) → Errs (c.data .server) → c.life .server = [] → (∀ f ∈ c.life .client, LifeFrame f) →
    Past X (c.data .client) → CallInv lax pol shape c

variable {c : Call}

namespace CallInv

theorem sound (h : CallInv lax pol shape c) (hX : c.stream side = some X) : X.Sound (pol.of side) := by
  cases h with
  | fresh hs => rw [hs side] at hX; cases hX
  | opening X₁ hc hs _ _ _ _ _ _ hj =>
    cases side with
    | client =>
      rw [hc] at hX
      cases hX
      exact hj.sound .client
    | server => rw [hs] at hX; cases hX
  | joined S hS _ hj =>
    rw [hS side] at hX
    cases hX
    exact hj.sound side
  | refused X₁ hc hs _ hsound =>
    cases side with
    | client =>
      rw [hc] at hX
      cases hX
      exact hsound
    | server => rw [hs] at hX; cases hX

theorem update_stream (hS : ∀ side, c.stream side = some (S side)) (side' : StreamSide) :
    update c.stream side (some X') side' = some (update S side X' side') := by
  by_cases hs : side' = side
  · subst hs
    simp
  · simp [update_of_ne hs, hS]

/-- One side's stream changes, and `d` and `l` join its lanes. -/
theorem moved (d l : List StreamFrame) (h : CallInv lax pol shape c) (hX : c.stream side = some X) (hfix : Fixed X X')
    (hsound : X'.Sound (pol.of side)) (hl : ∀ f ∈ l, LifeFrame f)
    (hpast : ∀ {frames}, Past X frames → Past X' (frames ++ d))
    (hjoined : ∀ {S opened}, S side = X → Joined lax pol S opened c.data c.life → side = .client ∨ opened = true →
      Joined lax pol (update S side X') opened (update c.data side (c.data side ++ d))
        (update c.life side (c.life side ++ l))) :
    CallInv lax pol shape { c with
      stream := update c.stream side (some X')
      data := update c.data side (c.data side ++ d)
      life := update c.life side (c.life side ++ l) } := by
  cases h with
  | fresh hn => rw [hn side] at hX; cases hX
  | opening X₁ hc hn ht hshape hpos hle he hlife hj =>
    cases side with
    | client =>
      rw [hc] at hX
      cases hX
      have hj' := hjoined rfl hj (.inl rfl)
      rw [update_pair, ← hfix.accepter] at hj'
      exact .opening X' (by simp) hn ht (hfix.shape.trans hshape) (hfix.granted ▸ hpos)
        (hfix.granted ▸ hle) he hlife hj'
    | server => rw [hn] at hX; cases hX
  | joined S hS ht hj hp =>
    rw [hS side] at hX
    cases hX
    refine .joined _ (update_stream hS) ht (hjoined rfl hj (.inr rfl)) ?_
    cases side with
    | client => exact hpast hp
    | server => exact hp
  | refused X₁ hc hn ht _ herr hlife hframes hp =>
    cases side with
    | client =>
      rw [hc] at hX
      cases hX
      exact .refused X' (by simp) hn ht hsound herr hlife
        (fun f hf => (List.mem_append.mp hf).elim (hframes f) (hl f)) (hpast hp)
    | server => rw [hn] at hX; cases hX

/-- **A step of one side's stream.** -/
theorem step {a : Act} (h : CallInv lax pol shape c) (hX : c.stream side = some X)
    (hs : X.step e a = some (X', effects)) (hpol : e.policy = pol.of side) (ha : a ≠ .sender (.transmit .connErr))
    (hans : X.Answers lax) : CallInv lax pol shape { c with
      stream := update c.stream side (some X')
      data := update c.data side (c.data side ++ effects.filterMap Effect.dataFrame)
      life := update c.life side (c.life side ++ effects.filterMap Effect.lifeFrame) } := by
  have hsound := h.sound hX
  refine h.moved _ _ hX (fixed_step hs) (hsound.step hs hpol ha) (hsound.life hs) (fun hp => hp.step hs) ?_
  rintro S opened rfl hj hside
  exact hj.step hs hpol ha hans hside

theorem arm (h : CallInv lax pol shape c) (hX : c.stream side = some X) (hs : X.arm = (X', effects)) :
    CallInv lax pol shape { c with stream := update c.stream side (some X') } := by
  have hsound := (h.sound hX).arm hs
  have hkeep : Fixed X X' ∧ ∀ {frames}, Past X frames → Past X' (frames ++ []) := by
    obtain ⟨⟨_, rfl⟩, -⟩ := arm_frame hs
    exact ⟨⟨rfl, rfl, rfl⟩, fun hp => ⟨hp.publish, hp.send, by simpa using hp.none⟩⟩
  have hmoved := h.moved [] [] hX hkeep.1 hsound nofun hkeep.2 (by
    rintro S opened rfl hj hside
    simpa using hj.arm hs hside)
  simpa using hmoved

theorem err (h : CallInv lax pol shape c) (side : StreamSide) (status : FrameStatus) :
    CallInv lax pol shape { c with data := update c.data side (c.data side ++ [.streamErr status]) } := by
  have hmem : ∀ {side' f}, f ∈ update c.data side (c.data side ++ [.streamErr status]) side' →
      f ∈ c.data side' ∨ f = .streamErr status := by
    intro side' f hf
    rw [update_apply] at hf
    split at hf
    · next hs => exact hs ▸ (List.mem_append.mp hf).imp_right List.mem_singleton.mp
    · exact .inl hf
  have herrs : ∀ side', Errs (c.data side') →
      Errs (update c.data side (c.data side ++ [.streamErr status]) side') := fun side' he f hf =>
    (hmem hf).elim (he f) fun hnew => ⟨status, hnew⟩
  have hpast : ∀ X, Past X (c.data .client) →
      Past X (update c.data side (c.data side ++ [.streamErr status]) .client) := fun X hp =>
    ⟨hp.publish, hp.send, fun credits payload hf => (hmem hf).elim (hp.none credits payload) nofun⟩
  cases h with
  | fresh hn ht hd hl => exact .fresh hn ht (fun side' => herrs side' (hd side')) hl
  | opening X hc hn ht hshape hpos hle he hl hj =>
    exact .opening X hc hn ht hshape hpos hle (herrs .server he) hl (hj.err side status)
  | joined S hS ht hj hp => exact .joined S hS ht (hj.err side status) (hpast _ hp)
  | refused X hc hn ht hsound he hl hf hp => exact .refused X hc hn ht hsound (herrs .server he) hl hf (hpast X hp)

end CallInv

/-! ### Beginnings -/

theorem arriveAll_errs {p : ChunkPolicy} {st : Option Received} (h : Errs frames) : arriveAll p opening init st frames = some st := by
  induction frames with
  | nil => rfl
  | cons f frames ih =>
    obtain ⟨status, rfl⟩ := h f (by simp)
    rw [← List.singleton_append, arriveAll_append (arriveAll_err status)]
    exact ih fun g hg => h g (by simp [hg])

theorem countP_errs (h : Errs frames) : frames.countP StreamFrame.isMsg = 0 := by
  refine List.countP_eq_zero.mpr fun f hf => ?_
  obtain ⟨status, rfl⟩ := h f hf
  simp [StreamFrame.isMsg]

theorem newStream_sound (side : StreamSide) (scfg : StreamConfig) (q : ChunkPolicy) : (newStream side scfg).Sound q := by
  refine ⟨⟨by simp [newStream], by simp [newStream], ?_⟩, ⟨by simp [newStream], fun _ => rfl, ?_, ?_, ?_⟩,
    ⟨.inl rfl, by simp [newStream], by simp [newStream], by simp [newStream], by simp [newStream]⟩, rfl⟩
  · unfold SenderAt
    simp only [newStream]
    split <;> simp_all
  · simp only [newStream]
    split <;> simp_all
  · simp only [newStream]
    split <;> simp
  · exact Nat.le_refl 0

theorem acceptedStream_sound (credits : Nat) (shape : StreamShape) (payload : Bytes) (q : ChunkPolicy) :
    (Table.acceptedStream credits shape payload).Sound q := by
  have h := newStream_sound .server ⟨credits, shape, if shape = .serverStreaming then payload else []⟩ q
  refine ⟨⟨by simp [Table.acceptedStream], h.send.closed, h.send.pos.imp rfl rfl rfl rfl ?_⟩,
    ⟨by simp [Table.acceptedStream], h.recv.accum, h.recv.queue, h.recv.fits, h.recv.ack⟩,
    ⟨.inl rfl, fun _ => h.tear.live rfl, h.tear.winner, h.tear.left, h.tear.owed⟩, rfl⟩
  simp [terminalErr, newStream]

theorem opened_accepter (X : Stream) : (accepter X).received.got = X.openHanded := by
  simp only [accepter, Table.acceptedStream, newStream, received, openHanded]
  by_cases hs : X.shape = .serverStreaming <;> simp [hs]

theorem joined_new (hdata : ∀ side, Errs (c.data side)) (hlife : ∀ side, c.life side = [])
    (scfg : StreamConfig) (hpos : 0 < scfg.credits) :
    Joined lax pol (pair (newStream .client scfg) (accepter (newStream .client scfg))) false c.data c.life := by
  have hne : scfg.credits ≠ 0 := Nat.pos_iff_ne_zero.mp hpos
  refine ⟨fun side => ?_, fun side => ?_, fun side => by rw [hlife]; simp, fun _ => ⟨_, _, _, rfl⟩⟩
  · cases side with
    | client => exact newStream_sound _ _ _
    | server => exact acceptedStream_sound _ _ _ _
  · rw [hlife]
    cases side with
    | client =>
      refine ⟨fun _ => ⟨none, arriveAll_errs (hdata _), rfl, by simp [pair, newStream], by simp [pair, newStream], ?_, rfl,
        opened_accepter _⟩, ?_, Nat.zero_le _, by simp, ?_, ?_⟩
      · simp [pair, newStream, Next, received, accepter, Table.acceptedStream, StreamSide.peer]
      · simp [pair, newStream, accepter, Table.acceptedStream, StreamSide.peer, newCreditCounter, StreamConfig.grant, hne]
      · simp [pair, newStream, newCreditCounter]
      · rw [countP_errs (hdata _)]
        simp only [pair, newStream, accepter, Table.acceptedStream, StreamSide.peer, newCreditCounter, unsent, credited]
        split <;> simp
    | server =>
      refine ⟨fun _ => ⟨some _, arriveAll_errs (hdata _), by simp [pair, accepter, Table.acceptedStream, newStream],
        by simp [pair, accepter, Table.acceptedStream, newStream], .inr ?_, .inl ?_⟩, ?_, Nat.zero_le _, by simp, ?_, ?_⟩
      · simp [pair, newStream, Next, received, accepter, Table.acceptedStream, StreamSide.peer]
      · simp [pair, newStream, received, accepter, Table.acceptedStream, StreamSide.peer]
      · simp [pair, newStream, accepter, Table.acceptedStream, StreamSide.peer, newCreditCounter, StreamConfig.grant, hne]
      · simp [pair, newStream, accepter, Table.acceptedStream, newCreditCounter]
      · rw [countP_errs (hdata _)]
        simp [pair, newStream, accepter, Table.acceptedStream, StreamSide.peer, newCreditCounter, unsent, credited]

namespace CallInv

theorem opens (h : CallInv lax pol shape c) (hn : c.stream .client = none) {scfg : StreamConfig} (hshape : scfg.shape = shape)
    (hpos : 0 < scfg.credits) (hle : scfg.credits ≤ defaultStreamCredit) :
    CallInv lax pol shape { c with stream := update c.stream .client (some (newStream .client scfg)) } := by
  have hgrant : (newStream .client scfg).sendCredit.granted = scfg.credits := by
    simp [newStream, newCreditCounter, StreamConfig.grant, Nat.pos_iff_ne_zero.mp hpos]
  cases h with
  | fresh hs ht hd hl =>
    exact .opening (newStream .client scfg) (by simp) (hs .server) ht hshape (hgrant ▸ hpos) (hgrant ▸ hle)
      (hd .server) (hl .server) (joined_new hd hl scfg hpos)
  | opening X hc => rw [hc] at hn; cases hn
  | joined S hS => rw [hS] at hn; cases hn
  | refused X hc => rw [hc] at hn; cases hn

/-! ### Deliveries -/

/-- A frame goes to the stream of a side, if it has one. -/
def dispatched (pol : Policies) (c : Call) (side : StreamSide) (f : StreamFrame) : StreamSide → Option Stream :=
  Function.update c.stream side ((c.stream side).map fun X => (X.dispatch (pol.of side) f).1)

theorem dispatched_none (h : c.stream side = none) : dispatched pol c side f = c.stream := by
  rw [dispatched, h, Option.map_none, ← h, update_eq_self]

theorem dispatched_some (h : c.stream side = some X) :
    dispatched pol c side f = update c.stream side (some (X.dispatch (pol.of side) f).1) := by
  rw [dispatched, h, Option.map_some]

/-- **A data frame delivered**, other than a `STREAM_OPEN` to the accepter. -/
theorem dataTaken (h : CallInv lax pol shape c) (hhead : c.data side.peer = f :: rest)
    (hopen : side = .server → ∀ credits payload, f ≠ .streamOpen credits payload) :
    (∀ X, c.stream side = some X → (X.dispatch (pol.of side) f).2 = true) ∧
      CallInv lax pol shape { c with stream := dispatched pol c side f, data := update c.data side.peer rest } := by
  cases h with
  | fresh hs ht hd hl =>
    rw [dispatched_none (hs side)]
    exact ⟨by simp [hs side], .fresh hs ht ((Function.forall_update_iff _ fun _ => Errs).mpr
      ⟨Errs.tail (hhead ▸ hd side.peer), fun side' _ => hd side'⟩) hl⟩
  | opening X hc hn ht hshape hpos hle he hl hj =>
    cases side with
    | client =>
      obtain ⟨hok, hj'⟩ := hj.dataTaken (show c.data StreamSide.client.peer = _ from hhead) (.inl rfl)
      have hfix := fixed_dispatch X (pol.of .client) f
      refine ⟨fun X' hX' => Option.some.inj (hc.symm.trans hX') ▸ hok, ?_⟩
      rw [dispatched_some hc]
      rw [update_pair] at hj'
      change Joined lax pol (pair (X.dispatch (pol.of .client) f).1 (accepter X)) false _ _ at hj'
      rw [← hfix.accepter] at hj'
      exact .opening (X.dispatch (pol.of .client) f).1 (by simp) hn ht (hfix.shape.trans hshape) (hfix.granted ▸ hpos)
        (hfix.granted ▸ hle) (Errs.tail (hhead ▸ he)) hl hj'
    | server =>
      -- Nothing of the call is at the accepter yet: the frame is a `STREAM_ERR`.
      rw [dispatched_none hn]
      refine ⟨by simp [hn], ?_⟩
      have hflow : Flow lax _ X (accepter X) false (f :: rest) _ := hhead ▸ hj.flow .client
      rcases hflow.unopened rfl with ⟨-, hflow'⟩ | ⟨heq, -⟩
      · refine .opening X hc hn ht hshape hpos hle he hl ⟨hj.sound, fun side' => ?_, hj.life, hj.fresh⟩
        cases side' with
        | client => exact hflow'
        | server => exact hj.flow .server
      · exact absurd heq (hopen rfl _ _)
  | joined S hS ht hj hp =>
    obtain ⟨hok, hj'⟩ := hj.dataTaken hhead (.inr rfl)
    rw [dispatched_some (hS side)]
    refine ⟨fun X hX => Option.some.inj ((hS side).symm.trans hX) ▸ hok, .joined _ (update_stream hS) ht hj' ?_⟩
    cases side with
    | client => exact hp.dispatch _ f
    | server => exact Past.tail (hhead ▸ hp)
  | refused X hc hn ht hsound he hl hframes hp =>
    cases side with
    | client =>
      obtain ⟨status, rfl⟩ := he f (by rw [show c.data .server = f :: rest from hhead]; simp)
      refine ⟨fun X' hX' => ?_, ?_⟩
      · rw [hc] at hX'
        cases hX'
        unfold Stream.dispatch
        split <;> rfl
      · rw [dispatched_some hc]
        exact .refused (X.dispatch (pol.of .client) (.streamErr status)).1 (by simp) hn ht (hsound.dispatch _ _)
          (Errs.tail (hhead ▸ he)) hl hframes (hp.dispatch _ _)
    | server =>
      rw [dispatched_none hn]
      exact ⟨by simp [hn], .refused X hc hn ht hsound he hl hframes (Past.tail (hhead ▸ hp))⟩

/-- **A lifecycle frame delivered.** -/
theorem lifeTaken (h : CallInv lax pol shape c) (hhead : c.life side.peer = f :: rest) :
    (∀ X, c.stream side = some X → (X.dispatch (pol.of side) f).2 = true) ∧
      CallInv lax pol shape { c with stream := dispatched pol c side f, life := update c.life side.peer rest } := by
  cases h with
  | fresh hs ht hd hl => simp [hl side.peer] at hhead
  | opening X hc hn ht hshape hpos hle he hl hj =>
    cases side with
    | client => simp [show c.life .server = f :: rest from hhead] at hl
    | server =>
      -- A `CANCEL` that overtook the `STREAM_OPEN` is discarded.
      have hhead : c.life .client = f :: rest := hhead
      rw [dispatched_none hn]
      refine ⟨by simp [hn], .opening X hc hn ht hshape hpos hle he hl ⟨hj.sound, fun side' => ?_, fun side' => ?_, hj.fresh⟩⟩
      · cases side' with
        | client => exact hj.flow .client
        | server =>
          have hflow := hj.flow .server
          rw [show c.life StreamSide.server.peer = f :: rest from hhead] at hflow
          exact hflow.acksSublist ((List.sublist_cons_self f rest).filterMap ackOf)
      · cases side' with
        | client => exact fun g hg => hj.life .client g (by rw [hhead]; exact .tail _ hg)
        | server => exact hj.life .server
  | joined S hS ht hj hp =>
    obtain ⟨hok, hj'⟩ := hj.lifeTaken hhead (.inr rfl)
    rw [dispatched_some (hS side)]
    refine ⟨fun X hX => Option.some.inj ((hS side).symm.trans hX) ▸ hok, .joined _ (update_stream hS) ht hj' ?_⟩
    cases side with
    | client => exact hp.dispatch _ f
    | server => exact hp
  | refused X hc hn ht hsound he hl hframes hp =>
    cases side with
    | client => simp [show c.life .server = f :: rest from hhead] at hl
    | server =>
      rw [dispatched_none hn]
      refine ⟨by simp [hn], .refused X hc hn ht hsound he hl ?_ hp⟩
      exact fun g hg => hframes g (by rw [show c.life .client = f :: rest from hhead]; exact .tail _ hg)

theorem lifeFrame (h : CallInv lax pol shape c) (hf : f ∈ c.life side) : LifeFrame f := by
  cases h with
  | fresh _ _ _ hl => simp [hl side] at hf
  | opening _ _ _ _ _ _ _ _ _ hj => exact hj.life side f hf
  | joined _ _ _ hj => exact hj.life side f hf
  | refused _ _ _ _ _ _ hl hframes =>
    cases side with
    | client => exact hframes f hf
    | server => simp [hl] at hf

/-- **The `STREAM_OPEN` delivered**: it is the first of its call, and the accepter's stream
or refusal follows. -/
theorem openTaken {credits : Nat} {payload : Bytes} (h : CallInv lax pol shape c)
    (hhead : c.data .client = .streamOpen credits payload :: rest) :
    c.stream .server = none ∧ c.taken = false ∧ 0 < credits ∧ credits ≤ defaultStreamCredit ∧
    CallInv lax pol shape { c with
      stream := update c.stream .server (some (Table.acceptedStream credits shape payload)), taken := true
      data := update c.data .client rest } ∧
    CallInv lax pol shape { c with taken := true, data := update c.data .client rest } := by
  cases h with
  | fresh hs ht hd hl =>
    obtain ⟨status, h⟩ := hd .client (.streamOpen credits payload) (by rw [hhead]; simp)
    cases h
  | opening X hc hn ht hshape hpos hle he hl hj =>
    have hflow : Flow lax _ X (accepter X) false (.streamOpen credits payload :: rest) _ := hhead ▸ hj.flow .client
    rcases hflow.unopened rfl with ⟨⟨status, h⟩, -⟩ | ⟨heq, hflow', hno, hpub, hsend⟩
    · cases h
    · have hpast : Past X rest := ⟨hpub, hsend, hno⟩
      obtain ⟨rfl, rfl⟩ : credits = X.sendCredit.granted ∧
          payload = if X.shape = .serverStreaming then X.openPayload else [] := by
        simpa [Stream.openFrame] using heq
      refine ⟨hn, ht, hpos, hle, ?_, ?_⟩
      · refine .joined (pair X (accepter X)) (fun side => ?_) rfl ⟨hj.sound, fun side => ?_, hj.life, (by simp)⟩ ?_
        · cases side with
          | client => simpa [pair] using hc
          | server => simp [pair, accepter, hshape]
        · cases side with
          | client => exact hflow'
          | server => exact hj.flow .server
        · simpa [pair] using hpast
      · exact .refused X hc hn rfl (hj.sound .client) he hl (hj.life .client) (by simpa using hpast)
  | joined _ _ _ _ hp | refused _ _ _ _ _ _ _ _ hp => exact absurd (by rw [hhead]; simp) (hp.none credits payload)

end CallInv

/-- **What the lane between two streams still brings**: all that was handed over, or all but an empty response. -/
theorem CallInv.carried {Y : Stream} (h : CallInv lax pol shape c) (hX : c.stream side = some X)
    (hY : c.stream side.peer = some Y) (hterm : Y.terminalErr = false) :
    ∃ r, arriveAll (pol.of side.peer) X.openFrame Y.received (some Y.received) (c.data side) = some (some r) ∧
      X.Carried lax r := by
  have hserver : c.stream .server ≠ none := by
    cases side with
    | client => exact fun hn => by rw [show c.stream .server = some Y from hY] at hn; cases hn
    | server => exact fun hn => by rw [hX] at hn; cases hn
  cases h with
  | fresh hn => exact absurd (hn .server) hserver
  | opening _ _ hn | refused _ _ hn => exact absurd hn hserver
  | joined S hS _ hj =>
    obtain rfl : S side = X := Option.some.inj ((hS side).symm.trans hX)
    obtain rfl : S side.peer = Y := Option.some.inj ((hS side.peer).symm.trans hY)
    obtain ⟨st, hst, hsends⟩ := (hj.flow side).wire hterm
    rw [Bool.or_true, if_pos rfl] at hst
    obtain ⟨⟨r, rfl⟩, -⟩ := arriveAll_some hst
    exact ⟨r, hst, hsends.2.2.2⟩

/-! ## The steps of a call -/

variable {c' : Call}

/-- What a step of the link is to one call; the label is an act of one of its streams. -/
inductive CallStep (pol : Policies) (shape : StreamShape) (c : Call) : Option (StreamSide × Stream.Act) → Call → Prop
  | same : CallStep pol shape c none c
  | step {X X' : Stream} {e : Env} {a : Stream.Act} {effects : List Effect} (side : StreamSide) :
    c.stream side = some X → X.step e a = some (X', effects) → e.policy = pol.of side →
    a ≠ .sender (.transmit .connErr) →
    CallStep pol shape c (some (side, a)) { c with
      stream := Function.update c.stream side (some X')
      data := Function.update c.data side (c.data side ++ effects.filterMap Effect.dataFrame)
      life := Function.update c.life side (c.life side ++ effects.filterMap Effect.lifeFrame) }
  | arm {X : Stream} (side : StreamSide) : c.stream side = some X →
    CallStep pol shape c none { c with stream := Function.update c.stream side (some X.arm.1) }
  | err (side : StreamSide) (status : FrameStatus) :
    CallStep pol shape c none { c with data := Function.update c.data side (c.data side ++ [.streamErr status]) }
  | opens (scfg : StreamConfig) : c.stream .client = none → scfg.shape = shape → 0 < scfg.credits →
    scfg.credits ≤ defaultStreamCredit →
    CallStep pol shape c none { c with stream := Function.update c.stream .client (some (newStream .client scfg)) }
  | accepts {credits : Nat} {payload : Bytes} {rest : List StreamFrame} : c.data .client = .streamOpen credits payload :: rest →
    CallStep pol shape c none { c with
      stream := Function.update c.stream .server (some (Table.acceptedStream credits shape payload)), taken := true
      data := Function.update c.data .client rest }
  | refuses {credits : Nat} {payload : Bytes} {rest : List StreamFrame} : c.data .client = .streamOpen credits payload :: rest →
    CallStep pol shape c none { c with taken := true, data := Function.update c.data .client rest }
  | dataTaken {f : StreamFrame} {rest : List StreamFrame} (side : StreamSide) : c.data side.peer = f :: rest →
    (side = .server → ∀ credits payload, f ≠ .streamOpen credits payload) →
    CallStep pol shape c none { c with
      stream := CallInv.dispatched pol c side f, data := Function.update c.data side.peer rest }
  | lifeTaken {f : StreamFrame} {rest : List StreamFrame} (side : StreamSide) : c.life side.peer = f :: rest →
    CallStep pol shape c none { c with
      stream := CallInv.dispatched pol c side f, life := Function.update c.life side.peer rest }

/-- **A rule for what holds of each stream**: a new stream has it, and a stream's own steps, arming and the frames that
come for it keep it. -/
theorem CallStep.each {P : Stream → Prop} (hs : CallStep pol shape c lbl c')
    (h : ∀ side X, c.stream side = some X → P X) (hnew : ∀ scfg, P (newStream .client scfg))
    (haccepted : ∀ credits shape payload, P (Table.acceptedStream credits shape payload))
    (hstep : ∀ side X X' e a effects, lbl = some (side, a) → c.stream side = some X → X.step e a = some (X', effects) → P X')
    (harm : ∀ X, P X → P X.arm.1) (hdispatch : ∀ X p f, P X → P (X.dispatch p f).1) :
    ∀ side X, c'.stream side = some X → P X := by
  -- One side's stream is replaced by one with the property.
  have hput : ∀ (side' : StreamSide) (Z : Stream), P Z →
      ∀ side X, update c.stream side' (some Z) side = some X → P X := by
    intro side' Z hZ side X hX
    rcases Machine.update_eq_some hX with ⟨-, rfl⟩ | ⟨-, hX⟩
    · exact hZ
    · exact h side X hX
  have hframe : ∀ (side' : StreamSide) (f : StreamFrame),
      ∀ side X, CallInv.dispatched pol c side' f side = some X → P X := by
    intro side' f
    cases hX' : c.stream side' with
    | none =>
      rw [CallInv.dispatched_none hX']
      exact h
    | some X' =>
      rw [CallInv.dispatched_some hX']
      exact hput side' _ (hdispatch X' _ f (h side' X' hX'))
  cases hs with
  | same => exact h
  | step side' hX' hs _ _ => exact hput side' _ (hstep side' _ _ _ _ _ rfl hX' hs)
  | arm side' hX' => exact hput side' _ (harm _ (h side' _ hX'))
  | err => exact h
  | opens scfg => exact hput .client _ (hnew scfg)
  | accepts => exact hput .server _ (haccepted _ _ _)
  | refuses => exact h
  | dataTaken side' => exact hframe side' _
  | lifeTaken side' => exact hframe side' _

/-- **The call keeps its condition**, whatever the link does, while no empty response is sent or `lax`. -/
theorem CallInv.next (h : CallInv lax pol shape c)
    (ha : ∀ side X, c.stream side = some X → X.Answers lax) (hs : CallStep pol shape c lbl c') : CallInv lax pol shape c' := by
  cases hs with
  | same => exact h
  | step side hX hs he hne => exact h.step hX hs he hne (ha side _ hX)
  | arm side hX => exact h.arm hX rfl
  | err side status => exact h.err side status
  | opens scfg hn hshape hpos hle => exact h.opens hn hshape hpos hle
  | accepts hhead => exact (h.openTaken hhead).2.2.2.2.1
  | refuses hhead => exact (h.openTaken hhead).2.2.2.2.2
  | dataTaken side hhead hopen => exact (h.dataTaken hhead hopen).2
  | lifeTaken side hhead => exact (h.lifeTaken hhead).2

end Styx
