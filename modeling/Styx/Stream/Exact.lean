/-
A stream that ends well has delivered what it was given: the payloads `RecvMsg` returned
before `io.EOF` are those the other side handed over, in order.

The responses are to have bytes. The receiver decides by a `STREAM_CLOSE`'s length
whether it carries a message, so a client-streaming method's empty response leaves its
`CloseAndRecv` with `io.EOF`.
-/
import Styx.Stream.Link
import Styx.Stream.Outcome

namespace Styx

open Machine

namespace Stream

variable {e : Env} {X X' : Stream} {effects : List Effect} {a : Act}

/-! ## The receiver -/

/-- `io.EOF` is told at the end of the queue, and of the direction. -/
structure Ended (X : Stream) : Prop where
  closed : X.recvClosed = true → X.closeRemote = true
  eof : X.eof = true → X.recvCh = [] ∧ X.closeRemote = true

theorem Ended.congr (h : X.Ended) (hi : X'.inbox = X.inbox) (heof : X'.eof = X.eof) : X'.Ended := by
  simp only [inbox, Prod.mk.injEq] at hi
  obtain ⟨hq, -, -, hcr, hrc⟩ := hi
  exact ⟨hrc ▸ hcr ▸ h.closed, heof ▸ hq ▸ hcr ▸ h.eof⟩

theorem Ended.arm (h : X.Ended) : X.arm.1.Ended := by
  obtain ⟨⟨_, heq⟩, -⟩ := arm_frame (show X.arm = (X.arm.1, X.arm.2) from rfl)
  rw [heq]
  exact h.congr rfl rfl

theorem Ended.dispatch (h : X.Ended) (p : ChunkPolicy) (f : StreamFrame) : (X.dispatch p f).1.Ended := by
  have ha : Arrives X (X.dispatch p f).1 := dispatch_arrives p f
  obtain ⟨_, _, _, _, _, _, -, hends⟩ := dispatch_frame X p f
  have heof : (X.dispatch p f).1.eof = X.eof := by
    obtain ⟨_, _, _, _, _, heq⟩ := hends.frame
    rw [heq]
  refine ⟨fun hc => (ha.eof hc).elim (fun hc => ha.closes (h.closed hc)) id, fun hc => ?_⟩
  obtain ⟨hq, hcr⟩ := h.eof (heof ▸ hc)
  refine ⟨?_, ha.closes hcr⟩
  rcases ha.queue with hqueue | ⟨hopen, -⟩
  · rw [hqueue, hq]
  · rw [hcr] at hopen
    cases hopen

theorem Ended.receiverStep {a : RecvAct} (h : X.Ended) (hr : X.RecvSound) (hs : X.receiverStep e a = some (X', effects)) :
    X'.Ended := by
  cases receiverStep_move hs with
  | pop hq =>
    refine ⟨h.closed, fun heof => ?_⟩
    obtain ⟨hnil, -⟩ := h.eof heof
    rw [hq] at hnil
    cases hnil
  | deliver | arm => exact h.congr rfl rfl
  | eof hq hend =>
    refine ⟨h.closed, fun _ => ⟨hq, ?_⟩⟩
    rcases hend with hc | hcomp
    · exact h.closed hc
    · exact hr.completed hcomp

theorem Ended.step (h : X.Ended) (hr : X.RecvSound) (hs : X.step e a = some (X', effects)) : X'.Ended := by
  cases a with
  | receiver a => exact h.receiverStep hr hs
  | opener a =>
    refine h.congr (step_inbox hs (by simp)) ?_
    obtain ⟨s₁, _, _, _, _, _, he, -, -, rfl⟩ := openerStep_frame hs
    obtain ⟨_, _, _, _, _, rfl⟩ := he.frame
    rfl
  | sender a =>
    refine h.congr (step_inbox hs (by simp)) ?_
    obtain ⟨s₁, _, _, _, _, _, _, _, he, rfl⟩ := senderStep_frame hs
    obtain ⟨_, _, _, _, _, rfl⟩ := he.frame
    rfl
  | acker a =>
    obtain ⟨_, _, _, _, _, _, rfl⟩ := ackStep_frame hs
    exact h.congr rfl rfl
  | finisher a =>
    obtain ⟨_, _, _, _, rfl⟩ := finishStep_frame hs
    exact h.congr rfl rfl
  | ending a =>
    have he := (endStep_ends hs).1
    refine h.congr he.inbox ?_
    obtain ⟨_, _, _, _, _, rfl⟩ := he.frame
    rfl

/-! ## The response -/

/-- A client-streaming method's server that has closed has handed its response over. -/
def Responded (X : Stream) : Prop :=
  X.responds = true → X.closeLocal = true ∨ X.sender = .committing → X.handed ≠ []

theorem Responded.congr (h : X.Responded) (hr : X'.responds = X.responds) (hc : X'.closeLocal = X.closeLocal)
    (hpc : X'.sender = .committing → X.sender = .committing) (hh : ∃ more, X'.handed = X.handed ++ more) :
    X'.Responded := by
  obtain ⟨more, hh⟩ := hh
  intro hresp hclosed
  rw [hh]
  exact List.append_ne_nil_of_left_ne_nil (h (hr ▸ hresp) (hc ▸ hclosed.imp_right hpc)) _

theorem Responded.ends (h : X.Responded) (he : Ends X X') : X'.Responded := by
  obtain ⟨_, _, _, _, _, rfl⟩ := he.frame
  exact h

theorem Responded.arm (h : X.Responded) : X.arm.1.Responded := by
  obtain ⟨⟨_, heq⟩, -⟩ := arm_frame (show X.arm = (X.arm.1, X.arm.2) from rfl)
  rw [heq]
  exact h

theorem Responded.dispatch (h : X.Responded) (p : ChunkPolicy) (f : StreamFrame) : (X.dispatch p f).1.Responded := by
  obtain ⟨_, _, _, _, _, _, -, hends⟩ := dispatch_frame X p f
  refine Responded.ends ?_ hends
  exact h

theorem Responded.senderStep {a : SendAct} (h : X.Responded) (hs : X.senderStep e a = some (X', effects)) :
    X'.Responded := by
  have hsame : ∀ {Z : Stream}, Z.handed = X.handed → ∃ more, Z.handed = X.handed ++ more :=
    fun hh => ⟨[], hh.trans (List.append_nil _).symm⟩
  cases senderStep_move hs with
  | admitted _ _ hpc =>
    rcases hpc with rfl | ⟨rfl, -⟩ <;> exact h.congr rfl rfl (by simp) (hsame rfl)
  | sent _ hlane | fragmentEnd _ hlane => cases hlane <;> exact h.congr rfl rfl (by simp) ⟨_, rfl⟩
  | retry => exact h
  | unsent _ ha =>
    rcases ha with ⟨-, rfl⟩ | ⟨deadline, rfl⟩ <;> exact h.congr rfl rfl (by simp) (hsame rfl)
  | closeSent =>
    -- The response is handed over whatever its length.
    intro hresp _
    have hresp : X.responds = true := hresp
    simp [closeHanded, hresp]
  | closeCtx => exact h.congr rfl rfl (by simp) ⟨_, rfl⟩
  | closeUnsent _ ha =>
    rcases ha with ⟨rfl, -⟩ | ⟨⟨deadline, rfl⟩, -⟩ | ⟨-, rfl, -⟩ <;>
      exact h.congr rfl rfl (by simp) (hsame rfl)
  | @fail deadline =>
    exact (h.ends (ends_mapCtx deadline)).congr rfl rfl (by simp) ⟨[], (List.append_nil _).symm⟩
  | commit hpc => exact fun hresp _ => h hresp (.inr hpc)
  | complete => exact (h.ends ends_completed).congr rfl rfl (by simp) ⟨[], (List.append_nil _).symm⟩
  | _ => exact h.congr rfl rfl (by simp [Stream.rollback]) (hsame rfl)

theorem openerStep_handed {a : OpenAct} (hs : X.openerStep a = some (X', effects)) : ∃ more, X'.handed = X.handed ++ more := by
  have hsame : ∀ {handed : List Bytes}, handed = X.handed → ∃ more, handed = X.handed ++ more :=
    fun hh => ⟨[], hh.trans (List.append_nil _).symm⟩
  cases openerStep_move hs with
  | sent | sentCtx => exact ⟨_, rfl⟩
  | ambiguous => exact hsame (sameSend_ends (ends_mapCtx _)).hands.2.2.2
  | discard => exact hsame (sameSend_ends (ends_terminate .crashed (by simp))).hands.2.2.2
  | _ => exact hsame rfl

theorem Responded.step (h : X.Responded) (hs : X.step e a = some (X', effects)) : X'.Responded := by
  cases a with
  | sender a => exact h.senderStep hs
  | opener a =>
    have hmore := openerStep_handed hs
    obtain ⟨s₁, _, _, _, _, _, he, -, -, rfl⟩ := openerStep_frame hs
    obtain ⟨_, _, _, _, _, rfl⟩ := he.frame
    exact h.congr rfl rfl id hmore
  | receiver a =>
    obtain ⟨⟨_, _, _, _, _, _, _, rfl⟩, -⟩ := receiverStep_frame hs
    exact h
  | acker a =>
    obtain ⟨_, _, _, _, _, _, rfl⟩ := ackStep_frame hs
    exact h
  | finisher a =>
    obtain ⟨_, _, _, _, rfl⟩ := finishStep_frame hs
    exact h
  | ending a => exact h.ends (endStep_ends hs).1

end Stream

/-! ## Whole streams -/

namespace Link

variable {cfg : LinkConfig} {l l' : Link}

/-- What each stream of the link has by itself. -/
structure EndsWell (cfg : LinkConfig) (l : Link) : Prop where
  inv : Inv false cfg l
  ended : ∀ id side X, (l.call id).stream side = some X → X.Ended
  responded : ∀ id side X, (l.call id).stream side = some X → X.Responded

theorem endsWell_start (cfg : LinkConfig) : EndsWell cfg start :=
  ⟨inv_start cfg, fun _ _ _ hX => (by cases hX), fun _ _ _ hX => (by cases hX)⟩

theorem EndsWell.step {a : Act} (h : EndsWell cfg l) (hrel : Reliable l a) (hresp : Responding false l a)
    (hs : l.step cfg a = some l') : EndsWell cfg l' := by
  have hcall := (h.inv.moves hrel hs).call
  refine ⟨h.inv.step hrel hresp hs, fun id => ?_, fun id => ?_⟩
  · refine (hcall id).each (h.ended id) (fun scfg => ⟨?_, by simp [newStream]⟩) (fun credits shape payload => ⟨?_, by simp [Table.acceptedStream, newStream]⟩) ?_
      (fun X hX => hX.arm) fun X p f hX => hX.dispatch p f
    · simp [newStream]
    · simp [Table.acceptedStream, newStream]
    · intro side X X' e a effects _ hX hstep
      exact (h.ended id side X hX).step ((h.inv.call id).sound hX).recv hstep
  · refine (hcall id).each (h.responded id) (fun scfg => ?_) (fun credits shape payload => ?_) ?_
      (fun X hX => hX.arm) fun X p f hX => hX.dispatch p f
    · intro hresp
      simp [Stream.responds, newStream] at hresp
    · intro _ hclosed
      simp [Table.acceptedStream, newStream] at hclosed
    · intro side X X' e a effects _ hX hstep
      exact (h.responded id side X hX).step hstep

theorem endsWell_reach (cfg : LinkConfig) (h : Reach (step cfg) (fun l a => Reliable l a ∧ Responding false l a) start l) :
    EndsWell cfg l :=
  h.invariant (endsWell_start cfg) fun h hg hs => h.step hg.1 hg.2 hs

/-- **A half-closed direction has brought what was handed over.** -/
theorem EndsWell.exact {side : StreamSide} {id : UInt64} {X Y : Stream} (h : EndsWell cfg l)
    (hX : (l.table side).streams id = some X) (hY : (l.table side.peer).streams id = some Y)
    (hterm : Y.terminalErr = false) (hclosed : Y.closeRemote = true) :
    Y.delivered ++ Y.recvCh.map RecvItem.payload = X.handed := by
  obtain ⟨r, hst, hcar⟩ := (h.inv.call id).carried (show (l.call id).stream side = some X from hX) hY hterm
  -- Nothing on the lane adds to a direction seen closed.
  cases arriveAll_closed hclosed hst
  exact hcar.resolve_right (by simp)

end Link

/-- **A stream delivers exactly what was sent.** When neither response is empty, `io.EOF` comes after the payloads the
other side handed over, and a stream that has completed has them all; a client-streaming method's response is one. -/
theorem streams_exact (cfg : LinkConfig) (l : Link) (side : StreamSide) (id : UInt64) (X Y : Stream)
    (h : Reach (Link.step cfg) (fun l a => Link.Reliable l a ∧ Link.Responding false l a) Link.start l)
    (hX : (l.table side).streams id = some X) (hY : (l.table side.peer).streams id = some Y) :
    (Y.terminalErr = false → Y.eof = true → Y.delivered = X.handed) ∧
    (Y.phase = .term .completed → Y.delivered ++ Y.recvCh.map RecvItem.payload = X.handed) ∧
    (X.phase = .term .completed → Y.phase = .term .completed → X.responds = true → Y.eof = true → Y.delivered ≠ []) := by
  have hinv := Link.endsWell_reach cfg h
  have hended := hinv.ended id side.peer Y hY
  have heof : Y.terminalErr = false → Y.eof = true → Y.delivered = X.handed := by
    intro hterm heof
    obtain ⟨hq, hclosed⟩ := hended.eof heof
    have hexact := hinv.exact hX hY hterm hclosed
    rwa [hq, List.map_nil, List.append_nil] at hexact
  have hcompleted : Y.phase = .term .completed → Y.terminalErr = false := fun hc => by simp [Stream.terminalErr, hc]
  refine ⟨heof, fun hc => ?_, fun hXc hYc hresp he => ?_⟩
  · exact hinv.exact hX hY (hcompleted hc) (((hinv.inv.call id).sound hY).recv.completed hc)
  · rw [heof (hcompleted hYc) he]
    have hclosed : X.closeLocal = true := ((hinv.inv.call id).sound hX).send.completed hXc
    exact hinv.responded id side X hX hresp (.inl hclosed)

def respondedConfig : LinkConfig := { Link.sampleConfig with method := fun _ => .clientStreaming }

/-- A client-streaming call: an empty message, the client's half-close, and then the server's response. -/
def respondedRun (response : Bytes) : List Link.Act :=
  [.run .client (.openClient 7 ⟨1, .clientStreaming, []⟩ 1000), .run .client (.stream 7 (.opener .publish)),
    .run .client (.stream 7 (.opener (.send .accepted false))), .deliver .server .data true 1000,
    .run .client (.stream 7 (.opener .confirm)),
    .run .client (.stream 7 (.sender (.sendMsg []))), .run .client (.stream 7 (.sender .reserve)),
    .run .client (.stream 7 (.sender (.transmit .accepted))), .deliver .server .data true 0,
    .run .client (.stream 7 (.sender (.closeSend []))), .run .client (.stream 7 (.sender (.transmit .accepted))),
    .run .client (.stream 7 (.sender .commit)), .run .client (.stream 7 (.sender .discharge)),
    .run .client (.stream 7 (.sender .complete)), .deliver .server .data true 0,
    .run .server (.stream 7 (.receiver .pop)), .run .server (.stream 7 (.receiver .eof)),
    .run .server (.stream 7 (.sender (.closeSend response))), .run .server (.stream 7 (.sender (.transmit .accepted))),
    .run .server (.stream 7 (.sender .commit)), .run .server (.stream 7 (.sender .discharge)),
    .run .server (.stream 7 (.sender .complete)), .deliver .client .data true 0]

def responded : Link :=
  (run (guarded (Link.step respondedConfig) fun l a => Link.Reliable l a ∧ Link.Responding false l a) Link.start
    (respondedRun [9] ++ [.run .client (.stream 7 (.receiver .pop)), .run .client (.stream 7 (.receiver .eof))])).get
    (by decide +kernel)

def respondedServer : Stream := ((responded.table .server).streams 7).get (by decide +kernel)

def respondedClient : Stream := ((responded.table .client).streams 7).get (by decide +kernel)

theorem streams_exact_responded : respondedServer.handed = [[9]] ∧ respondedClient.delivered = [[9]] ∧
    respondedClient.eof = true := by
  have heof : respondedClient.eof = true := by decide +kernel
  have hexact := streams_exact respondedConfig responded .server 7 respondedServer respondedClient
    (.of_guarded (Option.some_get _).symm) (Option.some_get _).symm (Option.some_get _).symm
  have hhanded : respondedServer.handed = [[9]] := by decide +kernel
  exact ⟨hhanded, (hexact.1 (by decide +kernel) heof).trans hhanded, heof⟩

/-- `io.EOF` in place of an empty response. -/
theorem streams_exact_empty_response :
    let l := (run (guarded (Link.step respondedConfig) Link.Reliable) Link.start
      (respondedRun [] ++ [.run .client (.stream 7 (.receiver .eof))])).get (by decide +kernel)
    Reach (Link.step respondedConfig) Link.Reliable Link.start l ∧
    ∃ X Y, (l.table .server).streams 7 = some X ∧ (l.table .client).streams 7 = some Y ∧
      X.phase = .term .completed ∧ Y.phase = .term .completed ∧ X.responds = true ∧ X.handed = [[]] ∧
      Y.eof = true ∧ Y.delivered = [] ∧ Y.recvCh = [] :=
  ⟨.of_guarded (Option.some_get _).symm, _, _, (Option.some_get (by decide +kernel)).symm,
    (Option.some_get (by decide +kernel)).symm, by decide +kernel⟩

end Styx
