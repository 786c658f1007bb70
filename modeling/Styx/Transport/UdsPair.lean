/-
Two socket transports at the ends of one connection: what is sent arrives, frame by
frame, however the kernel cuts the bytes.

A sender's bytes are its frames, whole but for the last; a receiver takes one whole
frame at a time from the front of what has arrived. So the two never disagree on where
a frame begins, and a receiver that has read everything has returned everything.
-/
import Styx.Transport.Uds

namespace Styx

open Machine Words

/-! ## A frame reads back -/

/-- A frame as its type has it: a 64-bit budget, a status for the kinds that carry one and a payload for the others, and
a control word only where the header has room for it. -/
structure Frame.Proper (c : UDSConfig) (f : Frame) : Prop where
  budget : IsInt64 f.budget
  status : if carriesStatusBody f.kind then f.payload = [] ∧ f.status ≠ none else f.status = none
  control : c.streaming = false → f.control = 0

namespace UDSTransport

section Codec

variable {c : UDSConfig} {f : Frame} {n : Nat}

theorem length_encodeHeader : (encodeHeader f n c.streaming).length = c.headerLen := by
  unfold encodeHeader UDSConfig.headerLen
  split <;> simp [headerSize, controlWordSize]

theorem encodeFrame_ne_nil : encodeFrame c f ≠ [] := by
  simp [encodeFrame, encodeHeader_ne_nil]

theorem decodeHeader_encodeHeader (hp : f.Proper c) (hk : f.kind.implemented = true) (hn : n < 2 ^ 32) :
    decodeHeader (encodeHeader f n c.streaming) c.streaming = ({ f with payload := [], status := none }, n) := by
  have h4 : getBE (putBE 4 n) = n := getBE_putBE (by omega)
  have h8 : ∀ v : UInt64, UInt64.ofNat (getBE (putBE 8 v.toNat)) = v := by
    intro v
    rw [getBE_putBE (show v.toNat < 256 ^ 8 from v.toNat_lt)]
    simp
  have hl8 : ∀ v : UInt64, UInt64.ofNat (getLE (putLE 8 v.toNat)) = v := by
    intro v
    rw [getLE_putLE (show v.toNat < 256 ^ 8 from v.toNat_lt)]
    simp
  have hkind : UInt8.ofNat (getBE [f.kind.code]) = f.kind.code := by simp [getBE]
  have hcontrol : (if c.streaming then UInt64.ofNat (getLE (bytesAt (encodeHeader f n c.streaming) headerSize controlWordSize))
      else 0) = f.control := by
    cases hs : c.streaming with
    | true => exact hl8 f.control
    | false => exact (hp.control hs).symm
  -- Each field is where its offset says.
  have hfields : decodeHeader (encodeHeader f n c.streaming) c.streaming =
      ({ callID := UInt64.ofNat (getBE (putBE 8 f.callID.toNat)), kind := .ofCode (UInt8.ofNat (getBE [f.kind.code]))
         service := UInt64.ofNat (getBE (putBE 8 f.service.toNat)), method := UInt64.ofNat (getBE (putBE 8 f.method.toNat))
         budget := intOfUint64 (UInt64.ofNat (getBE (putBE 8 (uint64OfInt f.budget).toNat))), payload := [], status := none
         control := if c.streaming then UInt64.ofNat (getLE (bytesAt (encodeHeader f n c.streaming) headerSize controlWordSize))
           else 0 }, getBE (putBE 4 n)) := rfl
  rw [hfields, h4, h8, h8, h8, h8, hkind, hcontrol, FrameKind.ofCode_code hk, intOfUint64_ofInt hp.budget]

/-- **A whole frame is received as it was sent.** -/
theorem frameResult_encode (hp : f.Proper c) (hk : f.kind.implemented = true)
    (hlen : (frameBody f).length ≤ c.maxFrame.toNat) :
    frameResult c (encodeHeader f (frameBody f).length c.streaming) (frameBody f) = .frame f := by
  have h32 : (frameBody f).length < 2 ^ 32 := Nat.lt_of_le_of_lt hlen c.maxFrame.toNat_lt
  have hstatus := hp.status
  simp only [frameResult, decodeHeader_encodeHeader hp hk h32, hk, if_true, bodyResult]
  by_cases hs : carriesStatusBody f.kind = true
  · have hbody : frameBody f = encodeStatus f.status := by simp [frameBody, hs]
    rw [if_pos hs] at hstatus
    rw [hbody] at h32
    rw [if_pos hs, hbody, decodeStatus_encodeStatus h32]
    obtain ⟨st, hst⟩ := Option.ne_none_iff_exists'.mp hstatus.2
    have hsame : { f with payload := [], status := some st } = f := by
      rw [← hst]
      exact hstatus.1 ▸ rfl
    simpa [hst] using hsame
  · have hbody : frameBody f = f.payload := by simp [frameBody, hs]
    rw [if_neg hs] at hstatus
    simp [hs, hbody, ← hstatus]

end Codec

end UDSTransport

/-! ## The sender's bytes -/

def SendEntry.frame? (e : SendEntry) : Option Frame := if e.result = .ok then some e.frame else none

def RecvEntry.frame? (e : RecvEntry) : Option Frame :=
  match e.result with
  | .frame f => some f
  | _ => none

namespace UDSTransport

def sent (x : UDSTransport) : List Frame := x.sends.filterMap SendEntry.frame?

def returned (x : UDSTransport) : List Frame := x.receives.filterMap RecvEntry.frame?

section Wire

variable {c : UDSConfig} {x y : UDSTransport} {a : Act} {out future : Bytes} {frames last : List Frame} {w : Writing}

/-- A frame a `Send` of a proper frame puts on the wire. -/
structure Sendable (c : UDSConfig) (f : Frame) : Prop where
  proper : f.Proper c
  kind : f.kind.implemented = true
  limit : (frameBody f).length ≤ c.maxFrame.toNat

/-- Where the bytes written stand in the last frame begun: at its end, within it, or within it for good. -/
inductive Tail (x : UDSTransport) : List Frame → Bytes → Prop
  | clean : (∀ w ∈ x.writing, w.moved = []) → Tail x [] []
  | mid (w : Writing) : x.writing = some w → w.moved ≠ [] → Tail x [w.frame] (w.buf ++ w.body)
  | torn (f : Frame) (future : Bytes) : x.closed = true → (∀ w ∈ x.writing, w.moved = [] ∧ w.calling = false) → future ≠ [] →
    Tail x [f] future

/-- **The bytes written are frames**, up to those still missing from the last. -/
structure Wire (c : UDSConfig) (x : UDSTransport) (frames : List Frame) (future : Bytes) : Prop where
  bytes : x.written ++ future = frames.flatMap (encodeFrame c)
  split : ∃ last, frames = x.sent ++ last ∧ Tail x last future
  sendable : ∀ f ∈ frames, Sendable c f
  writing : ∀ w ∈ x.writing, Sendable c w.frame

theorem Wire.fresh : Wire c fresh [] [] :=
  ⟨rfl, ⟨[], rfl, .clean (by simp [UDSTransport.fresh])⟩, by simp, by simp [UDSTransport.fresh]⟩

theorem Wire.keeps (h : Wire c x frames future) (hw : y.written = x.written) (hs : y.sent = x.sent)
    (ht : ∀ last, Tail x last future → Tail y last future) (hsend : ∀ w ∈ y.writing, Sendable c w.frame) :
    Wire c y frames future := by
  obtain ⟨last, hlast, htail⟩ := h.split
  exact ⟨by rw [hw, h.bytes], ⟨last, by rw [hs, hlast], ht last htail⟩, h.sendable, hsend⟩

theorem sent_append {e : SendEntry} (h : e.result ≠ .ok) (hy : y.sends = x.sends ++ [e]) : y.sent = x.sent := by
  simp [sent, hy, SendEntry.frame?, h]

theorem Wire.abort {e : UDSErr} (h : Wire c x frames future) (hok : WriteOk c w) (hx : x.writing = some w) :
    Wire c (x.abortSend w e) frames future := by
  have hwritten : (x.abortSend w e).written = x.written := by simpa using (sendStep_abort (e := e) hok hx).written
  refine h.keeps hwritten (sent_append (by simp) rfl) ?_ (by simp [abortSend, endSend])
  intro last htail
  cases htail with
  | clean _ => exact .clean (by simp [abortSend, endSend])
  | mid w' hw' hmoved =>
    rw [hx] at hw'
    cases hw'
    refine .torn w.frame _ ?_ (by simp [abortSend, endSend]) (by simp [hok.left])
    simp [abortSend, endSend, abortFrame, hok.started.mpr hmoved]
  | torn f _ hcl _ hne => exact .torn f _ (by simp [abortSend, endSend, abortFrame, hcl]) (by simp [abortSend, endSend]) hne

theorem Wire.wrote {n : Nat} (h : Wire c x frames future) (hok : WriteOk c w) (hx : x.writing = some w)
    (hcall : w.calling = true) (hn : 0 < n) : ∃ added rest, Wire c (x.wrote w n) (frames ++ added) rest ∧
      w.buf.take n ++ rest = future ++ added.flatMap (encodeFrame c) := by
  have hwritten := (hok.wrote hx hn).written
  have hsendable := h.writing w hx
  obtain ⟨last, hlast, htail⟩ := h.split
  -- The frame in hand is the last one begun, or is now.
  obtain ⟨added, hframes, hbytes⟩ : ∃ added, frames ++ added = x.sent ++ [w.frame] ∧
      future ++ added.flatMap (encodeFrame c) = w.buf ++ w.body := by
    cases htail with
    | clean hmoved =>
      refine ⟨[w.frame], by rw [hlast, List.append_nil], ?_⟩
      have hwhole := hok.whole
      rw [hmoved w hx, List.nil_append] at hwhole
      simp [← hwhole]
    | mid w' hw' _ =>
      rw [hx] at hw'
      cases hw'
      exact ⟨[], by rw [hlast, List.append_nil], by simp⟩
    | torn _ _ _ hidle => rw [(hidle w hx).2] at hcall; cases hcall
  have hall : ∀ f ∈ frames ++ added, Sendable c f := by
    intro f hf
    rw [hframes] at hf
    rcases List.mem_append.mp hf with hf | hf
    · exact h.sendable f (by rw [hlast]; exact List.mem_append_left _ hf)
    · rw [List.mem_singleton.mp hf]
      exact hsendable
  have hwire : ∀ rest, w.buf.take n ++ rest = w.buf ++ w.body →
      (x.wrote w n).written ++ rest = (frames ++ added).flatMap (encodeFrame c) := by
    intro rest hrest
    rw [hwritten, List.append_assoc, hrest, ← hbytes, ← List.append_assoc, h.bytes, List.flatMap_append]
  rcases wrote_cases (x := x) (w := w) (n := n) with ⟨hy, hwhole⟩ | ⟨w', hy, hframe, hmoved', -, hleft, hrest⟩
  · refine ⟨added, [], ⟨hwire [] (by rw [hwhole, List.append_nil]), ⟨[], ?_, .clean ?_⟩, hall, ?_⟩, ?_⟩
    · rw [hframes, hy]
      simp [sent, endSend, SendEntry.frame?]
    · simp [hy, endSend]
    · simp [hy, endSend]
    · rw [List.append_nil, hwhole, hbytes]
  · refine ⟨added, w'.buf ++ w'.body, ⟨hwire _ hrest, ⟨[w.frame], ?_, ?_⟩, hall, ?_⟩, by rw [hrest, hbytes]⟩
    · rw [hframes, hy]
      rfl
    · rw [← hframe]
      refine .mid w' (by rw [hy]) ?_
      rw [hmoved']
      simp [hok.take_ne_nil hn]
    · intro w'' hw''
      rw [hy] at hw''
      cases hw''
      rw [hframe]
      exact hsendable

theorem Tail.of_writing (h : Tail x last future) (hw : y.writing = x.writing)
    (hc : x.closed = true → y.closed = true) : Tail y last future := by
  cases h with
  | clean hm => exact .clean (hw ▸ hm)
  | mid w hx hm => exact .mid w (hw.trans hx) hm
  | torn f _ hcl hidle hne => exact .torn f _ (hc hcl) (hw ▸ hidle) hne

theorem Wire.step (h : Wire c x frames future) (hi : Inv c x) (hp : ∀ f, a = .send f → f.Proper c)
    (hs : x.step c a = some (y, out)) :
    ∃ added rest, Wire c y (frames ++ added) rest ∧ out ++ rest = future ++ added.flatMap (encodeFrame c) := by
  -- A step that writes nothing adds no frame.
  have hquiet : ∀ {y}, Wire c y frames future →
      ∃ added rest, Wire c y (frames ++ added) rest ∧ [] ++ rest = future ++ added.flatMap (encodeFrame c) := fun h =>
    ⟨[], future, by simpa using h, by simp⟩
  cases hwr : a.writes with
  | false =>
    obtain ⟨hk, rfl⟩ := step_reads hs hwr
    refine hquiet (h.keeps ?_ ?_ (fun _ ht => ht.of_writing hk.writing hk.closed) (hk.writing ▸ h.writing))
    · simp [written, hk.writing, hk.sends]
    · simp [sent, hk.sends]
  | true =>
  cases step_writes hs hwr with
  | @sends f hnone =>
    have hfree : ∀ {y : UDSTransport}, y.closed = x.closed → y.writing = none → ∀ last, Tail x last future → Tail y last future := by
      intro y hcl hy last ht
      exact ht.of_writing (hy.trans hnone.symm) (fun h => hcl.trans h)
    unfold send
    split
    · refine hquiet (h.keeps (by simp [written, endSend, hnone]) (sent_append (by simp) rfl) (hfree rfl rfl) (by simp [endSend]))
    next hkind =>
    split
    · refine hquiet (h.keeps (by simp [written, endSend, hnone]) (sent_append (by simp) rfl) (hfree rfl rfl) (by simp [endSend]))
    next hlimit =>
    refine hquiet (h.keeps (by simp [written, hnone]) rfl ?_ ?_)
    · intro last ht
      cases ht with
      | clean => exact .clean (by simp)
      | mid w hx => rw [hnone] at hx; cases hx
      | torn f' _ hcl _ hne => exact .torn f' _ hcl (by simp) hne
    · intro w hw
      cases hw
      exact ⟨hp f rfl, not_not.mp hkind, Nat.not_lt.mp hlimit⟩
  | aborts hw => exact hquiet (h.abort (hi.write _ hw) hw)
  | @turns _ w calling hw _ hopen =>
    refine hquiet (h.keeps (by simp [written, hw]) rfl ?_ ?_)
    · intro last ht
      cases ht with
      | clean hm => exact .clean (by simpa using hm w hw)
      | mid w' hx hm =>
        rw [hw] at hx
        cases hx
        exact .mid { w with calling } rfl hm
      | torn f _ hcl hidle hne =>
        exact .torn f _ hcl (by simpa using ⟨(hidle w hw).1, by_contra fun hx => by simp_all⟩) hne
    · intro w' hw'
      cases hw'
      exact h.writing w hw
  | wrote hw hcall hn => exact h.wrote (hi.write _ hw) hw hcall hn

end Wire

/-! ## The receiver's frames -/

section Synced

variable {c : UDSConfig} {x y : UDSTransport} {a : Act} {out future header tail : Bytes} {frames : List Frame} {e : RecvEntry}

/-- The receiver stands at the beginning of a frame, but for what the receive under way has consumed. -/
def Synced (c : UDSConfig) (frames : List Frame) (future : Bytes) (x : UDSTransport) : Prop :=
  ∃ k ≤ frames.length, x.returned = frames.take k ∧
    x.consumed ++ x.inbox ++ future = (frames.drop k).flatMap (encodeFrame c)

/-- An end no receive comes back from. -/
structure Dead (x : UDSTransport) : Prop where
  closed : x.closed = true
  idle : x.reader = .idle

/-- No receive has failed for what the peer sent. -/
def Unoffended (x : UDSTransport) : Prop :=
  ∀ e ∈ x.receives, (∃ f, e.result = .frame f) ∨
    ∃ a, e.result = .aborted a ∧ ∀ err, a = .poisoned err ∨ a = .failed err → ∃ io, err = .io io

theorem Unoffended.append (h : Unoffended x) (hy : y.receives = x.receives ++ [e]) (he : (∃ f, e.result = .frame f) ∨
      ∃ a, e.result = .aborted a ∧ ∀ err, a = .poisoned err ∨ a = .failed err → ∃ io, err = .io io) : Unoffended y := by
  intro e' he'
  rw [hy] at he'
  rcases List.mem_append.mp he' with he' | he'
  · exact h e' he'
  · rw [List.mem_singleton.mp he']
    exact he

theorem returned_append (hy : y.receives = x.receives ++ [e]) : y.returned = x.returned ++ e.frame?.toList := by
  cases he : e.frame? <;> simp [returned, hy, he]

theorem next_frame (hsend : ∀ f ∈ frames, Sendable c f) (hlen : header.length = c.headerLen)
    (h : header ++ tail = frames.flatMap (encodeFrame c)) :
    ∃ f rest, frames = f :: rest ∧ header = encodeHeader f (frameBody f).length c.streaming ∧
      tail = frameBody f ++ rest.flatMap (encodeFrame c) ∧
      decodeHeader header c.streaming = ({ f with payload := [], status := none }, (frameBody f).length) := by
  cases frames with
  | nil =>
    have hpos := headerLen_pos (c := c)
    rw [(List.append_eq_nil_iff.mp h).1] at hlen
    simp only [List.length_nil] at hlen
    omega
  | cons f rest =>
    have hf := hsend f (by simp)
    rw [List.flatMap_cons, encodeFrame, List.append_assoc] at h
    obtain ⟨hheader, htail⟩ := List.append_inj h (by rw [hlen, length_encodeHeader])
    have h32 : (frameBody f).length < 2 ^ 32 := Nat.lt_of_le_of_lt hf.limit c.maxFrame.toNat_lt
    exact ⟨f, rest, rfl, hheader, htail, by rw [hheader, decodeHeader_encodeHeader hf.proper hf.kind h32]⟩

theorem not_refused (hsend : ∀ f ∈ frames, Sendable c f) (h : header ++ tail = frames.flatMap (encodeFrame c)) :
    ¬ Refused c header := by
  rintro ⟨hlen, hbad⟩
  obtain ⟨f, rest, rfl, -, -, hdec⟩ := next_frame hsend hlen h
  have hf := hsend f (by simp)
  rw [hdec] at hbad
  rcases hbad with hbad | hbad
  · exact absurd hf.limit (Nat.not_le.mpr hbad)
  · have hk := hf.kind
    rw [show f.kind = .streamChunk from hbad] at hk
    cases hk

/-- **A receive takes the next frame of the stream**, or stops without losing its place, or never comes back. -/
theorem Synced.step (h : Synced c frames future x) (hsend : ∀ f ∈ frames, Sendable c f) (hu : Unoffended x) (hi : Inv c x)
    (ha : inbound a = []) (hs : x.step c a = some (y, out)) :
    Unoffended y ∧ (Synced c frames future y ∨ Dead y ∧ y.returned = x.returned) := by
  obtain ⟨k, hk, hret, hbytes⟩ := h
  have hled := arrived_step hs
  rw [ha, List.append_nil] at hled
  rcases (hi.stage.step hs).fate with hsame | ⟨e, hre, hidle, hfate⟩
  · refine ⟨fun e he => hu e (hsame ▸ he), .inl ⟨k, hk, by simp [returned, hsame] at hret ⊢; exact hret, ?_⟩⟩
    have hrest : y.consumed ++ y.inbox = x.consumed ++ x.inbox := by simpa [arrived, hsame] using hled
    rw [hrest, hbytes]
  have hrest : e.consumed ++ (y.consumed ++ y.inbox) = x.consumed ++ x.inbox := by simpa [arrived, hre] using hled
  have hstream : e.consumed ++ (y.consumed ++ y.inbox ++ future) = (frames.drop k).flatMap (encodeFrame c) := by
    rw [← hbytes, ← hrest]
    simp
  have hsend' : ∀ f ∈ frames.drop k, Sendable c f := fun f hf => hsend f (List.mem_of_mem_drop hf)
  cases hfate with
  | whole header body hcon hlen hbody hmax hres hcl =>
    rw [hcon, List.append_assoc] at hstream
    obtain ⟨f, rest, hdrop, hheader, htail, hdec⟩ := next_frame hsend' hlen hstream
    have hf := hsend' f (by rw [hdrop]; simp)
    rw [hdec] at hbody
    obtain ⟨hb, hrest'⟩ := List.append_inj htail hbody
    have hframe : e.result = .frame f := by rw [hres, hheader, hb, frameResult_encode hf.proper hf.kind hf.limit]
    have hlt : k < frames.length := by
      by_contra hge
      rw [List.drop_eq_nil_of_le (Nat.not_lt.mp hge)] at hdrop
      cases hdrop
    refine ⟨hu.append hre (.inl ⟨f, hframe⟩), .inl ⟨k + 1, hlt, ?_, ?_⟩⟩
    · have hget : frames[k]? = some f := by
        have := congrArg List.head? hdrop
        simpa [List.head?_drop] using this
      rw [returned_append hre, hret, List.take_add_one, hget]
      simp [RecvEntry.frame?, hframe]
    · rw [hrest', ← List.drop_drop, hdrop]
      rfl
  | aborted ab hres habort herr =>
    have hretY : y.returned = x.returned := by
      rw [returned_append hre]
      simp [RecvEntry.frame?, hres]
    have hio : ∀ err, ab = .poisoned err ∨ ab = .failed err → ∃ io, err = .io io := fun err he =>
      (herr err he).resolve_right (not_refused hsend' hstream)
    refine ⟨hu.append hre (.inr ⟨ab, hres, hio⟩), ?_⟩
    cases habort with
    | poisoned _ _ _ _ hcl | closed _ _ hcl => exact .inr ⟨⟨hcl, hidle⟩, hretY⟩
    | failed _ hnone =>
      refine .inl ⟨k, hk, hretY.trans hret, ?_⟩
      rw [hnone, List.nil_append] at hstream
      exact hstream

theorem Dead.step (h : Dead x) (hu : Unoffended x) (hi : Inv c x) (hs : x.step c a = some (y, out)) :
    Unoffended y ∧ Dead y ∧ y.returned = x.returned := by
  have hreading : x.reading = false := by
    cases hr : x.reading with
    | false => rfl
    | true => exact absurd h.idle (hi.stage.idle_of_reading hr)
  have hcl := closed_step hs h.closed
  -- The two acts that are left return an error of their own.
  have hend : ∀ ab : Abort, (∀ err, ab = .poisoned err ∨ ab = .failed err → ∃ io, err = .io io) → y = x.endRecv (.aborted ab) →
      Unoffended y ∧ Dead y ∧ y.returned = x.returned := by
    intro ab hab hy
    have hre : y.receives = x.receives ++ [⟨x.consumed, .aborted ab⟩] := by rw [hy]; rfl
    refine ⟨hu.append hre (.inr ⟨ab, rfl, hab⟩), ⟨hcl, by rw [hy]; rfl⟩, ?_⟩
    rw [returned_append hre]
    simp [RecvEntry.frame?]
  by_cases hw : a.writes = true
  · obtain ⟨_, _, _, rfl, -⟩ := (step_writes hs hw).frame
    exact ⟨hu, ⟨hcl, h.idle⟩, rfl⟩
  cases a with
  | send | tryWrite | writeFails | wrote | writeAgain | writeErrno => exact absurd rfl hw
  | recv =>
    simp only [UDSTransport.step, h.idle, h.closed, if_true] at hs
    cases hs
    exact hend .closed (by simp) rfl
  | recvRefused e =>
    simp only [UDSTransport.step, h.idle, if_true] at hs
    cases hs
    exact hend (.failed (.io e)) (fun err he => ⟨e, by simpa [eq_comm] using he⟩) rfl
  | tryRead | readFails => simp [UDSTransport.step, h.idle] at hs
  | read | readAgain | readErrno | readEOF => simp [UDSTransport.step, hreading] at hs
  | close | arrive =>
    cases hs
    exact ⟨hu, ⟨hcl, h.idle⟩, rfl⟩

end Synced

end UDSTransport

/-! ## Both ends -/

/-- The two ends of a connection; each has in its inbox what the other has written. -/
structure UDSPair where
  ends : Bool → UDSTransport

namespace UDSPair

open UDSTransport

def start : UDSPair := ⟨fun _ => fresh⟩

/-- An act of one end; what it writes arrives at the other. A read finds the end of the stream only behind a close. -/
def step (c : UDSConfig) (p : UDSPair) : Bool × UDSTransport.Act → Option UDSPair
  | (_, .arrive _) => none
  | (side, a) =>
    if a = .readEOF ∧ ¬ (p.ends side).closed ∧ ¬ (p.ends !side).closed then none
    else
      match (p.ends side).step c a with
      | none => none
      | some (x, out) => some ⟨fun s => if s = side then x else { p.ends s with inbox := (p.ends s).inbox ++ out }⟩

def Sends (c : UDSConfig) (a : Bool × UDSTransport.Act) : Prop := ∀ f, a.2 = .send f → f.Proper c

variable {c : UDSConfig} {p p' : UDSPair} {side : Bool} {a : UDSTransport.Act}

/-- One direction: what one end has written and what the other has returned of it. -/
structure Direction (c : UDSConfig) (x y : UDSTransport) : Prop where
  unoffended : Unoffended y
  stream : ∃ frames future, Wire c x frames future ∧ (Synced c frames future y ∨ Dead y ∧ y.returned <+: x.sent)

section

variable {x x' y y' : UDSTransport} {out future : Bytes} {frames : List Frame}

theorem returned_sent (hw : Wire c x frames future) (hi : UDSTransport.Inv c x) (hy : Synced c frames future y) :
    y.returned <+: x.sent := by
  obtain ⟨k, hk, hret, hbytes⟩ := hy
  obtain ⟨last, hlast, htail⟩ := hw.split
  rw [hret]
  by_cases hle : k ≤ x.sent.length
  · rw [hlast, List.take_append_of_le_length hle]
    exact List.take_prefix k x.sent
  -- Past the frames sent there is only the last one, and nothing is missing behind it.
  have hall : frames.drop k = [] := by
    refine List.drop_eq_nil_of_le ?_
    rw [hlast, List.length_append]
    cases htail <;> simp <;> omega
  rw [hall, List.flatMap_nil] at hbytes
  have hfuture : future = [] := (List.append_eq_nil_iff.mp hbytes).2
  cases htail with
  | clean =>
    rw [hlast, List.append_nil]
    exact List.take_prefix k x.sent
  | mid w hx => exact absurd (List.append_eq_nil_iff.mp hfuture).1 (hi.write w hx).left
  | torn _ _ _ _ hne => exact absurd hfuture hne

theorem sent_step (hi : UDSTransport.Inv c x) (hs : x.step c a = some (x', out)) : x.sent <+: x'.sent := by
  rcases (sendStep_step hi.write hs).fate with hsame | ⟨e, he, -⟩
  · have hsent : x'.sent = x.sent := by simp only [sent, hsame]
    exact hsent ▸ List.prefix_rfl
  · rw [sent, sent, he, List.filterMap_append]
    exact List.prefix_append _ _

theorem Direction.writes (h : Direction c x y) (hi : UDSTransport.Inv c x) (hp : ∀ f, a = .send f → f.Proper c)
    (hs : x.step c a = some (x', out)) : Direction c x' { y with inbox := y.inbox ++ out } := by
  obtain ⟨frames, future, hw, hy⟩ := h.stream
  obtain ⟨added, rest, hw', hout⟩ := hw.step hi hp hs
  refine ⟨h.unoffended, frames ++ added, rest, hw', ?_⟩
  rcases hy with ⟨k, hk, hret, hbytes⟩ | ⟨hdead, hret⟩
  · refine .inl ⟨k, by rw [List.length_append]; omega, ?_, ?_⟩
    · rw [List.take_append_of_le_length hk]
      exact hret
    · rw [List.drop_append_of_le_length hk, List.flatMap_append, ← hbytes]
      simp only [List.append_assoc]
      rw [hout]
  · exact .inr ⟨⟨hdead.closed, hdead.idle⟩, hret.trans (sent_step hi hs)⟩

theorem Direction.reads (h : Direction c x y) (hix : UDSTransport.Inv c x) (hiy : UDSTransport.Inv c y) (ha : inbound a = [])
    (hs : y.step c a = some (y', out)) : Direction c { x with inbox := x.inbox ++ out } y' := by
  obtain ⟨frames, future, hw, hy⟩ := h.stream
  have hw' : Wire c { x with inbox := x.inbox ++ out } frames future :=
    hw.keeps rfl rfl (fun _ ht => ht.of_writing rfl id) hw.writing
  rcases hy with hsync | ⟨hdead, hret⟩
  · have hprefix := returned_sent hw hix hsync
    obtain ⟨hu, hcase⟩ := hsync.step hw.sendable h.unoffended hiy ha hs
    refine ⟨hu, frames, future, hw', ?_⟩
    rcases hcase with hsync' | ⟨hdead, hret⟩
    · exact .inl hsync'
    · exact .inr ⟨hdead, hret ▸ hprefix⟩
  · obtain ⟨hu, hdead', hret'⟩ := hdead.step h.unoffended hiy hs
    exact ⟨hu, frames, future, hw', .inr ⟨hdead', hret' ▸ hret⟩⟩

theorem inv_inbox (h : UDSTransport.Inv c x) : UDSTransport.Inv c { x with inbox := x.inbox ++ out } :=
  h.step (a := .arrive out) rfl

end

structure Inv (c : UDSConfig) (p : UDSPair) : Prop where
  each : ∀ side, UDSTransport.Inv c (p.ends side)
  direction : ∀ side, Direction c (p.ends side) (p.ends !side)

theorem Inv.start : Inv c start :=
  ⟨fun _ => .fresh, fun _ => ⟨by simp [Unoffended, UDSPair.start, fresh], [], [], .fresh, .inl ⟨0, by simp, rfl, rfl⟩⟩⟩

theorem step_some (hs : p.step c (side, a) = some p') : ∃ x out, (p.ends side).step c a = some (x, out) ∧ inbound a = [] ∧
    p' = ⟨fun s => if s = side then x else { p.ends s with inbox := (p.ends s).inbox ++ out }⟩ := by
  unfold UDSPair.step at hs
  split at hs
  · cases hs
  next harr heq =>
  cases heq
  obtain ⟨-, hs⟩ := unless_some hs
  split at hs
  · cases hs
  next x out hx =>
  cases hs
  refine ⟨x, out, hx, ?_, rfl⟩
  cases a <;> first | rfl | exact (harr _ rfl).elim

theorem Inv.step {a : Bool × UDSTransport.Act} (h : Inv c p) (hp : Sends c a) (hs : p.step c a = some p') : Inv c p' := by
  obtain ⟨side, a⟩ := a
  obtain ⟨x, out, hx, hin, rfl⟩ := step_some hs
  have hne : (!side) ≠ side := by cases side <;> decide
  refine ⟨fun s => ?_, fun s => ?_⟩
  · dsimp only
    split
    · next hside => exact (h.each side).step hx
    · exact inv_inbox (h.each s)
  · by_cases hside : s = side
    · subst hside
      simp only [if_true, if_neg hne]
      exact (h.direction s).writes (h.each s) hp hx
    · obtain rfl : side = !s := by cases s <;> cases side <;> simp at hside ⊢
      simp only [if_true, if_neg hside]
      exact (h.direction s).reads (h.each s) (h.each !s) hin hx

theorem reach_inv (h : Reach (step c) (fun _ => Sends c) start p) : Inv c p :=
  h.invariant Inv.start fun hi hg hs => hi.step hg hs

theorem Inv.returned_prefix (h : Inv c p) (side : Bool) : (p.ends !side).returned <+: (p.ends side).sent := by
  obtain ⟨frames, future, hwire, hsync | ⟨-, hret⟩⟩ := (h.direction side).stream
  · exact returned_sent hwire (h.each side) hsync
  · exact hret

theorem Inv.quiet (h : Inv c p) (hw : (p.ends side).writing = none) (hx : (p.ends side).closed = false)
    (hy : (p.ends !side).closed = false) (hc : (p.ends !side).consumed = []) (hin : (p.ends !side).inbox = []) :
    (p.ends !side).returned = (p.ends side).sent := by
  obtain ⟨frames, future, hwire, hcase⟩ := (h.direction side).stream
  obtain ⟨last, hlast, htail⟩ := hwire.split
  rcases hcase with ⟨k, -, hret, hbytes⟩ | ⟨hdead, -⟩
  swap
  · rw [hdead.closed] at hy
    cases hy
  cases htail with
  | clean =>
    have hdrop : frames.drop k = [] := by
      rw [hc, hin] at hbytes
      cases hd : frames.drop k with
      | nil => rfl
      | cons f rest =>
        rw [hd, List.flatMap_cons] at hbytes
        exact absurd (List.append_eq_nil_iff.mp hbytes.symm).1 encodeFrame_ne_nil
    rw [hret, List.take_of_length_le (List.drop_eq_nil_iff.mp hdrop), hlast, List.append_nil]
  | mid w hw' => rw [hw] at hw'; cases hw'
  | torn _ _ hcl => rw [hx] at hcl; cases hcl

end UDSPair

open UDSTransport in
/-- **Socket framing.** Between two ends, what the receives return is what the sends sent, in order, all of it once nothing is
under way; and no receive fails for what the peer sent. Against any peer, each call that ends has moved one whole frame and
left the transport as it was, or nothing and left it, or a part and closed it. -/
theorem socket_framing (c : UDSConfig) :
    (∀ p, Reach (UDSPair.step c) (fun _ => UDSPair.Sends c) UDSPair.start p → ∀ side,
      (p.ends !side).returned <+: (p.ends side).sent ∧ Unoffended (p.ends !side) ∧
      ((p.ends side).writing = none → (p.ends side).closed = false → (p.ends !side).closed = false →
        (p.ends !side).consumed = [] → (p.ends !side).inbox = [] → (p.ends !side).returned = (p.ends side).sent)) ∧
    ∀ x, Reach (alone c) Any fresh x →
      (∀ n ∈ x.allocated, n = c.headerLen ∨ n ≤ c.maxFrame.toNat) ∧
      (x.reading = true → x.inbox ≠ [] → (x.step c (.read 1)).isSome = true) ∧
      ∀ a y out, x.step c a = some (y, out) → y.arrived = x.arrived ++ inbound a ∧
        (y.receives = x.receives ∨ ∃ e, y.receives = x.receives ++ [e] ∧ RecvFate c x y e) ∧
        (y.sends = x.sends ∨ ∃ e, y.sends = x.sends ++ [e] ∧ SendFate c x y e) := by
  refine ⟨fun p hp side => ?_, fun x hx => ?_⟩
  · have hi := UDSPair.reach_inv hp
    exact ⟨hi.returned_prefix side, (hi.direction side).unoffended, hi.quiet⟩
  · have hi := UDSTransport.reach_inv hx
    refine ⟨hi.allocated, fun hr hin => ?_, fun a y out hs => ⟨arrived_step hs, ?_, (sendStep_step hi.write hs).fate⟩⟩
    · have hwant := hi.stage.want_pos (hi.stage.idle_of_reading hr)
      have hlen := List.length_pos_iff.mpr hin
      simp [UDSTransport.step, hr, show 1 ≤ x.want c by omega, show 1 ≤ x.inbox.length by omega]
    · rcases (hi.stage.step hs).fate with hsame | ⟨e, he, -, hf⟩
      · exact .inl hsame
      · exact .inr ⟨e, he, hf⟩

namespace UDSPair

def sampleConfig : UDSConfig := ⟨false, 16⟩

def sampleFrame : Frame := ⟨7, .unaryReq, 1, 2, -5, [9, 8], none, 0⟩

def sampleStatus : Frame := ⟨7, .unaryErr, 0, 0, 0, [], some ⟨3, [4], []⟩, 0⟩

def sampleActs : List (Bool × UDSTransport.Act) :=
  [(true, .send sampleFrame), (true, .tryWrite), (true, .wrote 5), (true, .tryWrite), (true, .writeAgain),
    (false, .recv), (false, .tryRead), (false, .read 3), (true, .tryWrite), (true, .wrote 32), (true, .tryWrite),
    (true, .wrote 2), (false, .tryRead), (false, .read 34), (false, .tryRead), (false, .read 1), (true, .send sampleStatus),
    (true, .tryWrite), (true, .wrote 37), (true, .tryWrite), (true, .wrote 13), (false, .tryRead), (false, .read 1),
    (false, .recv), (false, .tryRead), (false, .read 37), (false, .tryRead), (false, .read 13)]

def samplePair : UDSPair := (run (step sampleConfig) start sampleActs).get (by decide +kernel)

theorem sampleActs_proper : ∀ a ∈ sampleActs, Sends sampleConfig a := by
  intro a ha f hf
  have hmem : (a.1, UDSTransport.Act.send f) ∈ sampleActs := by
    rw [← hf]
    exact ha
  simp only [sampleActs, List.mem_cons, Prod.mk.injEq, UDSTransport.Act.send.injEq, reduceCtorEq, and_false, false_or, or_false,
    List.not_mem_nil] at hmem
  rcases hmem with ⟨-, rfl⟩ | ⟨-, rfl⟩
  · exact ⟨⟨by decide, by decide⟩, rfl, fun _ => rfl⟩
  · exact ⟨⟨by decide, by decide⟩, ⟨rfl, by decide⟩, fun _ => rfl⟩

end UDSPair

theorem socket_framing_sample : (UDSPair.samplePair.ends false).returned = [UDSPair.sampleFrame, UDSPair.sampleStatus] := by
  have hsent : (UDSPair.samplePair.ends true).sent = [UDSPair.sampleFrame, UDSPair.sampleStatus] := by decide +kernel
  rw [← hsent]
  exact ((socket_framing UDSPair.sampleConfig).1 UDSPair.samplePair
    (Reach.of_run_of (Option.some_get _).symm UDSPair.sampleActs_proper) true).2.2
    (by decide +kernel) (by decide +kernel) (by decide +kernel) (by decide +kernel) (by decide +kernel)

end Styx
