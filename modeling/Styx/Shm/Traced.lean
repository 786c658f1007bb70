/-
The writer invents nothing: every descriptor it holds or pushes is the one its intent asks
for, on its intent's lane, and the ring changes by a push or an advance alone.

What is known of the intents handed in (`Q`) is then known of every publication.
-/
import Styx.Shm.CustodyRun

namespace Styx

open Sequence Machine

/-! ## What the inner functions leave alone -/

/-- Same ring, same configuration. -/
structure Keeps (w w' : Writer) : Prop where
  ring : w'.ring = w.ring
  gen : w'.gen = w.gen
  checksum : w'.checksum = w.checksum
  chunkingActive : w'.chunkingActive = w.chunkingActive
  maxStored : w'.maxStored = w.maxStored

namespace Keeps

variable {w w' w'' : Writer} {h : SlabHandle}

theorem refl : Keeps w w := ⟨rfl, rfl, rfl, rfl, rfl⟩

theorem trans (h₁ : Keeps w w') (h₂ : Keeps w' w'') : Keeps w w'' :=
  ⟨h₂.ring.trans h₁.ring, h₂.gen.trans h₁.gen, h₂.checksum.trans h₁.checksum,
    h₂.chunkingActive.trans h₁.chunkingActive, h₂.maxStored.trans h₁.maxStored⟩

theorem freeSlab : Keeps w (w.freeSlab h) := by
  unfold Writer.freeSlab
  split <;> exact ⟨rfl, rfl, rfl, rfl, rfl⟩

theorem freed {w₀ : Writer} : Writer.Freed (Keeps w₀) where
  free _ h := h.trans freeSlab
  poison _ h := ⟨h.ring, h.gen, h.checksum, h.chunkingActive, h.maxStored⟩
  blind _ _ _ _ _ h := ⟨h.ring, h.gen, h.checksum, h.chunkingActive, h.maxStored⟩

theorem reclaim {m : UInt64} : Keeps w (w.reclaim m) := freed.reclaim refl m

theorem published {seq : UInt64} {ref : Option SlabHandle} : Keeps w (w.published seq ref) := freed.published refl seq ref

theorem stored (h : Keeps w w') {a : Arena} : Keeps w { w' with arena := a } :=
  ⟨h.ring, h.gen, h.checksum, h.chunkingActive, h.maxStored⟩

end Keeps

/-! ## A descriptor and its intent -/

/-- The descriptor of a frame as `build` makes it, its payload fields and
generation aside. -/
structure BuiltFrom (chunking checksum : Bool) (i : Intent) (d : Descriptor) : Prop where
  kind : mapKind i.frame.kind chunking = some (d.kind, i.lane == .lifecycle)
  callID : d.callID = i.frame.callID
  reserved : d.reserved = i.frame.control
  flags : d.flags = 0 ∨ checksum = true ∧ i.lane ≠ .lifecycle ∧ d.flags = flagCRC32CPresent
  bare : i.lane = .lifecycle → d.budgetNS = 0 ∧ d.payloadOffset = 0 ∧ d.payloadLength = 0 ∧ d.allocSeq = 0
  fields : i.lane ≠ .lifecycle →
    d.serviceID = i.frame.service ∧ d.methodID = i.frame.method ∧ d.budgetNS = i.frame.budget

/-- What a build may change of its intent: the state of its fill. -/
def SameIntent (i i' : Intent) : Prop := ∃ f, i' = { i with fill := f }

variable {i i' : Intent}

theorem SameIntent.refl : SameIntent i i := ⟨i.fill, rfl⟩

theorem SameIntent.lane (h : SameIntent i i') : i'.lane = i.lane := by
  obtain ⟨f, rfl⟩ := h
  rfl

theorem BuiltFrom.same {ch ck : Bool} {d : Descriptor} (h : BuiltFrom ch ck i d)
    (hs : SameIntent i i') : BuiltFrom ch ck i' d := by
  obtain ⟨f, rfl⟩ := hs
  exact ⟨h.kind, h.callID, h.reserved, h.flags, h.bare, h.fields⟩

namespace Writer

variable {w w' : Writer} {i : Intent} {late : Bool} {r : BuildResult}

/-- **What a build makes**: the frame of the writer, and a descriptor built from its intent. -/
theorem build_frame (he : w.build i late = (w', r)) :
    Keeps w w' ∧ ∀ i' d, r = .ok i' d → SameIntent i i' ∧ BuiltFrom w.chunkingActive w.checksum i d := by
  have h0 : Keeps w { w with pendingSlab := none } := ⟨rfl, rfl, rfl, rfl, rfl⟩
  cases build_cases he with
  | refused => exact ⟨Keeps.freed.report h0 _ _, fun _ _ h => by cases h⟩
  | bare hl hk =>
    refine ⟨h0, fun i' d h => ?_⟩
    cases h
    exact ⟨.refl, by rw [hl]; exact hk, rfl, rfl, .inl rfl, fun _ => ⟨rfl, rfl, rfl, rfl⟩, fun hne => absurd hl hne⟩
  | empty _ hl hk =>
    have hb : (i.lane == .lifecycle) = false := by simpa using hl
    refine ⟨h0, fun i' d h => ?_⟩
    cases h
    exact ⟨⟨_, rfl⟩, by rw [hb]; exact hk, rfl, rfl, .inl rfl, fun h => absurd h hl, fun _ => ⟨rfl, rfl, rfl⟩⟩
  | stuck => exact ⟨h0.trans Keeps.reclaim, fun _ _ h => by cases h⟩
  | unserved => exact ⟨Keeps.freed.report (h0.trans Keeps.reclaim) _ _, fun _ _ h => by cases h⟩
  | freed =>
    exact ⟨Keeps.freed.report (Keeps.freed.free _ (h0.trans Keeps.reclaim).stored) _ _, fun _ _ h => by cases h⟩
  | @stamped rk h a n _ bytes hl hk =>
    have hb : (i.lane == .lifecycle) = false := by simpa using hl
    have hrec : Keeps w (reclaim { w with pendingSlab := none } w.ring.capacity) := h0.trans Keeps.reclaim
    refine ⟨?_, fun i' d hr => ?_⟩
    · unfold sealSlab
      split <;> exact Keeps.freed.blind _ _ _ _ _ hrec.stored
    · cases hr
      refine ⟨⟨_, rfl⟩, by rw [hb]; exact hk, rfl, rfl, ?_, fun h => absurd h hl, fun _ => ⟨rfl, rfl, rfl⟩⟩
      simp only [stamped, hrec.checksum]
      cases hc : w.checksum with
      | false => exact .inl rfl
      | true => exact .inr ⟨rfl, hl, by simp [Intent.head, Intent.bare, Descriptor.zero]⟩

/-- The frame of what happens between frames: frees, poison and reports. -/
def Rests (w w' : Writer) : Prop := ∀ P, Freed P → P w → P w'

theorem Rests.freeSlab? (h : Rests w w') {c : Option SlabHandle} {e : Option SendErr} :
    Rests w ((w'.freeSlab? c).report i e) := fun _ hP hw => hP.report (hP.freeSlab? (h _ hP hw) c) i e

theorem Rests.of_marked (h : Sys.Marked w w') : Rests w w' := by
  rcases h with rfl | ⟨-, rfl⟩
  · exact fun _ _ hw => hw
  · exact fun _ hP hw => hP.poison _ hw

theorem Rests.buildLifecycle (hl : i.lane = .lifecycle) (he : w.build i late = (w', r)) : Rests w w' := by
  cases build_cases he with
  | refused => exact fun _ hP hw => hP.report (hP.blind _ _ none _ _ hw) _ _
  | bare => exact fun _ hP hw => hP.blind _ _ _ _ _ hw
  | empty _ hne | stuck hne | unserved _ hne | freed _ _ hne | stamped _ _ hne => exact absurd hl hne

end Writer

/-! ## Over the writer's states -/

namespace Sys

variable {s t : Sys} {Q : Intent → Prop} {ch ck : Bool} {d : Descriptor} {a : Act}

/-- What is known of an intent does not hang on its fill. -/
def Stable (Q : Intent → Prop) : Prop := ∀ i i', SameIntent i i' → Q i → Q i'

/-- Every intent the writer holds is one it was handed, on the lane it is handled
on, and every descriptor is built from its intent. -/
structure Traced (Q : Intent → Prop) (ch ck : Bool) (s : Sys) : Prop where
  chunking : s.w.chunkingActive = ch
  checksum : s.w.checksum = ck
  stuck : ∀ c ∈ s.stuck, c.i.lane ≠ .lifecycle ∧ Q c.i ∧ ∀ d ∈ c.d, BuiltFrom ch ck c.i d
  ready : ∀ c d, s.pc = .ready c d → c.i.lane ≠ .lifecycle ∧ Q c.i ∧ c.d = some d ∧ BuiltFrom ch ck c.i d
  readyLifecycle : ∀ i d, s.pc = .readyLifecycle i d → i.lane = .lifecycle ∧ Q i ∧ BuiltFrom ch ck i d
  pushed : ∀ seq ref i, s.pc = .pushed seq ref i →
    seq + 1 = s.w.ring.tail ∧ Q i ∧ BuiltFrom ch ck i (s.w.ring.desc seq)

/-- The region is up and this data descriptor is about to be pushed. -/
def DataPush (s : Sys) (a : Act) (d : Descriptor) : Prop :=
  a = .push ∧ s.w.prePublishFault = none ∧ ∃ c, s.pc = .ready c d

/-- The ring across a step: untouched, consumed from once, or pushed to once. -/
inductive RingStep (s : Sys) (a : Act) (r : Ring) : Prop
  | same : r = s.w.ring → RingStep s a r
  | consumed : s.w.ring.head ≠ s.w.ring.tail → r = s.w.ring.advance → RingStep s a r
  | data (d : Descriptor) : s.DataPush a d → s.w.ring.push d = .ok r → RingStep s a r
  | lifecycle (i : Intent) (d : Descriptor) : s.pc = .readyLifecycle i d → s.w.ring.push d = .ok r → RingStep s a r

theorem Start.traced (h0 : s.Start) : s.Traced Q s.w.chunkingActive s.w.checksum := by
  refine ⟨rfl, rfl, by simp [h0.stuck], fun _ _ h => ?_, fun _ _ h => ?_, fun _ _ _ h => ?_⟩ <;>
    (rw [h0.pc] at h; cases h)

/-- The intents an action hands to the writer. -/
def Act.fed : Act → Option Intent
  | .lifecycle i | .data i _ => some i
  | _ => none

/-- A frame in hand: set aside, or about to be pushed. -/
def InHand (s : Sys) (c : Carry) : Prop := c ∈ s.stuck ∨ ∃ d, s.pc = .ready c d

/-- What a step can be, the ways a frame is given up aside. -/
inductive Seen (s : Sys) (a : Act) : Sys → Prop
  | rest {w : Writer} {stuck : Option Carry} {pc : Pc} : pc = .idle ∨ pc = .stopped → s.w.Rests w →
      (∀ c ∈ stuck, s.InHand c) → Seen s a ⟨w, stuck, pc⟩
  | same {w : Writer} : s.w.Rests w → Seen s a { s with w }
  | resumed {c : Carry} {late : Bool} {d : Descriptor} : s.Places a c late → c.d = some d → Seen s a ⟨s.w, none, .ready c d⟩
  | tried {c : Carry} {late : Bool} {w : Writer} {r : Writer.BuildResult} {stuck : Option Carry} : s.pc = .idle →
      s.Places a c late → c.d = none → s.w.build c.i late = (w, r) → (∀ c' ∈ stuck, c' = c) → Seen s a ⟨w, stuck, .idle⟩
  | built {c : Carry} {late : Bool} {w : Writer} {i : Intent} {d : Descriptor} : s.pc = .idle → s.Places a c late →
      c.d = none → s.w.build c.i late = (w, .ok i d) → Seen s a ⟨w, none, .ready ⟨i, some d, w.pendingSlab⟩ d⟩
  | lifecycle {i i' : Intent} {w : Writer} {d : Descriptor} : s.pc = .idle → i ∈ a.fed → i.lane = .lifecycle →
      s.w.build i false = (w, .ok i' d) → Seen s a { s with w, pc := .readyLifecycle i' d }
  | pushed {i : Intent} {d : Descriptor} {r : Ring} {ref : Option SlabHandle} : s.w.prePublishFault = none →
      a = .push → (∃ c, s.pc = .ready c d ∧ c.i = i) ∨ s.pc = .readyLifecycle i d → s.w.ring.push d = .ok r →
      Seen s a { s with w := { s.w with ring := r }, pc := .pushed s.w.ring.tail ref i }
  | advance : s.w.ring.head ≠ s.w.ring.tail → Seen s a { s with w := { s.w with ring := s.w.ring.advance } }
  | abandon {c : Carry} : s.stuck = some c →
      Seen s a { s with stuck := some { c with i := { c.i with fill := c.i.fill.map (·.abandon) } } }

theorem seen_step (h : s.step a = some t) : s.Seen a t := by
  cases step_moves h with
  | lifecycle hpc hl hb => exact .lifecycle hpc rfl hl hb
  | lifecycleFailed hpc hl hb => exact .rest (.inl rfl) (.buildLifecycle hl hb) fun _ hc => .inl hc
  | abandoned => exact .rest (.inl rfl) (.freeSlab? (.of_marked (.inl rfl))) (by simp)
  | resumed _ hp hd => exact .resumed hp hd
  | failed hpc hp hd hb => exact .tried hpc hp hd hb (by simp)
  | waits hpc hp hd hb => exact .tried hpc hp hd hb (by simp [eq_comm])
  | built hpc hp hd hb => exact .built hpc hp hd hb
  | refused _ _ hm => exact .rest (.inl rfl) (.freeSlab? (.of_marked hm)) fun _ hc => .inl hc
  | full hpc => exact .rest (.inl rfl) (.of_marked (.inl rfl)) fun c' hc' => .inr ⟨_, Option.mem_some_iff.mp hc' ▸ hpc⟩
  | pushed hpc hup hr => exact .pushed hup rfl (.inl ⟨_, hpc, rfl⟩) hr
  | refusedLifecycle _ _ hm =>
    exact .rest (.inl rfl) (Writer.Rests.freeSlab? (c := none) (.of_marked hm)) fun _ hc => .inl hc
  | pushedLifecycle hpc hup hr => exact .pushed hup rfl (.inr hpc) hr
  | publish => exact .rest (.inl rfl) (fun _ hP hw => hP.report (hP.published hw _ _) _ _) fun _ hc => .inl hc
  | drained => exact .rest (.inr rfl) (.freeSlab? (.of_marked (.inl rfl))) (by simp)
  | stop => exact .rest (.inr rfl) (.of_marked (.inl rfl)) fun _ hc => .inl hc
  | advance hne => exact .advance hne
  | abandon hc => exact .abandon hc
  | poison cause => exact .same fun _ hP hw => hP.poison cause hw
  | shutdown => exact .same fun _ hP hw => hP.blind _ _ _ _ _ hw

/-- **A step keeps what frees and builds keep**, the ring apart. -/
theorem Seen.keeps {P : Writer → Prop} (h : s.Seen a t) (hF : Writer.Freed P) (hC : Writer.Closed fun w _ => P w)
    (hR : ∀ {w : Writer} (ring : Ring), P w → P { w with ring }) (hp : P s.w) : P t.w := by
  cases h with
  | rest _ hw | same hw => exact hw _ hF hp
  | resumed | abandon => exact hp
  | tried _ _ _ hb | built _ _ _ hb | lifecycle _ _ _ hb => exact hC.build hp hb
  | pushed | advance => exact hR _ hp

theorem desc_push {r r' : Ring} (h : r.push d = .ok r') :
    r'.desc r.tail = d ∧ r.tail + 1 = r'.tail := by
  obtain ⟨-, rfl⟩ := Ring.push_ok h
  exact ⟨by simp [Ring.desc, Ring.write], rfl⟩

theorem Traced.placed {c : Carry} {late : Bool} (ht : s.Traced Q ch ck) (hfed : ∀ i ∈ a.fed, Q i)
    (hp : s.Places a c late) : c.i.lane ≠ .lifecycle ∧ Q c.i ∧ ∀ d ∈ c.d, BuiltFrom ch ck c.i d := by
  cases hp with
  | data _ hl => exact ⟨hl, hfed _ rfl, by simp⟩
  | retry hst => exact ht.stuck c hst

/-- **Every step** moves the ring one way and stays true to the intents it is fed. -/
theorem Traced.step (ht : s.Traced Q ch ck) (hQ : Stable Q) (hfed : ∀ i ∈ a.fed, Q i)
    (h : s.step a = some t) : RingStep s a t.w.ring ∧ t.Traced Q ch ck := by
  cases seen_step h with
  | rest hpc hw hst =>
    have hk := hw _ Keeps.freed Keeps.refl
    refine ⟨.same hk.ring, hk.chunkingActive.trans ht.chunking, hk.checksum.trans ht.checksum, fun c hc => ?_,
      fun _ _ h => ?_, fun _ _ h => ?_, fun _ _ _ h => ?_⟩
    · rcases hst c hc with hc | ⟨d, hc⟩
      · exact ht.stuck c hc
      · obtain ⟨hl, hq, hd, hb⟩ := ht.ready c d hc
        exact ⟨hl, hq, fun d' hd' => Option.some.inj (hd.symm.trans hd') ▸ hb⟩
    all_goals rcases hpc with rfl | rfl <;> cases h
  | same hw =>
    have hk := hw _ Keeps.freed Keeps.refl
    exact ⟨.same hk.ring, hk.chunkingActive.trans ht.chunking, hk.checksum.trans ht.checksum, ht.stuck, ht.ready,
      ht.readyLifecycle, hk.ring ▸ ht.pushed⟩
  | resumed hp hd =>
    obtain ⟨hl, hq, hb⟩ := ht.placed hfed hp
    refine ⟨.same rfl, ht.chunking, ht.checksum, by simp, fun c' d' h => ?_, fun _ _ h => (by cases h),
      fun _ _ _ h => (by cases h)⟩
    cases h
    exact ⟨hl, hq, hd, hb _ hd⟩
  | tried _ hp _ hx hst =>
    have hk := (Writer.build_frame hx).1
    exact ⟨.same hk.ring, hk.chunkingActive.trans ht.chunking, hk.checksum.trans ht.checksum,
      fun c' hc' => hst c' hc' ▸ ht.placed hfed hp, fun _ _ h => (by cases h), fun _ _ h => (by cases h),
      fun _ _ _ h => (by cases h)⟩
  | built _ hp _ hx =>
    obtain ⟨hl, hq, -⟩ := ht.placed hfed hp
    obtain ⟨hk, hbuilt⟩ := Writer.build_frame hx
    obtain ⟨hs, hbf⟩ := hbuilt _ _ rfl
    rw [ht.chunking, ht.checksum] at hbf
    refine ⟨.same hk.ring, hk.chunkingActive.trans ht.chunking, hk.checksum.trans ht.checksum, by simp, fun c' d' h => ?_,
      fun _ _ h => (by cases h), fun _ _ _ h => (by cases h)⟩
    cases h
    exact ⟨hs.lane ▸ hl, hQ _ _ hs hq, rfl, hbf.same hs⟩
  | lifecycle _ hi hl hx =>
    obtain ⟨hk, hbuilt⟩ := Writer.build_frame hx
    obtain ⟨hs, hbf⟩ := hbuilt _ _ rfl
    rw [ht.chunking, ht.checksum] at hbf
    refine ⟨.same hk.ring, hk.chunkingActive.trans ht.chunking, hk.checksum.trans ht.checksum, ht.stuck,
      fun _ _ h => (by cases h), fun i' d' h => ?_, fun _ _ _ h => (by cases h)⟩
    cases h
    exact ⟨hs.lane.trans hl, hQ _ _ hs (hfed _ hi), hbf.same hs⟩
  | @pushed i d r ref hup ha hpc hr =>
    have hb : Q i ∧ BuiltFrom ch ck i d := by
      rcases hpc with ⟨c, hpc, rfl⟩ | hpc
      · obtain ⟨-, hq, -, hb⟩ := ht.ready c d hpc
        exact ⟨hq, hb⟩
      · exact (ht.readyLifecycle i d hpc).2
    refine ⟨?_, ht.chunking, ht.checksum, ht.stuck, fun _ _ h => (by cases h), fun _ _ h => (by cases h),
      fun seq ref i h => ?_⟩
    · rcases hpc with ⟨c, hpc, -⟩ | hpc
      · exact .data d ⟨ha, hup, c, hpc⟩ hr
      · exact .lifecycle i d hpc hr
    · cases h
      obtain ⟨h1, h2⟩ := desc_push hr
      exact ⟨h2, hb.1, h1.symm ▸ hb.2⟩
  | advance hne =>
    exact ⟨.consumed hne rfl, ht.chunking, ht.checksum, ht.stuck, ht.ready, ht.readyLifecycle, ht.pushed⟩
  | @abandon c hc =>
    refine ⟨.same rfl, ht.chunking, ht.checksum, fun c' hc' => ?_, ht.ready, ht.readyLifecycle, ht.pushed⟩
    obtain rfl := Option.mem_some_iff.mp hc'
    obtain ⟨hl, hq, hb⟩ := ht.stuck c hc
    exact ⟨hl, hQ _ _ ⟨_, rfl⟩ hq, fun d hd => (hb d hd).same ⟨_, rfl⟩⟩

end Sys

end Styx
