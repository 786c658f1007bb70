/-
The descriptors that ride with a control message (`internal/control/fds.go`), from the
datagram to their owners in an attached plugin.

A descriptor received is closed or owned, once. `parseRights` closes what it has extracted
so far, so an entry of another type strands the descriptors of the entries after it.
-/
import Styx.Control.Handshake
import Styx.Control.Message

namespace Styx.Descriptors

open Handshake
open scoped List

/-! ## Receiving -/

inductive Cmsg
  | rights (fds : List Nat)
  /-- An entry `ParseUnixRights` refuses. -/
  | other
  deriving DecidableEq

def Cmsg.fds : Cmsg → List Nat
  | .rights fds => fds
  | .other => []

/-- The bodies with descriptors, by the fields that are read. -/
inductive FDMessage
  | attachRegion (fdCount burstMaxPayload : UInt32)
  | saveState (snapshotFdCount : UInt32)
  | restore (snapshotFdCount : UInt32)
  /-- Any other body, or none. -/
  | other (kind : Option MessageKind)
  deriving DecidableEq

/-- What `recvmsg` gave: the control data's entries, whether they parse as such, whether
`MSG_TRUNC` or `MSG_CTRUNC` is set, and the message unless `Unmarshal` fails. -/
structure Datagram where
  cmsgs : List Cmsg
  malformed : Bool
  truncated : Bool
  msg : Option FDMessage
  deriving DecidableEq

def Datagram.received (d : Datagram) : List Nat := d.cmsgs.flatMap Cmsg.fds

/-- The descriptors closed, and what is returned; `none` is an error. -/
abbrev Closing (α : Type) := List Nat × Option α

def parseRights : List Cmsg → List Nat → Closing (List Nat)
  | [], fds => ([], some fds)
  | .rights rights :: rest, fds => parseRights rest (fds ++ rights)
  | .other :: _, fds => (fds, none)

def recvDeclaredFDCount : FDMessage → Option UInt32
  | .attachRegion fdCount _ => some fdCount
  | .saveState count | .restore count => some count
  | .other _ => none

/-- From `recvmsg` on. -/
def recvFDs (d : Datagram) : Closing (FDMessage × List Nat) :=
  if d.malformed then ([], none)
  else
    match parseRights d.cmsgs [] with
    | (closed, none) => (closed, none)
    | (_, some fds) =>
      if d.truncated then (fds, none)
      else
        match d.msg with
        | none => (fds, none)
        | some msg =>
          match recvDeclaredFDCount msg with
          | none => (fds, none)
          | some declared => if declared ≠ UInt32.ofNat fds.length then (fds, none) else ([], some (msg, fds))

def featureBurst : String := "burst"

def burstActive (tuple : Tuple) (burstMaxPayload : UInt32) : Bool :=
  tuple.transport = transportSHM ∧ (tuple.features.lookup featureBurst).getD false = true ∧ burstMaxPayload ≠ 0

structure AttachFDs where
  region : Nat
  hp : Nat
  ph : Nat
  burst : Option Nat
  deriving DecidableEq

def AttachFDs.rawSet (a : AttachFDs) : List Nat := [a.region, a.hp, a.ph] ++ a.burst.toList

/-- With `recvControlFDs`. -/
def recvAttachFDs (tuple : Tuple) (d : Datagram) : Closing AttachFDs :=
  match recvFDs d with
  | (closed, none) => (closed, none)
  | (_, some (.attachRegion _ burstMaxPayload, fds)) =>
    match fds, burstActive tuple burstMaxPayload with
    | [region, hp, ph], false => ([], some ⟨region, hp, ph, none⟩)
    | [region, hp, ph, burst], true => ([], some ⟨region, hp, ph, some burst⟩)
    | fds, _ => (fds, none)
  -- No other kind is the one wanted.
  | (_, some (_, fds)) => (fds, none)

/-! ## Attaching -/

/-- Where the attach can fail: the wrappers, the configuration, the attach, the ack, and the
failpoint named after each step. -/
inductive AttachStep
  | recvFDs | newHP | hpWrap | newPH | phWrap | newBurst | burstWrap | shmConfig | shmAttach | attach | ackSend
  | sendControl | postAck
  deriving DecidableEq

/-- The attach under way: what it has closed, the descriptors of the owners whose deferred
`Close` is installed, and `rawOpen`. -/
structure Attaching where
  closed : List Nat
  owners : List Nat
  rawOpen : List Nat
  deriving DecidableEq

namespace Attaching

/-- The deferred calls: an owner's `Close` closes once, whoever calls it again. -/
def unwind (s : Attaching) : List Nat := s.closed ++ (s.owners.dedup ++ s.rawOpen)

def wrap (s : Attaching) (fd : Nat) : Attaching := { s with owners := fd :: s.owners, rawOpen := s.rawOpen.erase fd }

def close (s : Attaching) (fd : Nat) : Attaching := { s with closed := fd :: s.closed, rawOpen := s.rawOpen.erase fd }

def checked {α : Type} (s : Attaching) (fails : Bool) (go : Closing α) : Closing α :=
  if fails then (s.unwind, none) else go

end Attaching

/-- The owners returned: both eventfds, and the burst socket in the data transport. -/
structure Attached where
  hp : Nat
  ph : Nat
  burst : Option Nat
  deriving DecidableEq

def attachSHM (fails : AttachStep → Bool) (a : AttachFDs) : Closing Attached :=
  let s : Attaching := ⟨[], [], a.rawSet⟩
  s.checked (fails .recvFDs) <| s.checked (fails .newHP) <|
  let s := s.wrap a.hp
  s.checked (fails .hpWrap) <| s.checked (fails .newPH) <|
  let s := s.wrap a.ph
  s.checked (fails .phWrap) <| s.checked (a.burst.isSome && fails .newBurst) <|
  let s := a.burst.elim s s.wrap
  s.checked (fails .burstWrap) <| s.checked (fails .shmConfig) <|
  -- The region is closed here whether or not `Attach` has duplicated it.
  let s := s.close a.region
  s.checked (fails .shmAttach) <|
  -- The composite's `Close` closes the burst socket ahead of its own deferred `Close`.
  let s := { s with owners := a.burst.toList ++ s.owners }
  s.checked (fails .attach) <| s.checked (fails .ackSend) <| s.checked (fails .sendControl) <| s.checked (fails .postAck) <|
  (s.closed, some ⟨a.hp, a.ph, a.burst⟩)

def pluginAttachSHM (fails : AttachStep → Bool) (tuple : Tuple) (d : Datagram) : Closing Attached :=
  match recvAttachFDs tuple d with
  | (closed, none) => (closed, none)
  | (_, some a) => attachSHM fails a

/-! ## What becomes of the descriptors -/

/-- Each is closed or owned by what is returned, and only once. -/
def Settled {α : Type} (fds : List Nat) (owned : α → List Nat) (r : Closing α) : Prop :=
  r.1 ++ r.2.elim [] owned ~ fds

/-- The descriptors no one closes: those after an entry of another type, or all if the control data does not parse. -/
def Datagram.stranded (d : Datagram) : List Nat :=
  if d.malformed then d.received else (d.cmsgs.dropWhile (· ≠ .other)).flatMap Cmsg.fds

theorem parseRights_eq (cmsgs : List Cmsg) (fds : List Nat) :
    (∃ closed, parseRights cmsgs fds = (closed, none) ∧
      closed ++ (cmsgs.dropWhile (· ≠ .other)).flatMap Cmsg.fds = fds ++ cmsgs.flatMap Cmsg.fds) ∨
    parseRights cmsgs fds = ([], some (fds ++ cmsgs.flatMap Cmsg.fds)) ∧ cmsgs.dropWhile (· ≠ .other) = [] := by
  induction cmsgs generalizing fds with
  | nil => exact .inr ⟨by simp [parseRights], rfl⟩
  | cons c cmsgs ih =>
    cases c with
    | other => exact .inl ⟨fds, rfl, by simp⟩
    | rights rights => simpa [parseRights, Cmsg.fds] using ih (fds ++ rights)

theorem recvFDs_settled (d : Datagram) :
    (∃ closed, recvFDs d = (closed, none) ∧ closed ++ d.stranded = d.received) ∨
    ∃ msg, recvFDs d = ([], some (msg, d.received)) ∧ d.stranded = [] := by
  unfold recvFDs Datagram.stranded
  split
  · exact .inl ⟨[], rfl, rfl⟩
  rcases parseRights_eq d.cmsgs [] with ⟨closed, heq, hclosed⟩ | ⟨heq, hnil⟩
  · rw [heq]
    exact .inl ⟨closed, rfl, by simpa [Datagram.received] using hclosed⟩
  · rw [heq, hnil]
    dsimp only
    (repeat' split)
    case isFalse => exact .inr ⟨_, rfl, rfl⟩
    all_goals exact .inl ⟨_, rfl, by simp [Datagram.received]⟩

theorem settled_closed {α : Type} {owned : α → List Nat} {closed left fds : List Nat} (h : closed ++ left = fds) :
    Settled fds owned (closed, none) ↔ left = [] := by
  refine ⟨fun hs => ?_, fun hl => ?_⟩
  · have := hs.length_eq
    simp only [Option.elim, List.append_nil, ← h, List.length_append] at this
    exact List.length_eq_zero_iff.mp (by omega)
  · subst hl h
    exact .refl _

theorem recvAttachFDs_settled (tuple : Tuple) (d : Datagram) :
    (∃ closed, recvAttachFDs tuple d = (closed, none) ∧ closed ++ d.stranded = d.received) ∨
    ∃ a, recvAttachFDs tuple d = ([], some a) ∧ a.rawSet = d.received ∧ d.stranded = [] := by
  unfold recvAttachFDs
  rcases recvFDs_settled d with ⟨closed, heq, hclosed⟩ | ⟨msg, heq, hnil⟩
  · rw [heq]
    exact .inl ⟨closed, rfl, hclosed⟩
  · rw [heq, hnil]
    have hall : ∀ {r : Closing AttachFDs}, r = (d.received, none) → (∃ closed, r = (closed, none) ∧ closed ++ [] = d.received) ∨
        ∃ a, r = ([], some a) ∧ a.rawSet = d.received ∧ ([] : List Nat) = [] := fun hr => .inl ⟨_, hr, by simp⟩
    cases msg with
    | attachRegion fdCount burstMaxPayload =>
      dsimp only
      split
      · next hfds _ => exact .inr ⟨_, rfl, by rw [hfds]; rfl, rfl⟩
      · next hfds _ => exact .inr ⟨_, rfl, by rw [hfds]; rfl, rfl⟩
      · exact hall rfl
    | _ => exact hall rfl

namespace Attaching

variable {s : Attaching} {fds : List Nat} {fd : Nat} {α : Type} {owned : α → List Nat} {go : Closing α} {fails : Bool}

/-- Everything received is closed, owned or raw, in one of them. -/
def Held (s : Attaching) (fds : List Nat) : Prop := s.unwind ~ fds ∧ s.unwind.Nodup

theorem Held.checked (h : s.Held fds) (hgo : Settled fds owned go) : Settled fds owned (s.checked fails go) := by
  unfold Attaching.checked
  split
  · simpa [Settled] using h.1
  · exact hgo

theorem checked_some {closed : List Nat} {o : α} :
    s.checked fails go = (closed, some o) ↔ fails = false ∧ go = (closed, some o) := by
  unfold Attaching.checked
  split <;> simp_all

theorem Held.moves {t : Attaching} (h : s.Held fds) (hraw : fd ∈ s.rawOpen)
    (ht : t.unwind ~ fd :: (s.closed ++ (s.owners.dedup ++ s.rawOpen.erase fd))) : t.Held fds := by
  have hperm : t.unwind ~ s.unwind := by
    refine ht.trans (List.perm_middle.symm.trans (List.Perm.append_left _ (List.perm_middle.symm.trans ?_)))
    exact List.Perm.append_left _ (List.perm_cons_erase hraw).symm
  exact ⟨hperm.trans h.1, hperm.nodup_iff.mpr h.2⟩

theorem Held.wrap (h : s.Held fds) (hraw : fd ∈ s.rawOpen) : (s.wrap fd).Held fds := by
  have hnew : fd ∉ s.owners := fun hmem =>
    List.disjoint_of_nodup_append (List.nodup_append.mp h.2).2.1 (List.mem_dedup.mpr hmem) hraw
  refine h.moves hraw ?_
  simp only [unwind, Attaching.wrap, List.dedup_cons_of_notMem hnew]
  exact List.perm_middle

theorem Held.close (h : s.Held fds) (hraw : fd ∈ s.rawOpen) : (s.close fd).Held fds :=
  h.moves hraw (.refl _)

theorem Held.again (h : s.Held fds) (hown : fd ∈ s.owners) : Held { s with owners := fd :: s.owners } fds := by
  simpa only [Held, unwind, List.dedup_cons_of_mem hown] using h

end Attaching

/-- **However the attach goes**, every descriptor is closed or owned. -/
theorem attachSHM_settled (fails : AttachStep → Bool) (a : AttachFDs) (hnd : a.rawSet.Nodup) :
    Settled a.rawSet (fun o => o.hp :: o.ph :: o.burst.toList) (attachSHM fails a) := by
  obtain ⟨region, hp, ph, burst⟩ := a
  have h₀ : Attaching.Held ⟨[], [], AttachFDs.rawSet ⟨region, hp, ph, burst⟩⟩ (AttachFDs.rawSet ⟨region, hp, ph, burst⟩) :=
    ⟨.refl _, hnd⟩
  simp only [AttachFDs.rawSet, List.cons_append, List.nil_append, List.nodup_cons, List.mem_cons, not_or] at hnd
  obtain ⟨⟨hrh, hrp, hrb⟩, ⟨hhp, hhb⟩, hpb, -⟩ := hnd
  have h₁ := h₀.wrap (show hp ∈ AttachFDs.rawSet _ by simp [AttachFDs.rawSet])
  have h₂ := h₁.wrap (show ph ∈ (AttachFDs.rawSet _).erase hp from
    (List.mem_erase_of_ne (Ne.symm hhp)).mpr (by simp [AttachFDs.rawSet]))
  have hraw : ∀ fd ∈ AttachFDs.rawSet ⟨region, hp, ph, burst⟩, fd ≠ hp → fd ≠ ph →
      fd ∈ ((AttachFDs.rawSet ⟨region, hp, ph, burst⟩).erase hp).erase ph := fun fd hfd hh hp =>
    (List.mem_erase_of_ne hp).mpr ((List.mem_erase_of_ne hh).mpr hfd)
  have hregion := hraw region (by simp [AttachFDs.rawSet]) hrh hrp
  refine h₀.checked (h₀.checked (h₁.checked (h₁.checked (h₂.checked (h₂.checked ?_)))))
  cases burst with
  | none =>
    have h₃ := h₂.close hregion
    exact h₂.checked (h₂.checked (h₃.checked (h₃.checked (h₃.checked (h₃.checked (h₃.checked (.refl _)))))))
  | some burst =>
    simp only [Option.toList, List.mem_singleton] at hrb hhb hpb
    have h₃ := h₂.wrap (hraw burst (by simp [AttachFDs.rawSet]) (Ne.symm hhb) (Ne.symm hpb))
    have h₄ := h₃.close ((List.mem_erase_of_ne hrb).mpr hregion)
    have h₅ := h₄.again (.head _)
    exact h₃.checked (h₃.checked (h₄.checked (h₅.checked (h₅.checked (h₅.checked (h₅.checked (.refl _)))))))

theorem attachSHM_some {fails : AttachStep → Bool} {a : AttachFDs} {closed : List Nat} {o : Attached}
    (h : attachSHM fails a = (closed, some o)) : closed = [a.region] ∧ o = ⟨a.hp, a.ph, a.burst⟩ := by
  obtain ⟨region, hp, ph, burst⟩ := a
  simp only [attachSHM, Attaching.checked_some] at h
  obtain ⟨-, -, -, -, -, -, -, -, -, -, -, -, -, heq⟩ := h
  cases burst <;> cases heq <;> exact ⟨rfl, rfl⟩

/-- **No descriptor is leaked or closed twice**, exactly if none is stranded by the parsing of the control data; and a
plugin that attaches has closed the region's and owns the others. -/
theorem descriptors_settled (fails : AttachStep → Bool) (tuple : Tuple) (d : Datagram) (hnd : d.received.Nodup) :
    (Settled d.received Prod.snd (recvFDs d) ↔ d.stranded = []) ∧
    (Settled d.received AttachFDs.rawSet (recvAttachFDs tuple d) ↔ d.stranded = []) ∧
    (Settled d.received (fun o => o.hp :: o.ph :: o.burst.toList) (pluginAttachSHM fails tuple d) ↔ d.stranded = []) ∧
    ∀ closed o, pluginAttachSHM fails tuple d = (closed, some o) →
      ∃ region, closed = [region] ∧ d.received = region :: o.hp :: o.ph :: o.burst.toList := by
  refine ⟨?_, ?_, ?_, fun closed o heq => ?_⟩
  · rcases recvFDs_settled d with ⟨closed, heq, hclosed⟩ | ⟨msg, heq, hnil⟩
    · rw [heq]
      exact settled_closed hclosed
    · rw [heq]
      exact iff_of_true (.refl _) hnil
  · rcases recvAttachFDs_settled tuple d with ⟨closed, heq, hclosed⟩ | ⟨a, heq, hall, hnil⟩
    · rw [heq]
      exact settled_closed hclosed
    · rw [heq, ← hall]
      exact iff_of_true (.refl _) hnil
  · unfold pluginAttachSHM
    rcases recvAttachFDs_settled tuple d with ⟨closed, heq, hclosed⟩ | ⟨a, heq, hall, hnil⟩
    · rw [heq]
      exact settled_closed hclosed
    · rw [heq, ← hall]
      exact iff_of_true (attachSHM_settled fails a (hall ▸ hnd)) hnil
  · unfold pluginAttachSHM at heq
    rcases recvAttachFDs_settled tuple d with ⟨closed, hrecv, -⟩ | ⟨a, hrecv, hall, -⟩
    · rw [hrecv] at heq
      cases heq
    · rw [hrecv] at heq
      obtain ⟨rfl, rfl⟩ := attachSHM_some heq
      exact ⟨a.region, rfl, hall.symm⟩

/-- Ancillary data whose first entry is not a rights entry. -/
def strangerFirst : Datagram := ⟨[.other, .rights [5, 6, 7]], false, false, some (.attachRegion 3 0)⟩

/-- The three descriptors behind it stay open. -/
theorem stranger_strands : strangerFirst.received.Nodup ∧ recvFDs strangerFirst = ([], none) ∧
    ¬ Settled strangerFirst.received Prod.snd (recvFDs strangerFirst) :=
  ⟨by decide, rfl, fun h => absurd h.length_eq (by decide)⟩

/-- The same with the rights entry first. -/
def rightsFirst : Datagram := { strangerFirst with cmsgs := [.rights [5, 6, 7]] }

theorem descriptors_settled_rights : rightsFirst.received.Nodup ∧ rightsFirst.stranded = [] ∧
    Settled rightsFirst.received Prod.snd (recvFDs rightsFirst) :=
  ⟨by decide, rfl, (descriptors_settled (fun _ => false) ⟨1, transportSHM, 1, ∅, "proto"⟩ rightsFirst (by decide)).1.mpr rfl⟩

end Styx.Descriptors
