/-
Two stream tables joined by a reliable transport, each lane first in first out and the
lifecycle lane free to overtake the data lane.

An act is a step of one side's table or the delivery of the frame at the head of a lane.
The calls of a connection share its lanes, its tables and its emitters, and are otherwise
apart: a step of the link is a step of one call (`Call`), with every other call as it was.
-/
import Styx.Stream.Call

namespace Styx

open Machine Function Styx.Stream

/-- Both engines, with equal limits on the two ends of each direction. A call names a
method, and both ends have its shape. -/
structure LinkConfig where
  table : StreamSide → TableConfig
  method : UInt64 → StreamShape
  side : ∀ side, (table side).side = side
  inline : ∀ side, (table side).policy.sendInline = (table side.peer).policy.recvInline
  ceiling : ∀ side, (table side).policy.ceiling = (table side.peer).policy.ceiling

def LinkConfig.policies (cfg : LinkConfig) : Policies := ⟨fun side => (cfg.table side).policy, cfg.inline, cfg.ceiling⟩

/-- The lanes are by the side that publishes on them. -/
structure Link where
  table : StreamSide → Table
  data : StreamSide → List (UInt64 × StreamFrame)
  life : StreamSide → List (UInt64 × StreamFrame)

namespace Link

def start : Link := ⟨fun _ => .empty, fun _ => [], fun _ => []⟩

def onLane (lane : StreamLane) (out : List Sent) : List (UInt64 × StreamFrame) :=
  out.filterMap fun x => if x.lane = lane then some (x.callID, x.frame) else none

inductive Act
  | run (side : StreamSide) (a : Table.Act)
  /-- `registered` and `budget` are for a `STREAM_OPEN`. -/
  | deliver (side : StreamSide) (lane : StreamLane) (registered : Bool) (budget : Int)
  deriving DecidableEq

def own (cfg : LinkConfig) : Table.Act → Bool
  | .inbound _ _ | .onStreamOpen _ _ _ _ _ => false
  | .openClient id scfg _ => scfg.shape = cfg.method id
  | _ => true

/-- A side's table after a step, and what the step published. -/
def put (l : Link) (side : StreamSide) (t : Table) (out : List Sent) : Link :=
  { table := Function.update l.table side t
    data := Function.update l.data side (l.data side ++ onLane .data out)
    life := Function.update l.life side (l.life side ++ onLane .life out) }

/-- The accepter's reader has `STREAM_OPEN` apart. -/
def receive (cfg : LinkConfig) (l : Link) (side : StreamSide) (id : UInt64) (f : StreamFrame) (registered : Bool)
    (budget : Int) : Table × Bool :=
  match side, f with
  | .server, .streamOpen control payload =>
    (l.table .server).onStreamOpen (cfg.table .server) id (if registered then some (cfg.method id) else none) control
      budget payload
  | side, f => (l.table side).dispatch (cfg.table side) id f

def step (cfg : LinkConfig) (l : Link) : Act → Option Link
  | .run side a =>
    if own cfg a then
      match (l.table side).step (cfg.table side) a with
      | none => none
      | some (t, out) => some (l.put side t out)
    else none
  | .deliver side .data registered budget =>
    match l.data side.peer with
    | [] => none
    | (id, f) :: rest =>
      some { l with
        table := Function.update l.table side (l.receive cfg side id f registered budget).1
        data := Function.update l.data side.peer rest }
  | .deliver side .life registered budget =>
    match l.life side.peer with
    | [] => none
    | (id, f) :: rest =>
      some { l with
        table := Function.update l.table side (l.receive cfg side id f registered budget).1
        life := Function.update l.life side.peer rest }

/-- Whether a delivery is answered without `ErrStreamConformance`. -/
def conforms (cfg : LinkConfig) (l : Link) : Act → Bool
  | .run _ _ => true
  | .deliver side .data registered budget =>
    match l.data side.peer with
    | [] => true
    | (id, f) :: _ => (l.receive cfg side id f registered budget).2
  | .deliver side .life registered budget =>
    match l.life side.peer with
    | [] => true
    | (id, f) :: _ => (l.receive cfg side id f registered budget).2

/-- **The transport is reliable**: no `Send` is answered by a closed or poisoned one. -/
def Reliable (_ : Link) : Act → Prop
  | .run _ (.stream _ (.sender (.transmit .connErr))) => False
  | _ => True

/-! ## One call of the link -/

def ofCall (id : UInt64) (lane : List (UInt64 × StreamFrame)) : List StreamFrame :=
  lane.filterMap fun x => if x.1 = id then some x.2 else none

def call (l : Link) (id : UInt64) : Call :=
  ⟨fun side => (l.table side).streams id, id ∈ (l.table .server).used, fun side => ofCall id (l.data side),
    fun side => ofCall id (l.life side)⟩

variable {cfg : LinkConfig} {l l' : Link} {side : StreamSide} {id id' : UInt64} {f : StreamFrame} {t : Table}
  {out : List Sent} {effects : List Effect} {rest : List (UInt64 × StreamFrame)}

theorem ofCall_append {lane lane' : List (UInt64 × StreamFrame)} :
    ofCall id (lane ++ lane') = ofCall id lane ++ ofCall id lane' := by
  simp [ofCall, List.filterMap_append]

theorem ofCall_cons_self : ofCall id ((id, f) :: rest) = f :: ofCall id rest := by
  simp [ofCall]

theorem ofCall_cons_ne (h : id' ≠ id) : ofCall id ((id', f) :: rest) = ofCall id rest := by
  simp [ofCall, h]

theorem update_apply_comp {α β : Type} (g : α → β) (h : StreamSide → α) (a : α) :
    (fun side' => g (update h side a side')) = update (fun side' => g (h side')) side (g a) := by
  funext side'
  by_cases hs : side' = side
  · subst hs
    simp
  · simp [update_of_ne hs]

theorem call_mk {data life : StreamSide → List (UInt64 × StreamFrame)} :
    (Link.mk (update l.table side t) data life).call id = ⟨update (l.call id).stream side (t.streams id),
        if side = .server then id ∈ t.used else (l.call id).taken,
        fun side => ofCall id (data side), fun side => ofCall id (life side)⟩ := by
  unfold call
  ext1
  · exact update_apply_comp (fun t : Table => t.streams id) _ _
  · cases side <;> simp
  · rfl
  · rfl

theorem call_put : (l.put side t out).call id = ⟨update (l.call id).stream side (t.streams id),
      if side = .server then id ∈ t.used else (l.call id).taken,
      update (l.call id).data side ((l.call id).data side ++ ofCall id (onLane .data out)),
      update (l.call id).life side ((l.call id).life side ++ ofCall id (onLane .life out))⟩ := by
  unfold put
  rw [call_mk, update_apply_comp, update_apply_comp, ofCall_append, ofCall_append]
  rfl

theorem taken_same (hu : id ∈ t.used ↔ id ∈ (l.table side).used) :
    (if side = .server then decide (id ∈ t.used) else (l.call id).taken) = (l.call id).taken := by
  cases side with
  | client => rfl
  | server => simp [call, hu]

theorem stream_same (hst : t.streams id = (l.table side).streams id) :
    update (l.call id).stream side (t.streams id) = (l.call id).stream := by
  rw [hst]
  exact update_eq_self side (l.call id).stream

theorem call_put_same (hst : t.streams id = (l.table side).streams id)
    (hu : id ∈ t.used ↔ id ∈ (l.table side).used) (hd : ofCall id (onLane .data out) = [])
    (hl : ofCall id (onLane .life out) = []) : (l.put side t out).call id = l.call id := by
  rw [call_put, stream_same hst, taken_same hu, hd, hl, List.append_nil, List.append_nil, update_eq_self,
    update_eq_self]

theorem ofCall_take (lanes : StreamSide → List (UInt64 × StreamFrame)) :
    (fun side' => ofCall id (update lanes side rest side')) =
      update (fun side' => ofCall id (lanes side')) side (ofCall id rest) :=
  update_apply_comp (ofCall id) lanes rest

theorem ofCall_take_ne {lanes : StreamSide → List (UInt64 × StreamFrame)} (hhead : lanes side = (id, f) :: rest)
    (hne : id ≠ id') : (fun side' => ofCall id' (update lanes side rest side')) = fun side' => ofCall id' (lanes side') := by
  rw [ofCall_take, update_eq_iff]
  exact ⟨by rw [hhead, ofCall_cons_ne hne], fun _ _ => rfl⟩

/-! Frames of a stream's step. -/

theorem ofCall_sentOf_data (id : UInt64) (effects : List Effect) :
    ofCall id (onLane .data (effects.filterMap (Table.sentOf id))) = effects.filterMap Effect.dataFrame := by
  induction effects with
  | nil => rfl
  | cons x xs ih =>
    unfold ofCall onLane at *
    cases x <;> simp_all [List.filterMap_cons, Table.sentOf, Effect.dataFrame]

theorem ofCall_sentOf_life (id : UInt64) (effects : List Effect) :
    ofCall id (onLane .life (effects.filterMap (Table.sentOf id))) = effects.filterMap Effect.lifeFrame := by
  induction effects with
  | nil => rfl
  | cons x xs ih =>
    unfold ofCall onLane at *
    cases x <;> simp_all [List.filterMap_cons, Table.sentOf, Effect.lifeFrame]

theorem ofCall_onLane_nil {lane : StreamLane} (h : ∀ x ∈ out, x.callID ≠ id) : ofCall id (onLane lane out) = [] := by
  refine List.filterMap_eq_nil_iff.mpr fun y hy => ?_
  obtain ⟨x, hx, hxy⟩ := List.mem_filterMap.mp hy
  obtain ⟨-, ⟨⟩⟩ := guard_some hxy
  exact if_neg (h x hx)

theorem callID_sentOf {x : Sent} (hx : x ∈ effects.filterMap (Table.sentOf id)) : x.callID = id := by
  obtain ⟨y, -, hy⟩ := List.mem_filterMap.mp hx
  unfold Table.sentOf at hy
  split at hy <;> cases hy <;> rfl

/-! ## What a table keeps -/

end Link

/-- The map and the numbers of a table: a live stream is in the map, and what is in the
map or was has its number. -/
structure Table.Tidy (t : Table) : Prop where
  used : ∀ id s, t.streams id = some s → id ∈ t.used
  live : t.live ⊆ t.used
  mapped : ∀ id s, t.streams id = some s → s.isLive = true → id ∈ t.live

namespace Stream

variable {s s' : Stream} {e : Env} {a : Act} {effects : List Effect}

theorem Ends.isLive (h : Ends s s') (hl : s'.isLive = true) : s.isLive = true := by
  cases h with
  | same => exact hl
  | ended _ _ _ _ hlive => exact hlive

theorem isLive_of_step (hs : s.step e a = some (s', effects)) (hl : s'.isLive = true) : s.isLive = true := by
  cases a with
  | opener a =>
    obtain ⟨s₁, phase, _, _, _, _, hends, hphase, -, rfl⟩ := openerStep_frame hs
    refine hends.isLive ?_
    rcases hphase with rfl | ⟨hph, -⟩
    · exact hl
    · simp [isLive, hph]
  | sender a =>
    obtain ⟨s₁, _, _, _, _, _, _, _, hends, rfl⟩ := senderStep_frame hs
    exact hends.isLive hl
  | receiver a =>
    obtain ⟨⟨_, _, _, _, _, _, _, rfl⟩, -⟩ := receiverStep_frame hs
    exact hl
  | acker a =>
    obtain ⟨_, _, _, _, _, _, rfl⟩ := ackStep_frame hs
    exact hl
  | finisher a =>
    obtain ⟨_, _, _, _, rfl⟩ := finishStep_frame hs
    exact hl
  | ending a => exact (endStep_ends hs).1.isLive hl

theorem isLive_of_dispatch {p : ChunkPolicy} {f : StreamFrame} (hl : (s.dispatch p f).1.isLive = true) : s.isLive = true := by
  obtain ⟨_, _, _, _, _, _, -, hends⟩ := dispatch_frame s p f
  exact hends.isLive hl

theorem ended_of_remove (ht : s.TearSound)
    (hs : s.step e a = some (s', effects)) (hr : Effect.remove ∈ effects) : s.isLive = false := by
  cases a with
  | opener a =>
    rcases (openerStep_effects hs).1 with rfl | ⟨-, rfl⟩ <;> simp at hr
  | sender a => exact absurd rfl (senderStep_effects hs _ hr).2.1
  | receiver a => exact absurd rfl (arm_effects (receiverStep_frame hs).2 _ hr).2.2
  | acker a => exact absurd rfl (ackStep_effects hs _ hr).2.1
  | finisher a =>
    have hpc := (finishStep_effects hs _ hr).2.1 rfl
    by_contra hl
    have := (ht.live (by simpa using hl)).2.1
    simp [hpc] at this
  | ending a =>
    obtain ⟨-, rfl⟩ := endStep_ends hs
    cases hr

end Stream

namespace Table

variable {t t' : Table} {id : UInt64} {out : List Sent} {s s' : Stream} {effects : List Effect}

theorem Tidy.empty : Tidy .empty := ⟨by simp [Table.empty], Finset.empty_subset _, by simp [Table.empty]⟩

theorem Tidy.same (h : t.Tidy) (hst : t'.streams = t.streams) (hu : t.used ⊆ t'.used) (hl : t'.live = t.live) :
    t'.Tidy :=
  ⟨fun id s hs => hu (h.used id s (hst ▸ hs)), hl ▸ h.live.trans hu,
    fun id s hs hlive => hl ▸ h.mapped id s (hst ▸ hs) hlive⟩

theorem Tidy.wrote (h : t.Tidy) (hw : Wrote t id t' out s s' effects) (hlive : s'.isLive = true → s.isLive = true)
    (hremove : .remove ∈ effects → s.isLive = false) : t'.Tidy := by
  refine ⟨fun id₁ s₁ hs₁ => ?_, ?_, fun id₁ s₁ hs₁ hl₁ => ?_⟩
  · rw [hw.used]
    rcases update_eq_some (hw.streams ▸ hs₁) with ⟨rfl, -⟩ | ⟨-, hs₁⟩
    · exact h.used id₁ s hw.stream
    · exact h.used id₁ s₁ hs₁
  · rw [hw.used, hw.live]
    split
    · exact (Finset.erase_subset _ _).trans h.live
    · exact h.live
  · rw [hw.live]
    rcases update_eq_some (hw.streams ▸ hs₁) with ⟨rfl, rfl⟩ | ⟨hid, hs₁⟩
    · rw [if_neg fun hr => by simp [hremove hr] at hlive; simp [hl₁] at hlive]
      exact h.mapped id₁ s hw.stream (hlive hl₁)
    · have hmem := h.mapped id₁ s₁ hs₁ hl₁
      split
      · exact Finset.mem_erase.mpr ⟨hid, hmem⟩
      · exact hmem

theorem Tidy.admitStream (h : t.Tidy) (cfg : TableConfig) (id : UInt64) (s : Stream) :
    (t.admitStream cfg id s).Tidy := by
  refine ⟨fun id₁ s₁ hs₁ => ?_, Finset.insert_subset_insert id h.live, fun id₁ s₁ hs₁ hl₁ => ?_⟩ <;>
  · change update t.streams id (some s) id₁ = some s₁ at hs₁
    refine Finset.mem_insert.mpr (or_iff_not_imp_left.mpr fun hid => ?_)
    rw [update_of_ne hid] at hs₁
    first
    | exact h.used id₁ s₁ hs₁
    | exact h.mapped id₁ s₁ hs₁ hl₁

/-- On a tidy table a frame is dispatched to its stream, whether or not it is still in the
map: one that has left the map has ended, and discards it. -/
theorem Tidy.dispatch (h : t.Tidy) (cfg : TableConfig) (id : UInt64) (f : StreamFrame) :
    (t.dispatch cfg id f).1 = { t with
      streams := update t.streams id ((t.streams id).map fun s => (s.dispatch cfg.policy f).1), drained := false } ∧
    ((∀ s, t.streams id = some s → (s.dispatch cfg.policy f).2 = true) → (t.dispatch cfg id f).2 = true) := by
  simp only [Table.dispatch]
  split
  · next hmem =>
    split
    · next hn => exact ⟨by rw [hn, Option.map_none, ← hn, update_eq_self], fun _ => rfl⟩
    · next s hs => exact ⟨by rw [hs]; rfl, fun hok => hok s hs⟩
  · next hmem =>
    refine ⟨?_, fun _ => rfl⟩
    cases hs : t.streams id with
    | none => rw [Option.map_none, ← hs, update_eq_self]
    | some s =>
      have hended : s.isLive = false := by
        by_contra hl
        exact hmem (h.mapped id s hs (by simpa using hl))
      rw [Option.map_some, show (s.dispatch cfg.policy f).1 = s by simp [Stream.dispatch, hended], ← hs,
        update_eq_self]

end Table

namespace Link

/-! ## What a step is to each call -/

variable {cfg : LinkConfig} {l l' : Link} {side : StreamSide} {id id' : UInt64} {f : StreamFrame} {t : Table}
  {out : List Sent} {effects : List Effect} {rest : List (UInt64 × StreamFrame)} {s s' : Stream} {lax : Bool}
  {lbl : UInt64 → Option (StreamSide × Stream.Act)} {a : Act}

/-- The act of one of a call's streams. -/
def actOf (id : UInt64) : Act → Option (StreamSide × Stream.Act)
  | .run side (.stream id' a) => if id' = id then some (side, a) else none
  | _ => none

theorem actOf_some {a' : Stream.Act} (h : actOf id a = some (side, a')) : a = .run side (.stream id a') := by
  unfold actOf at h
  split at h
  · obtain ⟨rfl, ⟨⟩⟩ := guard_some h
    rfl
  · cases h

/-- The tables stay tidy, and the step is a step of each call. -/
structure Moves (cfg : LinkConfig) (l : Link) (lbl : UInt64 → Option (StreamSide × Stream.Act)) (l' : Link) : Prop where
  tidy : ∀ side, (l'.table side).Tidy
  call : ∀ id, CallStep cfg.policies (cfg.method id) (l.call id) (lbl id) (l'.call id)

theorem Moves.update (h : ∀ side, (l.table side).Tidy) {data life : StreamSide → List (UInt64 × StreamFrame)} (ht : t.Tidy)
    (hcall : ∀ id, CallStep cfg.policies (cfg.method id) (l.call id) (lbl id)
      ((Link.mk (Function.update l.table side t) data life).call id)) :
    Moves cfg l lbl ⟨Function.update l.table side t, data, life⟩ :=
  ⟨(Function.forall_update_iff l.table fun _ t => t.Tidy).mpr ⟨ht, fun side' _ => h side'⟩, hcall⟩

theorem Moves.wrote (h : ∀ side, (l.table side).Tidy) (hw : Table.Wrote (l.table side) id t out s s' effects)
    (hlive : s'.isLive = true → s.isLive = true) (hremove : .remove ∈ effects → s.isLive = false)
    (hcall : CallStep cfg.policies (cfg.method id) (l.call id) (lbl id) { l.call id with
      stream := Function.update (l.call id).stream side (some s')
      data := Function.update (l.call id).data side ((l.call id).data side ++ effects.filterMap Effect.dataFrame)
      life := Function.update (l.call id).life side ((l.call id).life side ++ effects.filterMap Effect.lifeFrame) })
    (hlbl : ∀ id', id ≠ id' → lbl id' = none) : Moves cfg l lbl (l.put side t out) := by
  refine .update h ((h side).wrote hw hlive hremove) fun id' => ?_
  change CallStep _ _ _ _ ((l.put side t out).call id')
  have hu : ∀ id', id' ∈ t.used ↔ id' ∈ (l.table side).used := fun id' => by rw [hw.used]
  by_cases hid : id = id'
  · subst hid
    rw [call_put, taken_same (hu id), hw.out, ofCall_sentOf_data, ofCall_sentOf_life,
      show t.streams id = some s' by rw [hw.streams, Function.update_self]]
    exact hcall
  · have hout : ∀ x ∈ out, x.callID ≠ id' := fun x hx => by
      rw [callID_sentOf (hw.out ▸ hx)]
      exact hid
    rw [call_put_same (by rw [hw.streams, Function.update_of_ne (Ne.symm hid)]) (hu id') (ofCall_onLane_nil hout)
      (ofCall_onLane_nil hout), hlbl id' hid]
    exact .same

theorem Moves.quiet (h : ∀ side, (l.table side).Tidy) (hst : t.streams = (l.table side).streams)
    (hu : t.used = (l.table side).used) (hl : t.live = (l.table side).live)
    (hout : out = [] ∨ ∃ id status, out = [⟨.data, id, .streamErr status⟩]) :
    Moves cfg l (fun _ => none) (l.put side t out) := by
  refine .update h ((h side).same hst hu.ge hl) fun id => ?_
  change CallStep _ _ _ _ ((l.put side t out).call id)
  have hst' : t.streams id = (l.table side).streams id := by rw [hst]
  have hu' : id ∈ t.used ↔ id ∈ (l.table side).used := by rw [hu]
  rcases hout with rfl | ⟨id', status, rfl⟩
  · rw [call_put_same hst' hu' rfl rfl]
    exact .same
  by_cases hid : id' = id
  · subst hid
    have herr : CallStep cfg.policies (cfg.method id') (l.call id') none _ := .err side status
    rw [call_put, stream_same hst', taken_same hu']
    simpa [onLane, ofCall] using herr
  · have hne : ∀ x ∈ [Sent.mk .data id' (.streamErr status)], x.callID ≠ id := by simpa using hid
    rw [call_put_same hst' hu' (ofCall_onLane_nil hne) (ofCall_onLane_nil hne)]
    exact .same

theorem proposed_bounds (credits : Nat) :
    0 < Table.proposed credits ∧ Table.proposed credits ≤ defaultStreamCredit := by
  unfold Table.proposed
  split
  · exact ⟨by decide, Nat.le_refl _⟩
  · omega

theorem Moves.opens (h : ∀ side, (l.table side).Tidy) {scfg : StreamConfig} (hnew : id ∉ (l.table .client).used)
    (hshape : scfg.shape = cfg.method id) (hpos : 0 < scfg.credits) (hle : scfg.credits ≤ defaultStreamCredit) :
    Moves cfg l (fun _ => none)
      (l.put .client ((l.table .client).admitStream (cfg.table .client) id (newStream .client scfg)) []) := by
  refine .update h ((h .client).admitStream _ _ _) fun id' => ?_
  change CallStep _ _ _ _ ((l.put .client ((l.table .client).admitStream _ id (newStream .client scfg)) []).call id')
  rw [call_put]
  by_cases hid : id' = id
  · subst hid
    have hnone : (l.call id').stream .client = none := by
      refine Option.eq_none_iff_forall_not_mem.mpr fun s hs => hnew ?_
      exact (h .client).used id' s hs
    have hopen : CallStep cfg.policies (cfg.method id') (l.call id') none _ := .opens scfg hnone hshape hpos hle
    simpa [Table.admitStream, Table.setStream, onLane, ofCall] using hopen
  · have hst : ((l.table .client).admitStream (cfg.table .client) id (newStream .client scfg)).streams id' =
        (l.table .client).streams id' := Function.update_of_ne hid _ _
    rw [stream_same hst]
    simpa [onLane, ofCall] using CallStep.same

/-! ## The invariant -/

/-- The response a client-streaming method's server passes to `CloseSend` has bytes, unless `lax`. -/
def Responding (lax : Bool) (l : Link) : Act → Prop
  | .run side (.stream id (.sender (.closeSend payload))) =>
    lax = true ∨ (((l.table side).streams id).any Stream.responds = true → payload ≠ [])
  | _ => True

instance (lax : Bool) (l : Link) (a : Act) : Decidable (Responding lax l a) := by
  unfold Responding
  split <;> infer_instance

theorem Responding.of_lax (l : Link) (a : Act) : Responding true l a := by
  unfold Responding
  split
  · exact .inl rfl
  · trivial

structure Inv (lax : Bool) (cfg : LinkConfig) (l : Link) : Prop where
  tidy : ∀ side, (l.table side).Tidy
  call : ∀ id, CallInv lax cfg.policies (cfg.method id) (l.call id)
  answers : ∀ id side X, (l.call id).stream side = some X → X.Answers lax

theorem inv_start (cfg : LinkConfig) : Inv lax cfg start :=
  ⟨fun _ => .empty, fun _ => .fresh (fun _ => rfl) rfl (by simp [call, start, ofCall, Errs]) fun _ => rfl,
    fun _ _ _ hX => by cases hX⟩

/-- **A step of one side.** -/
theorem Inv.ran {a : Table.Act} (h : Inv lax cfg l) (hown : own cfg a = true)
    (hrel : ∀ id, a ≠ .stream id (.sender (.transmit .connErr)))
    (hs : (l.table side).step (cfg.table side) a = some (t, out)) :
    Moves cfg l (actOf · (.run side a)) (l.put side t out) := by
  cases a with
  | openClient id scfg budget =>
    obtain ⟨hok, hs⟩ := guard_some hs
    obtain ⟨hside, hnew, -⟩ := hok
    rw [cfg.side] at hside
    subst hside
    cases hs
    obtain ⟨hpos, hle⟩ := proposed_bounds scfg.credits
    exact .opens h.tidy hnew (by simpa [own] using hown) hpos hle
  | onStreamOpen | inbound => cases hown
  | stream id a =>
    obtain ⟨s, s', effects, -, hstep, hw⟩ := Table.streamStep_some hs
    have hsound := (h.call id).sound (show (l.call id).stream side = some s from hw.stream)
    refine .wrote h.tidy hw (Stream.isLive_of_step hstep) (Stream.ended_of_remove hsound.tear hstep) ?_
      fun id' hne => if_neg hne
    simp only [actOf, if_true]
    exact .step side hw.stream hstep rfl fun ha => hrel id (ha ▸ rfl)
  | sweep id =>
    obtain ⟨s, -, hw⟩ := Table.sweepStep_some hs
    obtain ⟨⟨armed, heq⟩, heff⟩ := arm_frame (show s.arm = (s.arm.1, s.arm.2) from rfl)
    have harm := arm_effects heff
    refine .wrote h.tidy hw (by rw [heq]; exact fun hl => hl) (fun hr => absurd rfl (harm _ hr).2.2) ?_ fun _ _ => rfl
    rw [frames_nil fun x hx => (harm x hx).1, frames_nil fun x hx => (harm x hx).2.1, List.append_nil, List.append_nil,
      update_eq_self, update_eq_self]
    exact .arm side hw.stream
  | readerDrained | markClosing =>
    cases hs
    exact .quiet h.tidy rfl rfl rfl (.inl rfl)
  | emitTake =>
    obtain ⟨t', ht', heq⟩ := Option.map_eq_some_iff.mp hs
    cases heq
    unfold Table.emitTake at ht'
    split at ht' <;> cases ht'
    exact .quiet h.tidy rfl rfl rfl (.inl rfl)
  | emitSend ok =>
    simp only [Table.step, Table.emitSend] at hs
    split at hs <;> cases hs
    next job hjob =>
    refine .quiet h.tidy rfl rfl rfl ?_
    cases ok with
    | true => exact .inr ⟨job.callID, job.status, rfl⟩
    | false => exact .inl rfl
  | emitSettle =>
    obtain ⟨t', ht', heq⟩ := Option.map_eq_some_iff.mp hs
    cases heq
    unfold Table.emitSettle at ht'
    split at ht' <;> cases ht'
    split <;> exact .quiet h.tidy rfl rfl rfl (.inl rfl)

/-! ### Deliveries -/

section Deliver

variable {registered : Bool} {budget : Int} {data life : StreamSide → List (UInt64 × StreamFrame)}

theorem callStep_others (hst : t.streams id' = (l.table side).streams id')
    (hu : id' ∈ t.used ↔ id' ∈ (l.table side).used) (hdata : (fun side' => ofCall id' (data side')) = (l.call id').data)
    (hlife : (fun side' => ofCall id' (life side')) = (l.call id').life) :
    CallStep cfg.policies (cfg.method id') (l.call id') none ((Link.mk (update l.table side t) data life).call id') := by
  rw [call_mk, stream_same hst, taken_same hu, hdata, hlife]
  exact .same

theorem Moves.dispatched (h : ∀ side, (l.table side).Tidy)
    (hopen : side = .server → ∀ credits payload, f ≠ .streamOpen credits payload)
    (hok : ∀ X, (l.call id).stream side = some X → (X.dispatch (cfg.policies.of side) f).2 = true)
    (hcall : CallStep cfg.policies (cfg.method id) (l.call id) none
      ⟨CallInv.dispatched cfg.policies (l.call id) side f, (l.call id).taken,
        fun side' => ofCall id (data side'), fun side' => ofCall id (life side')⟩)
    (hdata : ∀ id', id ≠ id' → (fun side' => ofCall id' (data side')) = (l.call id').data)
    (hlife : ∀ id', id ≠ id' → (fun side' => ofCall id' (life side')) = (l.call id').life) :
    (l.receive cfg side id f registered budget).2 = true ∧ Moves cfg l (fun _ => none)
      ⟨Function.update l.table side (l.receive cfg side id f registered budget).1, data, life⟩ := by
  have hreceive : l.receive cfg side id f registered budget = (l.table side).dispatch (cfg.table side) id f := by
    unfold receive
    split
    · exact absurd rfl (hopen rfl _ _)
    · rfl
  obtain ⟨heq, hok'⟩ := (h side).dispatch (cfg.table side) id f
  rw [hreceive, heq]
  refine ⟨hok' hok, .update h ?_ fun id' => ?_⟩
  · refine ⟨fun id₁ s₁ hs₁ => ?_, (h side).live, fun id₁ s₁ hs₁ hl₁ => ?_⟩ <;>
    · change Function.update (l.table side).streams id _ id₁ = some s₁ at hs₁
      by_cases hid : id₁ = id
      · subst hid
        rw [Function.update_self] at hs₁
        obtain ⟨s, hs, rfl⟩ := Option.map_eq_some_iff.mp hs₁
        first
        | exact (h side).used id₁ s hs
        | exact (h side).mapped id₁ s hs (Stream.isLive_of_dispatch hl₁)
      · rw [Function.update_of_ne hid] at hs₁
        first
        | exact (h side).used id₁ s₁ hs₁
        | exact (h side).mapped id₁ s₁ hs₁ hl₁
  · by_cases hid : id' = id
    · subst hid
      rw [call_mk, taken_same Iff.rfl]
      simp only [Function.update_self]
      exact hcall
    · exact callStep_others (Function.update_of_ne hid _ _) Iff.rfl (hdata id' (Ne.symm hid)) (hlife id' (Ne.symm hid))

/-- The accepter takes the `STREAM_OPEN` of a call it has not seen: it is not faulted, and
is admitted or refused. -/
theorem Inv.openTaken (h : Inv lax cfg l) {control : Nat} {payload : Bytes}
    (hhead : l.data .client = (id, .streamOpen control payload) :: rest) :
    (l.receive cfg .server id (.streamOpen control payload) registered budget).2 = true ∧ Moves cfg l (fun _ => none)
        ⟨update l.table .server (l.receive cfg .server id (.streamOpen control payload) registered budget).1,
          update l.data .client rest, l.life⟩ := by
  have hcall : (l.call id).data .client = .streamOpen control payload :: ofCall id rest := by
    simp [Link.call, hhead, ofCall_cons_self]
  obtain ⟨-, htaken, hpos, hle, -, -⟩ := (h.call id).openTaken hcall
  have hnew : id ∉ (l.table .server).used := by simpa [Link.call] using htaken
  simp only [receive]
  rcases Table.onStreamOpen_cases (cfg.table .server) (l.table .server) id
      (if registered then some (cfg.method id) else none) control budget payload with
    ⟨hfault, -⟩ | ⟨jobs, -, heq⟩ | ⟨shape, hreg, heq⟩
  · rcases hfault with hctl | hlive
    · rw [Nat.shiftRight_eq_div_pow, Nat.div_eq_of_lt (Nat.lt_of_le_of_lt hle (by decide))] at hctl
      exact absurd rfl hctl
    · exact absurd ((h.tidy .server).live hlive) hnew
  · rw [heq]
    refine ⟨rfl, .update h.tidy ((h.tidy .server).same rfl (Finset.subset_insert _ _) rfl) fun id' => ?_⟩
    by_cases hid : id = id'
    · subst hid
      have hstep : CallStep cfg.policies (cfg.method id) (l.call id) none _ := .refuses hcall
      rw [call_mk, stream_same rfl, ofCall_take]
      simpa [Link.call] using hstep
    · exact callStep_others rfl (by simp [Ne.symm hid]) (ofCall_take_ne hhead hid) rfl
  · rw [heq]
    refine ⟨rfl, .update h.tidy ((h.tidy .server).admitStream _ _ _) fun id' => ?_⟩
    by_cases hid : id = id'
    · subst hid
      obtain ⟨-, hreg⟩ := guard_some hreg
      have hstep : CallStep cfg.policies (cfg.method id) (l.call id) none _ := .accepts hcall
      rw [call_mk, ofCall_take, if_neg (Nat.pos_iff_ne_zero.mp hpos)]
      simpa [Table.admitStream, Table.setStream, Option.some.inj hreg, Link.call] using hstep
    · exact callStep_others (update_of_ne (Ne.symm hid) _ _) (by simp [Table.admitStream, Ne.symm hid])
        (ofCall_take_ne hhead hid) rfl

theorem Inv.dataTaken (h : Inv lax cfg l) (hhead : l.data side.peer = (id, f) :: rest) :
    (l.receive cfg side id f registered budget).2 = true ∧ Moves cfg l (fun _ => none)
      ⟨update l.table side (l.receive cfg side id f registered budget).1, update l.data side.peer rest, l.life⟩ := by
  by_cases hopen : side = .server ∧ ∃ control payload, f = .streamOpen control payload
  · obtain ⟨rfl, control, payload, rfl⟩ := hopen
    exact h.openTaken hhead
  have hopen : side = .server → ∀ credits payload, f ≠ .streamOpen credits payload :=
    fun hside credits payload hf => hopen ⟨hside, credits, payload, hf⟩
  have hcall : (l.call id).data side.peer = f :: ofCall id rest := by simp [Link.call, hhead, ofCall_cons_self]
  refine Moves.dispatched h.tidy hopen ((h.call id).dataTaken hcall hopen).1 ?_ (fun id' hne => ofCall_take_ne hhead hne)
    fun id' _ => rfl
  rw [ofCall_take]
  exact .dataTaken side hcall hopen

theorem Inv.lifeTaken (h : Inv lax cfg l) (hhead : l.life side.peer = (id, f) :: rest) :
    (l.receive cfg side id f registered budget).2 = true ∧ Moves cfg l (fun _ => none)
      ⟨update l.table side (l.receive cfg side id f registered budget).1, l.data, update l.life side.peer rest⟩ := by
  have hcall : (l.call id).life side.peer = f :: ofCall id rest := by simp [Link.call, hhead, ofCall_cons_self]
  have hopen : side = .server → ∀ credits payload, f ≠ .streamOpen credits payload := by
    rintro - credits payload rfl
    rcases (h.call id).lifeFrame (hcall ▸ List.mem_cons_self) with ⟨v, hv⟩ | ⟨code, hc, -⟩
    · cases hv
    · cases hc
  refine Moves.dispatched h.tidy hopen ((h.call id).lifeTaken hcall).1 ?_ (fun id' _ => rfl)
    fun id' hne => ofCall_take_ne hhead hne
  rw [ofCall_take]
  exact .lifeTaken side hcall

end Deliver

/-- **A step of the link is one step of a call**, with every other call as it was. -/
theorem Inv.moves (h : Inv lax cfg l) (hrel : Reliable l a) (hs : l.step cfg a = some l') : Moves cfg l (actOf · a) l' := by
  cases a with
  | run side a =>
    obtain ⟨hown, hs⟩ := guard_some hs
    split at hs <;> cases hs
    next t out hstep =>
    refine h.ran hown (fun id ha => ?_) hstep
    subst ha
    exact hrel
  | deliver side lane registered budget =>
    cases lane <;>
    · simp only [Link.step] at hs
      split at hs <;> cases hs
      next id f rest hhead =>
      first
      | exact (h.dataTaken hhead).2
      | exact (h.lifeTaken hhead).2

theorem Inv.step (h : Inv lax cfg l) (hrel : Reliable l a) (hresp : Responding lax l a)
    (hs : l.step cfg a = some l') : Inv lax cfg l' := by
  have hmoves := h.moves hrel hs
  refine ⟨hmoves.tidy, fun id => (h.call id).next (h.answers id) (hmoves.call id), fun id => ?_⟩
  refine (hmoves.call id).each (h.answers id) (fun _ => .inr (by simp [newStream]))
    (fun _ _ _ => .inr (by simp [Table.acceptedStream, newStream])) ?_ (fun X hX => hX.congr (closing_arm X))
    fun X p f hX => hX.congr (closing_dispatch X p f)
  intro side X X' e a' effects hlbl hX hstep
  refine (h.answers id side X hX).step hstep fun payload ha => ?_
  subst ha
  obtain rfl := actOf_some hlbl
  have hX : (l.table side).streams id = some X := hX
  exact hresp.imp_right fun hne hr => hne (by rw [hX]; exact hr)

theorem inv_reach (cfg : LinkConfig) (h : Reach (Link.step cfg) (fun l a => Reliable l a ∧ Responding lax l a) start l) :
    Inv lax cfg l :=
  h.invariant (inv_start cfg) fun h hg hs => h.step hg.1 hg.2 hs

/-- **Two engines do not fault each other**: in every state of a link whose transport is
reliable, whatever is delivered next is answered without `ErrStreamConformance`, and the
receive queue of a stream with credit `N` has `N + 1` slots and never more items. -/
theorem engines_conform (cfg : LinkConfig) (h : Reach (step cfg) Reliable start l) :
    (∀ a, l.conforms cfg a = true) ∧
      ∀ side id s, (l.table side).streams id = some s →
        s.recvCap = s.recvCredit.granted + 1 ∧ s.recvCh.length ≤ s.recvCap := by
  have hinv : Inv true cfg l := inv_reach cfg (h.mono fun _ _ hrel => ⟨hrel, .of_lax _ _⟩)
  refine ⟨fun a => ?_, fun side id s hs => ?_⟩
  swap
  · have hsound := (hinv.call id).sound (show (l.call id).stream side = some s from hs)
    exact ⟨hsound.cap, hsound.recv.fits⟩
  cases a with
  | run side a => rfl
  | deliver side lane registered budget =>
    cases lane <;>
    · simp only [conforms]
      split
      · rfl
      · next id f rest hhead =>
        first
        | exact (hinv.dataTaken hhead).1
        | exact (hinv.lifeTaken hhead).1

instance (l : Link) (a : Act) : Decidable (Reliable l a) := by
  unfold Reliable
  split <;> infer_instance

def sampleConfig : LinkConfig where
  table side := ⟨side, 1, ⟨true, 64, 4, 4⟩⟩
  method _ := .bidiStreaming
  side _ := rfl
  inline _ := rfl
  ceiling _ := rfl

def exchange : List Act :=
  [.run .client (.openClient 7 ⟨2, .bidiStreaming, []⟩ 1000),
    .run .client (.stream 7 (.opener .publish)), .run .client (.stream 7 (.opener (.send .accepted false))),
    .deliver .server .data true 1000, .run .client (.stream 7 (.opener .confirm)),
    .run .client (.stream 7 (.sender (.sendMsg [1, 2, 3, 4, 5, 6]))), .run .client (.stream 7 (.sender .reserve)),
    .run .client (.stream 7 (.sender (.transmit .accepted))),
    .run .client (.stream 7 (.sender (.transmit (.neverPublished true)))),
    .run .client (.stream 7 (.sender (.transmit .accepted))),
    .deliver .server .data true 0, .deliver .server .data true 0,
    .run .server (.stream 7 (.receiver .pop)), .run .server (.stream 7 (.receiver .deliver)),
    .run .server (.stream 7 (.receiver .arm)), .run .server (.stream 7 (.acker .pop)),
    .run .server (.stream 7 (.acker .check)), .run .server (.stream 7 (.acker .token)),
    .run .server (.stream 7 (.acker .build)), .run .server (.stream 7 (.acker (.send true))),
    .deliver .client .life true 0,
    .run .client (.stream 7 (.sender (.closeSend []))), .run .client (.stream 7 (.sender (.transmit .accepted))),
    .run .server (.stream 7 (.sender (.closeSend []))), .run .server (.stream 7 (.sender (.transmit .accepted))),
    .deliver .server .data true 0]

def exchanged : Link := (run (guarded (step sampleConfig) Reliable) start exchange).get (by decide)

theorem engines_conform_exchange :
    Reach (step sampleConfig) Reliable start exchanged ∧ (∀ a, exchanged.conforms sampleConfig a = true) ∧
      ∀ side id s, (exchanged.table side).streams id = some s →
        s.recvCap = s.recvCredit.granted + 1 ∧ s.recvCh.length ≤ s.recvCap :=
  have hreach : Reach (step sampleConfig) Reliable start exchanged := Reach.of_guarded (Option.some_get _).symm
  ⟨hreach, engines_conform sampleConfig hreach⟩

end Link

end Styx
