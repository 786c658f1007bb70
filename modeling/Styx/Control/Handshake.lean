/-
The handshake's negotiation (`internal/control/handshake.go`): the offers, the tuple both
sides are to agree on, and the messages that carry them.

The plugin computes the tuple and acknowledges it; the host computes it again from the
offer the acknowledgement echoes, and takes it only if the two agree.
-/
import Styx.Lib.Assign
import Mathlib.Data.String.Basic
import Mathlib.Data.List.Sort

namespace Styx.Handshake

open Assign

def transportSHM : String := "shm"

structure FeatureFlag where
  name : String
  required : Bool
  deriving DecidableEq

structure ServiceRequirement where
  service : String
  minVersion : UInt32
  maxVersion : UInt32
  deriving DecidableEq

structure ServiceVersion where
  service : String
  version : UInt32
  deriving DecidableEq

/-- One side's capabilities; only the host's has services. -/
structure Offer where
  protocolMin : UInt32
  protocolMax : UInt32
  features : List FeatureFlag
  transports : List String
  codecs : List String
  services : List ServiceRequirement
  layoutVersions : List UInt32
  deriving DecidableEq

/-- What both sides acknowledge before a region is attached. -/
structure Tuple where
  protocolVersion : UInt32
  transport : String
  layoutVersion : UInt32
  features : Finmap fun _ : String => Bool
  codec : String
  deriving DecidableEq

structure IncompatibleError where
  hostOffer : Offer
  pluginOffer : Offer
  reason : String
  deriving DecidableEq

/-! ## Negotiation -/

/-- The first of the entries both lists have. -/
def firstCommon (a b : List String) : Option String := ((a.filter fun s => s ∈ b).insertionSort (· ≤ ·)).head?

/-- The loop of `highestCommonLayout`. -/
def bestLayout (b : List UInt32) (best : Option UInt32) (v : UInt32) : Option UInt32 :=
  if v ∈ b ∧ best.all (v > ·) then some v else best

def highestCommonLayout (a b : List UInt32) : Option UInt32 := a.foldl (bestLayout b) none

/-- A side's support set. -/
def featureNames (flags : List FeatureFlag) : List String := flags.map FeatureFlag.name

/-- The names are ranged over as the offers list them: the source's order is a map's. -/
def negotiateFeatures (host plugin : Offer) : Except String (Finmap fun _ : String => Bool) :=
  match host.features.find? fun f => f.required && f.name ∉ featureNames plugin.features with
  | some f => .error ("feature " ++ f.name ++ ": required by host, not supported by plugin")
  | none =>
    match plugin.features.find? fun f => f.required && f.name ∉ featureNames host.features with
    | some f => .error ("feature " ++ f.name ++ ": required by plugin, not supported by host")
    | none =>
      let resolved := insertAll ∅ ((featureNames host.features).map fun name =>
        (name, decide (name ∈ featureNames plugin.features)))
      .ok (insertNew resolved (featureNames plugin.features) false)

/-- What is wrong with one required service. -/
def checkService (held : Finmap fun _ : String => UInt32) (req : ServiceRequirement) : Option String :=
  let range := "[" ++ toString req.minVersion ++ "," ++ toString req.maxVersion ++ "]"
  match held.lookup req.service with
  | none => some ("service " ++ req.service ++ ": not advertised by plugin (required range " ++ range ++ ")")
  | some v =>
    if v < req.minVersion ∨ v > req.maxVersion then
      some ("service " ++ req.service ++ ": version " ++ toString v ++ " outside required range " ++ range)
    else none

def checkServices (required : List ServiceRequirement) (advertised : List ServiceVersion) : Option String :=
  required.findSome? (checkService (insertAll ∅ (advertised.map fun sv => (sv.service, sv.version))))

def negotiate (host plugin : Offer) (pluginServices : List ServiceVersion) : Except IncompatibleError Tuple :=
  let fail (reason : String) : Except IncompatibleError Tuple := .error ⟨host, plugin, reason⟩
  let lo := max host.protocolMin plugin.protocolMin
  let hi := min host.protocolMax plugin.protocolMax
  if lo > hi then fail "protocol range: empty intersection"
  else
    match firstCommon host.transports plugin.transports with
    | none => fail "transport: no common transport"
    | some transport =>
      let layout := if transport = transportSHM then highestCommonLayout host.layoutVersions plugin.layoutVersions else some 0
      match layout with
      | none => fail "layout_version: no common shared-memory layout version"
      | some layoutVersion =>
        match firstCommon host.codecs plugin.codecs with
        | none => fail "codec: no common codec"
        | some codec =>
          match negotiateFeatures host plugin with
          | .error reason => fail reason
          | .ok features =>
            match checkServices host.services pluginServices with
            | some reason => fail reason
            | none => .ok ⟨hi, transport, layoutVersion, features, codec⟩

/-! ## Messages -/

/-- A flag on the wire; the last bit is an acknowledgement's. -/
structure WireFlag where
  name : String
  required : Bool
  supported : Bool
  deriving DecidableEq

structure Hello where
  protocolMin : UInt32
  protocolMax : UInt32
  features : List WireFlag
  transports : List String
  codecs : List String
  nonce : UInt64
  services : List ServiceRequirement
  layoutVersions : List UInt32
  deriving DecidableEq

/-- What a message that is not there reads as. -/
def Hello.empty : Hello := ⟨0, 0, [], [], [], 0, [], []⟩

structure PluginIdentity where
  name : String
  semver : String
  binarySHA256 : String
  deriving DecidableEq

structure HelloAck where
  protocolVersion : UInt32
  transport : String
  layoutVersion : UInt32
  features : List WireFlag
  codec : String
  nonce : UInt64
  identity : PluginIdentity
  services : List ServiceVersion
  pluginOffer : Option Hello
  deriving DecidableEq

def offerToHello (o : Offer) (nonce : UInt64) : Hello :=
  { protocolMin := o.protocolMin, protocolMax := o.protocolMax, transports := o.transports, codecs := o.codecs, nonce,
    layoutVersions := o.layoutVersions, features := o.features.map fun f => ⟨f.name, f.required, false⟩
    services := o.services }

def helloToOffer (h : Hello) : Offer :=
  { protocolMin := h.protocolMin, protocolMax := h.protocolMax, transports := h.transports, codecs := h.codecs,
    layoutVersions := h.layoutVersions, features := h.features.map fun f => ⟨f.name, f.required⟩
    services := h.services }

/-- The resolved flags are in the order of their names. -/
def tupleToHelloAck (t : Tuple) (nonce : UInt64) (identity : PluginIdentity) (services : List ServiceVersion)
    (pluginOffer : Offer) : HelloAck :=
  { protocolVersion := t.protocolVersion, transport := t.transport, layoutVersion := t.layoutVersion, codec := t.codec,
    nonce, identity, services, pluginOffer := some (offerToHello pluginOffer 0)
    features := (t.features.keys.sort (· ≤ ·)).map fun name => ⟨name, false, (t.features.lookup name).getD false⟩ }

def helloAckToTuple (ack : HelloAck) : Tuple :=
  { protocolVersion := ack.protocolVersion, transport := ack.transport, layoutVersion := ack.layoutVersion,
    codec := ack.codec, features := insertAll ∅ (ack.features.map fun f => (f.name, f.supported)) }

/-! ## Acknowledgement -/

def tupleEqual (a b : Tuple) : Bool :=
  a.protocolVersion = b.protocolVersion ∧ a.transport = b.transport ∧ a.layoutVersion = b.layoutVersion ∧
    a.codec = b.codec ∧ a.features = b.features

def firstDuplicateFrom (seen : List String) : List ServiceVersion → Option String
  | [] => none
  | sv :: svs => if sv.service ∈ seen then some sv.service else firstDuplicateFrom (sv.service :: seen) svs

def firstDuplicateService (svs : List ServiceVersion) : Option String := firstDuplicateFrom [] svs

/-- The text of an acknowledgement that does not agree. -/
def mismatch (acked recomputed : Tuple) : String :=
  let axes (t : Tuple) := "(transport=" ++ t.transport.quote ++ " codec=" ++ t.codec.quote ++ " protocol=" ++
    toString t.protocolVersion ++ " layout=" ++ toString t.layoutVersion ++ ")"
  "acknowledged tuple " ++ axes acked ++ " does not match host recomputation " ++ axes recomputed

def validateAcknowledgedTuple (hostOffer : Offer) (ack : HelloAck) : Except IncompatibleError Tuple :=
  let acked := helloAckToTuple ack
  let pluginOffer := helloToOffer (ack.pluginOffer.getD .empty)
  match firstDuplicateService ack.services with
  | some dup => .error ⟨hostOffer, pluginOffer, "acknowledged tuple: service " ++ dup.quote ++ " advertised more than once"⟩
  | none =>
    match negotiate hostOffer pluginOffer ack.services with
    | .error e => .error e
    | .ok recomputed =>
      if tupleEqual recomputed acked then .ok recomputed
      else .error ⟨hostOffer, pluginOffer, mismatch acked recomputed⟩

/-! ## What is computed -/

section Computed

variable {a b : List String} {host plugin : Offer} {services : List ServiceVersion} {t : Tuple}
  {features : Finmap fun _ : String => Bool} {v : UInt32}

theorem firstCommon_mem {s : String} (h : firstCommon a b = some s) : s ∈ a ∧ s ∈ b := by
  have hmem : s ∈ (a.filter fun s => s ∈ b).insertionSort (· ≤ ·) := List.mem_of_mem_head? h
  rw [List.mem_insertionSort] at hmem
  simpa using hmem

theorem bestLayout_fold {b a : List UInt32} {best : Option UInt32} (h : a.foldl (bestLayout b) best = some v) :
    best = some v ∨ v ∈ a ∧ v ∈ b := by
  induction a generalizing best with
  | nil => exact .inl h
  | cons w a ih =>
    rcases ih h with hbest | ⟨ha, hb⟩
    · unfold bestLayout at hbest
      split at hbest
      · next hw =>
        cases hbest
        exact .inr ⟨by simp, hw.1⟩
      · exact .inl hbest
    · exact .inr ⟨by simp [ha], hb⟩

theorem highestCommonLayout_mem {a b : List UInt32} (h : highestCommonLayout a b = some v) : v ∈ a ∧ v ∈ b :=
  (bestLayout_fold h).resolve_left (by simp)

/-- The resolved flags: every name offered, on where both sides have it. -/
structure Resolves (host plugin : Offer) (features : Finmap fun _ : String => Bool) : Prop where
  lookup : ∀ name, features.lookup name =
    if name ∈ featureNames host.features ∨ name ∈ featureNames plugin.features then
      some (decide (name ∈ featureNames host.features ∧ name ∈ featureNames plugin.features))
    else none
  byHost : ∀ f ∈ host.features, f.required = true → f.name ∈ featureNames plugin.features
  byPlugin : ∀ f ∈ plugin.features, f.required = true → f.name ∈ featureNames host.features

theorem negotiateFeatures_ok (h : negotiateFeatures host plugin = .ok features) :
    Resolves host plugin features := by
  unfold negotiateFeatures at h
  split at h
  · cases h
  next hhost =>
  split at h
  · cases h
  next hplugin =>
  cases h
  rw [List.find?_eq_none] at hhost hplugin
  refine ⟨fun name => ?_, fun f hf hreq => ?_, fun f hf hreq => ?_⟩
  · simp only [lookup_insertNew, Finmap.mem_iff, lookup_insertAll_map, Finmap.lookup_empty]
    by_cases hh : name ∈ featureNames host.features <;> by_cases hp : name ∈ featureNames plugin.features <;> simp [hh, hp]
  · simpa [hreq] using hhost f hf
  · simpa [hreq] using hplugin f hf

theorem Resolves.active (h : Resolves host plugin features) {name : String} :
    features.lookup name = some true ↔ name ∈ featureNames host.features ∧ name ∈ featureNames plugin.features := by
  rw [h.lookup]
  by_cases hh : name ∈ featureNames host.features <;> by_cases hp : name ∈ featureNames plugin.features <;> simp [hh, hp]

theorem mem_featureNames {flags : List FeatureFlag} {f : FeatureFlag} (hf : f ∈ flags) : f.name ∈ featureNames flags :=
  List.mem_map_of_mem hf

theorem checkServices_ok {required : List ServiceRequirement} (h : checkServices required services = none) :
    ∀ req ∈ required, ∃ v, (insertAll ∅ (services.map fun sv => (sv.service, sv.version))).lookup req.service = some v ∧
      req.minVersion ≤ v ∧ v ≤ req.maxVersion := by
  intro req hreq
  have hcheck := List.findSome?_eq_none_iff.mp h req hreq
  unfold checkService at hcheck
  split at hcheck
  · cases hcheck
  next v hv =>
  split at hcheck
  · cases hcheck
  next hrange =>
  obtain ⟨hmin, hmax⟩ := not_or.mp hrange
  exact ⟨v, hv, UInt32.not_lt.mp hmin, UInt32.not_lt.mp hmax⟩

/-- **Everything a negotiation that succeeds has checked.** -/
structure Negotiated (host plugin : Offer) (services : List ServiceVersion) (t : Tuple) : Prop where
  protocol : host.protocolMin ≤ t.protocolVersion ∧ t.protocolVersion ≤ host.protocolMax
  transport : t.transport ∈ host.transports ∧ t.transport ∈ plugin.transports
  layout : if t.transport = transportSHM then t.layoutVersion ∈ host.layoutVersions ∧ t.layoutVersion ∈ plugin.layoutVersions
    else t.layoutVersion = 0
  codec : t.codec ∈ host.codecs ∧ t.codec ∈ plugin.codecs
  features : Resolves host plugin t.features
  services : checkServices host.services services = none

theorem negotiate_ok (h : negotiate host plugin services = .ok t) : Negotiated host plugin services t := by
  unfold negotiate at h
  dsimp only at h
  split at h
  · cases h
  next hrange =>
  split at h
  · cases h
  next transport htransport =>
  split at h
  · cases h
  next layoutVersion hlayout =>
  split at h
  · cases h
  next codec hcodec =>
  split at h
  · cases h
  next features hfeatures =>
  split at h
  · cases h
  next hservices =>
  cases h
  refine ⟨⟨?_, ?_⟩, firstCommon_mem htransport, ?_, firstCommon_mem hcodec, negotiateFeatures_ok hfeatures, hservices⟩
  · refine UInt32.le_trans ?_ (UInt32.not_lt.mp hrange)
    show host.protocolMin ≤ if host.protocolMin ≤ plugin.protocolMin then plugin.protocolMin else host.protocolMin
    split
    · assumption
    · exact UInt32.le_refl _
  · exact Std.min_le_left
  · dsimp only
    split at hlayout
    · next hshm =>
      rw [if_pos hshm]
      exact highestCommonLayout_mem hlayout
    · next hshm =>
      rw [if_neg hshm]
      exact (Option.some.inj hlayout).symm

end Computed

/-! ## What travels -/

theorem helloToOffer_offerToHello (o : Offer) (nonce : UInt64) : helloToOffer (offerToHello o nonce) = o := by
  simp [helloToOffer, offerToHello, Function.comp_def]

theorem helloAckToTuple_tupleToHelloAck (t : Tuple) (nonce : UInt64) (identity : PluginIdentity)
    (services : List ServiceVersion) (pluginOffer : Offer) :
    helloAckToTuple (tupleToHelloAck t nonce identity services pluginOffer) = t := by
  have hfeatures : insertAll ∅ ((t.features.keys.sort (· ≤ ·)).map fun name =>
      (name, (t.features.lookup name).getD false)) = t.features := by
    refine insertAll_entries (fun k => ?_) fun k hk => ?_
    · rw [Finset.mem_sort, Finmap.mem_keys]
    · rw [Finset.mem_sort, Finmap.mem_keys, Finmap.mem_iff] at hk
      obtain ⟨v, hv⟩ := hk
      rw [hv, Option.getD_some]
  simp only [helloAckToTuple, tupleToHelloAck, List.map_map, Function.comp_def, hfeatures]

variable {svs : List ServiceVersion} {host : Offer} {ack : HelloAck} {t : Tuple}

theorem firstDuplicateFrom_none {seen : List String} : firstDuplicateFrom seen svs = none ↔
    (svs.map ServiceVersion.service).Nodup ∧ ∀ sv ∈ svs, sv.service ∉ seen := by
  induction svs generalizing seen with
  | nil => simp [firstDuplicateFrom]
  | cons sv svs ih =>
    unfold firstDuplicateFrom
    split
    · next hseen => simp [hseen]
    · next hseen =>
      rw [ih]
      simp only [List.mem_cons, not_or, List.map_cons, List.nodup_cons, List.mem_map, forall_eq_or_imp]
      constructor
      · rintro ⟨hnd, hall⟩
        refine ⟨⟨?_, hnd⟩, hseen, fun x hx => (hall x hx).2⟩
        rintro ⟨x, hx, heq⟩
        exact (hall x hx).1 heq
      · rintro ⟨⟨hnot, hnd⟩, -, hall⟩
        exact ⟨hnd, fun x hx => ⟨fun heq => hnot ⟨x, hx, heq⟩, hall x hx⟩⟩

theorem firstDuplicateService_none : firstDuplicateService svs = none ↔ (svs.map ServiceVersion.service).Nodup := by
  simp [firstDuplicateService, firstDuplicateFrom_none]

/-! ## Agreement -/

theorem tupleEqual_iff {a b : Tuple} : tupleEqual a b = true ↔ a = b := by
  obtain ⟨_, _, _, _, _⟩ := a
  obtain ⟨_, _, _, _, _⟩ := b
  simp only [tupleEqual, decide_eq_true_eq, Tuple.mk.injEq]
  tauto

theorem validateAcknowledgedTuple_ok : validateAcknowledgedTuple host ack = .ok t ↔
      (ack.services.map ServiceVersion.service).Nodup ∧
        negotiate host (helloToOffer (ack.pluginOffer.getD .empty)) ack.services = .ok t ∧ t = helloAckToTuple ack := by
  unfold validateAcknowledgedTuple
  dsimp only
  rw [← firstDuplicateService_none]
  cases hdup : firstDuplicateService ack.services with
  | some dup => simp
  | none =>
    cases hneg : negotiate host (helloToOffer (ack.pluginOffer.getD .empty)) ack.services with
    | error e => simp
    | ok recomputed =>
      dsimp only
      split
      · next heq =>
        rw [tupleEqual_iff] at heq
        simp only [Except.ok.injEq, true_and]
        constructor
        · rintro rfl
          exact ⟨rfl, heq⟩
        · exact fun h => h.1
      · next hne =>
        rw [tupleEqual_iff] at hne
        simp only [reduceCtorEq, true_and, false_iff, Except.ok.injEq, not_and]
        rintro rfl heq
        exact hne heq

theorem advertised_once {services : List ServiceVersion} (hnd : (services.map ServiceVersion.service).Nodup)
    {sv : ServiceVersion} (hsv : sv ∈ services) : services.filter (fun s => s.service = sv.service) = [sv] := by
  induction services with
  | nil => cases hsv
  | cons s services ih =>
    rw [List.map_cons, List.nodup_cons] at hnd
    obtain ⟨hnot, hnd⟩ := hnd
    rw [List.filter_cons]
    rcases List.mem_cons.mp hsv with rfl | hsv
    · have hnil : services.filter (fun s => s.service = sv.service) = [] := by
        rw [List.filter_eq_nil_iff]
        intro x hx hxs
        exact hnot (List.mem_map.mpr ⟨x, hx, by simpa using hxs⟩)
      simp [hnil]
    · have hne : s.service ≠ sv.service := fun h => hnot (List.mem_map.mpr ⟨sv, hsv, h.symm⟩)
      simp [hne, ih hnd hsv]

/-- What holds of a tuple the host takes, whoever acknowledged it. -/
structure Agreed (host : Offer) (ack : HelloAck) (t : Tuple) : Prop where
  protocol : host.protocolMin ≤ t.protocolVersion ∧ t.protocolVersion ≤ host.protocolMax
  transport : t.transport ∈ host.transports
  codec : t.codec ∈ host.codecs
  layout : if t.transport = transportSHM then t.layoutVersion ∈ host.layoutVersions else t.layoutVersion = 0
  active : ∀ name, t.features.lookup name = some true → name ∈ featureNames host.features
  hostRequires : ∀ f ∈ host.features, f.required = true → t.features.lookup f.name = some true
  pluginRequires : ∀ f ∈ (helloToOffer (ack.pluginOffer.getD .empty)).features, f.required = true →
    t.features.lookup f.name = some true
  /-- Advertised once, and at a version in the range. -/
  services : ∀ req ∈ host.services, ∃ v, ack.services.filter (fun s => s.service = req.service) = [⟨req.service, v⟩] ∧
    req.minVersion ≤ v ∧ v ≤ req.maxVersion
  computed : negotiate host (helloToOffer (ack.pluginOffer.getD .empty)) ack.services = .ok t
  acknowledged : helloAckToTuple ack = t

theorem validate_agreed (h : validateAcknowledgedTuple host ack = .ok t) : Agreed host ack t := by
  obtain ⟨hnd, hneg, hacked⟩ := validateAcknowledgedTuple_ok.mp h
  have hn := negotiate_ok hneg
  refine ⟨hn.protocol, hn.transport.1, hn.codec.1, ?_, fun name hname => (hn.features.active.mp hname).1,
    fun f hf hreq => ?_, fun f hf hreq => ?_, fun req hreq => ?_, hneg, hacked.symm⟩
  · have hlayout := hn.layout
    split at hlayout
    · next hshm =>
      rw [if_pos hshm]
      exact hlayout.1
    · next hshm =>
      rw [if_neg hshm]
      exact hlayout
  · exact hn.features.active.mpr ⟨mem_featureNames hf, hn.features.byHost f hf hreq⟩
  · exact hn.features.active.mpr ⟨hn.features.byPlugin f hf hreq, mem_featureNames hf⟩
  · obtain ⟨v, hv, hmin, hmax⟩ := checkServices_ok hn.services req hreq
    have hmem := (lookup_insertAll hv).resolve_left (by simp)
    obtain ⟨sv, hsv, heq⟩ := List.mem_map.mp hmem
    have hsame : sv = ⟨req.service, v⟩ := by
      obtain ⟨service, version⟩ := sv
      simpa using heq
    subst hsame
    exact ⟨v, advertised_once hnd hsv, hmin, hmax⟩

/-- **The handshake agrees.** The host takes the tuple an honest plugin computes from the offer it was sent, and of any
acknowledgement at all it takes only the tuple that `Negotiate` computes, within its own offer. -/
theorem handshake_agreement :
    (∀ host plugin services nonce identity t, (services.map ServiceVersion.service).Nodup →
      negotiate (helloToOffer (offerToHello host nonce)) plugin services = .ok t →
      validateAcknowledgedTuple host (tupleToHelloAck t nonce identity services plugin) = .ok t) ∧
    ∀ host ack t, validateAcknowledgedTuple host ack = .ok t → Agreed host ack t := by
  refine ⟨fun host plugin services nonce identity t hnd hneg => ?_, fun host ack t => validate_agreed⟩
  rw [helloToOffer_offerToHello] at hneg
  refine validateAcknowledgedTuple_ok.mpr ⟨hnd, ?_, (helloAckToTuple_tupleToHelloAck _ _ _ _ _).symm⟩
  simp only [tupleToHelloAck, Option.getD_some, helloToOffer_offerToHello]
  exact hneg

def sampleHost : Offer :=
  ⟨1, 3, [⟨"streaming", true⟩, ⟨"burst", false⟩], ["uds", "shm"], ["proto"], [⟨"echo", 1, 2⟩], [1]⟩

def samplePlugin : Offer := ⟨2, 5, [⟨"streaming", false⟩, ⟨"trace", false⟩], ["shm", "uds"], ["proto"], [], [2, 1]⟩

theorem handshake_agreement_sample : ∃ t, validateAcknowledgedTuple sampleHost
    (tupleToHelloAck t 9 ⟨"echo", "1.0.0", ""⟩ [⟨"echo", 2⟩] samplePlugin) = .ok t ∧ t.transport = "shm" ∧
      t.layoutVersion = 1 ∧ t.protocolVersion = 3 ∧ t.features.lookup "streaming" = some true := by
  obtain ⟨t, ht, htransport, hlayout, hprotocol⟩ : ∃ t,
      negotiate (helloToOffer (offerToHello sampleHost 9)) samplePlugin [⟨"echo", 2⟩] = .ok t ∧ t.transport = "shm" ∧
        t.layoutVersion = 1 ∧ t.protocolVersion = 3 := ⟨_, rfl, rfl, rfl, rfl⟩
  have hv := handshake_agreement.1 sampleHost samplePlugin [⟨"echo", 2⟩] 9 ⟨"echo", "1.0.0", ""⟩ t (by simp) ht
  have ha := handshake_agreement.2 sampleHost _ t hv
  exact ⟨t, hv, htransport, hlayout, hprotocol, ha.hostRequires ⟨"streaming", true⟩ (by simp [sampleHost]) rfl⟩

end Styx.Handshake
