/-
The status codec of `internal/transport` (`EncodeStatus`, `DecodeStatus`): the
body of the two error kinds on either transport.

The decoder trusts no prefix: each length is held against the bytes that remain,
and the first one that does not fit ends the decode. What the encoder writes it
reads back whole (`decodeStatus_encodeStatus`), nil as the zero status; what it
accepts of any body is an encoding (`encode_decodeStatus`).
-/
import Mathlib.Tactic.Ring
import Styx.Transport.Frame

namespace Styx

def statusHeadSize : Nat := 12

/-- The status a nil one encodes as. -/
def FrameStatus.zero : FrameStatus := ⟨0, [], []⟩

/-- The prefix that refused a body; each is `ErrMalformedStatusFrame`. -/
inductive StatusErr
  | short (len : Nat)
  | messageOverruns (msgLen : Nat)
  | detailPrefix (i : Nat)
  | detailOverruns (i dLen : Nat)
  deriving DecidableEq

/-- The big-endian word of the first four bytes. -/
def getUint32BE (b : Bytes) : Nat := (b.take 4).foldl (fun n x => n * 256 + x.toNat) 0

/-- The detail loop, from detail `i` on, over the bytes that remain. -/
def decodeDetails (body : Bytes) (i : Nat) : Nat → Except StatusErr (List Bytes)
  | 0 => .ok []
  | n + 1 =>
    if body.length < 4 then .error (.detailPrefix i)
    else
      let dLen := getUint32BE body
      let rest := body.drop 4
      if dLen > rest.length then .error (.detailOverruns i dLen)
      else
        match decodeDetails (rest.drop dLen) (i + 1) n with
        | .ok details => .ok (rest.take dLen :: details)
        | .error e => .error e

def decodeStatus (body : Bytes) : Except StatusErr FrameStatus :=
  if body.length < statusHeadSize then .error (.short body.length)
  else
    let code := getUint32BE body
    let msgLen := getUint32BE (body.drop 4)
    let detailCount := getUint32BE (body.drop 8)
    let rest := body.drop statusHeadSize
    if msgLen > rest.length then .error (.messageOverruns msgLen)
    else
      match decodeDetails (rest.drop msgLen) 0 detailCount with
      | .ok details => .ok ⟨UInt32.ofNat code, rest.take msgLen, details⟩
      | .error e => .error e

/-! ## Round trip -/

@[simp] theorem length_putUint32BE {n : Nat} : (putUint32BE n).length = 4 := rfl

variable {n i : Nat} {rest b body : Bytes} {s : Option FrameStatus}

theorem getUint32BE_put (h : n < 2 ^ 32) : getUint32BE (putUint32BE n ++ rest) = n := by
  simp only [getUint32BE, putUint32BE, List.cons_append, List.nil_append, List.take_succ_cons, List.take_zero,
    List.foldl_cons, List.foldl_nil, UInt8.toNat_ofNat', Nat.shiftRight_eq_div_pow]
  omega

theorem drop_put {k : Nat} : (putUint32BE n ++ rest).drop (k + 4) = rest.drop k := rfl

/-- One detail as the encoder writes it. -/
def encodeDetail (d : Bytes) : Bytes := putUint32BE d.length ++ d

theorem decodeDetails_encode (details : List Bytes) (h : ∀ d ∈ details, d.length < 2 ^ 32) :
    decodeDetails (details.flatMap encodeDetail) i details.length = .ok details := by
  induction details generalizing i with
  | nil => rfl
  | cons d details ih =>
    have hd : d.length < 2 ^ 32 := h d (by simp)
    have hrest := ih (i := i + 1) fun x hx => h x (by simp [hx])
    have hbody : (d :: details).flatMap encodeDetail = putUint32BE d.length ++ (d ++ details.flatMap encodeDetail) := by
      simp [encodeDetail]
    have hdrop : (putUint32BE d.length ++ (d ++ details.flatMap encodeDetail)).drop 4 =
        d ++ details.flatMap encodeDetail := drop_put (k := 0)
    rw [hbody, List.length_cons]
    simp only [decodeDetails]
    rw [if_neg (by simp), getUint32BE_put hd, hdrop, if_neg (by simp), List.drop_left' rfl, List.take_left' rfl, hrest]

theorem details_le (details : List Bytes) :
    details.length ≤ (details.flatMap encodeDetail).length ∧
      ∀ d ∈ details, d.length ≤ (details.flatMap encodeDetail).length := by
  induction details with
  | nil => simp
  | cons x details ih =>
    obtain ⟨h1, h2⟩ := ih
    simp only [List.flatMap_cons, List.length_append, encodeDetail, length_putUint32BE, List.length_cons]
    refine ⟨by omega, fun d hd => ?_⟩
    rcases List.mem_cons.mp hd with rfl | hd
    · omega
    · have := h2 d hd
      omega

theorem length_encodeStatus : (encodeStatus s).length = statusHeadSize + (s.getD .zero).message.length +
      ((s.getD .zero).details.flatMap encodeDetail).length := by
  simp only [encodeStatus, List.length_append, length_putUint32BE, statusHeadSize]
  rfl

/-- **A status reads back as it was written**, whatever its message and details. -/
theorem decodeStatus_encodeStatus (h : (encodeStatus s).length < 2 ^ 32) :
    decodeStatus (encodeStatus s) = .ok (s.getD .zero) := by
  have hlen := length_encodeStatus (s := s)
  obtain ⟨hcount, hdetail⟩ := details_le (s.getD .zero).details
  generalize hs : s.getD .zero = st at hlen hcount hdetail
  have hcode : st.code.toNat < 2 ^ 32 := st.code.toNat_lt
  have hbody : encodeStatus s = putUint32BE st.code.toNat ++ (putUint32BE st.message.length ++
      (putUint32BE st.details.length ++ (st.message ++ st.details.flatMap encodeDetail))) := by
    subst hs
    simp only [encodeStatus, List.append_assoc]
    rfl
  have hdetails := decodeDetails_encode st.details (i := 0) fun d hd => by
    have := hdetail d hd
    omega
  generalize htail : st.message ++ st.details.flatMap encodeDetail = tail at hbody
  have h4 : (encodeStatus s).drop 4 = putUint32BE st.message.length ++ (putUint32BE st.details.length ++ tail) := by
    rw [hbody]
    exact drop_put (k := 0)
  have h8 : (encodeStatus s).drop 8 = putUint32BE st.details.length ++ tail := by
    rw [hbody]
    exact drop_put (k := 4)
  have h12 : (encodeStatus s).drop statusHeadSize = tail := by
    rw [hbody]
    exact drop_put (k := 8)
  simp only [decodeStatus]
  rw [if_neg (by omega), h4, h8, h12, hbody, getUint32BE_put hcode, getUint32BE_put (by omega),
    getUint32BE_put (by omega), ← htail, if_neg (by simp), List.drop_left' rfl, List.take_left' rfl, hdetails]
  simp

/-! ## The decoder at its offsets

`decodeStatus` above reads the bytes that remain; the code reads the whole body at an offset
it advances. Here every slice is checked as the runtime checks it. -/

/-- The slice `b[lo:hi]`, which faults out of range. -/
def slice? (b : Bytes) (lo hi : Nat) : Option Bytes :=
  if lo ≤ hi ∧ hi ≤ b.length then some ((b.drop lo).take (hi - lo)) else none

/-- The detail loop from offset `off` on: the details and the offset after them. -/
def decodeDetailsAt (body : Bytes) (off i : Nat) : Nat → Option (Except StatusErr (List Bytes × Nat))
  | 0 => some (.ok ([], off))
  | n + 1 =>
    if body.length - off < 4 then some (.error (.detailPrefix i))
    else do
      let dLen := getUint32BE (← slice? body off (off + 4))
      let off := off + 4
      if dLen > body.length - off then some (.error (.detailOverruns i dLen))
      else
        let d ← slice? body off (off + dLen)
        match ← decodeDetailsAt body (off + dLen) (i + 1) n with
        | .ok (details, off) => some (.ok (d :: details, off))
        | .error e => some (.error e)

/-- The details preallocated, of those counted, when `rem` bytes remain: each takes four at least. -/
def capHint (detailCount rem : Nat) : Nat := if detailCount > 0 then min detailCount (rem / 4) else 0

/-- `DecodeStatus`: the capacity it preallocates, and the status with the offset it stopped at. -/
def decodeStatusAt (body : Bytes) : Option (Nat × Except StatusErr (FrameStatus × Nat)) :=
  if body.length < statusHeadSize then some (0, .error (.short body.length))
  else do
    let code := getUint32BE (← slice? body 0 4)
    let msgLen := getUint32BE (← slice? body 4 8)
    let detailCount := getUint32BE (← slice? body 8 12)
    let off := statusHeadSize
    if msgLen > body.length - off then some (0, .error (.messageOverruns msgLen))
    else
      let message ← slice? body off (off + msgLen)
      let off := off + msgLen
      let prealloc := capHint detailCount (body.length - off)
      match ← decodeDetailsAt body off 0 detailCount with
      | .ok (details, off) => some (prealloc, .ok (⟨UInt32.ofNat code, message, details⟩, off))
      | .error e => some (prealloc, .error e)

theorem slice?_of_le (lo n : Nat) (h : lo + n ≤ b.length) : slice? b lo (lo + n) = some ((b.drop lo).take n) := by
  rw [slice?, if_pos ⟨Nat.le_add_right lo n, h⟩, Nat.add_sub_cancel_left]

@[simp] theorem getUint32BE_take {b : Bytes} : getUint32BE (b.take 4) = getUint32BE b := by
  simp [getUint32BE, List.take_take]

/-- **The loop at its offsets never faults**, and reads what remains. -/
theorem decodeDetailsAt_eq {off : Nat} (h : off ≤ body.length) : decodeDetailsAt body off i n =
      some ((decodeDetails (body.drop off) i n).map fun ds => (ds, off + (ds.flatMap encodeDetail).length)) := by
  induction n generalizing off i with
  | zero => simp [decodeDetailsAt, decodeDetails, Except.map]
  | succ n ih =>
    simp only [decodeDetailsAt, decodeDetails, List.length_drop]
    by_cases hword : body.length - off < 4
    · simp [hword, Except.map]
    · rw [if_neg hword, if_neg hword, slice?_of_le _ _ (by omega)]
      simp only [Option.bind_eq_bind, Option.bind_some, getUint32BE_take]
      generalize getUint32BE (body.drop off) = dLen
      simp only [List.drop_drop, Nat.sub_sub]
      by_cases hover : dLen > body.length - (off + 4)
      · simp [hover, Except.map]
      · have hd : ((body.drop (off + 4)).take dLen).length = dLen := by simp; omega
        rw [if_neg hover, if_neg hover, slice?_of_le _ _ (by omega), Option.bind_some, ih (by omega)]
        cases decodeDetails (body.drop (off + 4 + dLen)) (i + 1) n with
        | error e => rfl
        | ok ds =>
          simp only [Except.map, Option.bind_some, List.flatMap_cons, List.length_append, encodeDetail,
            length_putUint32BE, hd]
          simp only [← Nat.add_assoc]

/-! ## What is accepted re-encodes -/

theorem put_getUint32BE (h : 4 ≤ b.length) : putUint32BE (getUint32BE b) = b.take 4 := by
  obtain _ | ⟨x0, _ | ⟨x1, _ | ⟨x2, _ | ⟨x3, b⟩⟩⟩⟩ := b
  iterate 4 simp at h
  have h0 := x0.toNat_lt
  have h1 := x1.toNat_lt
  have h2 := x2.toNat_lt
  have h3 := x3.toNat_lt
  simp only [putUint32BE, getUint32BE, List.take_succ_cons, List.take_zero, List.foldl_cons, List.foldl_nil,
    Nat.shiftRight_eq_div_pow, List.cons.injEq, and_true]
  refine ⟨?_, ?_, ?_, ?_⟩ <;> apply UInt8.toNat_inj.mp <;> rw [UInt8.toNat_ofNat'] <;> omega

theorem putUint32BE_code : putUint32BE (UInt32.ofNat n).toNat = putUint32BE n := by
  simp only [putUint32BE, UInt32.toNat_ofNat', Nat.shiftRight_eq_div_pow, List.cons.injEq, and_true]
  refine ⟨?_, ?_, ?_, ?_⟩ <;> apply UInt8.toNat_inj.mp <;> simp only [UInt8.toNat_ofNat'] <;> omega

theorem encode_decodeDetails {ds : List Bytes} (h : decodeDetails body i n = .ok ds) :
    ds.length = n ∧ ds.flatMap encodeDetail <+: body := by
  induction n generalizing body i ds with
  | zero =>
    cases h
    simp
  | succ n ih =>
    simp only [decodeDetails] at h
    split at h
    · cases h
    · next hword =>
      split at h
      · cases h
      · next hover =>
        split at h
        · next details hrest =>
          cases h
          obtain ⟨hn, rest, hrest⟩ := ih hrest
          have hd : ((body.drop 4).take (getUint32BE body)).length = getUint32BE body := by
            simp only [List.length_take]
            omega
          refine ⟨by simp [hn], rest, ?_⟩
          rw [List.flatMap_cons, encodeDetail, hd, put_getUint32BE (by omega), List.append_assoc, List.append_assoc,
            hrest, List.take_append_drop, List.take_append_drop]
        · cases h

/-- **The decoder at its offsets never faults**: it answers as `decodeStatus`, preallocates no
more than the bytes after the message could hold, and stops where the encoding of what it
accepted ends. -/
theorem decodeStatusAt_eq (body : Bytes) :
    ∃ cap ≤ (body.length - (statusHeadSize + getUint32BE (body.drop 4))) / 4,
      decodeStatusAt body = some (cap, (decodeStatus body).map fun s => (s, (encodeStatus (some s)).length)) := by
  simp only [decodeStatusAt, decodeStatus]
  by_cases hshort : body.length < statusHeadSize
  · exact ⟨0, Nat.zero_le _, by simp [hshort, Except.map]⟩
  · have hhead : 12 ≤ body.length := Nat.not_lt.mp hshort
    rw [if_neg hshort, if_neg hshort, slice?_of_le 0 4 (by omega), slice?_of_le 4 4 (by omega),
      slice?_of_le 8 4 (by omega)]
    simp only [Option.bind_eq_bind, Option.bind_some, getUint32BE_take, List.drop_zero, List.length_drop]
    generalize getUint32BE (body.drop 4) = msgLen
    by_cases hover : msgLen > body.length - statusHeadSize
    · exact ⟨0, Nat.zero_le _, by simp [hover, Except.map]⟩
    · have hmsg : ((body.drop statusHeadSize).take msgLen).length = msgLen := by simp; omega
      rw [if_neg hover, if_neg hover, slice?_of_le _ _ (by unfold statusHeadSize at *; omega), Option.bind_some,
        decodeDetailsAt_eq (by unfold statusHeadSize at *; omega), List.drop_drop]
      refine ⟨capHint (getUint32BE (body.drop 8)) (body.length - (statusHeadSize + msgLen)), ?_, ?_⟩
      · unfold capHint
        split <;> omega
      · cases decodeDetails (body.drop (statusHeadSize + msgLen)) 0 (getUint32BE (body.drop 8)) with
        | error e => rfl
        | ok ds => simp only [Except.map, Option.bind_some, length_encodeStatus, Option.getD_some, hmsg]

theorem encode_decodeStatus {s : FrameStatus} (h : decodeStatus body = .ok s) : encodeStatus (some s) <+: body := by
  simp only [decodeStatus] at h
  split at h
  · cases h
  · next hshort =>
    have hhead : 12 ≤ body.length := Nat.not_lt.mp hshort
    split at h
    · cases h
    · next hover =>
      split at h
      · next details hdet =>
        cases h
        obtain ⟨hn, rest, hrest⟩ := encode_decodeDetails hdet
        have hmsg : ((body.drop 12).take (getUint32BE (body.drop 4))).length = getUint32BE (body.drop 4) := by
          simp only [List.length_take]
          exact Nat.min_eq_left (Nat.not_lt.mp hover)
        refine ⟨rest, ?_⟩
        simp only [encodeStatus, Option.getD_some, List.append_assoc, statusHeadSize, hmsg, hn, putUint32BE_code]
        rw [put_getUint32BE (by omega), put_getUint32BE (by simp; omega), put_getUint32BE (by simp; omega)]
        erw [hrest]
        simp only [statusHeadSize, List.take_append_drop]
        rw [show body.drop 12 = (body.drop 8).drop 4 by simp, List.take_append_drop,
          show body.drop 8 = (body.drop 4).drop 4 by simp, List.take_append_drop, List.take_append_drop]
      · cases h

/-- **The status codec**, both ways. -/
theorem status_codec :
    (∀ s : Option FrameStatus, (encodeStatus s).length < 2 ^ 32 →
      ∃ cap, decodeStatusAt (encodeStatus s) = some (cap, .ok (s.getD .zero, (encodeStatus s).length))) ∧
    (∀ body : Bytes, ∃ cap r, decodeStatusAt body = some (cap, r) ∧
      cap ≤ (body.length - (statusHeadSize + getUint32BE (body.drop 4))) / 4 ∧
      ∀ s off, r = .ok (s, off) → off ≤ body.length ∧ encodeStatus (some s) = body.take off) ∧
    ∀ s t : Option FrameStatus, (encodeStatus s).length < 2 ^ 32 → encodeStatus s = encodeStatus t →
      s.getD .zero = t.getD .zero := by
  refine ⟨fun s hs => ?_, fun body => ?_, fun s t hs he => ?_⟩
  · obtain ⟨cap, -, heq⟩ := decodeStatusAt_eq (encodeStatus s)
    rw [decodeStatus_encodeStatus hs] at heq
    refine ⟨cap, heq.trans ?_⟩
    cases s <;> rfl
  · obtain ⟨cap, hcap, heq⟩ := decodeStatusAt_eq body
    refine ⟨cap, _, heq, hcap, fun s off hr => ?_⟩
    cases hdec : decodeStatus body with
    | error e => simp [hdec, Except.map] at hr
    | ok s' =>
      have hpre := encode_decodeStatus hdec
      simp only [hdec, Except.map, Except.ok.injEq, Prod.mk.injEq] at hr
      obtain ⟨rfl, rfl⟩ := hr
      exact ⟨hpre.length_le, List.prefix_iff_eq_take.mp hpre⟩
  · have hs' := decodeStatus_encodeStatus hs
    rw [he, decodeStatus_encodeStatus (he ▸ hs)] at hs'
    exact (Except.ok.inj hs').symm

end Styx
