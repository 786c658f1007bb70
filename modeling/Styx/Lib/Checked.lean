/-
Computations over machine words that index memory: they may be refused with a reason, they
may panic on an index out of range, and they record the exact (unwrapped) value of every
sum and product beside the machine's.

Two judgements and their rules. `Safe m Q`: from any log, `m` never panics, and when it
returns its value meets `Q` and nothing it added to the log overflows its width. `Returns
m a`: from any log, `m` returns `a`.
-/
import Mathlib.Tactic.Ring

/-- Why a computation stopped: an index out of range, or a refusal. -/
inductive Stop (ε : Type) where
  | panic
  | err (e : ε)
  deriving DecidableEq

/-- An arithmetic step: the bits its machine type has for a value, and the exact value. -/
structure Exact where
  width : Nat
  value : Nat
  deriving DecidableEq

abbrev Checked (ε : Type) : Type → Type := StateT (List Exact) (Except (Stop ε))

namespace Checked

variable {ε α β : Type}

def record (e : Exact) : Checked ε Unit := fun log => .ok ((), log ++ [e])

def fail (e : ε) : Checked ε α := fun _ => .error (.err e)

def outOfRange : Checked ε α := fun _ => .error .panic

/-- Refuse when the condition holds. -/
def refuse (c : Prop) [Decidable c] (e : ε) : Checked ε Unit := if c then fail e else pure ()

/-- `xs[i]`. -/
def index (xs : List α) (i : Nat) : Checked ε α :=
  match xs[i]? with
  | some x => pure x
  | none => outOfRange

def addU64 (a b : UInt64) : Checked ε UInt64 := do
  record ⟨64, a.toNat + b.toNat⟩
  pure (a + b)

def mulU64 (a b : UInt64) : Checked ε UInt64 := do
  record ⟨64, a.toNat * b.toNat⟩
  pure (a * b)

/-- A sum of signed 64-bit integers, by their bit patterns. -/
def addInt (a b : Nat) : Checked ε Nat := do
  record ⟨63, a + b⟩
  pure ((a + b) % 2 ^ 64)

def mulInt (a b : Nat) : Checked ε Nat := do
  record ⟨63, a * b⟩
  pure ((a * b) % 2 ^ 64)

/-! ## Safety -/

/-- Every recorded value fits its machine type. -/
def Fits (log : List Exact) : Prop := ∀ x ∈ log, x.value < 2 ^ x.width

structure Safe (m : Checked ε α) (Q : α → Prop) : Prop where
  ok : ∀ {log log' : List Exact} {a : α}, m log = .ok (a, log') → Q a ∧ (Fits log → Fits log')
  not_panic : ∀ log, m log ≠ .error .panic

namespace Safe

variable {m : Checked ε α} {f : α → Checked ε β} {P Q : α → Prop} {R : β → Prop} {e : ε} {c : Prop} {a b : UInt64}

theorem of_ok (h : Safe m Q) {a : α} {log : List Exact} (hm : m [] = .ok (a, log)) : Q a ∧ Fits log :=
  ⟨(h.ok hm).1, (h.ok hm).2 (by simp [Fits])⟩

protected theorem pure {a : α} (h : Q a) : Safe (pure a : Checked ε α) Q := by
  refine ⟨fun hm => ?_, nofun⟩
  obtain ⟨rfl, rfl⟩ := Prod.mk.inj (Except.ok.inj hm)
  exact ⟨h, id⟩

theorem fail : Safe (fail e : Checked ε α) Q := by
  constructor
  · intro _ _ _ hm
    cases hm
  · intro _ hm
    cases hm

theorem bind_eq (log : List Exact) : (m >>= f) log = (m log >>= fun p => f p.1 p.2) := rfl

protected theorem bind (hm : Safe m P) (hf : ∀ a, P a → Safe (f a) R) : Safe (m >>= f) R := by
  constructor
  · intro log log' b h
    rw [bind_eq] at h
    cases hrun : m log with
    | error s => rw [hrun] at h; cases h
    | ok p =>
      rw [hrun] at h
      obtain ⟨hp, hlog⟩ := hm.ok hrun
      obtain ⟨hr, hlog'⟩ := (hf p.1 hp).ok h
      exact ⟨hr, fun h => hlog' (hlog h)⟩
  · intro log h
    rw [bind_eq] at h
    cases hrun : m log with
    | error s =>
      rw [hrun] at h
      cases h
      exact hm.not_panic log hrun
    | ok p =>
      rw [hrun] at h
      exact (hf p.1 (hm.ok hrun).1).not_panic p.2 h

theorem mono (hm : Safe m P) (h : ∀ a, P a → Q a) : Safe m Q :=
  ⟨fun hrun => ⟨h _ (hm.ok hrun).1, (hm.ok hrun).2⟩, hm.not_panic⟩

theorem ite [Decidable c] {m' : Checked ε α} (h : c → Safe m Q) (h' : ¬ c → Safe m' Q) : Safe (if c then m else m') Q := by
  split
  · next hc => exact h hc
  · next hc => exact h' hc

theorem refuse [Decidable c] : Safe (refuse c e) fun _ => ¬ c :=
  ite (fun _ => fail) (fun hc => .pure hc)

theorem index {xs : List α} {i : Nat} (h : i < xs.length) :
    Safe (Checked.index xs i : Checked ε α) fun x => xs[i]? = some x := by
  unfold Checked.index
  rw [List.getElem?_eq_getElem h]
  exact .pure rfl

theorem record {e : Exact} (h : e.value < 2 ^ e.width) : Safe (record e : Checked ε Unit) fun _ => True := by
  refine ⟨fun hm => ⟨trivial, fun hlog x hx => ?_⟩, nofun⟩
  obtain ⟨-, rfl⟩ := Prod.mk.inj (Except.ok.inj hm)
  rcases List.mem_append.mp hx with hx | hx
  · exact hlog x hx
  · obtain rfl := List.mem_singleton.mp hx
    exact h

theorem addU64 (h : a.toNat + b.toNat < 2 ^ 64) :
    Safe (addU64 a b : Checked ε UInt64) fun r => r.toNat = a.toNat + b.toNat :=
  (record h).bind fun _ _ => .pure (by rw [UInt64.toNat_add, Nat.mod_eq_of_lt h])

theorem addU64_of {x y z : Nat} (ha : a.toNat = x) (hb : b.toNat = y) (hz : x + y = z ∧ z < 2 ^ 64) :
    Safe (Checked.addU64 a b : Checked ε UInt64) fun r => r.toNat = z := by
  obtain ⟨rfl, hz⟩ := hz
  subst ha hb
  exact addU64 hz

theorem mulU64 (h : a.toNat * b.toNat < 2 ^ 64) :
    Safe (mulU64 a b : Checked ε UInt64) fun r => r.toNat = a.toNat * b.toNat :=
  (record h).bind fun _ _ => .pure (by rw [UInt64.toNat_mul, Nat.mod_eq_of_lt h])

theorem addInt {a b : Nat} (h : a + b < 2 ^ 63) : Safe (addInt a b : Checked ε Nat) fun r => r = a + b :=
  (record h).bind fun _ _ => .pure (Nat.mod_eq_of_lt (by omega))

theorem mulInt {a b : Nat} (h : a * b < 2 ^ 63) : Safe (mulInt a b : Checked ε Nat) fun r => r = a * b :=
  (record h).bind fun _ _ => .pure (Nat.mod_eq_of_lt (by omega))

end Safe

/-! ## Returning -/

structure Returns (m : Checked ε α) (a : α) : Prop where
  run : ∀ log, ∃ log', m log = .ok (a, log')

namespace Returns

variable {m : Checked ε α} {f : α → Checked ε β} {a : α} {b : β}

protected theorem pure : Returns (pure a : Checked ε α) a := ⟨fun log => ⟨log, rfl⟩⟩

protected theorem bind (hm : Returns m a) (hf : Returns (f a) b) : Returns (m >>= f) b := by
  refine ⟨fun log => ?_⟩
  obtain ⟨log₁, h1⟩ := hm.run log
  obtain ⟨log₂, h2⟩ := hf.run log₁
  exact ⟨log₂, by rw [Safe.bind_eq, h1]; exact h2⟩

theorem refuse {c : Prop} [Decidable c] {e : ε} (h : ¬ c) : Returns (refuse c e) () := by
  unfold Checked.refuse
  rw [if_neg h]
  exact .pure

theorem index {xs : List α} {i : Nat} (h : xs[i]? = some a) : Returns (Checked.index xs i : Checked ε α) a := by
  unfold Checked.index
  rw [h]
  exact .pure

theorem record {e : Exact} : Returns (record e : Checked ε Unit) () := ⟨fun log => ⟨log ++ [e], rfl⟩⟩

theorem addU64 {a b : UInt64} : Returns (addU64 a b : Checked ε UInt64) (a + b) := record.bind .pure

theorem mulU64 {a b : UInt64} : Returns (mulU64 a b : Checked ε UInt64) (a * b) := record.bind .pure

theorem addInt {a b : Nat} (h : a + b < 2 ^ 64) : Returns (addInt a b : Checked ε Nat) (a + b) :=
  record.bind (by rw [Nat.mod_eq_of_lt h]; exact .pure)

theorem mulInt {a b : Nat} (h : a * b < 2 ^ 64) : Returns (mulInt a b : Checked ε Nat) (a * b) :=
  record.bind (by rw [Nat.mod_eq_of_lt h]; exact .pure)

theorem post {Q : α → Prop} (h : Returns m a) (hs : Safe m Q) : Q a := by
  obtain ⟨log, hm⟩ := h.run []
  exact (hs.of_ok hm).1

end Returns

end Checked
