/-
A bounded first-in first-out queue, as the sequence of things it did.

`Trace C es q`: a queue of capacity `C` may do `es` and then hold `q`. A full
answer needs `C` elements held at some point of the call, an empty answer none,
a length at most `C`. A queue that does `es` hands out what was put in, in
order and once (`Trace.pushed_eq`).
-/
import Mathlib.Logic.Basic

namespace Fifo

variable {α : Type}

inductive Event (α : Type)
  | pushed (x : α)
  /-- Refused as full; `held` elements were in the queue at some point of the call. -/
  | full (held : Nat)
  | peeked (x : α)
  /-- Answered empty; `held` elements were in the queue at some point of the call. -/
  | empty (held : Nat)
  | taken (x : α)
  | length (n : Nat)
  /-- A refusal no queue makes. -/
  | corrupt
  deriving DecidableEq

inductive Trace (C : Nat) : List (Event α) → List α → Prop
  | nil : Trace C [] []
  | pushed {es : List (Event α)} {q : List α} {x : α} : Trace C es q → q.length < C →
      Trace C (es ++ [.pushed x]) (q ++ [x])
  | full {es : List (Event α)} {q : List α} : Trace C es q → Trace C (es ++ [.full C]) q
  | peeked {es : List (Event α)} {q : List α} {x : α} : Trace C es (x :: q) →
      Trace C (es ++ [.peeked x]) (x :: q)
  | empty {es : List (Event α)} {q : List α} : Trace C es q → Trace C (es ++ [.empty 0]) q
  | taken {es : List (Event α)} {q : List α} {x : α} : Trace C es (x :: q) → Trace C (es ++ [.taken x]) q
  | length {es : List (Event α)} {q : List α} {n : Nat} : Trace C es q → n ≤ C →
      Trace C (es ++ [.length n]) q

def pushedOf : Event α → Option α
  | .pushed x => some x
  | _ => none

def takenOf : Event α → Option α
  | .taken x => some x
  | _ => none

/-- **First in, first out**: what was put in is what was taken out, then what is held. -/
theorem Trace.pushed_eq {C : Nat} {es : List (Event α)} {q : List α} (h : Trace C es q) :
    es.filterMap pushedOf = es.filterMap takenOf ++ q := by
  induction h with
  | nil => rfl
  | pushed _ _ ih => simp [List.filterMap_cons, pushedOf, takenOf, ih]
  | full _ ih | peeked _ ih | empty _ ih | taken _ ih | length _ _ ih =>
    simpa [List.filterMap_cons, pushedOf, takenOf] using ih

end Fifo
