import ControlLoop.Duration
/-!
# Growing delays

Each failure in a row doubles the delay before a key is tried again, up to a greatest delay; a success
ends the row. Delays are spans of time of bounded size, and the arithmetic on them is checked: what
does not fit is the greatest delay.
-/
namespace ControlLoop

/-- A power of two, if it fits a word of 32 bits. -/
def powerOfTwo? (n : Nat) : Option Nat := if n < 32 then some (Nat.pow 2 n) else none

/-- The greatest number of failures that is counted. -/
def failureLimit : Nat := 4294967295

/-- How often each key has failed in a row. -/
structure Backoff (κ : Type) where
  base : Duration
  greatest : Duration
  failures : List (κ × Nat) := []
  deriving Repr

namespace Backoff

variable {κ : Type} [DecidableEq κ]

/-- No key has failed; the greatest delay is at least the first one. -/
def new (base greatest : Duration) : Backoff κ where
  base := base
  greatest := max greatest base

/-- How often a key has failed in a row. -/
def count (b : Backoff κ) (k : κ) : Nat :=
  match b.failures.find? fun e => e.1 = k with
  | some e => e.2
  | none => 0

/-- Begins a new row for a key. -/
def forget (b : Backoff κ) (k : κ) : Backoff κ :=
  { b with failures := b.failures.filter fun e => e.1 ≠ k }

/-- The delay after that many failures in a row. -/
def delayAfter (b : Backoff κ) (failures : Nat) : Duration :=
  match (powerOfTwo? failures).bind b.base.scale? with
  | some d => min d b.greatest
  | none => b.greatest

/-- Counts a failure of a key and gives the delay before its next try. -/
def delayFor (b : Backoff κ) (k : κ) : Duration × Backoff κ :=
  let n := b.count k
  (b.delayAfter n,
    { b with
      failures := (k, min (n + 1) failureLimit) :: b.failures.filter fun e => e.1 ≠ k })

end Backoff

end ControlLoop
