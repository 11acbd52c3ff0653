/-!
# Signals

Waiters line up and are signalled one at a time, first come first served. A signal that finds no one
waiting is kept for the next who comes, but no more than one is kept.
-/
namespace ControlLoop

/-- Who waits, and whether a signal is kept. Waiters are known by numbers. -/
structure Signal where
  waiting : List Nat := []
  kept : Bool := false
  deriving DecidableEq, Repr

namespace Signal

/-- Lines up a waiter, or takes the kept signal instead. -/
def enroll (s : Signal) (w : Nat) : Signal :=
  if s.kept then { s with kept := false } else { s with waiting := s.waiting ++ [w] }

/-- Takes a waiter out of the line. -/
def withdraw (s : Signal) (w : Nat) : Signal :=
  { s with waiting := s.waiting.filter (· ≠ w) }

/-- Signals the first waiter, or keeps the signal. -/
def notifyOne (s : Signal) : Signal × List Nat :=
  match s.waiting with
  | w :: rest => ({ s with waiting := rest }, [w])
  | [] => ({ s with kept := true }, [])

/-- Signals everyone in the line. -/
def notifyAll (s : Signal) : Signal × List Nat := ({ s with waiting := [] }, s.waiting)

end Signal

end ControlLoop
