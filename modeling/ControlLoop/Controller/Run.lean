import ControlLoop.Controller.Basic
/-!
# Running a controller

One task is at work at a time, until it has to wait; then the next one in line goes on. When none can
go on, the clock moves to the next deadline.
-/
namespace ControlLoop.Controller

variable {σ α : Type} [Resource α] [Collection α]

/-- Moves the clock and lets the tasks go on whose time has come. -/
def moveTo (c : Controller σ α) (time : Duration) : Controller σ α :=
  { c with
    agenda := c.agenda.moveTo time
    cluster := { c.cluster with time := time } }

/-- The next thing that happens at this instant, or none if everything waits. -/
def turn (c : Controller σ α) : Option (Controller σ α) :=
  match c.current with
  | some task =>
    match c.step task with
    | (c, .again) => some c
    | (c, .blocked) => some { c with current := none }
  | none =>
    match c.agenda.ready with
    | task :: _ => some { c with current := some task, agenda := c.agenda.pop }
    | [] =>
      match c.agenda.nextDeadline with
      | some t => if t ≤ c.agenda.now then some (c.moveTo c.agenda.now) else none
      | none => none

/-- Lets at most that many things happen. -/
def turns : Nat → Controller σ α → Controller σ α
  | 0, c => c
  | n + 1, c =>
    match c.turn with
    | none => c
    | some c => turns n c

/-- A controller that does not come to rest within so many turns is stopped there. -/
def turnLimit : Nat := 1000000

/-- Lets everything happen that can happen at this instant. -/
def quiesce (c : Controller σ α) : Controller σ α := turns turnLimit c

/-- Lets time pass up to `target`, from deadline to deadline, at most so many of them. -/
def runUntil (target : Duration) : Nat → Controller σ α → Controller σ α
  | 0, c => c
  | n + 1, c =>
    match c.agenda.nextDeadline with
    | some t => if t ≤ target then runUntil target n (c.moveTo t).quiesce else c.moveTo target
    | none => c.moveTo target

/-- Lets time pass. -/
def advance (c : Controller σ α) (d : Duration) : Controller σ α :=
  runUntil (c.agenda.now + d) turnLimit c

end ControlLoop.Controller
