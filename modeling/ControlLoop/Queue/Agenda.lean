import ControlLoop.Queue.Backoff
/-!
# Tasks and timers under a clock of their own

Tasks that can go on stand in line. A timer names a task and a deadline; timers are kept in the order
of their deadlines, and those of one deadline in the order they were set. The clock moves only when no
task can go on, to the next deadline.
-/
namespace ControlLoop

/-- A task that is to go on at some time. -/
structure Timer (τ : Type) where
  deadline : Duration
  task : τ
  deriving DecidableEq, Repr

/-- The tasks of a system and its clock. -/
structure Agenda (τ : Type) where
  now : Duration := 0
  ready : List τ := []
  timers : List (Timer τ) := []
  deriving Repr

namespace Agenda

variable {τ : Type} [DecidableEq τ]

/-- Lets a task go on, after those that can already. -/
def wake (a : Agenda τ) (task : τ) : Agenda τ :=
  if task ∈ a.ready then a else { a with ready := a.ready ++ [task] }

def wakeAll (a : Agenda τ) (tasks : List τ) : Agenda τ := tasks.foldl wake a

/-- Takes the first task from the line. -/
def pop (a : Agenda τ) : Agenda τ := { a with ready := a.ready.tail }

/-- Puts a timer behind those with an earlier or equal deadline. -/
def insertTimer (t : Timer τ) : List (Timer τ) → List (Timer τ)
  | [] => [t]
  | u :: rest => if u.deadline ≤ t.deadline then u :: insertTimer t rest else t :: u :: rest

/-- Lets a task go on after a delay. -/
def after (a : Agenda τ) (delay : Duration) (task : τ) : Agenda τ :=
  { a with timers := insertTimer ⟨a.now + delay, task⟩ a.timers }

/-- Forgets the timers of a task. -/
def cancel (a : Agenda τ) (task : τ) : Agenda τ :=
  { a with timers := a.timers.filter fun t => t.task ≠ task }

/-- The next deadline. -/
def nextDeadline (a : Agenda τ) : Option Duration := a.timers.head?.map Timer.deadline

/-- Moves the clock to `time` and wakes the tasks whose deadlines have come. -/
def moveTo (a : Agenda τ) (time : Duration) : Agenda τ :=
  let due := a.timers.takeWhile fun t => t.deadline ≤ time
  { a with
    now := time
    timers := a.timers.dropWhile fun t => t.deadline ≤ time }.wakeAll (due.map Timer.task)

end Agenda

end ControlLoop
