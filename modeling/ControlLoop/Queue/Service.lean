import ControlLoop.Queue.Agenda
import ControlLoop.Queue.WorkQueue
/-!
# A queue in service

A queue together with its clock, the keys that are put off, and those who wait for keys.
-/
namespace ControlLoop

/-- What goes on by itself around a queue. -/
inductive QueueTask where
  /-- A key that was put off. -/
  | delayed (ticket : Nat)
  /-- Someone who waits for a key. -/
  | waiter (number : Nat)
  deriving DecidableEq, Repr

/-- The end of a wait. -/
structure Served (κ : Type) where
  waiter : Nat
  /-- The key, or none if the queue was shut down. -/
  key : Option κ
  time : Duration
  deriving DecidableEq, Repr

/-- A queue in service. -/
structure QueueService (κ : Type) where
  queue : WorkQueue κ
  agenda : Agenda QueueTask := {}
  /-- How many have waited so far. -/
  waiters : Nat := 0
  /-- Waits that have ended, latest last. -/
  served : List (Served κ) := []
  deriving Repr

namespace QueueService

variable {κ : Type} [DecidableEq κ]

/-- Takes over a changed queue and lets the waiters go on that were signalled. -/
def apply (s : QueueService κ) (change : WorkQueue κ × List Nat) : QueueService κ :=
  { s with
    queue := change.1
    agenda := s.agenda.wakeAll (change.2.map .waiter) }

def add (s : QueueService κ) (k : κ) : QueueService κ := s.apply (s.queue.add k)

def done (s : QueueService κ) (k : κ) : QueueService κ := s.apply (s.queue.done k)

def requeue (s : QueueService κ) (k : κ) (delay : Option Duration) : QueueService κ :=
  let r := s.queue.requeue k delay
  let s := s.apply (r.queue, r.woken)
  match r.putOff with
  | some d => { s with agenda := s.agenda.wake (.delayed d.ticket) }
  | none => s

def shutDown (s : QueueService κ) : QueueService κ := s.apply s.queue.shutDown

/-- One turn of a waiter, whose end is noted. -/
def runWaiter (s : QueueService κ) (w : Nat) : QueueService κ :=
  match s.queue.turn w with
  | .got k q => { s with queue := q, served := s.served ++ [⟨w, some k, s.agenda.now⟩] }
  | .closed q => { s with queue := q, served := s.served ++ [⟨w, none, s.agenda.now⟩] }
  | .waiting q => { s with queue := q }

/-- A key that was put off first sets its timer, and is added when that has run out. -/
def runDelayed (s : QueueService κ) (ticket : Nat) : QueueService κ :=
  match s.queue.delayed? ticket with
  | none => s
  | some d =>
    if d.timed then s.apply (s.queue.readd ticket)
    else
      { s with
        queue := s.queue.setTimed ticket
        agenda := s.agenda.after d.delay (.delayed ticket) }

def runTask (s : QueueService κ) : QueueTask → QueueService κ
  | .delayed ticket => s.runDelayed ticket
  | .waiter w => s.runWaiter w

/-- Lets tasks go on until none can, at most `limit` of them. -/
def settle : Nat → QueueService κ → QueueService κ
  | 0, s => s
  | limit + 1, s =>
    match s.agenda.ready with
    | [] => s
    | task :: _ => settle limit ({ s with agenda := s.agenda.pop }.runTask task)

/-- The number of tasks that can still go on at one instant: each waiter and each key that was put
off takes a few turns. -/
def bound (s : QueueService κ) : Nat :=
  4 * (s.waiters + s.queue.delayed.length + s.agenda.ready.length + s.queue.fifo.length + 4)

/-- Lets everything happen that can happen now. -/
def quiesce (s : QueueService κ) : QueueService κ := settle s.bound s

/-- Begins a wait, and gives its number. -/
def wait (s : QueueService κ) : Nat × QueueService κ :=
  (s.waiters, { s with
    waiters := s.waiters + 1
    agenda := s.agenda.wake (.waiter s.waiters) })

/-- Whether a wait has ended. -/
def served? (s : QueueService κ) (w : Nat) : Option (Served κ) :=
  s.served.find? fun e => e.waiter = w

/-- Lets time pass up to `target`, from deadline to deadline, at most `limit` of them, or until
`finished` holds. -/
def runUntil (finished : QueueService κ → Bool) (target : Duration) :
    Nat → QueueService κ → QueueService κ
  | 0, s => s
  | limit + 1, s =>
    if finished s then s
    else
      match s.agenda.nextDeadline with
      | some t =>
        if t ≤ target then
          runUntil finished target limit { s with agenda := s.agenda.moveTo t }.quiesce
        else { s with agenda := s.agenda.moveTo target }
      | none => { s with agenda := s.agenda.moveTo target }

/-- Lets time pass. -/
def advance (s : QueueService κ) (d : Duration) : QueueService κ :=
  runUntil (fun _ => false) (s.agenda.now + d) (s.agenda.timers.length + 1) s

/-- Asks for a key without waiting. -/
def tryGet (s : QueueService κ) : Option (Option κ) × QueueService κ :=
  let w := s.waiters
  let s := { s with waiters := w + 1 }
  match s.queue.turn w with
  | .got k q => (some (some k), { s with queue := q })
  | .closed q => (some none, { s with queue := q })
  | .waiting q => (none, s.apply (q.giveUp w false))

/-- Asks for a key and waits at most so long. A key that comes at the last instant still counts. -/
def getWithin (s : QueueService κ) (d : Duration) : Option (Option κ) × QueueService κ :=
  let w := s.waiters
  let start := { s with waiters := w + 1 }.runWaiter w
  let s := runUntil (fun s => (s.served? w).isSome) (s.agenda.now + d)
    (start.agenda.timers.length + 1) start.quiesce
  match s.served? w with
  | some e => (some e.key, s)
  | none => (none, s.apply (s.queue.giveUp w (.waiter w ∈ s.agenda.ready)))

end QueueService

end ControlLoop
