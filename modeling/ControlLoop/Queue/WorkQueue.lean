import ControlLoop.Queue.Backoff
import ControlLoop.Queue.Signal
/-!
# The queue of work

Keys wait in line, each at most once, and are handed out in the order they came. A key that is added
while someone works on it is marked, and lines up again as soon as that work is over. A key can also
be put off: it is added again when its delay has passed.

Operations that can end someone's wait give the waiters they signal.
-/
namespace ControlLoop

/-- A key that has been put off; `timed` says whether its timer has been set. -/
structure Delayed (κ : Type) where
  ticket : Nat
  key : κ
  delay : Duration
  timed : Bool := false
  deriving DecidableEq, Repr

/-- The queue of work. -/
structure WorkQueue (κ : Type) where
  /-- The keys in line, first to go first. -/
  fifo : List κ := []
  queued : List κ := []
  processing : List κ := []
  /-- Keys in work that have been added meanwhile. -/
  dirty : List κ := []
  shuttingDown : Bool := false
  backoff : Backoff κ
  signal : Signal := {}
  delayed : List (Delayed κ) := []
  tickets : Nat := 0
  deriving Repr

namespace WorkQueue

variable {κ : Type} [DecidableEq κ]

/-- An empty queue whose failing keys are put off between `base` and `greatest`. -/
def new (base greatest : Duration) : WorkQueue κ where
  backoff := .new base greatest

/-- Puts a key at the end of the line. -/
def enqueue (q : WorkQueue κ) (k : κ) : WorkQueue κ × List Nat :=
  let (signal, woken) := q.signal.notifyOne
  ({ q with fifo := q.fifo ++ [k], queued := q.queued.insert k, signal := signal }, woken)

/-- Adds a key: nothing if it is in line already, a mark if someone works on it. -/
def add (q : WorkQueue κ) (k : κ) : WorkQueue κ × List Nat :=
  if q.shuttingDown ∨ k ∈ q.queued then (q, [])
  else if k ∈ q.processing then ({ q with dirty := q.dirty.insert k }, [])
  else q.enqueue k

/-- What someone who asks for a key is told. -/
inductive Take (κ : Type) where
  | key (key : κ) (queue : WorkQueue κ)
  | empty
  | shutDown
  deriving Repr

/-- Hands out the first key in line. -/
def take (q : WorkQueue κ) : Take κ :=
  if q.shuttingDown then .shutDown
  else
    match q.fifo with
    | [] => .empty
    | k :: rest =>
      .key k
        { q with
          fifo := rest
          queued := q.queued.filter (· ≠ k)
          processing := q.processing.insert k }

/-- How one turn of someone who wants a key ends. -/
inductive Turn (κ : Type) where
  | got (key : κ) (queue : WorkQueue κ)
  | closed (queue : WorkQueue κ)
  | waiting (queue : WorkQueue κ)
  deriving Repr

/-- One turn of waiter `w`: it lines up before it looks, so that no signal can slip in between, and
leaves the line if it is served. One who took a kept signal and found nothing lines up again. -/
def turn (q : WorkQueue κ) (w : Nat) : Turn κ :=
  let enrolled := { q with signal := q.signal.enroll w }
  match enrolled.take with
  | .shutDown => .closed { enrolled with signal := enrolled.signal.withdraw w }
  | .key k served => .got k { served with signal := served.signal.withdraw w }
  | .empty =>
    .waiting (if q.signal.kept then { enrolled with signal := enrolled.signal.enroll w }
      else enrolled)

/-- Someone gives up waiting. A signal that had reached them is passed on. -/
def giveUp (q : WorkQueue κ) (w : Nat) (signalled : Bool) : WorkQueue κ × List Nat :=
  if signalled then
    let (signal, woken) := q.signal.notifyOne
    ({ q with signal := signal }, woken)
  else ({ q with signal := q.signal.withdraw w }, [])

/-- Ends the work on a key. A marked key lines up again; the flag says whether it did. -/
def finish (q : WorkQueue κ) (k : κ) : Bool × WorkQueue κ × List Nat :=
  let marked := k ∈ q.dirty
  let q := { q with
    processing := q.processing.filter (· ≠ k)
    dirty := q.dirty.filter (· ≠ k) }
  if marked ∧ ¬ q.shuttingDown then
    let (q, woken) := q.enqueue k
    (true, q, woken)
  else (false, q, [])

/-- Ends the work on a key that went well. -/
def done (q : WorkQueue κ) (k : κ) : WorkQueue κ × List Nat :=
  ({ q with backoff := q.backoff.forget k }.finish k).2

/-- The delay before a key is tried again: the one asked for, which ends a row of failures, or else
the next one of the row. -/
def chooseDelay (q : WorkQueue κ) (k : κ) (delay : Option Duration) : Duration × WorkQueue κ :=
  match delay with
  | some d => (d, { q with backoff := q.backoff.forget k })
  | none =>
    let (d, backoff) := q.backoff.delayFor k
    (d, { q with backoff := backoff })

/-- Puts a key off, unless the queue is shut down. -/
def putOff (q : WorkQueue κ) (k : κ) (delay : Duration) : WorkQueue κ × Option (Delayed κ) :=
  if q.shuttingDown then (q, none)
  else
    let d : Delayed κ := { ticket := q.tickets, key := k, delay := delay }
    ({ q with delayed := q.delayed ++ [d], tickets := q.tickets + 1 }, some d)

/-- What comes of a request to try a key again. -/
structure Requeued (κ : Type) where
  queue : WorkQueue κ
  woken : List Nat := []
  putOff : Option (Delayed κ) := none
  deriving Repr

/-- Ends the work on a key that is to be tried again. A key that was marked meanwhile lines up at
once; for any other the delay is given after which it is to come back. -/
def endForRetry (q : WorkQueue κ) (k : κ) (delay : Option Duration) :
    Option Duration × WorkQueue κ × List Nat :=
  let (d, q) := q.chooseDelay k delay
  let (again, q, woken) := q.finish k
  (if again then none else some d, q, woken)

/-- Lets a key come back: at once if there is no delay, else it is put off. -/
def comeBack (q : WorkQueue κ) (k : κ) (d : Duration) : Requeued κ :=
  if d = 0 then
    let (q, woken) := q.add k
    { queue := q, woken := woken }
  else
    let (q, put) := q.putOff k d
    { queue := q, putOff := put }

/-- Ends the work on a key and lets it come back. The queue is free for others in between, so the two
parts have names of their own. -/
def requeue (q : WorkQueue κ) (k : κ) (delay : Option Duration) : Requeued κ :=
  match q.endForRetry k delay with
  | (none, q, woken) => { queue := q, woken := woken }
  | (some d, q, _) => q.comeBack k d

/-- The key that a ticket stands for. -/
def delayed? (q : WorkQueue κ) (ticket : Nat) : Option (Delayed κ) :=
  q.delayed.find? fun d => d.ticket = ticket

/-- Notes that the timer of a key that was put off has been set. -/
def setTimed (q : WorkQueue κ) (ticket : Nat) : WorkQueue κ :=
  { q with
    delayed := q.delayed.map fun d => if d.ticket = ticket then { d with timed := true } else d }

/-- Adds a key whose delay has passed. -/
def readd (q : WorkQueue κ) (ticket : Nat) : WorkQueue κ × List Nat :=
  match q.delayed? ticket with
  | none => (q, [])
  | some d =>
    { q with delayed := q.delayed.filter fun d => d.ticket ≠ ticket }.add d.key

/-- Ends the service: no key is handed out or added any more, and everyone who waits is signalled. -/
def shutDown (q : WorkQueue κ) : WorkQueue κ × List Nat :=
  let (signal, woken) := q.signal.notifyAll
  ({ q with shuttingDown := true, delayed := [], signal := signal }, woken)

def size (q : WorkQueue κ) : Nat := q.fifo.length

def isProcessing (q : WorkQueue κ) (k : κ) : Bool := k ∈ q.processing

def requeues (q : WorkQueue κ) (k : κ) : Nat := q.backoff.count k

/-- The keys that are still to be handed out, in line or marked. -/
def pending (q : WorkQueue κ) : List κ := q.fifo ++ q.dirty

end WorkQueue

end ControlLoop
