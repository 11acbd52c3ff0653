import ControlLoop.Controller.Predicate
import ControlLoop.Controller.Reconciler
import ControlLoop.Controller.Recorder
import ControlLoop.Controller.Finalizer
import ControlLoop.Informer.Feed
import ControlLoop.Metrics
import ControlLoop.Queue.Agenda
import ControlLoop.Queue.WorkQueue
/-!
# Controllers

A controller keeps a copy of the objects of one kind through an informer. A dispatcher turns changes of
that copy into keys in a queue, and workers take keys from the queue and call the reconciler with what
the copy holds under them. A supervisor ends all of it in order.

Each part is a task: `Controller.step` lets one task do the next thing it can do, or says that it has
to wait. Everything that a controller does is a sequence of such steps. A step uses the store, the copy
or the queue once, so that whatever other tasks can do in between is a step of theirs. Only the step of
a worker that is busy takes all actions of its job up to the next sleep, since nobody else goes on
before the worker waits. The actions stand one by one in the job, each with one request at most, so that
runs in which others come between them can be told as well.
-/
namespace ControlLoop

/-- The settings of a controller. -/
structure ControllerConfig where
  name : String := "controller"
  /-- The namespace to keep to; all of them if none is given. -/
  ns : Option String := none
  workers : Nat := 2
  rateLimitBase : Duration := .ofMillis 5
  rateLimitMax : Duration := .ofSeconds 1000
  reconnectBackoff : Duration := .ofSeconds 5
  /-- The finalizer that holds back removal until the reconciler has cleaned up. -/
  finalizer : Option String := none
  deriving DecidableEq, Repr

/-- The parts of a controller that go on by themselves. -/
inductive ControllerTask where
  | informer
  | dispatcher
  | worker (number : Nat)
  /-- A key that was put off. -/
  | delayed (ticket : Nat)
  | supervisor
  deriving DecidableEq, Repr

/-- What a worker is doing. -/
inductive Worker where
  /-- Looking for a key, or waiting for one. -/
  | idle
  /-- Has a key and has not looked at the copy yet. -/
  | holding (key : ObjectKey)
  | busy (key : ObjectKey) (job : Task Outcome)
  | asleep (key : ObjectKey) (job : Task Outcome)
  /-- Has come to the end of the work and not told the queue yet. -/
  | leaving (key : ObjectKey) (ending : Ending Outcome)
  /-- Has given the key back, which is to come again. -/
  | returning (key : ObjectKey) (delay : Duration)
  | exited

namespace Worker

/-- The key that a worker works on. -/
def key? : Worker → Option ObjectKey
  | holding k => some k
  | busy k _ => some k
  | asleep k _ => some k
  | leaving k _ => some k
  | _ => none

def hasExited : Worker → Bool
  | exited => true
  | _ => false

end Worker

/-- How far the end of a controller has come. -/
inductive Supervision where
  | running
  /-- No key is handed out any more; workers finish what they are at. -/
  | draining
  /-- All workers are gone; the informer and the dispatcher are to follow. -/
  | closing
  | finished
  deriving DecidableEq, Repr

/-- The state of a controller for objects of the kind `α` and of the cluster it works on. -/
structure Controller (σ : Type) (α : Type := Widget) where
  config : ControllerConfig
  predicate : Predicate α
  reconciler : Reconciler σ α
  /-- The state of the reconciler. -/
  memory : σ
  cluster : Cluster
  feed : Feed α := {}
  /-- Whether the timer for the rest of the informer has been set. -/
  resting : Bool := false
  /-- Changes on their way from the informer to the dispatcher. -/
  changes : List (Change α) := []
  dispatcherDone : Bool := false
  queue : WorkQueue ObjectKey
  workers : List Worker
  agenda : Agenda ControllerTask := {}
  /-- The task at work. -/
  current : Option ControllerTask := none
  /-- Whether the end has been asked for. -/
  stopping : Bool := false
  supervision : Supervision := .running
  /-- How often keys have been worked on, and how often that failed. -/
  tally : Metrics.Tally := {}

namespace Controller

variable {σ α : Type} [Resource α] [Collection α]

/-- A controller that has just been started on a cluster. -/
def start (config : ControllerConfig) (predicate : Predicate α) (reconciler : Reconciler σ α)
    (memory : σ) (cluster : Cluster) : Controller σ α :=
  let workers := max config.workers 1
  { config := config
    predicate := predicate
    reconciler := reconciler
    memory := memory
    cluster := cluster
    queue := .new config.rateLimitBase config.rateLimitMax
    workers := List.replicate workers .idle
    agenda := {
      now := cluster.time
      ready := .informer :: .dispatcher :: (List.range workers).map .worker } }

/-! ## Changes of single parts -/

/-- Lets a task go on. -/
def wake (c : Controller σ α) (task : ControllerTask) : Controller σ α :=
  { c with agenda := c.agenda.wake task }

/-- Takes over a changed queue and lets the workers go on that were signalled. -/
def applyQueue (c : Controller σ α) (change : WorkQueue ObjectKey × List Nat) : Controller σ α :=
  { c with
    queue := change.1
    agenda := c.agenda.wakeAll (change.2.map .worker) }

/-- The store of the objects that it is for. -/
abbrev store (c : Controller σ α) : Store α := Collection.store c.cluster

def informer (c : Controller σ α) : Informer α := c.feed.informer

/-- Whether the informer waits for its watch. -/
def isWatching (c : Controller σ α) : Bool :=
  match c.informer.phase with
  | .watching _ => true
  | _ => false

/-- Takes over a changed cluster. If there is news for the informer's watch, the informer goes on. -/
def setCluster (c : Controller σ α) (cluster : Cluster) : Controller σ α :=
  let store : Store α := Collection.store cluster
  let news :=
    store.published.length ≠ c.store.published.length ||
      store.disconnections.length ≠ c.store.disconnections.length
  let c := { c with cluster := cluster }
  if news && c.isWatching then c.wake .informer else c

/-- Takes over a state of the informer and sends the changes it passes on to the dispatcher. -/
def applyFeed (c : Controller σ α) (result : Feed α × List (Change α)) : Controller σ α :=
  let c := { c with feed := result.1, changes := c.changes ++ result.2 }
  if result.2.isEmpty then c else c.wake .dispatcher

def setWorker (c : Controller σ α) (n : Nat) (w : Worker) : Controller σ α :=
  { c with workers := c.workers.set n w }

/-! ## Working on a key -/

/-- The keys on which runs have begun and not ended, by the journal's notes of them. -/
def inProgress (c : Controller σ α) (k : ObjectKey) : Bool :=
  c.workers.any fun w => w.key? = some k

/-- Notes the beginning of a run. -/
def noteBegin (purpose : Purpose) (a : α) (cancelled overlap : Bool) (c : Cluster) : Cluster :=
  c.noteRun (.began c.time purpose (Resource.key a) (Resource.versionText a) (Resource.generation a)
    cancelled overlap)

/-- Notes the end of a run. -/
def noteEnd (purpose : Purpose) (a : α) (ending : Ending Outcome) : Session Unit := fun c =>
  ((), c.noteRun (.ended c.time purpose (Resource.key a) ending))

/-- Goes on after the reconciler has returned: a failure is recorded as an event. -/
def afterReconcile (a : α) (ending : Ending Outcome) : Session (Ending Outcome) := do
  noteEnd .reconcile a ending
  match ending with
  | .failed e => Recorder.record a ⟨.warning, "ReconcileFailed", e.message⟩
  | _ => pure ()
  return ending

/-- Goes on after the reconciler has cleaned up: the finalizer is removed, and that is recorded. -/
def afterFinalize (a : α) (finalizer : String) (ending : Ending Unit) :
    Session (Ending Outcome) := do
  match ending with
  | .panicked text =>
    noteEnd .finalize a (.panicked text)
    return .panicked text
  | .failed e =>
    noteEnd .finalize a (.failed e)
    Recorder.record a ⟨.warning, "FinalizeFailed", e.message⟩
    return .failed e
  | .returned () =>
    noteEnd .finalize a (.returned {})
    match ← Finalizer.remove a finalizer with
    | .error e => return .failed (.client e)
    | .ok _ =>
      Recorder.record a ⟨.normal, "Finalized", s!"Removed finalizer {finalizer}"⟩
      return .returned {}

/-- Adds the finalizer. The change that this makes comes back and leads to a run. -/
def claim (a : α) (finalizer : String) : Session (Ending Outcome) := do
  match ← Finalizer.add a finalizer with
  | .error e => return .failed (.client e)
  | .ok _ => return .returned {}

/-- What there is to do for the object that the copy holds under a key. -/
inductive Duty (α : Type) where
  | nothing
  | finalize (object : α) (finalizer : String)
  | claim (object : α) (finalizer : String)
  | reconcile (object : α)

/-- An object that is terminating is cleaned up after if it has the finalizer; any other is given the
finalizer first and then reconciled. -/
def dutyFor (finalizer : Option String) : Option α → Duty α
  | none => .nothing
  | some a =>
    if Resource.isTerminating a then
      match finalizer with
      | some f => if Finalizer.has a f then .finalize a f else .nothing
      | none => .nothing
    else
      match finalizer with
      | some f => if Finalizer.has a f then .reconcile a else .claim a f
      | none => .reconcile a

/-- Begins the work on a key: calls the reconciler if there is something for it to do. -/
def beginWork (c : Controller σ α) (k : ObjectKey) : Task Outcome × Controller σ α :=
  let overlap := c.inProgress k
  match dutyFor c.config.finalizer (c.informer.cache.get? k) with
  | .nothing => (.done (.returned {}), c)
  | .claim a f => (.lift (claim a f), c)
  | .reconcile a =>
    let (task, memory) := c.reconciler.reconcile a c.memory
    (task.bind fun ending => .lift (afterReconcile a ending),
      { c with
        memory := memory
        cluster := noteBegin .reconcile a c.stopping overlap c.cluster })
  | .finalize a f =>
    let (task, memory) := c.reconciler.finalize a c.memory
    (task.bind fun ending => .lift (afterFinalize a f ending),
      { c with
        memory := memory
        cluster := noteBegin .finalize a c.stopping overlap c.cluster })

/-- Tells the queue that a worker's run on a key has ended: well, or to be tried again, after the delay
that the run asked for or else after the usual one. -/
def release (c : Controller σ α) (n : Nat) (k : ObjectKey) (ending : Ending Outcome) : Controller σ α :=
  match ending.retry with
  | none =>
    ({ c with tally := c.tally.count true }.applyQueue (c.queue.done k)).setWorker n .idle
  | some delay =>
    let (left, change) := c.queue.endForRetry k delay
    ({ c with tally := c.tally.count ending.hasReturned }.applyQueue change).setWorker n
      (match left with
      | some d => .returning k d
      | none => .idle)

/-- Lets a key come back that is to be tried again. -/
def bringBack (c : Controller σ α) (n : Nat) (k : ObjectKey) (d : Duration) : Controller σ α :=
  let r := c.queue.comeBack k d
  let c := (c.applyQueue (r.queue, r.woken)).setWorker n .idle
  match r.putOff with
  | some d => c.wake (.delayed d.ticket)
  | none => c

/-! ## Steps of the tasks -/

/-- Whether a task can go on at once after a step. -/
inductive Progress where
  | again
  | blocked
  deriving DecidableEq, Repr

/-- The informer makes its next request. -/
def requestInformer (c : Controller σ α) : Controller σ α × Progress :=
  match c.feed.informer.phase with
  | .stopped => (c, .blocked)
  | .listing =>
    let (answer, cluster) := Session.list α c.config.ns c.cluster
    ({ c with cluster := cluster, feed := c.feed.listed answer }, .again)
  | .opening version =>
    let (answer, cluster) := Session.watch α c.config.ns version c.cluster
    ({ c with cluster := cluster, feed := c.feed.opened version answer }, .again)
  | .watching _ =>
    let (feed, more) := c.feed.pull c.store
    ({ c with feed := feed }, if more then .again else .blocked)
  | .resting resume =>
    if c.resting ∨ c.config.reconnectBackoff = 0 then
      ({ c with resting := false, feed := c.feed.rested resume }, .again)
    else
      ({ c with
          resting := true
          agenda := c.agenda.after c.config.reconnectBackoff .informer }, .blocked)

/-- The informer takes an answer, makes its next request, or ends. -/
def stepInformer (c : Controller σ α) : Controller σ α × Progress :=
  match c.feed.answer with
  | some answer => (c.applyFeed (c.feed.take answer), .again)
  | none =>
    if c.supervision = .closing ∧ c.informer.phase ≠ .stopped then
      (({ c with feed := c.feed.stop }.wake .dispatcher).wake .supervisor, .again)
    else c.requestInformer

/-- The dispatcher puts the key of the next change into the queue, if the change matters. -/
def stepDispatcher (c : Controller σ α) : Controller σ α × Progress :=
  match c.changes with
  | change :: rest =>
    let c := { c with changes := rest }
    if c.predicate.holds change then (c.applyQueue (c.queue.add change.key), .again)
    else (c, .again)
  | [] =>
    if c.informer.phase = .stopped ∧ ¬ c.dispatcherDone then
      ({ c with dispatcherDone := true }.wake .supervisor, .blocked)
    else (c, .blocked)

/-- A worker takes a key, looks at the copy, goes on with its work, or gives the key back. -/
def stepWorker (c : Controller σ α) (n : Nat) : Controller σ α × Progress :=
  match c.workers[n]? with
  | none => (c, .blocked)
  | some .exited => (c, .blocked)
  | some .idle =>
    match c.queue.turn n with
    | .waiting q => ({ c with queue := q }, .blocked)
    | .closed q => (({ c with queue := q }.setWorker n .exited).wake .supervisor, .blocked)
    | .got k q => ({ c with queue := q }.setWorker n (.holding k), .again)
  | some (.holding k) =>
    let (job, c) := (c.setWorker n .idle).beginWork k
    (c.setWorker n (.busy k job), .again)
  | some (.busy k job) =>
    match job.advance c.cluster with
    | (.finished ending, cluster) => ((c.setCluster cluster).setWorker n (.leaving k ending), .again)
    | (.asleep d next, cluster) =>
      let c := (c.setCluster cluster).setWorker n (.asleep k next)
      ({ c with agenda := c.agenda.after d (.worker n) }, .blocked)
  | some (.asleep k job) => (c.setWorker n (.busy k job), .again)
  | some (.leaving k ending) => (c.release n k ending, .again)
  | some (.returning k d) => (c.bringBack n k d, .again)

/-- A key that was put off first sets its timer, and is added when that has run out. -/
def stepDelayed (c : Controller σ α) (ticket : Nat) : Controller σ α × Progress :=
  match c.queue.delayed? ticket with
  | none => (c, .blocked)
  | some d =>
    if d.timed then (c.applyQueue (c.queue.readd ticket), .blocked)
    else
      ({ c with
          queue := c.queue.setTimed ticket
          agenda := c.agenda.after d.delay (.delayed ticket) }, .blocked)

/-- The supervisor shuts the queue down, waits for the workers, and then ends the rest. -/
def stepSupervisor (c : Controller σ α) : Controller σ α × Progress :=
  match c.supervision with
  | .running =>
    if c.stopping then ({ c with supervision := .draining }.applyQueue c.queue.shutDown, .again)
    else (c, .blocked)
  | .draining =>
    if c.workers.all Worker.hasExited then
      ({ c with supervision := .closing }.wake .informer, .blocked)
    else (c, .blocked)
  | .closing =>
    if c.informer.phase = .stopped ∧ c.dispatcherDone then
      ({ c with supervision := .finished }, .blocked)
    else (c, .blocked)
  | .finished => (c, .blocked)

/-- Lets a task do the next thing it can do. -/
def step (c : Controller σ α) : ControllerTask → Controller σ α × Progress
  | .informer => c.stepInformer
  | .dispatcher => c.stepDispatcher
  | .worker n => c.stepWorker n
  | .delayed ticket => c.stepDelayed ticket
  | .supervisor => c.stepSupervisor

/-! ## Requests from outside -/

/-- Asks for the end. -/
def stop (c : Controller σ α) : Controller σ α := { c with stopping := true }.wake .supervisor

/-- Adds a key to the queue. -/
def enqueue (c : Controller σ α) (k : ObjectKey) : Controller σ α := c.applyQueue (c.queue.add k)

def isStopped (c : Controller σ α) : Bool := c.supervision = .finished

end Controller

end ControlLoop
