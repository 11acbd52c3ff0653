import ControlLoop.Operator.Basic
/-!
# Starting and stopping

Starting opens the endpoints and then runs the controllers. Stopping goes the other way: first the
controllers, then the webhook, then the endpoints for supervision, and each group is awaited before the
next one is told to stop. If an endpoint cannot be opened, those open already are closed again.

The operator works off a list of steps. Tasks that it has started live on their own: when one returns,
and when somebody asks the operator to stop, is not up to it.
-/
namespace ControlLoop.Operator

/-- Something that runs beside the operator. -/
inductive Task where
  | server (endpoint : Endpoint)
  | controller (manager : Manager)
  deriving DecidableEq, Repr

/-- The groups of tasks that are told to stop together. -/
inductive Scope where
  | supervision
  | webhook
  | controllers
  deriving DecidableEq, Repr

def Task.scope : Task → Scope
  | server .metrics => .supervision
  | server .health => .supervision
  | server .webhook => .webhook
  | controller _ => .controllers

/-- What the operator does next. -/
inductive Step where
  /-- Opens an endpoint and serves it. -/
  | serve (endpoint : Endpoint)
  /-- Runs a controller. -/
  | manage (manager : Manager)
  /-- Waits until somebody asks to stop. -/
  | awaitStop
  /-- Tells a group to stop. -/
  | cancel (scope : Scope)
  /-- Waits until a task has returned. -/
  | join (task : Task)
  /-- Reports how it went. -/
  | finish (result : Except Failure Unit)

/-- The servers of the given endpoints that belong to a group. -/
def serversIn (s : Scope) (endpoints : List Endpoint) : List Task :=
  (endpoints.map Task.server).filter fun t => t.scope = s

/-- Stops a group and waits for its tasks. -/
def release (s : Scope) (tasks : List Task) : List Step := .cancel s :: tasks.map .join

/-- All steps from the start to the end, if every endpoint can be opened. -/
def plan (o : Operator) : List Step :=
  o.endpoints.map .serve ++ o.managers.map .manage ++ [.awaitStop] ++
    release .controllers (o.managers.map .controller) ++
    release .webhook (serversIn .webhook o.endpoints) ++
    release .supervision (serversIn .supervision o.endpoints) ++ [.finish (.ok ())]

/-- The steps after an endpoint could not be opened. -/
def retreat (started : List Task) (e : Failure) : List Step :=
  release .supervision (started.filter fun t => t.scope = .supervision) ++ [.finish (.error e)]

/-- The failure to open an endpoint at an address. -/
def cannotBind (address reason : String) : Failure := .server s!"failed to bind {address}: {reason}"

/-- How far an operator has come. -/
structure Run where
  /-- The steps that are left. -/
  steps : List Step
  /-- The tasks started so far, in order. -/
  started : List Task := []
  /-- The groups that have been told to stop. -/
  cancelled : List Scope := []
  /-- The tasks that have returned. -/
  returned : List Task := []
  /-- Whether somebody has asked to stop. -/
  stopping : Bool := false
  result : Option (Except Failure Unit) := none

/-- What can happen next. -/
inductive Happening where
  /-- The operator takes its next step, if it can. -/
  | proceed
  | askToStop
  | returns (task : Task)
  deriving DecidableEq, Repr

/-- What opening an endpoint gives: nothing, or why it failed. -/
abbrev Opening := Endpoint → Except Failure Unit

namespace Run

def ofOperator (o : Operator) : Run := { steps := plan o }

/-- Takes the next step. A step that has to wait changes nothing. -/
def proceed (opening : Opening) (r : Run) : Run :=
  match r.steps with
  | [] => r
  | .serve e :: rest =>
    match opening e with
    | .ok () => { r with steps := rest, started := r.started ++ [.server e] }
    | .error f => { r with steps := retreat r.started f }
  | .manage m :: rest => { r with steps := rest, started := r.started ++ [.controller m] }
  | .awaitStop :: rest => if r.stopping then { r with steps := rest } else r
  | .cancel s :: rest => { r with steps := rest, cancelled := r.cancelled ++ [s] }
  | .join t :: rest => if t ∈ r.returned then { r with steps := rest } else r
  | .finish result :: rest => { r with steps := rest, result := some result }

def next (opening : Opening) (r : Run) : Happening → Run
  | .proceed => r.proceed opening
  | .askToStop => { r with stopping := true }
  | .returns t =>
    if t ∈ r.started ∧ t ∉ r.returned then { r with returned := r.returned ++ [t] } else r

/-- The tasks that still run. -/
def running (r : Run) : List Task := r.started.filter fun t => t ∉ r.returned

/-- The endpoints that still answer. -/
def serving (r : Run) : List Endpoint :=
  r.running.filterMap fun t =>
    match t with
    | .server e => some e
    | .controller _ => none

/-- The tasks that run although they have been told to stop. -/
def due (r : Run) : List Task := r.running.filter fun t => t.scope ∈ r.cancelled

/-- As many steps as can be taken before anything else happens. -/
def advance (opening : Opening) (r : Run) : Run :=
  (List.replicate (r.steps.length + r.started.length + 2) Happening.proceed).foldl (next opening) r

/-- All tasks that have been told to stop return, and the operator goes on. -/
def drain (opening : Opening) (r : Run) : Run :=
  (r.due.foldl (fun r t => r.next opening (.returns t)) r).advance opening

/-- Somebody asks the operator to stop, and it goes on. -/
def interrupt (opening : Opening) (r : Run) : Run := (r.next opening .askToStop).advance opening

/-- The tasks return, one group after the other. -/
def drainAll (opening : Opening) (r : Run) : Run :=
  ((r.drain opening).drain opening).drain opening

end Run

end ControlLoop.Operator
