import ControlLoop.Controller.Recorder
import ControlLoop.Controller.WidgetReconciler
/-!
# A reconciler that follows a script

For each object there is a list of actions, one for each call; a call beyond the last one has nothing
to do. An action sleeps, makes its requests, and then ends in the written way.
-/
namespace ControlLoop

/-- A request that an action makes on the widget it was called with. -/
inductive Effect where
  | updateStatus (status : Json)
  | updateCondition (condition : Json)
  | event (record : EventRecord)
  | patch (patch : Json)
  | ownerReference
  deriving Repr

/-- How an action ends. -/
inductive Finish where
  | outcome (outcome : Outcome)
  | fail (error : ReconcileError)
  | panic (text : String)
  deriving Repr

def Finish.ending : Finish → Ending Outcome
  | .outcome o => .returned o
  | .fail e => .failed e
  | .panic text => .panicked text

/-- What a scripted reconciler does when it is called. -/
structure Action where
  sleep : Duration := 0
  effects : List Effect := []
  finish : Finish := .outcome {}
  deriving Repr

/-- The actions left for each object, to reconcile it and to clean up. -/
structure Script where
  reconcile : List (String × List Action) := []
  finalize : List (String × List Action) := []
  deriving Repr

namespace Script

/-- Takes the next action for a name. -/
def next (name : String) :
    List (String × List Action) → Action × List (String × List Action)
  | [] => ({}, [])
  | (n, actions) :: rest =>
    if n = name then
      match actions with
      | [] => ({}, (n, []) :: rest)
      | a :: more => (a, (n, more) :: rest)
    else
      let (a, rest) := next name rest
      (a, (n, actions) :: rest)

/-- Makes one request. -/
def perform (w : Widget) : Effect → WidgetReconciler.Step Unit
  | .updateStatus status => do
    let _ ← WidgetReconciler.ofRequest (Status.update w status)
  | .updateCondition v => do
    match Condition.decode v with
    | .error e => throw (.serialization e.message)
    | .ok c => let _ ← WidgetReconciler.ofRequest (Status.updateCondition w c)
  | .event record => do
    Recorder.record w record
  | .patch p => do
    let _ ← WidgetReconciler.ofRequest (Session.patch Widget (Finalizer.target w) p)
  | .ownerReference =>
    match Owner.reference w with
    | .error e => throw (.client e)
    | .ok _ => return ()

/-- Makes requests one by one until one fails. -/
def performAll (w : Widget) : List Effect → WidgetReconciler.Routine Unit
  | [] => return ()
  | e :: rest => do
    perform w e
    performAll w rest

/-- Makes the requests of an action and ends in the written way, or as a failed request asks for. -/
def attempt (w : Widget) (a : Action) : Task Outcome :=
  (performAll w a.effects).run.bind fun
    | .error e => .done (.failed e)
    | .ok () => .done a.finish.ending

/-- Carries out an action. -/
def carryOut (w : Widget) (a : Action) : Task Outcome :=
  if a.sleep = 0 then attempt w a else .sleep a.sleep (attempt w a)

/-- The reconciler that follows a script. -/
def reconciler : Reconciler Script where
  reconcile w s :=
    let (a, rest) := next w.metadata.displayName s.reconcile
    (carryOut w a, { s with reconcile := rest })
  finalize w s :=
    let (a, rest) := next w.metadata.displayName s.finalize
    let task : Task Unit := (carryOut w a).bind fun
      | .returned _ => .done (.returned ())
      | .failed e => .done (.failed e)
      | .panicked text => .done (.panicked text)
    (task, { s with finalize := rest })

end Script

end ControlLoop
