import ControlLoop.Cluster.Basic
import ControlLoop.Controller.Job
/-!
# Reconcilers

A reconciler is told which object needs attention and brings the cluster closer to what that object
asks for. It is asked again and again, with or without changes in between. Before an object that is
terminating loses its finalizer, the reconciler cleans up.
-/
namespace ControlLoop

/-- Work of a reconciler on a cluster. -/
abbrev Task (β : Type) := Job Cluster (Ending β)

/-- A reconciler for objects of the kind `α` with a state `σ` of its own, which it may change whenever it
is called. -/
structure Reconciler (σ : Type) (α : Type := Widget) where
  reconcile : α → σ → Task Outcome × σ
  finalize : α → σ → Task Unit × σ

namespace Reconciler

/-- The reconciler that has nothing to do. -/
def idle {σ α : Type} : Reconciler σ α where
  reconcile _ s := (.done (.returned {}), s)
  finalize _ s := (.done (.returned ()), s)

end Reconciler

/-- The end of work that either succeeds or fails. -/
def Ending.ofExcept {β : Type} : Except ReconcileError β → Ending β
  | .ok b => .returned b
  | .error e => .failed e

end ControlLoop
