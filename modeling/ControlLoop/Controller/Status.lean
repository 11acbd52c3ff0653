import ControlLoop.Controller.Finalizer
import ControlLoop.Resource.Condition
/-!
# Status reports

A controller reports on an object by writing its status. Conditions are written as a whole list, so
that write is made under the condition that the object has not changed since it was read.
-/
namespace ControlLoop.Status

variable {α : Type} [Resource α] [Collection α]

/-- Merges a change into the status of the object of a copy. -/
def update (a : α) (status : Json) : Request α :=
  Session.updateStatus α (Finalizer.target a) status none

/-- The status that results from setting a condition. -/
def withCondition (now : String) (a : α) (c : Condition) : Decoded Json := do
  let conditions ← Condition.ofStatus (Resource.toJson a)
  return .obj [("conditions", .arr ((c.set now conditions).map fun c => c.encode.sorted))]

/-- Sets a condition of the object of a copy. -/
def updateCondition (a : α) (c : Condition) : Request α := do
  let cluster ← (get : Session Cluster)
  match withCondition cluster.date.render a c with
  | .error e => throw (.invalid e.message)
  | .ok status =>
    Session.updateStatus α (Finalizer.target a) status (Resource.metadata a).resourceVersion

end ControlLoop.Status
