import ControlLoop.Failure
/-!
# The operator

The operator is the part of the program that owns everything else: the controllers, one for each kind
of object, and the endpoints that listen for requests.
-/
namespace ControlLoop

/-- The endpoints of a program, in the order in which they are opened. -/
inductive Endpoint where
  | metrics
  | health
  | webhook
  deriving DecidableEq, Repr

/-- The full name of a kind of object. -/
structure KindName where
  group : String
  version : String
  kind : String
  deriving DecidableEq, Repr

/-- The name by which kinds are told apart. -/
def KindName.text (k : KindName) : String := k.group ++ "/" ++ k.version ++ "/" ++ k.kind

/-- A controller as the operator knows it. -/
structure Manager where
  name : String
  kind : KindName
  deriving DecidableEq, Repr

/-- The controllers in the order of their registration, the names of the kinds that have one, and the
address of each endpoint in use. -/
structure Operator where
  managers : List Manager := []
  registered : List String := []
  address : Endpoint → Option String := fun _ => none

namespace Operator

/-- Adds a controller, or says why not: another one for the same kind is refused. The name of the kind
is entered before it is known whether it is new. -/
def register (o : Operator) (m : Manager) : Option Failure × Operator :=
  let name := m.kind.text
  let entered := { o with registered := o.registered.insert name }
  if name ∈ o.registered then (some (.duplicateResource name), entered)
  else (none, { entered with managers := o.managers ++ [m] })

/-- Adds controllers one after the other, and gives what was said to each. -/
def registerAll (o : Operator) : List Manager → List (Option Failure) × Operator
  | [] => ([], o)
  | m :: rest =>
    let (note, o) := o.register m
    let (notes, o) := registerAll o rest
    (note :: notes, o)

/-- The operator with an endpoint at an address. -/
def listenOn (o : Operator) (e : Endpoint) (address : String) : Operator :=
  { o with address := fun other => if other = e then some address else o.address other }

/-- The endpoints in use, in the order in which they are opened. -/
def endpoints (o : Operator) : List Endpoint :=
  [.metrics, .health, .webhook].filter fun e => (o.address e).isSome

def names (o : Operator) : List String := o.managers.map (·.name)

/-- Whether every controller has seen all its objects once. -/
def isReady (o : Operator) (synced : Manager → Bool) : Bool := o.managers.all synced

end Operator

end ControlLoop
