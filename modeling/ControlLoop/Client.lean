import ControlLoop.Resource.Basic
/-!
# What a client of a collection of objects sees

The ways in which a request can fail, the answer to a listing, and the events of a watch.
-/
namespace ControlLoop

/-- Why a request was refused. -/
inductive ClientError where
  | notFound (kind key : String)
  | conflict (key text : String)
  | gone (version : String)
  | invalid (text : String)
  | transient (text : String)
  deriving DecidableEq, Repr

namespace ClientError

def message : ClientError → String
  | notFound kind key => s!"{kind} {key} not found"
  | conflict key text => s!"conflict writing {key}: {text}"
  | gone version => s!"resource version {version} is too old"
  | invalid text => s!"invalid request: {text}"
  | transient text => s!"transient failure: {text}"

def isNotFound : ClientError → Bool
  | notFound _ _ => true
  | _ => false

/-- Whether the same request may succeed later, from a fresh read. -/
def isRetryable : ClientError → Bool
  | conflict _ _ => true
  | transient _ => true
  | _ => false

end ClientError

/-- One event of a watch. -/
inductive WatchEvent (α : Type) where
  | added (object : α)
  | modified (object : α)
  | deleted (object : α)
  | bookmark (version : String)
  | error (code : Nat) (text : String)
  deriving DecidableEq, Repr

namespace WatchEvent

variable {α : Type}

/-- The object of an event that has one. -/
def object? : WatchEvent α → Option α
  | added a => some a
  | modified a => some a
  | deleted a => some a
  | _ => none

/-- Whether a watch of the scope delivers the event. -/
def inScope [Resource α] (scope : Option String) (e : WatchEvent α) : Bool :=
  match scope, e.object? with
  | some ns, some a => (Resource.metadata a).ns = some ns
  | _, _ => true

end WatchEvent

/-- The answer to a listing: the objects and the version at which they were read. -/
structure Listing (α : Type) where
  items : List α
  version : String
  deriving DecidableEq, Repr

/-- The requests of a client. -/
inductive Method where
  | list
  | get
  | create
  | update
  | patch
  | delete
  | updateStatus
  | watch
  deriving DecidableEq, Repr

end ControlLoop
