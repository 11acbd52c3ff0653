import ControlLoop.Duration
import ControlLoop.Store.Write
import ControlLoop.Store.Watch
import ControlLoop.Resource.Widget
import ControlLoop.Resource.Deployment
import ControlLoop.Resource.Event
/-!
# A cluster

The collections that a controller works on, each in a store of its own, with what their surroundings
supply: the time, identities for new objects, and failures that are to befall requests. Requests that
the controller and its parts make are noted in a journal.
-/
namespace ControlLoop

/-- The collections of a cluster. -/
inductive CollectionName where
  | widgets
  | deployments
  | configMaps
  | events
  deriving DecidableEq, Repr

/-- A failure that the next request of its kind meets; none lets it pass. -/
structure Fault where
  collection : CollectionName
  method : Method
  error : Option ClientError
  deriving DecidableEq, Repr

/-- A request on one object and what came of it: the version of the object, or an error. -/
structure Call where
  time : Duration
  collection : CollectionName
  method : Method
  key : ObjectKey
  argument : Option Json
  result : Except ClientError String

/-- A request of an informer. -/
inductive FeedCall where
  /-- A listing, answered with a number of objects and a version. -/
  | list (time : Duration) (scope : Option String) (result : Except ClientError (Nat × String))
  | watch (time : Duration) (scope : Option String) (version : String)
      (result : Except ClientError Unit)

/-- What a reconciler is asked for. -/
inductive Purpose where
  | reconcile
  | finalize
  deriving DecidableEq, Repr

/-- Why a run of a reconciler failed. -/
inductive ReconcileError where
  | client (error : ClientError)
  | serialization (text : String)
  | invalidResource (text : String)
  | other (text : String)
  deriving DecidableEq, Repr

namespace ReconcileError

def message : ReconcileError → String
  | client e => e.message
  | serialization text => s!"Serialization error: {text}"
  | invalidResource text => s!"Invalid resource: {text}"
  | other text => text

end ReconcileError

/-- What a run asks for when it has gone well: nothing, another run after the usual delay, or another
run after a delay of its own. -/
structure Outcome where
  requeue : Bool := false
  after : Option Duration := none
  deriving DecidableEq, Repr

/-- How a run ends. -/
inductive Ending (β : Type) where
  | returned (value : β)
  | failed (error : ReconcileError)
  | panicked (text : String)
  deriving DecidableEq, Repr

namespace Ending

def hasReturned {β : Type} : Ending β → Bool
  | returned _ => true
  | _ => false

/-- Whether another run is to follow, and the delay that was asked for. -/
def retry : Ending Outcome → Option (Option Duration)
  | returned o => if o.requeue || o.after.isSome then some o.after else none
  | _ => some none

end Ending

/-- The beginning or the end of a run. -/
inductive RunNote where
  | began (time : Duration) (purpose : Purpose) (key : ObjectKey) (version : String)
      (generation : Option Int) (cancelled overlap : Bool)
  | ended (time : Duration) (purpose : Purpose) (key : ObjectKey) (ending : Ending Outcome)

/-- What has been noted since the journal was last taken. -/
structure Journal where
  calls : List Call := []
  feed : List FeedCall := []
  runs : List RunNote := []

/-- A cluster. -/
structure Cluster where
  widgets : Store Widget := {}
  deployments : Store Deployment := {}
  configMaps : Store ConfigMap := {}
  events : Store Event := {}
  faults : List Fault := []
  /-- The date and time of the surroundings. -/
  date : Timestamp
  /-- The time of the controller's clock. -/
  time : Duration := 0
  /-- How many objects of each kind have been created. -/
  issued : List (String × Nat) := []
  /-- How many names have been made unique. -/
  suffixes : Nat := 0
  /-- Who reports events. -/
  reporter : String := ""
  journal : Journal := {}

/-- A kind of object that a cluster holds a collection of. -/
class Collection (α : Type) [Resource α] where
  name : CollectionName
  store : Cluster → Store α
  setStore : Cluster → Store α → Cluster

instance : Collection Widget where
  name := .widgets
  store := Cluster.widgets
  setStore c s := { c with widgets := s }

instance : Collection Deployment where
  name := .deployments
  store := Cluster.deployments
  setStore c s := { c with deployments := s }

instance : Collection ConfigMap where
  name := .configMaps
  store := Cluster.configMaps
  setStore c s := { c with configMaps := s }

instance : Collection Event where
  name := .events
  store := Cluster.events
  setStore c s := { c with events := s }

namespace Cluster

/-- An empty cluster whose stores keep that many events. -/
def new (date : Timestamp) (reporter : String) (historyLimit : Nat := Store.defaultHistoryLimit) :
    Cluster where
  widgets := .empty historyLimit
  deployments := .empty historyLimit
  configMaps := .empty historyLimit
  events := .empty historyLimit
  date := date
  reporter := reporter

/-- How many objects of a kind have been created. -/
def issuedCount (c : Cluster) (kind : String) : Nat :=
  match c.issued.find? fun e => e.1 = kind with
  | some e => e.2
  | none => 0

/-- The identity of the next object of a kind. -/
def nextUid (c : Cluster) (kind : String) : String :=
  s!"<uid {kind} {c.issuedCount kind + 1}>"

/-- Counts a new object of a kind. -/
def countIssued (c : Cluster) (kind : String) : Cluster :=
  { c with
    issued := (kind, c.issuedCount kind + 1) :: c.issued.filter fun e => e.1 ≠ kind }

/-- A text of 32 hexadecimal digits that has not been used before. -/
def nextSuffix (c : Cluster) : String := Text.hex 32 c.suffixes

/-- The first failure set for a kind of request, and the others. -/
def splitFault (collection : CollectionName) (method : Method) :
    List Fault → Option Fault × List Fault
  | [] => (none, [])
  | f :: rest =>
    if f.collection = collection ∧ f.method = method then (some f, rest)
    else
      let (found, rest) := splitFault collection method rest
      (found, f :: rest)

/-- Takes the failure that the next request of a kind meets, if it meets one. -/
def takeFault (c : Cluster) (collection : CollectionName) (method : Method) :
    Option ClientError × Cluster :=
  let (found, rest) := splitFault collection method c.faults
  (found.bind Fault.error, { c with faults := rest })

def noteCall (c : Cluster) (call : Call) : Cluster :=
  { c with journal := { c.journal with calls := c.journal.calls ++ [call] } }

def noteFeed (c : Cluster) (call : FeedCall) : Cluster :=
  { c with journal := { c.journal with feed := c.journal.feed ++ [call] } }

def noteRun (c : Cluster) (note : RunNote) : Cluster :=
  { c with journal := { c.journal with runs := c.journal.runs ++ [note] } }

variable {α : Type} [Resource α] [Collection α]

/-! ## Requests straight to a store -/

/-- Adds an object. -/
def create (c : Cluster) (ns : Option String) (a : α) : Except ClientError (α × Cluster) := do
  let kind := Resource.kind α
  let (created, s) ← (Collection.store c : Store α).create ⟨c.date, c.nextUid kind⟩ ns a
  return (created, (Collection.setStore c s).countIssued kind)

def update (c : Cluster) (ns : Option String) (a : α) : Except ClientError (α × Cluster) := do
  let (a, s) ← (Collection.store c : Store α).update ns a
  return (a, Collection.setStore c s)

def patch (α : Type) [Resource α] [Collection α] (c : Cluster) (k : ObjectKey) (patch : Json) :
    Except ClientError (α × Cluster) := do
  let (a, s) ← (Collection.store c : Store α).patch k patch
  return (a, Collection.setStore c s)

def updateStatus (α : Type) [Resource α] [Collection α] (c : Cluster) (k : ObjectKey)
    (status : Json) (version : Option String) : Except ClientError (α × Cluster) := do
  let (a, s) ← (Collection.store c : Store α).updateStatus k status version
  return (a, Collection.setStore c s)

def delete (α : Type) [Resource α] [Collection α] (c : Cluster) (k : ObjectKey) :
    Except ClientError Cluster := do
  let s ← (Collection.store c : Store α).delete c.date k
  return Collection.setStore c s

end Cluster

end ControlLoop
