import ControlLoop.Store.Basic
import ControlLoop.Json.MergePatch
/-!
# Writing to a store

Metadata that belongs to the store cannot be written: the address, the identity and the times of an
object stay, and its generation counts the changes of its spec. Spec and status are written
separately. An object with finalizers is not removed but marked, and removed by the write that takes
its last finalizer.
-/
namespace ControlLoop

/-- What the surroundings give to a write: the present, and an identity for a new object. -/
structure Stamp where
  now : Timestamp
  uid : String
  deriving DecidableEq, Repr

namespace Store

variable {α : Type} [Resource α]

/-- Decodes an object that a request describes. -/
def decodeObject (v : Json) : Except ClientError α :=
  match Resource.decode v with
  | .ok a => .ok a
  | .error e => .error (.invalid e.message)

/-- Refuses a request that was made for another version than the current one. An absent or empty
version asks for none. -/
def checkVersion (k : ObjectKey) (current : α) (requested : Option String) :
    Except ClientError Unit :=
  match requested with
  | none => .ok ()
  | some version =>
    if version = "" ∨ version = Resource.versionText current then .ok ()
    else .error (.conflict k.text
      s!"resource version {version} does not match current {Resource.versionText current}")

/-- The JSON form of an object with the status of another one. -/
def withStatusOf (old new : Json) : Json :=
  match old.get? "status", new with
  | some status, .obj members => .obj (Json.insertMember "status" status members)
  | none, .obj members => .obj (Json.eraseMember "status" members)
  | _, new => new

/-- The metadata after a write: what the store owns is taken from the object before. -/
def ownedMetadata (previous next : Metadata) (specChanged : Bool) : Metadata :=
  { next with
    name := previous.name
    ns := previous.ns
    uid := previous.uid
    creationTimestamp := previous.creationTimestamp
    deletionTimestamp := previous.deletionTimestamp
    generation := if specChanged then previous.generation.map (· + 1) else previous.generation }

/-- The metadata of a new object. -/
def firstMetadata (stamp : Stamp) (ns : Option String) (m : Metadata) : Metadata :=
  { m with
    ns := ns
    uid := some stamp.uid
    generation := some 1
    creationTimestamp := some stamp.now
    deletionTimestamp := none }

/-- The object with the revision as its version. -/
def versioned (revision : Nat) (a : α) : α :=
  Resource.setMetadata a
    { Resource.metadata a with resourceVersion := some (toString revision) }

/-- Puts an object under a key, with an event of the given kind. -/
def put (s : Store α) (k : ObjectKey) (event : α → WatchEvent α) (a : α) : α × Store α :=
  let s := s.nextRevision
  let a := versioned s.revision a
  (a, { s with objects := s.objects.insert k a }.record (event a))

/-- Removes the object of a key, whose last version tells of the removal. -/
def remove (s : Store α) (k : ObjectKey) (a : α) : α × Store α :=
  let s := s.nextRevision
  let a := versioned s.revision a
  (a, { s with objects := s.objects.erase k }.record (.deleted a))

/-- The object that a write leaves in the place of `previous`, before it has its version. -/
def replacement (previous next : α) (keepStatus : Bool) : Except ClientError α := do
  let old := Resource.toJson previous
  let new := if keepStatus then withStatusOf old (Resource.toJson next) else Resource.toJson next
  let a : α ← decodeObject new
  return Resource.setMetadata a
    (ownedMetadata (Resource.metadata previous) (Resource.metadata a)
      (old.get? "spec" ≠ new.get? "spec"))

/-- The version that a merge patch is conditional on. -/
def requestedVersion (patch : Json) : Option String :=
  match patch.at? ["metadata", "resourceVersion"] with
  | some (.str version) => some version
  | _ => none

/-- The name that a new object must have. -/
def requireName (a : α) : Except ClientError String :=
  match (Resource.metadata a).name with
  | some name => .ok name
  | none => .error (.invalid "metadata.name is required")

/-- Refuses a new object under a key that is taken. -/
def checkFree (s : Store α) (k : ObjectKey) : Except ClientError Unit :=
  if s.objects.contains k then .error (.conflict k.text s!"{Resource.kind α} already exists")
  else .ok ()

end Store

/-- A request on a store. It works on the store in place, so what it has changed stays changed if it
is refused after that. -/
abbrev Edit (α : Type) := ExceptT ClientError (StateM (Store α))

namespace Edit

variable {α : Type}

/-- Looks at the store, which may be a reason to refuse the request. -/
def look {β : Type} (f : Store α → Except ClientError β) : Edit α β := do f (← get)

variable [Resource α]

/-- Stores `next` in the place of `previous`. An object that is terminating and has no finalizer
left is removed. -/
def replace (k : ObjectKey) (previous next : α) (keepStatus : Bool) : Edit α α := do
  let a ← Store.replacement previous next keepStatus
  let m := Resource.metadata a
  if m.isTerminating ∧ m.finalizerList = [] then modifyGet fun s => s.remove k a
  else modifyGet fun s => s.put k .modified a

/-- Adds an object. -/
def create (stamp : Stamp) (ns : Option String) (a : α) : Edit α α := do
  let name ← Store.requireName a
  let k : ObjectKey := ⟨ns, name⟩
  look fun s => s.checkFree k
  let first := Store.firstMetadata stamp ns (Resource.metadata a)
  modifyGet fun s => s.put k .added (Resource.setMetadata a first)

/-- Replaces all of an object but its status. -/
def update (ns : Option String) (a : α) : Edit α α := do
  let k : ObjectKey := ⟨ns, (Resource.metadata a).name.getD ""⟩
  let current ← look fun s => s.get k
  Store.checkVersion k current (Resource.metadata a).resourceVersion
  replace k current a true

/-- Merges a patch into all of an object but its status. -/
def patch (k : ObjectKey) (patch : Json) : Edit α α := do
  let current ← look fun s => s.get k
  Store.checkVersion k current (Store.requestedVersion patch)
  let next : α ← Store.decodeObject ((Resource.toJson current).merge patch)
  replace k current next true

/-- Merges a change into the status of an object. -/
def updateStatus (k : ObjectKey) (status : Json) (version : Option String) : Edit α α := do
  let current ← look fun s => s.get k
  Store.checkVersion k current version
  let next : α ← Store.decodeObject ((Resource.toJson current).merge (.obj [("status", status)]))
  replace k current next false

/-- Removes an object, or marks it as terminating if it has finalizers. A second request for the
removal of a marked object changes nothing. -/
def delete (now : Timestamp) (k : ObjectKey) : Edit α Unit := do
  let current ← look fun s => s.get k
  let m := Resource.metadata current
  if m.finalizerList = [] then modify fun s => (s.remove k current).2
  else if m.isTerminating then return ()
  else modify fun s => (s.put k .modified
    (Resource.setMetadata current { m with deletionTimestamp := some now })).2

end Edit

namespace Store

variable {α : Type}

/-- What comes of a request: its answer and the store then, or the reason why it was refused. -/
def outcome {β : Type} (s : Store α) (request : Edit α β) : Except ClientError (β × Store α) :=
  match request s with
  | (.ok b, t) => .ok (b, t)
  | (.error e, _) => .error e

variable [Resource α]

def create (s : Store α) (stamp : Stamp) (ns : Option String) (a : α) :
    Except ClientError (α × Store α) :=
  s.outcome (Edit.create stamp ns a)

def update (s : Store α) (ns : Option String) (a : α) : Except ClientError (α × Store α) :=
  s.outcome (Edit.update ns a)

def patch (s : Store α) (k : ObjectKey) (patch : Json) : Except ClientError (α × Store α) :=
  s.outcome (Edit.patch k patch)

def updateStatus (s : Store α) (k : ObjectKey) (status : Json) (version : Option String) :
    Except ClientError (α × Store α) :=
  s.outcome (Edit.updateStatus k status version)

def delete (s : Store α) (now : Timestamp) (k : ObjectKey) : Except ClientError (Store α) :=
  (s.outcome (Edit.delete now k)).map (·.2)

end Store

end ControlLoop
