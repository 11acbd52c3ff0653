import ControlLoop.Resource.Metadata
/-!
# Kinds of objects

A kind of object has a name, a group and a version, a place in the paths of the cluster, metadata,
and a JSON form.
-/
namespace ControlLoop

/-- A kind of object. -/
class Resource (α : Type) where
  kind : String
  group : String
  version : String
  plural : String
  /-- Whether objects of the kind live in namespaces. -/
  namespaced : Bool
  metadata : α → Metadata
  setMetadata : α → Metadata → α
  /-- The JSON form, members in the order of declaration. -/
  encode : α → Json
  decode : Source → Decoded α

namespace Resource

/-- The group and the version; the core group has no name. -/
def apiVersion (α : Type) [Resource α] : String :=
  if group α = "" then version α else group α ++ "/" ++ version α

variable {α : Type} [Resource α]

/-- The JSON form with members in increasing order of names. -/
def toJson (a : α) : Json := (encode a).sorted

/-- The address of an object; an absent name is empty. -/
def key (a : α) : ObjectKey := ⟨(metadata a).ns, (metadata a).name.getD ""⟩

/-- The version of an object as text, empty if it has none. -/
def versionText (a : α) : String := (metadata a).resourceVersion.getD ""

def uid (a : α) : Option String := (metadata a).uid

def generation (a : α) : Option Int := (metadata a).generation

def isTerminating (a : α) : Bool := (metadata a).isTerminating

end Resource

end ControlLoop
