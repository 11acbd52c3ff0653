import ControlLoop.Json.Decode
import ControlLoop.Resource.Key
import ControlLoop.Timestamp
/-!
# Object metadata

What every stored object carries: its address, its versions, its labels, its owners, and the
finalizers that hold back its removal. Every field is optional, and null is absence.
-/
namespace ControlLoop

/-- A map of strings, in increasing order of keys. -/
abbrev StringMap := List (String × String)

/-- A point in time. -/
def Source.decodeTime (v : Source) : Decoded Timestamp :=
  match v.node with
  | .str s => (Timestamp.parse s).mapError fun e => .malformed e.message
  | _ => v.unexpected "an RFC 3339 formatted date and time string"

/-- A point in time, to the microsecond. -/
def Source.decodeMicroTime (v : Source) : Decoded MicroTimestamp :=
  match v.node with
  | .str s => (MicroTimestamp.parse s).mapError fun e => .malformed e.message
  | _ => v.unexpected "an RFC 3339 formatted date and time string"

namespace Json

def ofTime (t : Timestamp) : Json := str t.render

def ofMicroTime (t : MicroTimestamp) : Json := str t.render

def ofStringMap (m : StringMap) : Json := obj (m.map fun e => (e.1, str e.2))

def ofStrings (l : List String) : Json := arr (l.map str)

end Json

/-- A reference from an object to one that it belongs to. -/
structure OwnerReference where
  apiVersion : String := ""
  kind : String := ""
  name : String := ""
  uid : String := ""
  controller : Option Bool := none
  blockOwnerDeletion : Option Bool := none
  deriving DecidableEq, Repr

namespace OwnerReference

def encode (r : OwnerReference) : Json :=
  .ofMembers
    [("apiVersion", some (.str r.apiVersion)),
     ("blockOwnerDeletion", r.blockOwnerDeletion.map .bool),
     ("controller", r.controller.map .bool),
     ("kind", some (.str r.kind)),
     ("name", some (.str r.name)),
     ("uid", some (.str r.uid))]

/-- Takes one member. -/
def member (r : OwnerReference) (name : String) (v : Source) : Decoded OwnerReference :=
  match name with
  | "apiVersion" => return { r with apiVersion := (← v.decodeOption Source.decodeString).getD "" }
  | "kind" => return { r with kind := (← v.decodeOption Source.decodeString).getD "" }
  | "name" => return { r with name := (← v.decodeOption Source.decodeString).getD "" }
  | "uid" => return { r with uid := (← v.decodeOption Source.decodeString).getD "" }
  | "controller" => return { r with controller := ← v.decodeOption Source.decodeBool }
  | "blockOwnerDeletion" => return { r with blockOwnerDeletion := ← v.decodeOption Source.decodeBool }
  | _ => return r

def decode : Source → Decoded OwnerReference := Source.decodeMembers "OwnerReference" member {}

end OwnerReference

/-- A set of fields, as a document that is not null. -/
structure FieldSet where
  document : Json
  given : document ≠ .null
  deriving DecidableEq, Repr

/-- The set that a document stands for; null stands for absence. -/
def FieldSet.ofJson? (v : Json) : Option FieldSet := if h : v = .null then none else some ⟨v, h⟩

/-- Which fields of an object someone manages. -/
structure ManagedFields where
  apiVersion : Option String := none
  fieldsType : Option String := none
  fields : Option FieldSet := none
  manager : Option String := none
  operation : Option String := none
  subresource : Option String := none
  time : Option Timestamp := none
  deriving DecidableEq, Repr

namespace ManagedFields

def encode (f : ManagedFields) : Json :=
  .ofMembers
    [("apiVersion", f.apiVersion.map .str),
     ("fieldsType", f.fieldsType.map .str),
     ("fieldsV1", f.fields.map FieldSet.document),
     ("manager", f.manager.map .str),
     ("operation", f.operation.map .str),
     ("subresource", f.subresource.map .str),
     ("time", f.time.map .ofTime)]

/-- Takes one member. -/
def member (f : ManagedFields) (name : String) (v : Source) : Decoded ManagedFields :=
  match name with
  | "apiVersion" => return { f with apiVersion := ← v.decodeOption Source.decodeString }
  | "fieldsType" => return { f with fieldsType := ← v.decodeOption Source.decodeString }
  | "fieldsV1" => return { f with fields := FieldSet.ofJson? (← v.decodeDocument) }
  | "manager" => return { f with manager := ← v.decodeOption Source.decodeString }
  | "operation" => return { f with operation := ← v.decodeOption Source.decodeString }
  | "subresource" => return { f with subresource := ← v.decodeOption Source.decodeString }
  | "time" => return { f with time := ← v.decodeOption Source.decodeTime }
  | _ => return f

def decode : Source → Decoded ManagedFields := Source.decodeMembers "ManagedFieldsEntry" member {}

end ManagedFields

/-- The metadata of an object. -/
structure Metadata where
  annotations : Option StringMap := none
  creationTimestamp : Option Timestamp := none
  deletionGracePeriodSeconds : Option Int := none
  deletionTimestamp : Option Timestamp := none
  finalizers : Option (List String) := none
  generateName : Option String := none
  generation : Option Int := none
  labels : Option StringMap := none
  managedFields : Option (List ManagedFields) := none
  name : Option String := none
  ns : Option String := none
  ownerReferences : Option (List OwnerReference) := none
  resourceVersion : Option String := none
  selfLink : Option String := none
  uid : Option String := none
  deriving DecidableEq, Repr

namespace Metadata

def encode (m : Metadata) : Json :=
  .ofMembers
    [("annotations", m.annotations.map .ofStringMap),
     ("creationTimestamp", m.creationTimestamp.map .ofTime),
     ("deletionGracePeriodSeconds", m.deletionGracePeriodSeconds.map .int),
     ("deletionTimestamp", m.deletionTimestamp.map .ofTime),
     ("finalizers", m.finalizers.map .ofStrings),
     ("generateName", m.generateName.map .str),
     ("generation", m.generation.map .int),
     ("labels", m.labels.map .ofStringMap),
     ("managedFields", m.managedFields.map fun l => .arr (l.map ManagedFields.encode)),
     ("name", m.name.map .str),
     ("namespace", m.ns.map .str),
     ("ownerReferences", m.ownerReferences.map fun l => .arr (l.map OwnerReference.encode)),
     ("resourceVersion", m.resourceVersion.map .str),
     ("selfLink", m.selfLink.map .str),
     ("uid", m.uid.map .str)]

/-- Takes one member. -/
def member (m : Metadata) (name : String) (v : Source) : Decoded Metadata :=
  match name with
  | "annotations" =>
    return { m with annotations := ← v.decodeOption (Source.decodeMap Source.decodeString) }
  | "creationTimestamp" => return { m with creationTimestamp := ← v.decodeOption Source.decodeTime }
  | "deletionGracePeriodSeconds" =>
    return { m with deletionGracePeriodSeconds := ← v.decodeOption Source.decodeInt64 }
  | "deletionTimestamp" => return { m with deletionTimestamp := ← v.decodeOption Source.decodeTime }
  | "finalizers" =>
    return { m with finalizers := ← v.decodeOption (Source.decodeList Source.decodeString) }
  | "generateName" => return { m with generateName := ← v.decodeOption Source.decodeString }
  | "generation" => return { m with generation := ← v.decodeOption Source.decodeInt64 }
  | "labels" => return { m with labels := ← v.decodeOption (Source.decodeMap Source.decodeString) }
  | "managedFields" =>
    return { m with managedFields := ← v.decodeOption (Source.decodeList ManagedFields.decode) }
  | "name" => return { m with name := ← v.decodeOption Source.decodeString }
  | "namespace" => return { m with ns := ← v.decodeOption Source.decodeString }
  | "ownerReferences" =>
    return { m with ownerReferences := ← v.decodeOption (Source.decodeList OwnerReference.decode) }
  | "resourceVersion" => return { m with resourceVersion := ← v.decodeOption Source.decodeString }
  | "selfLink" => return { m with selfLink := ← v.decodeOption Source.decodeString }
  | "uid" => return { m with uid := ← v.decodeOption Source.decodeString }
  | _ => return m

def decode : Source → Decoded Metadata := Source.decodeMembers "ObjectMeta" member {}

/-- The name, or else the stem from which a name is to be made. -/
def displayName (m : Metadata) : String := (m.name <|> m.generateName).getD ""

/-- Whether removal has been asked for. -/
def isTerminating (m : Metadata) : Bool := m.deletionTimestamp.isSome

/-- The finalizers, none if the list is absent. -/
def finalizerList (m : Metadata) : List String := m.finalizers.getD []

end Metadata

end ControlLoop
