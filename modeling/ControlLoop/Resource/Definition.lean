import ControlLoop.Json.Block
import ControlLoop.Resource.Widget
/-!
# Definitions of kinds

A cluster learns of a kind of object by its definition: its names, its versions, and the schema of its
objects.
-/
namespace ControlLoop

/-- The shape of a value. -/
inductive Schema where
  | text
  /-- An integer of the given number of bits. -/
  | integer (bits : Nat)
  | list (items : Schema)
  /-- The fields by name; those that cannot be null are required. -/
  | record (fields : List (String × Schema))
  | nullable (schema : Schema)

namespace Schema

def isRequired : Schema → Bool
  | nullable _ => false
  | _ => true

/-- The names of the required fields, if there are any. -/
def required (fields : List (String × Schema)) : Option Json :=
  match (fields.filter fun f => f.2.isRequired).map (·.1) with
  | [] => none
  | names => some (.arr (names.map .str))

/-- Members without those that are absent. -/
def present (members : List (String × Option Json)) : List (String × Json) :=
  members.filterMap fun m => m.2.map (m.1, ·)

mutual

/-- The members that describe a shape. -/
def members : Schema → List (String × Json)
  | text => [("type", .str "string")]
  | integer bits => [("type", .str "integer"), ("format", .str s!"int{bits}")]
  | list items => [("type", .str "array"), ("items", .obj items.members)]
  | record fields =>
    present [("type", some (.str "object")), ("properties", some (.obj (fieldMembers fields))),
      ("required", required fields)]
  | nullable schema => ("nullable", .bool true) :: schema.members

def fieldMembers : List (String × Schema) → List (String × Json)
  | [] => []
  | (name, s) :: rest => (name, .obj s.members) :: fieldMembers rest

end

end Schema

/-- A column in which a field of an object is shown. -/
structure Column where
  name : String
  type : String
  path : String

def Column.encode (c : Column) : Json :=
  .obj [("name", .str c.name), ("type", .str c.type), ("jsonPath", .str c.path)]

/-- The definition of the kind of `α`, with its schema and columns. -/
def definition (α : Type) [Resource α] (singular : String) (schema : Json) (columns : List Column) :
    Json :=
  .obj [
    ("apiVersion", .str "apiextensions.k8s.io/v1"),
    ("kind", .str "CustomResourceDefinition"),
    ("metadata", .obj [("name", .str (Resource.plural α ++ "." ++ Resource.group α))]),
    ("spec", .obj [
      ("group", .str (Resource.group α)),
      ("names", .obj [
        ("categories", .arr []),
        ("kind", .str (Resource.kind α)),
        ("plural", .str (Resource.plural α)),
        ("shortNames", .arr []),
        ("singular", .str singular)]),
      ("scope", .str (if Resource.namespaced α then "Namespaced" else "Cluster")),
      ("versions", .arr [.obj [
        ("additionalPrinterColumns", .arr (columns.map Column.encode)),
        ("name", .str (Resource.version α)),
        ("schema", .obj [("openAPIV3Schema", schema)]),
        ("served", .bool true),
        ("storage", .bool true),
        ("subresources", .obj [("status", .obj [])])]])])]

namespace Condition

def schema : Schema :=
  .record [
    ("lastTransitionTime", .nullable .text),
    ("message", .nullable .text),
    ("observedGeneration", .nullable (.integer 64)),
    ("reason", .nullable .text),
    ("status", .text),
    ("type", .text)]

end Condition

namespace Widget

def schema : Schema :=
  .record [
    ("spec", .record [("image", .nullable .text), ("replicas", .integer 32)]),
    ("status", .nullable (.record [
      ("conditions", .nullable (.list Condition.schema)),
      ("observedGeneration", .nullable (.integer 64)),
      ("phase", .nullable .text)]))]

/-- What the schema tells those who read it. -/
def schemaNote : String := "Auto-generated derived type for WidgetSpec via `CustomResource`"

def columns : List Column :=
  [⟨"Replicas", "integer", ".spec.replicas"⟩, ⟨"Phase", "string", ".status.phase"⟩]

/-- The definition of widgets, for installation in a cluster. -/
def definition : Json :=
  ControlLoop.definition Widget "widget"
    (.obj ([("title", .str kind), ("description", .str schemaNote)] ++ schema.members)) columns

end Widget

end ControlLoop
