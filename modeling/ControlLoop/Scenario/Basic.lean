import ControlLoop.Cluster.Basic
import ControlLoop.Json.Access
/-!
# Names in scenarios

A scenario describes what befalls a cluster. Errors, collections and requests are given in it by name.
-/
namespace ControlLoop

/-- The text of an error about a document that could not be read. -/
def Scenario.decodeText : String := "invalid type: null, expected a boolean"

/-- An error by the name of its kind. -/
def ClientError.ofJson (v : Json) : ClientError :=
  let message := v.textAt "message"
  match v.textAt "kind" with
  | "NotFound" => .notFound (v.textAt "of") (v.textAt "key")
  | "Conflict" => .conflict (v.textAt "key") message
  | "Gone" => .gone message
  | "Invalid" => .invalid message
  | _ => .transient message

def ReconcileError.ofJson (v : Json) : ReconcileError :=
  match v.textAt "kind" with
  | "Other" => .other (v.textAt "message")
  | "InvalidResource" => .invalidResource (v.textAt "message")
  | "Serialization" => .serialization Scenario.decodeText
  | _ => .client (.ofJson v)

def CollectionName.ofLabel (name : String) : CollectionName :=
  match name with
  | "deployments" => .deployments
  | "configmaps" => .configMaps
  | "events" => .events
  | _ => .widgets

def Method.ofLabel (name : String) : Method :=
  match name with
  | "list" => .list
  | "get" => .get
  | "create" => .create
  | "update" => .update
  | "patch" => .patch
  | "delete" => .delete
  | "update_status" => .updateStatus
  | _ => .watch

/-- A key as a pair of a namespace and a name. -/
def ObjectKey.ofPair (v : Json) : ObjectKey :=
  match v.asItems with
  | [ns, name] => ⟨ns.asText?, name.asText⟩
  | _ => ⟨none, ""⟩

def ObjectKey.toPair (k : ObjectKey) : Json := .arr [.ofString? k.ns, .str k.name]

/-- A span given in milliseconds. -/
def Duration.ofField (v : Json) (name : String) (default : Duration) : Duration :=
  ((v.natAt? name).map Duration.ofMillis).getD default

end ControlLoop
