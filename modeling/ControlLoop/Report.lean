import ControlLoop.Failure
import ControlLoop.Json.Access
import ControlLoop.Store.Watch
/-!
# Reports

What happens in a cluster, written down as JSON documents for those who follow a run from outside.
-/
namespace ControlLoop

/-- An error as a document: its kind and its text. -/
def Json.ofError (kind message : String) : Json :=
  .obj [("error", .str kind), ("message", .str message)]

/-! ## Errors -/

def ClientError.kind : ClientError → String
  | notFound _ _ => "NotFound"
  | conflict _ _ => "Conflict"
  | gone _ => "Gone"
  | invalid _ => "Invalid"
  | transient _ => "Transient"

def ClientError.report (e : ClientError) : Json := .ofError e.kind e.message

def ReconcileError.kind : ReconcileError → String
  | client e => "Client:" ++ e.kind
  | serialization _ => "Serialization"
  | invalidResource _ => "InvalidResource"
  | other _ => "Other"

def ReconcileError.report (e : ReconcileError) : Json := .ofError e.kind e.message

def DecodeError.report (e : DecodeError) : Json := .ofError "Decode" e.message

def Failure.kind : Failure → String
  | api _ => "Api"
  | client _ => "Client"
  | serialization _ => "Serialization"
  | invalidConfig _ => "InvalidConfig"
  | duplicateResource _ => "DuplicateResource"
  | duplicatePath _ => "DuplicateWebhookPath"
  | server _ => "Server"
  | io _ => "Io"

def Failure.report (e : Failure) : Json := .ofError e.kind e.message

/-! ## Requests and runs -/

def CollectionName.label : CollectionName → String
  | widgets => "widgets"
  | deployments => "deployments"
  | configMaps => "configmaps"
  | events => "events"

def Method.label : Method → String
  | list => "list"
  | get => "get"
  | create => "create"
  | update => "update"
  | patch => "patch"
  | delete => "delete"
  | updateStatus => "update_status"
  | watch => "watch"

def Purpose.label : Purpose → String
  | reconcile => "reconcile"
  | finalize => "finalize"

/-- A time in whole milliseconds. -/
def Duration.report (d : Duration) : Json := .nat d.millis

/-- The answer to a request: what it gave, or why it failed. -/
def reportResult {α : Type} (encode : α → Json) : Except ClientError α → Json
  | .ok a => encode a
  | .error e => e.report

def Call.report (c : Call) : Json :=
  .ofMembers [("t", some (Duration.report c.time)),
    ("call", some (.str (c.collection.label ++ "." ++ c.method.label))),
    ("key", some (.str c.key.text)),
    ("result", some (reportResult .str c.result)),
    ("arg", c.argument)]

def FeedCall.report : FeedCall → Json
  | list t ns result =>
    .obj [("t", Duration.report t), ("call", .str "list"), ("ns", .ofString? ns),
      ("result", reportResult (fun r => .arr [.nat r.1, .str r.2]) result)]
  | watch t ns version result =>
    .obj [("t", Duration.report t), ("call", .str "watch"), ("ns", .ofString? ns),
      ("rv", .str version), ("result", reportResult (fun _ => .str "ok") result)]

def Outcome.report (o : Outcome) : Json :=
  .obj [("requeue", .bool o.requeue), ("after_ms", (o.after.map Duration.report).getD .null)]

def Ending.report (purpose : Purpose) : Ending Outcome → Json
  | panicked _ => .str "panic"
  | failed e => e.report
  | returned o =>
    match purpose with
    | .reconcile => o.report
    | .finalize => .str "ok"

def RunNote.report : RunNote → Json
  | began t p k version generation cancelled overlap =>
    .obj [("t", Duration.report t), ("begin", .str p.label), ("key", .str k.text),
      ("rv", .str version), ("generation", (generation.map Json.int).getD .null),
      ("cancelled", .bool cancelled), ("overlap", .bool overlap)]
  | ended t p k ending =>
    .obj [("t", Duration.report t), ("end", .str p.label), ("key", .str k.text),
      ("out", ending.report p)]

/-! ## Watches -/

section

variable {α : Type} [Resource α]

/-- An object in short: its key and its version. -/
def briefly (a : α) : List Json := [.str (Resource.key a).text, .str (Resource.versionText a)]

def WatchEvent.report (brief : Bool) (e : WatchEvent α) : Json :=
  let object (label : String) (a : α) : Json :=
    .arr (.str label :: if brief then briefly a else [Resource.toJson a])
  match e with
  | bookmark version => .arr [.str "BOOKMARK", .str version]
  | error code message => .arr [.str "ERROR", .nat code, .str message]
  | added a => object "ADDED" a
  | modified a => object "MODIFIED" a
  | deleted a => object "DELETED" a

end

/-- Many events are only counted and shown at both ends. -/
def reportEvents (events : List Json) (ended : Bool) : Json :=
  if 40 < events.length then
    .obj [("count", .nat events.length), ("head", .arr (events.take 3)),
      ("tail", .arr (events.drop (events.length - 2))), ("ended", .bool ended)]
  else .obj [("events", .arr events), ("ended", .bool ended)]

end ControlLoop
