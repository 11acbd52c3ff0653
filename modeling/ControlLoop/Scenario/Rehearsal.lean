import ControlLoop.Informer.Rehearsal
import ControlLoop.Report
import ControlLoop.Resource.ConfigMap
import ControlLoop.Scenario.Basic
/-!
# Informers in scenarios

The script of a client as a scenario gives it, and the report on an informer that ran against it.
-/
namespace ControlLoop

section

variable {α : Type} [Resource α]

def WatchEvent.ofJson (v : Json) : Except ClientError (WatchEvent α) :=
  let object (make : α → WatchEvent α) : Except ClientError (WatchEvent α) :=
    match Resource.decode (v.member "object") with
    | .ok a => .ok (make a)
    | .error e => .error (.invalid e.message)
  match v.textAt "type" with
  | "ADDED" => object .added
  | "MODIFIED" => object .modified
  | "DELETED" => object .deleted
  | "BOOKMARK" => .ok (.bookmark (v.textAt "rv"))
  | _ => .ok (.error (v.natAt "code") (v.textAt "message"))

def ItemCue.ofJson (v : Json) : ItemCue α :=
  match v.field? "err", v.field? "type" with
  | some e, _ => .fail (.ofJson e)
  | none, none => .pause (.ofMillis (v.natAt "wait_ms"))
  | none, some _ =>
    match WatchEvent.ofJson v with
    | .ok e => .event e
    | .error e => .fail e

def ListCue.ofJson (v : Json) : ListCue α :=
  match v.field? "err" with
  | some e => .fail (.ofJson e)
  | none =>
    if v.flagAt "hang" then .hang
    else
      match Source.decodeList Resource.decode (.ofJson (.arr (v.itemsAt "items"))) with
      | .ok items => .answer ⟨items, v.textAt "rv"⟩ (.ofMillis (v.natAt "wait_ms"))
      | .error e => .fail (.invalid e.message)

def WatchCue.ofJson (v : Json) : WatchCue α :=
  match v.field? "err" with
  | some e => .fail (.ofJson e)
  | none =>
    if v.flagAt "hang" then .hang
    else .items ((v.itemsAt "items").map .ofJson) (.ofMillis (v.natAt "wait_ms"))
      (v.textAt "end" = "pending")

def ClientScript.ofJson (v : Json) : ClientScript α where
  lists := (v.itemsAt "lists").map .ofJson
  watches := (v.itemsAt "watches").map .ofJson

end

namespace Rehearsal

def dataReport (c : ConfigMap) : Json := (c.data.map Json.ofStringMap).getD .null

def changeName : Change ConfigMap → String
  | .added _ => "Added"
  | .modified _ _ => "Modified"
  | .deleted _ => "Deleted"

def changeReport (t : Duration) (c : Change ConfigMap) : Json :=
  let old : Option ConfigMap := match c with
    | .modified old _ => old
    | _ => none
  .obj [("t", Duration.report t), ("event", .str (changeName c)), ("key", .str c.key.text),
    ("rv", .str (Resource.versionText c.object)),
    ("old_rv", .ofString? (old.map Resource.versionText)),
    ("data", dataReport c.object)]

/-- A change as it is filed: by its key, then by its name. -/
structure Entry where
  key : ObjectKey
  name : String
  document : Json

def Entry.before (a b : Entry) : Bool :=
  a.key < b.key || (a.key = b.key && !decide (b.name < a.name))

/-- A trace under way: what has been written, and the changes since the last listing. -/
structure Draft where
  written : List Json := []
  batch : List Entry := []
  listing : Bool := false

def Draft.flush (d : Draft) : List Json :=
  d.written ++ (d.batch.mergeSort Entry.before).map (·.document)

/-- The changes that a listing brings are filed by key; those of a watch stay in order. -/
def Draft.add (scope : Option String) (d : Draft) (t : Duration) : Trace ConfigMap → Draft
  | .list =>
    { written := d.flush ++
        [.obj [("t", Duration.report t), ("call", .str "list"), ("ns", .ofString? scope)]]
      listing := true }
  | .watch version =>
    { written := d.flush ++ [.obj [("t", Duration.report t), ("call", .str "watch"),
        ("ns", .ofString? scope), ("rv", .str version)]] }
  | .change c =>
    let document := changeReport t c
    if d.listing then { d with batch := d.batch ++ [⟨c.key, changeName c, document⟩] }
    else { d with written := d.written ++ [document] }

def traceReport (scope : Option String) (r : Rehearsal ConfigMap) : Json :=
  .arr (r.trace.foldl (fun d e => d.add scope e.1 e.2) ({} : Draft)).flush

def cacheReport (r : Rehearsal ConfigMap) : Json :=
  .arr (r.informer.cache.entries.map fun e =>
    .arr [.str e.1.text, .str (Resource.versionText e.2), dataReport e.2])

end Rehearsal

end ControlLoop
