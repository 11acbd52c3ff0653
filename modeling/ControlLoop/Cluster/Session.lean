import ControlLoop.Cluster.Basic
/-!
# Requests of a controller

Requests as a controller and its parts make them: each may meet a failure that was set for it, and
each is noted in the journal.
-/
namespace ControlLoop

/-- A request on a cluster. -/
abbrev Session := StateM Cluster

/-- A request that a client may be refused. -/
abbrev Request := ExceptT ClientError Session

namespace Session

variable {α : Type} [Resource α] [Collection α]

/-- Makes a request on one object of the collection of `α`. -/
def call (α : Type) [Resource α] [Collection α] {β : Type} (method : Method) (key : ObjectKey)
    (argument : Option Json) (version : β → String)
    (act : Cluster → Except ClientError (β × Cluster)) : Request β := fun c =>
  let collection := Collection.name α
  let (fault, c) := c.takeFault collection method
  let result : Except ClientError (β × Cluster) := match fault with
    | some e => .error e
    | none => act c
  let note (r : Except ClientError String) : Call := ⟨c.time, collection, method, key, argument, r⟩
  match result with
  | .error e => (.error e, c.noteCall (note (.error e)))
  | .ok (b, c) => (.ok b, c.noteCall (note (.ok (version b))))

/-- Reads an object. -/
def get (α : Type) [Resource α] [Collection α] (k : ObjectKey) : Request α :=
  call α .get k none Resource.versionText fun c => do
    let a ← (Collection.store c : Store α).get k
    return (a, c)

/-- Adds an object. -/
def create (ns : Option String) (a : α) : Request α :=
  call α .create ⟨ns, (Resource.metadata a).name.getD ""⟩ (some (Resource.toJson a))
    Resource.versionText fun c => c.create ns a

/-- Merges a patch into an object. -/
def patch (α : Type) [Resource α] [Collection α] (k : ObjectKey) (patch : Json) : Request α :=
  call α .patch k (some patch) Resource.versionText fun c => c.patch α k patch

/-- Merges a change into the status of an object. -/
def updateStatus (α : Type) [Resource α] [Collection α] (k : ObjectKey) (status : Json)
    (version : Option String) : Request α :=
  call α .updateStatus k (some (.obj [("rv", .ofString? version), ("status", status)]))
    Resource.versionText fun c => c.updateStatus α k status version

/-- Removes an object. -/
def delete (α : Type) [Resource α] [Collection α] (k : ObjectKey) : Request Unit :=
  call α .delete k none (fun _ => "ok") fun c => do
    let c ← c.delete α k
    return ((), c)

/-- Lists a scope for an informer. -/
def list (α : Type) [Resource α] [Collection α] (scope : Option String) : Request (Listing α) :=
  fun c =>
    let (fault, c) := c.takeFault (Collection.name α) .list
    match fault with
    | some e => (.error e, c.noteFeed (.list c.time scope (.error e)))
    | none =>
      let listing := (Collection.store c : Store α).list scope
      (.ok listing, c.noteFeed (.list c.time scope (.ok (listing.items.length, listing.version))))

/-- Opens a watch for an informer. -/
def watch (α : Type) [Resource α] [Collection α] (scope : Option String) (version : String) :
    Request (Watch α) := fun c =>
  let (fault, c) := c.takeFault (Collection.name α) .watch
  let opened : Except ClientError (Watch α) := match fault with
    | some e => .error e
    | none => (Collection.store c : Store α).watch scope version
  match opened with
  | .error e => (.error e, c.noteFeed (.watch c.time scope version (.error e)))
  | .ok w => (.ok w, c.noteFeed (.watch c.time scope version (.ok ())))

end Session

end ControlLoop
