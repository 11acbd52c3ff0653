import ControlLoop.Client
import ControlLoop.Resource.KeyMap
/-!
# Informers

An informer keeps a copy of a collection. It lists the collection once and then follows a watch; each
change of its copy is passed on. A watch that ends is opened again, after a rest, from the last
version seen. Where that version is too old the informer lists again at once, and passes on how the
new listing differs from its copy.

`Informer` is the state between two answers of the client. Its phase says which request it is about
to make; the functions `listed`, `opened`, `received` and `rested` take the answer.
-/
namespace ControlLoop

/-- A change of the copy that an informer keeps. -/
inductive Change (α : Type) where
  | added (object : α)
  | modified (old : Option α) (new : α)
  | deleted (object : α)
  deriving DecidableEq, Repr

namespace Change

variable {α : Type}

/-- The object as it is after the change, or the last one of an object that is gone. -/
def object : Change α → α
  | added a => a
  | modified _ a => a
  | deleted a => a

def key [Resource α] (c : Change α) : ObjectKey := Resource.key c.object

/-- What a change does to a map of objects. -/
def apply [Resource α] (m : KeyMap α) (c : Change α) : KeyMap α :=
  match c with
  | added a => m.insert (Resource.key a) a
  | modified _ a => m.insert (Resource.key a) a
  | deleted a => m.erase (Resource.key a)

/-- The map that a log of changes makes from nothing. -/
def replay [Resource α] (log : List (Change α)) : KeyMap α := log.foldl apply ∅

end Change

/-- An item of a watch: an event, a failure that ends the watch, or its end. -/
inductive WatchItem (α : Type) where
  | event (event : WatchEvent α)
  | failed (error : ClientError)
  | ended
  deriving DecidableEq, Repr

/-- What an informer does next. -/
inductive Informer.Phase where
  /-- Ask for a listing. -/
  | listing
  /-- Open a watch from a version. -/
  | opening (version : String)
  /-- Wait for an item of the watch; the version is the last one seen. -/
  | watching (version : String)
  /-- Rest, then open a watch from the version, or list if there is none. -/
  | resting (resume : Option String)
  | stopped
  deriving DecidableEq, Repr

/-- A request of an informer to its client. -/
inductive Informer.Call where
  | list
  | watch (version : String)
  deriving DecidableEq, Repr

/-- The state of an informer. -/
structure Informer (α : Type) where
  cache : KeyMap α := ∅
  /-- Whether a listing has succeeded. -/
  synced : Bool := false
  phase : Informer.Phase := .listing

namespace Informer

variable {α : Type} [Resource α]

instance : Inhabited (Informer α) := ⟨{}⟩

/-- The request that an informer makes next, unless it waits for its watch or rests. -/
def call? (i : Informer α) : Option Call :=
  match i.phase with
  | .listing => some .list
  | .opening version => some (.watch version)
  | _ => none

/-- How an object of a new listing differs from the copy. -/
def compareWith (previous : KeyMap α) (e : ObjectKey × α) : Option (Change α) :=
  match previous.get? e.1 with
  | none => some (.added e.2)
  | some old =>
    if Resource.versionText old = Resource.versionText e.2 then none
    else some (.modified (some old) e.2)

/-- How a new listing differs from the copy: what is new or has another version, then what is gone. -/
def difference (previous fresh : KeyMap α) : List (Change α) :=
  fresh.entries.filterMap (compareWith previous) ++
    (previous.entries.filter fun e => !fresh.contains e.1).map fun e => .deleted e.2

/-- Takes the answer to a listing. -/
def listed (i : Informer α) (answer : Except ClientError (Listing α)) :
    Informer α × List (Change α) :=
  match answer with
  | .error _ => ({ i with phase := .resting none }, [])
  | .ok listing =>
    let fresh : KeyMap α := .ofList (listing.items.map fun a => (Resource.key a, a))
    ({ i with cache := fresh, synced := true, phase := .opening listing.version },
      difference i.cache fresh)

/-- Takes the answer to the opening of a watch from a version. -/
def opened (i : Informer α) (version : String) (answer : Except ClientError Unit) : Informer α :=
  match answer with
  | .ok () => { i with phase := .watching version }
  | .error (.gone _) => { i with phase := .listing }
  | .error _ => { i with phase := .resting (some version) }

/-- The last version seen, after one that may be empty. -/
def advance (version seen : String) : String := if seen = "" then version else seen

/-- Takes an object that is new or has changed. -/
def upsert (i : Informer α) (version : String) (a : α) : Informer α × List (Change α) :=
  let k := Resource.key a
  ({ i with
      cache := i.cache.insert k a
      phase := .watching (advance version (Resource.versionText a)) },
    match i.cache.get? k with
    | some old => [.modified (some old) a]
    | none => [.added a])

/-- Takes an item of the watch, the last version seen being `version`. -/
def received (i : Informer α) (version : String) (item : WatchItem α) :
    Informer α × List (Change α) :=
  match item with
  | .ended => ({ i with phase := .resting (some version) }, [])
  | .failed (.gone _) => ({ i with phase := .listing }, [])
  | .failed _ => ({ i with phase := .resting (some version) }, [])
  | .event (.added a) => i.upsert version a
  | .event (.modified a) => i.upsert version a
  | .event (.deleted a) =>
    ({ i with
        cache := i.cache.erase (Resource.key a)
        phase := .watching (advance version (Resource.versionText a)) },
      [.deleted a])
  | .event (.bookmark seen) => ({ i with phase := .watching (advance version seen) }, [])
  | .event (.error code _) =>
    if code = 410 then ({ i with phase := .listing }, [])
    else ({ i with phase := .resting (some version) }, [])

/-- The rest is over. -/
def rested (i : Informer α) (resume : Option String) : Informer α :=
  match resume with
  | some version => { i with phase := .opening version }
  | none => { i with phase := .listing }

def stop (i : Informer α) : Informer α := { i with phase := .stopped }

end Informer

end ControlLoop
