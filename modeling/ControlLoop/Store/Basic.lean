import ControlLoop.Client
import ControlLoop.Resource.KeyMap
/-!
# A store of objects

Every write that changes something takes the next revision, which becomes the version of the object
written, and publishes one event. The most recent events are kept as a history from which a watch can
resume; `oldestResumable` is the revision from which a watch may start at the earliest.

Revisions, and the generations of objects that count the changes of their specs, are numbers without a
bound. Counters of 64 bits would do the same up to `2 ^ 63` writes to one store.
-/
namespace ControlLoop

/-- A store of objects of one kind. -/
structure Store (α : Type) where
  objects : KeyMap α := ∅
  revision : Nat := 0
  /-- Recent events with their revisions, oldest first. -/
  history : List (Nat × WatchEvent α) := []
  historyLimit : Nat := 1000
  oldestResumable : Nat := 0
  /-- All events in the order of publication. -/
  published : List (WatchEvent α) := []
  /-- How many events had been published at each disconnection, in order. -/
  disconnections : List Nat := []
  writes : Nat := 0

namespace Store

variable {α : Type}

/-- The number of events that are kept where nothing else is asked for. -/
def defaultHistoryLimit : Nat := 1000

/-- An empty store that keeps `limit` events, at least one. -/
def empty (limit : Nat := defaultHistoryLimit) : Store α where
  historyLimit := max limit 1

instance : Inhabited (Store α) := ⟨empty⟩

/-- Drops events from the front until at most `limit` are left, and gives the revision of the last
one dropped, or else `oldest`. -/
def trim (limit : Nat) : Nat → List (Nat × WatchEvent α) → Nat × List (Nat × WatchEvent α)
  | oldest, [] => (oldest, [])
  | oldest, e :: rest =>
    if limit < rest.length + 1 then trim limit e.1 rest else (oldest, e :: rest)

/-- Keeps an event in the history and sends it to the watches. -/
def record (s : Store α) (e : WatchEvent α) : Store α :=
  let (oldest, history) := trim s.historyLimit s.oldestResumable (s.history ++ [(s.revision, e)])
  { s with
    history := history
    oldestResumable := oldest
    published := s.published ++ [e] }

/-- Takes the next revision and counts a write. -/
def nextRevision (s : Store α) : Store α :=
  { s with revision := s.revision + 1, writes := s.writes + 1 }

/-- Ends every open watch. -/
def disconnect (s : Store α) : Store α :=
  { s with disconnections := s.disconnections ++ [s.published.length] }

/-- Forgets the history, so that no watch can resume from an earlier revision. -/
def compact (s : Store α) : Store α :=
  { s with history := [], oldestResumable := s.revision }

variable [Resource α]

/-- The objects of a scope, in order of keys. -/
def list (s : Store α) (scope : Option String) : Listing α where
  items := (s.objects.filterKeys (·.inScope scope)).values
  version := toString s.revision

/-- The object of a key. -/
def get (s : Store α) (k : ObjectKey) : Except ClientError α :=
  match s.objects.get? k with
  | some a => .ok a
  | none => .error (.notFound (Resource.kind α) k.text)

end Store

end ControlLoop
