import ControlLoop.Store.Basic
import ControlLoop.Text.Integer
/-!
# Watching a store

A watch first delivers what the history holds after the version it starts from, then what is
published from its opening on. A watch that has left too many published events undelivered loses the
oldest of them and is told how many. After a disconnection it delivers what had been published until
then, and ends.
-/
namespace ControlLoop

/-- An open watch. -/
structure Watch (α : Type) where
  scope : Option String
  /-- Events of the history that are still to be delivered. -/
  backlog : List (WatchEvent α)
  /-- How many disconnections there had been when the watch was opened. -/
  channel : Nat
  /-- How many published events the watch has passed. -/
  position : Nat
  deriving DecidableEq, Repr

/-- What a watch has to say. -/
inductive Watch.Answer (α : Type) where
  | event (event : WatchEvent α) (rest : Watch α)
  /-- Nothing yet; everything published so far has been passed. -/
  | waiting (rest : Watch α)
  | ended

/-- How many published events can be left undelivered. -/
def Watch.capacity : Nat := 1024

/-- The code of the event that tells a watch that it has to begin anew. -/
def goneCode : Nat := 410

namespace Store

variable {α : Type} [Resource α]

/-- The revision that a watch starts after: the current one if no version is given. -/
def startRevision (s : Store α) (version : String) : Except ClientError Nat :=
  if version = "" then .ok s.revision
  else
    match Text.readNat Text.word64Max version with
    | .ok n => .ok n
    | .error _ => .error (.invalid s!"bad resource version {version}")

/-- Opens a watch of a scope from a version. -/
def watch (s : Store α) (scope : Option String) (version : String) :
    Except ClientError (Watch α) := do
  let start ← s.startRevision version
  if start < s.oldestResumable then throw (.gone version)
  return {
    scope := scope
    backlog := (s.history.filter fun e => start < e.1 && e.2.inScope scope).map (·.2)
    channel := s.disconnections.length
    position := s.published.length }

/-- How far a watch can deliver, and whether it ends there. -/
def horizon (s : Store α) (w : Watch α) : Nat × Bool :=
  match s.disconnections[w.channel]? with
  | some n => (n, true)
  | none => (s.published.length, false)

/-- The first event of the scope, and the number of events up to it. -/
def firstInScope (scope : Option String) : Nat → List (WatchEvent α) → Option (WatchEvent α × Nat)
  | _, [] => none
  | passed, e :: rest =>
    if e.inScope scope then some (e, passed + 1) else firstInScope scope (passed + 1) rest

/-- The next thing that a watch has to say. -/
def next (s : Store α) (w : Watch α) : Watch.Answer α :=
  match w.backlog with
  | e :: rest => .event e { w with backlog := rest }
  | [] =>
    let (limit, ends) := s.horizon w
    if w.position + Watch.capacity < limit then
      let kept := limit - Watch.capacity
      .event (.error goneCode s!"watcher fell behind by {kept - w.position} events")
        { w with position := kept }
    else
      match firstInScope w.scope w.position ((s.published.take limit).drop w.position) with
      | some (e, passed) => .event e { w with position := passed }
      | none => if ends then .ended else .waiting { w with position := limit }

/-- What a watch tells in at most that many answers, and what is left of it unless it has ended. -/
def tell (s : Store α) : Nat → Watch α → List (WatchEvent α) × Option (Watch α)
  | 0, w => ([], some w)
  | n + 1, w =>
    match s.next w with
    | .event e w =>
      let (events, rest) := s.tell n w
      (e :: events, rest)
    | .waiting w => ([], some w)
    | .ended => ([], none)

/-- Everything that a watch has to tell now, and what is left of it unless it has ended. -/
def drain (s : Store α) (w : Watch α) : List (WatchEvent α) × Option (Watch α) :=
  s.tell (w.backlog.length + s.published.length + 2) w

end Store

end ControlLoop
