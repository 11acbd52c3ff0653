import ControlLoop.Informer.Basic
import ControlLoop.Store.Watch
/-!
# Following a store

An informer together with the watch that it has open. A request and the taking of its answer are steps
of their own: the store, and those who read the copy, go on in between.
-/
namespace ControlLoop

/-- What an informer has been told. -/
inductive Feed.Answer (α : Type) where
  | listing (answer : Except ClientError (Listing α))
  | item (item : WatchItem α)

/-- An informer that follows a store. -/
structure Feed (α : Type) where
  informer : Informer α := {}
  watch : Option (Watch α) := none
  /-- The answer to the last request, until it is taken. -/
  answer : Option (Feed.Answer α) := none

namespace Feed

variable {α : Type} [Resource α]

instance : Inhabited (Feed α) := ⟨{}⟩

/-- A listing has been answered. -/
def listed (f : Feed α) (answer : Except ClientError (Listing α)) : Feed α :=
  { f with watch := none, answer := some (.listing answer) }

/-- The opening of a watch has been answered. -/
def opened (f : Feed α) (version : String) (answer : Except ClientError (Watch α)) : Feed α :=
  match answer with
  | .error e => { f with informer := f.informer.opened version (.error e) }
  | .ok w => { f with informer := f.informer.opened version (.ok ()), watch := some w }

/-- Asks the watch for its next item. The flag says whether there is one. -/
def pull (f : Feed α) (s : Store α) : Feed α × Bool :=
  match f.watch with
  | none => ({ f with answer := some (.item .ended) }, true)
  | some w =>
    match s.next w with
    | .event e w => ({ f with watch := some w, answer := some (.item (.event e)) }, true)
    | .waiting w => ({ f with watch := some w }, false)
    | .ended => ({ f with watch := none, answer := some (.item .ended) }, true)

/-- Takes an answer, and passes on how the copy has changed. -/
def take (f : Feed α) (answer : Answer α) : Feed α × List (Change α) :=
  let (informer, changes) :=
    match answer, f.informer.phase with
    | .listing listing, _ => f.informer.listed listing
    | .item item, .watching version => f.informer.received version item
    | .item _, _ => (f.informer, [])
  ({ f with informer := informer, answer := none }, changes)

/-- The rest is over. -/
def rested (f : Feed α) (resume : Option String) : Feed α :=
  { f with informer := f.informer.rested resume }

def stop (f : Feed α) : Feed α := { f with informer := f.informer.stop, watch := none }

end Feed

end ControlLoop
