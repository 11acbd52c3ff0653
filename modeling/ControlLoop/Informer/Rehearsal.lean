import ControlLoop.Informer.Basic
import ControlLoop.Duration
/-!
# Rehearsing an informer

An informer runs against a client that follows a script: each listing and each watch has a written
answer, which may take its time. What runs out hangs. The trace holds every request and every change,
with its time.
-/
namespace ControlLoop

/-- The written answer to a listing. -/
inductive ListCue (α : Type) where
  | answer (listing : Listing α) (wait : Duration)
  | fail (error : ClientError)
  | hang

/-- One item of a written watch. -/
inductive ItemCue (α : Type) where
  | event (event : WatchEvent α)
  | fail (error : ClientError)
  | pause (wait : Duration)

/-- The written answer to the opening of a watch. -/
inductive WatchCue (α : Type) where
  | items (items : List (ItemCue α)) (wait : Duration) (silent : Bool)
  | fail (error : ClientError)
  | hang

/-- A script for a client. -/
structure ClientScript (α : Type) where
  lists : List (ListCue α)
  watches : List (WatchCue α)

/-- What can be seen of a running informer. -/
inductive Trace (α : Type) where
  | list
  | watch (version : String)
  | change (change : Change α)

/-- A running informer, with what is left of the script. -/
structure Rehearsal (α : Type) where
  informer : Informer α := {}
  script : ClientScript α
  backoff : Duration
  /-- What is left of the open watch, and whether it then stays silent. -/
  stream : List (ItemCue α) := []
  silent : Bool := false
  now : Duration := 0
  trace : List (Duration × Trace α) := []

namespace Rehearsal

variable {α : Type} [Resource α]

def note (r : Rehearsal α) (t : Trace α) : Rehearsal α :=
  { r with trace := r.trace ++ [(r.now, t)] }

/-- Takes over a state of the informer and notes the changes it passes on. -/
def apply (r : Rehearsal α) (result : Informer α × List (Change α)) : Rehearsal α :=
  { r with
    informer := result.1
    trace := r.trace ++ result.2.map fun c => (r.now, .change c) }

/-- Lets time pass, unless the end comes before. -/
def wait (r : Rehearsal α) (limit d : Duration) : Option (Rehearsal α) :=
  if r.now + d ≤ limit then some { r with now := r.now + d } else none

/-- The next thing that happens, if it happens by `limit`. -/
def step (limit : Duration) (r : Rehearsal α) : Option (Rehearsal α) :=
  match r.informer.phase with
  | .stopped => none
  | .listing =>
    match r.script.lists with
    | [] => none
    | cue :: lists =>
      let r := { r with script := { r.script with lists := lists } }
      match cue with
      | .hang => none
      | .fail e => some (r.apply (r.informer.listed (.error e)))
      | .answer listing d => do
        let r ← r.wait limit d
        return r.apply (r.informer.listed (.ok listing))
  | .opening version =>
    match r.script.watches with
    | [] => some { r with informer := r.informer.opened version (.ok ()), stream := [], silent := true }
    | cue :: watches =>
      let r := { r with script := { r.script with watches := watches } }
      match cue with
      | .hang => none
      | .fail e => some { r with informer := r.informer.opened version (.error e) }
      | .items items d silent => do
        let r ← r.wait limit d
        return { r with
          informer := r.informer.opened version (.ok ())
          stream := items
          silent := silent }
  | .watching version =>
    match r.stream with
    | [] => if r.silent then none else some (r.apply (r.informer.received version .ended))
    | .pause d :: rest => do
      let r ← r.wait limit d
      return { r with stream := rest }
    | .event e :: rest =>
      some ({ r with stream := rest }.apply (r.informer.received version (.event e)))
    | .fail e :: rest =>
      some ({ r with stream := rest }.apply (r.informer.received version (.failed e)))
  | .resting resume => do
    let r ← r.wait limit r.backoff
    return { r with informer := r.informer.rested resume }

/-- Notes the request that the informer is about to make. -/
def announce (r : Rehearsal α) : Rehearsal α :=
  match r.informer.call? with
  | some .list => r.note .list
  | some (.watch version) => r.note (.watch version)
  | none => r

/-- Goes on for at most that many steps. -/
def steps (limit : Duration) : Nat → Rehearsal α → Rehearsal α
  | 0, r => r
  | n + 1, r =>
    match (r.announce).step limit with
    | none => r.announce
    | some r => steps limit n r

/-- How many steps a written watch can take. -/
def cueWeight : WatchCue α → Nat
  | .items items _ _ => items.length + 1
  | _ => 1

/-- More steps than a script can take: each cue and each item takes one, and so does the rest or the
new request after it. -/
def bound (script : ClientScript α) : Nat :=
  4 * (script.lists.length + script.watches.foldl (fun n w => n + cueWeight w) 0) + 8

/-- Runs an informer until `limit`. -/
def run (script : ClientScript α) (backoff limit : Duration) : Rehearsal α :=
  { steps limit (bound script) { script := script, backoff := backoff } with now := limit }

end Rehearsal

end ControlLoop
