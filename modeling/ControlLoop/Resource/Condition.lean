import ControlLoop.Json.Decode
import ControlLoop.Timestamp
/-!
# Conditions

A condition says of one aspect of an object whether it holds, and since when. An object lists at most
one condition of each type that it sets itself; what others wrote stays as it is.
-/
namespace ControlLoop

/-- One aspect of the state of an object. -/
structure Condition where
  type : String
  status : String
  reason : Option String := none
  message : Option String := none
  lastTransitionTime : Option String := none
  observedGeneration : Option Int := none
  deriving DecidableEq, Repr

namespace Condition

def encode (c : Condition) : Json :=
  .ofMembers
    [("type", some (.str c.type)),
     ("status", some (.str c.status)),
     ("reason", c.reason.map .str),
     ("message", c.message.map .str),
     ("lastTransitionTime", c.lastTransitionTime.map .str),
     ("observedGeneration", c.observedGeneration.map .int)]

/-- The members of a condition met so far. -/
structure Gathered where
  type : Option String := none
  status : Option String := none
  reason : Option String := none
  message : Option String := none
  lastTransitionTime : Option String := none
  observedGeneration : Option Int := none

/-- Takes one member. -/
def member (g : Gathered) (name : String) (v : Source) : Decoded Gathered :=
  match name with
  | "type" => return { g with type := some (← v.decodeString) }
  | "status" => return { g with status := some (← v.decodeString) }
  | "reason" => return { g with reason := ← v.decodeOption Source.decodeString }
  | "message" => return { g with message := ← v.decodeOption Source.decodeString }
  | "lastTransitionTime" => return { g with lastTransitionTime := ← v.decodeOption Source.decodeString }
  | "observedGeneration" => return { g with observedGeneration := ← v.decodeOption Source.decodeInt64 }
  | _ => return g

def fields : List String :=
  ["type", "status", "reason", "message", "lastTransitionTime", "observedGeneration"]

def decode (v : Source) : Decoded Condition := do
  let g ← Source.decodeRecord "Condition" fields member {} v
  return {
    type := ← Source.require "type" g.type
    status := ← Source.require "status" g.status
    reason := g.reason
    message := g.message
    lastTransitionTime := g.lastTransitionTime
    observedGeneration := g.observedGeneration }

/-- The status of an aspect that holds. -/
def trueStatus : String := "True"

/-- The status of an aspect that does not hold. -/
def falseStatus : String := "False"

/-- A condition as it is first reported, before it has a transition time. -/
def report (type : String) (holds : Bool) (reason message : String) (generation : Option Int) :
    Condition where
  type := type
  status := if holds then trueStatus else falseStatus
  reason := some reason
  message := some message
  observedGeneration := generation

def isTrue (c : Condition) : Bool := c.status == trueStatus

/-- The condition with a transition time: the one it has, or that of a condition with the same
status which it replaces, or else the present. -/
def stamped (now : String) (old : Option Condition) (c : Condition) : Condition :=
  match c.lastTransitionTime with
  | some _ => c
  | none =>
    { c with
      lastTransitionTime :=
        match old with
        | some o => if o.status = c.status then some (o.lastTransitionTime.getD now) else some now
        | none => some now }

/-- Replaces the first condition of the same type, or appends the condition. -/
def set (now : String) (c : Condition) : List Condition → List Condition
  | [] => [c.stamped now none]
  | o :: rest =>
    if o.type = c.type then c.stamped now (some o) :: rest else o :: set now c rest

/-- The conditions in the status of an object in JSON form; an absent list is empty. -/
def ofStatus (v : Json) : Decoded (List Condition) :=
  match v.at? ["status", "conditions"] with
  | none => .ok []
  | some .null => .ok []
  | some list => Source.decodeList decode list

end Condition

end ControlLoop
