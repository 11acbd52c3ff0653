import ControlLoop.Json.Basic
/-!
# Lenient access

Reading documents whose fields are optional: a field that is absent or null gives a default, and so
does one of another type.
-/
namespace ControlLoop.Json

/-- The member of a name, unless it is null. -/
def field? (v : Json) (name : String) : Option Json :=
  match v.get? name with
  | some null => none
  | r => r

/-- The member of a name, null included; null if there is none. -/
def member (v : Json) (name : String) : Json := (v.get? name).getD null

def asText? : Json → Option String
  | str s => some s
  | _ => none

def asText (v : Json) : String := v.asText?.getD ""

def asInt : Json → Int
  | num (.int n) => n
  | _ => 0

def asNat (v : Json) : Nat := v.asInt.toNat

def asItems : Json → List Json
  | arr l => l
  | _ => []

def asMembers : Json → List (String × Json)
  | obj l => l
  | _ => []

def textAt? (v : Json) (name : String) : Option String := (v.field? name).bind asText?

def textAt (v : Json) (name : String) (default : String := "") : String :=
  (v.textAt? name).getD default

def natAt? (v : Json) (name : String) : Option Nat := (v.field? name).map asNat

def natAt (v : Json) (name : String) (default : Nat := 0) : Nat := (v.natAt? name).getD default

def flagAt (v : Json) (name : String) (default : Bool := false) : Bool :=
  match v.field? name with
  | some (bool b) => b
  | _ => default

def itemsAt (v : Json) (name : String) : List Json := (v.member name).asItems

def membersAt (v : Json) (name : String) : List (String × Json) := (v.member name).asMembers

/-- The items of a list, in JSON form; none for no items. -/
def ofNonempty (l : List Json) : Option Json := if l.isEmpty then none else some (arr l)

/-- Texts as a JSON list. -/
def ofTexts (l : List String) : Json := arr (l.map str)

end ControlLoop.Json
