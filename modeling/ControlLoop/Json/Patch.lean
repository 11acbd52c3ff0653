import ControlLoop.Json.Decode
/-!
# JSON patches

A patch is a list of operations on the parts of a document, each part named by a pointer. Operations
are written as objects whose member `op` names the operation.
-/
namespace ControlLoop

namespace Pointer

/-- The place of the first part that has a tilde without a zero or a one after it: how many octets
stand before its slash. `place` is that of the part at hand, and `octets` stand before the text. -/
def firstFault (place octets : Nat) : List Char → Option Nat
  | [] => none
  | '~' :: '0' :: rest => firstFault place (octets + 2) rest
  | '~' :: '1' :: rest => firstFault place (octets + 2) rest
  | '~' :: _ => some place
  | '/' :: rest => firstFault octets (octets + 1) rest
  | c :: rest => firstFault place (octets + c.utf8Size) rest

/-- Whether a text is empty or begins with a slash. -/
def startsWell : List Char → Bool
  | [] => true
  | c :: _ => c = '/'

/-- Whether a text is a pointer. -/
def isWellFormed (text : String) : Bool :=
  startsWell text.toList && (firstFault 0 0 text.toList).isNone

end Pointer

/-- A pointer to a part of a document, as it is written. -/
structure Pointer where
  text : String
  valid : Pointer.isWellFormed text = true
  deriving DecidableEq, Repr

namespace Pointer

/-- What is wrong with a text that is no pointer. -/
def fault (text : String) : String :=
  "json pointer failed to parse; " ++
    if startsWell text.toList then
      "the first token in the partial-pointer starting at offset " ++
        toString ((firstFault 0 0 text.toList).getD 0) ++ " is malformed"
    else "does not start with a slash ('/') and is not empty"

def read (text : String) : Decoded Pointer :=
  if h : isWellFormed text = true then .ok ⟨text, h⟩ else .error (.malformed (fault text))

def decode (v : Source) : Decoded Pointer := do read (← v.decodeString)

theorem read_text (p : Pointer) : read p.text = .ok p := by
  simp [read, p.valid]

end Pointer

/-- One operation of a patch. -/
inductive PatchOperation where
  | add (path : Pointer) (value : Json)
  | remove (path : Pointer)
  | replace (path : Pointer) (value : Json)
  | move (source path : Pointer)
  | copy (source path : Pointer)
  | test (path : Pointer) (value : Json)
  deriving DecidableEq, Repr

namespace PatchOperation

/-- The names of the operations. -/
inductive Name where
  | add
  | remove
  | replace
  | move
  | copy
  | test
  deriving DecidableEq, Repr

def Name.text : Name → String
  | add => "add"
  | remove => "remove"
  | replace => "replace"
  | move => "move"
  | copy => "copy"
  | test => "test"

def names : List Name := [.add, .remove, .replace, .move, .copy, .test]

def Name.decode : Source → Decoded Name := Source.decodeName (names.map fun n => (n.text, n))

def encode : PatchOperation → Json
  | add path value => .obj [("op", .str "add"), ("path", .str path.text), ("value", value)]
  | remove path => .obj [("op", .str "remove"), ("path", .str path.text)]
  | replace path value => .obj [("op", .str "replace"), ("path", .str path.text), ("value", value)]
  | move source path =>
    .obj [("op", .str "move"), ("from", .str source.text), ("path", .str path.text)]
  | copy source path =>
    .obj [("op", .str "copy"), ("from", .str source.text), ("path", .str path.text)]
  | test path value => .obj [("op", .str "test"), ("path", .str path.text), ("value", value)]

/-- What has been met of an operation: its name, and its other members in reverse. -/
structure Parts where
  name : Option Name := none
  members : List (String × Json.Node) := []

/-- Takes one member; all but the name are put aside. -/
def Parts.member (p : Parts) (name : String) (v : Source) : Decoded Parts :=
  if name = "op" then
    match p.name with
    | some _ => .error (.duplicateField "op")
    | none => return { p with name := some (← Name.decode v) }
  else return { p with members := (name, (← v.putAside).node) :: p.members }

/-- The fields of operations. -/
structure Gathered where
  source : Option Pointer := none
  path : Option Pointer := none
  value : Option Json := none

def member (g : Gathered) (name : String) (v : Source) : Decoded Gathered :=
  match name with
  | "from" => return { g with source := some (← Pointer.decode v) }
  | "path" => return { g with path := some (← Pointer.decode v) }
  | "value" => return { g with value := some (← v.decodeDocument) }
  | _ => return g

/-- The fields that each operation has. -/
def Name.fields : Name → List String
  | add | replace | test => ["path", "value"]
  | remove => ["path"]
  | move | copy => ["from", "path"]

def ofGathered (g : Gathered) : Name → Decoded PatchOperation
  | .add => return add (← Source.require "path" g.path) (← Source.require "value" g.value)
  | .remove => return remove (← Source.require "path" g.path)
  | .replace => return replace (← Source.require "path" g.path) (← Source.require "value" g.value)
  | .move => return move (← Source.require "from" g.source) (← Source.require "path" g.path)
  | .copy => return copy (← Source.require "from" g.source) (← Source.require "path" g.path)
  | .test => return test (← Source.require "path" g.path) (← Source.require "value" g.value)

/-- What the fields of an operation are called together. -/
def Name.shape : Name → String
  | add => "AddOperation"
  | remove => "RemoveOperation"
  | replace => "ReplaceOperation"
  | move => "MoveOperation"
  | copy => "CopyOperation"
  | test => "TestOperation"

/-- The operation of a name whose fields were put aside. -/
def decodeFields (name : Name) (fields : Json.Node) : Decoded PatchOperation := do
  ofGathered (← Source.decodeRecord name.shape name.fields member {} ⟨.aside, fields⟩) name

/-- An operation: an object that has its name and its fields, or a list that begins with its name. -/
def decode (v : Source) : Decoded PatchOperation :=
  let expected := "internally tagged enum PatchOperation"
  match v.node with
  | .arr [] fault => do
    Source.endItems () fault
    .error (.missingField "op")
  | .arr (n :: rest) fault => do
    let name ← Name.decode ⟨v.medium, n⟩
    let fields ← Source.putAside ⟨v.medium, .arr rest fault⟩
    decodeFields name fields.node
  | _ => do
    let parts ← v.decodeMembers expected Parts.member {}
    let name ← Source.require "op" parts.name
    decodeFields name (.obj parts.members.reverse none)

end PatchOperation

/-- A patch. -/
abbrev JsonPatch := List PatchOperation

namespace JsonPatch

def encode (p : JsonPatch) : Json := .arr (p.map PatchOperation.encode)

def decode : Source → Decoded JsonPatch := Source.decodeList PatchOperation.decode

end JsonPatch

end ControlLoop
