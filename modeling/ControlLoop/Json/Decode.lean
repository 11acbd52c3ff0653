import ControlLoop.Json.Node
import ControlLoop.Text.Quoted
import ControlLoop.Decimal.Shortest
/-!
# Decoding typed data

A decoder visits the members of an object in the order they stand and stops at the first problem.
Members that are required and absent are reported after the visit, in the order of declaration. What
a decoder does not know it passes over.
-/
namespace ControlLoop

/-- What was found in the place of something else. -/
inductive Found where
  | null
  | boolean (value : Bool)
  | number (value : Number)
  | string (value : String)
  | sequence
  | map
  deriving DecidableEq, Repr

namespace Found

def text : Found → String
  | null => "null"
  | boolean b => s!"boolean `{b}`"
  | number (.int n) => s!"integer `{n}`"
  | number (.real bits) => "floating point `" ++ Decimal.render .marked bits ++ "`"
  | string s => "string " ++ Text.quoted s
  | sequence => "sequence"
  | map => "map"

end Found

/-- Why a document does not decode. -/
inductive DecodeError where
  | missingField (name : String)
  | duplicateField (name : String)
  | invalidType (found : Found) (expected : String)
  | invalidValue (found : Found) (expected : String)
  | invalidLength (length : Nat) (expected : String)
  | unknownVariant (found : String) (known : List String)
  | malformed (text : String)
  /-- The text of the document is not JSON. -/
  | unreadable (fault : Json.SyntaxError)
  deriving DecidableEq, Repr

namespace DecodeError

/-- The names that one may choose from. -/
def choice (known : List String) : String :=
  match known.map fun k => s!"`{k}`" with
  | [a, b] => a ++ " or " ++ b
  | l => "one of " ++ String.intercalate ", " l

def message : DecodeError → String
  | missingField name => s!"missing field `{name}`"
  | duplicateField name => s!"duplicate field `{name}`"
  | invalidType found expected => "invalid type: " ++ found.text ++ ", expected " ++ expected
  | invalidValue found expected => "invalid value: " ++ found.text ++ ", expected " ++ expected
  | invalidLength n expected => s!"invalid length {n}, expected " ++ expected
  | unknownVariant found known => s!"unknown variant `{found}`, expected " ++ choice known
  | malformed text => text
  | unreadable fault => fault.message

/-- Whether the text may be the beginning of a longer one. -/
def isIncomplete : DecodeError → Bool
  | unreadable fault => fault.isIncomplete
  | _ => false

end DecodeError

/-- The result of decoding. -/
abbrev Decoded (α : Type) := Except DecodeError α

/-- Where a document is. -/
inductive Medium where
  /-- In memory, as a value. -/
  | memory
  /-- In a text that is being read. -/
  | text
  /-- Put aside while the rest of a document was read. -/
  | aside
  deriving DecidableEq, Repr

/-- A document, or a part of one, as a decoder meets it. -/
structure Source where
  medium : Medium
  node : Json.Node

namespace Source

open Json (SyntaxError ListFault)

def ofJson (v : Json) : Source := ⟨.memory, .ofJson v⟩

instance : Coe Json Source := ⟨ofJson⟩

/-- A document of any shape. -/
def decodeAny (v : Source) : Decoded Json := v.node.read.mapError .unreadable

/-- A document of any shape, with members in increasing order of names and the last of several with
one name. -/
def decodeDocument (v : Source) : Decoded Json := return (← v.decodeAny).sorted

/-- Reads a part as it is, to be decoded later. -/
def putAside (v : Source) : Decoded Source := do
  let _ ← v.decodeAny
  return ⟨.aside, v.node⟩

/-! ## Simple values -/

/-- Refuses a value of the wrong shape. -/
def unexpected {α : Type} (v : Source) (expected : String) : Decoded α :=
  let refuse (found : Found) : Decoded α := .error (.invalidType found expected)
  match v.node with
  | .null => refuse .null
  | .bool b => refuse (.boolean b)
  | .num n => refuse (.number n)
  | .str s => refuse (.string s)
  | .arr _ _ => refuse .sequence
  | .obj _ _ => refuse .map
  | .nameless _ => refuse .map
  | .broken e => .error (.unreadable e)
  | .unreadable e => .error (.unreadable e)

def decodeString (v : Source) : Decoded String :=
  match v.node with
  | .str s => .ok s
  | _ => v.unexpected "a string"

def decodeBool (v : Source) : Decoded Bool :=
  match v.node with
  | .bool b => .ok b
  | _ => v.unexpected "a boolean"

/-- An integer between `low` and `high`. -/
def decodeInt (low high : Int) (expected : String) (v : Source) : Decoded Int :=
  match v.node with
  | .num (.int n) =>
    if low ≤ n ∧ n ≤ high then .ok n
    else .error (.invalidValue (.number (.int n)) expected)
  | _ => v.unexpected expected

def decodeInt32 : Source → Decoded Int := decodeInt (-2147483648) 2147483647 "i32"

def decodeInt64 : Source → Decoded Int :=
  decodeInt (-9223372036854775808) 9223372036854775807 "i64"

def decodeNat16 (v : Source) : Decoded Nat := (decodeInt 0 65535 "u16" v).map Int.toNat

/-- Nothing but null. -/
def decodeNull (v : Source) : Decoded Unit :=
  match v.node with
  | .null => .ok ()
  | _ => v.unexpected "unit"

/-- Null stands for absence. -/
def decodeOption {α : Type} (decode : Source → Decoded α) (v : Source) : Decoded (Option α) :=
  match v.node with
  | .null => .ok none
  | _ => (decode v).map some

/-! ## Lists and maps -/

/-- The end of a list for one who would take another item. -/
def endItems {α : Type} (a : α) : Option ListFault → Decoded α
  | none => .ok a
  | some f => .error (.unreadable f.next)

/-- The end of an object. -/
def endMembers {α : Type} (a : α) : Option SyntaxError → Decoded α
  | none => .ok a
  | some e => .error (.unreadable e)

/-- Each item in turn. -/
def decodeItems {α : Type} (decode : Source → Decoded α) (medium : Medium)
    (fault : Option ListFault) : List Json.Node → Decoded (List α)
  | [] => endItems [] fault
  | n :: rest => do
    let a ← decode ⟨medium, n⟩
    let as ← decodeItems decode medium fault rest
    return a :: as

def decodeList {α : Type} (decode : Source → Decoded α) (v : Source) : Decoded (List α) :=
  match v.node with
  | .arr items fault => decodeItems decode v.medium fault items
  | _ => v.unexpected "a sequence"

/-- Visits members in order, each changing what has been gathered so far. -/
def visit {σ : Type} (step : σ → String → Source → Decoded σ) (medium : Medium)
    (fault : Option SyntaxError) : σ → List (String × Json.Node) → Decoded σ
  | gathered, [] => endMembers gathered fault
  | gathered, (k, n) :: rest => do
    let next ← step gathered k ⟨medium, n⟩
    visit step medium fault next rest

/-- Puts an entry into a list in increasing order of keys, in the place of one of that key. -/
def insertEntry {α : Type} (key : String) (value : α) : List (String × α) → List (String × α)
  | [] => [(key, value)]
  | (k, v) :: rest =>
    if key < k then (key, value) :: (k, v) :: rest
    else if k = key then (key, value) :: rest
    else (k, v) :: insertEntry key value rest

/-- Visits the members of an object. -/
def decodeMembers {σ : Type} (expected : String) (step : σ → String → Source → Decoded σ)
    (start : σ) (v : Source) : Decoded σ :=
  match v.node with
  | .obj members fault => visit step v.medium fault start members
  | .nameless _ => .error (.unreadable .expectedKey)
  | _ => v.unexpected expected

/-- The entries of a map, in increasing order of keys. -/
def decodeMap {α : Type} (decode : Source → Decoded α) : Source → Decoded (List (String × α)) :=
  decodeMembers "a map" (fun done k v => return insertEntry k (← decode v) done) []

/-! ## Records -/

/-- Takes a member whose name is known, unless one of that name was taken, and passes over all others.
What a decoder has gathered stands beside the names taken. -/
def once {σ : Type} (known : List String) (step : σ → String → Source → Decoded σ)
    (gathered : List String × σ) (name : String) (v : Source) : Decoded (List String × σ) :=
  if name ∈ known then
    if name ∈ gathered.1 then .error (.duplicateField name)
    else return (name :: gathered.1, ← step gathered.2 name v)
  else .ok gathered

/-- How a record is described where a list has the wrong number of items for it. -/
def recordShape (name : String) (fields : Nat) : String :=
  s!"struct {name} with {fields} " ++ if fields = 1 then "element" else "elements"

/-- What is said where a list goes on after `taken` of its `length` items. -/
def surplus (medium : Medium) (taken length : Nat) : DecodeError :=
  match medium with
  | .memory => .invalidLength length "fewer elements in array"
  | .text => .unreadable .trailingCharacters
  | .aside =>
    .invalidLength length
      (s!"{taken} " ++ (if taken = 1 then "element" else "elements") ++ " in sequence")

/-- The end of a list for one who takes no more items. -/
def endList {α : Type} (a : α) (medium : Medium) (taken : Nat) (rest : List Json.Node)
    (fault : Option ListFault) : Decoded α :=
  match rest, fault with
  | [], none => .ok a
  | [], some f => .error (.unreadable f.close)
  | _ :: _, _ => .error (surplus medium taken (taken + rest.length))

/-- Takes the items of a list for the fields of a record, in order. At the end of the list the
remaining fields must all be among the spare ones, which have a value of their own. -/
def visitItems {σ : Type} (shape : String) (spare : List String)
    (step : σ → String → Source → Decoded σ) (medium : Medium) (fault : Option ListFault) :
    Nat → σ → List String → List Json.Node → Decoded σ
  | index, gathered, [], rest => endList gathered medium index rest fault
  | index, gathered, name :: names, [] => do
    endItems () fault
    if name ∈ spare then visitItems shape spare step medium fault (index + 1) gathered names []
    else .error (.invalidLength index shape)
  | index, gathered, name :: names, n :: rest => do
    let next ← step gathered name ⟨medium, n⟩
    visitItems shape spare step medium fault (index + 1) next names rest

/-- The members of a record whose fields are fixed: an object, each field at most once, or the list
of its fields, where spare ones may be left out at the end. -/
def decodeSpared {σ : Type} (name : String) (known spare : List String)
    (step : σ → String → Source → Decoded σ) (start : σ) (v : Source) : Decoded σ :=
  match v.node with
  | .arr items fault =>
    visitItems (recordShape name known.length) spare step v.medium fault 0 start known items
  | _ => return (← decodeMembers s!"struct {name}" (once known step) ([], start) v).2

/-- The members of a record without spare fields. -/
def decodeRecord {σ : Type} (name : String) (known : List String)
    (step : σ → String → Source → Decoded σ) (start : σ) : Source → Decoded σ :=
  decodeSpared name known [] step start

/-- A field that must have been met. -/
def require {α : Type} (name : String) : Option α → Decoded α
  | some a => .ok a
  | none => .error (.missingField name)

/-! ## Variants -/

/-- Reads one of several names. -/
def readName {α : Type} (names : List (String × α)) (s : String) : Decoded α :=
  match names.find? fun n => n.1 = s with
  | some n => .ok n.2
  | none => .error (.unknownVariant s (names.map (·.1)))

/-- One of several names, as a string. -/
def decodeName {α : Type} (names : List (String × α)) (v : Source) : Decoded α :=
  match v.node with
  | .str s => readName names s
  | _ => v.unexpected "variant identifier"

/-- The end of an object in a text that has one member. -/
def endSingle (rest : List (String × Json.Node)) (fault : Option SyntaxError) : Decoded Unit :=
  match rest, fault with
  | [], none => .ok ()
  | [], some .endInObject => .error (.unreadable .endInObject)
  | _, _ => .error (.unreadable .expectedValue)

/-- One of several names in a text: a string, or the name of the single member of an object, whose
value is null. -/
def decodeVariantText {α : Type} (names : List (String × α)) (v : Source) : Decoded α :=
  match v.node with
  | .str s => readName names s
  | .obj ((s, n) :: rest) fault => do
    let a ← readName names s
    decodeNull ⟨v.medium, n⟩
    endSingle rest fault
    return a
  | .obj [] none => .error (.unreadable .expectedValue)
  | .obj [] (some .endInObject) => .error (.unreadable .endInValue)
  | .obj [] (some e) => .error (.unreadable e)
  | .nameless first => unexpected ⟨v.medium, first⟩ "variant identifier"
  | .unreadable e => .error (.unreadable e)
  | _ => .error (.unreadable .expectedValue)

/-- One of several names in memory. -/
def decodeVariantValue {α : Type} (names : List (String × α)) (v : Source) : Decoded α :=
  match v.node with
  | .str s => readName names s
  | .obj [(s, n)] _ => do
    let a ← readName names s
    decodeNull ⟨v.medium, n⟩
    return a
  | .obj _ _ => .error (.invalidValue .map "map with a single key")
  | _ => v.unexpected "string or map"

def decodeVariant {α : Type} (names : List (String × α)) (v : Source) : Decoded α :=
  match v.medium with
  | .text => decodeVariantText names v
  | _ => decodeVariantValue names v

end Source

end ControlLoop
