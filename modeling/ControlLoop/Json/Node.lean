import ControlLoop.Json.Skip
/-!
# JSON text with its faults in place

A reader who wants data of some type goes through a text from its beginning and stops at the first
thing that is wrong. So a text is turned into a tree in which each fault stands where the reader meets
it, and what follows a value is found by passing over that value.
-/
namespace ControlLoop.Json

open Text (Characters)

/-- A fault after the last item of a list. -/
structure ListFault where
  /-- What one who looks for another item is told. -/
  next : SyntaxError
  /-- What one who looks for the end of the list is told. -/
  close : SyntaxError
  deriving DecidableEq, Repr

/-- A value that may hold faults. -/
inductive Node where
  | null
  | bool (value : Bool)
  | num (value : Number)
  | str (value : String)
  | arr (items : List Node) (fault : Option ListFault)
  | obj (members : List (String × Node)) (fault : Option SyntaxError)
  /-- An object that has something else in the place of its first name. -/
  | nameless (first : Node)
  /-- A word or a number that is none. -/
  | broken (fault : SyntaxError)
  /-- A string that is none, or no value at all. -/
  | unreadable (fault : SyntaxError)
  deriving Repr, Inhabited

namespace Node

/-! ## Values without faults -/

mutual

def ofJson : Json → Node
  | .null => null
  | .bool b => bool b
  | .num n => num n
  | .str s => str s
  | .arr items => arr (ofItems items) none
  | .obj members => obj (ofMembers members) none

def ofItems : List Json → List Node
  | [] => []
  | v :: rest => ofJson v :: ofItems rest

def ofMembers : List (String × Json) → List (String × Node)
  | [] => []
  | (k, v) :: rest => (k, ofJson v) :: ofMembers rest

end

mutual

/-- The value, or its first fault. -/
def read : Node → Except SyntaxError Json
  | null => .ok .null
  | bool b => .ok (.bool b)
  | num n => .ok (.num n)
  | str s => .ok (.str s)
  | arr items fault => do
    let items ← readItems items
    match fault with
    | none => return .arr items
    | some f => throw f.next
  | obj members fault => do
    let members ← readMembers members
    match fault with
    | none => return .obj members
    | some e => throw e
  | nameless _ => .error .expectedKey
  | broken e => .error e
  | unreadable e => .error e

def readItems : List Node → Except SyntaxError (List Json)
  | [] => .ok []
  | n :: rest => return (← read n) :: (← readItems rest)

def readMembers : List (String × Node) → Except SyntaxError (List (String × Json))
  | [] => .ok []
  | (k, n) :: rest => return (k, ← read n) :: (← readMembers rest)

end

/-! ## Text -/

/-- A word such as `null`. -/
def ofWord (word : List Char) (value : Node) (cs : Characters) : Node :=
  match skipWord word cs with
  | .ok _ => value
  | .error e => broken e

def ofNumber (negative : Bool) (cs : Characters) : Node :=
  match readNumber negative cs with
  | .ok (n, _) => num n
  | .error e => broken e

/-- A string after its opening quote. -/
def ofString (cs : Characters) : Node :=
  match readString cs with
  | .ok (s, _) => str s
  | .error e => unreadable e

/-- The items of a list from one on, at most `limit` of them, in front of which `done` stand in
reverse. -/
def scanItems (item : Characters → Node) : Nat → List Node → Characters → Node
  | 0, done, _ => arr done.reverse (some ⟨.endInList, .endInList⟩)
  | limit + 1, done, cs =>
    let done := item cs :: done
    let cut (next close : SyntaxError) : Node := arr done.reverse (some ⟨next, close⟩)
    match skipValue cs with
    | .error e => cut e e
    | .ok rest =>
      match skipSpace rest with
      | [] => cut .endInList .endInList
      | some ']' :: _ => arr done.reverse none
      | some ',' :: rest =>
        match skipSpace rest with
        | [] => cut .endInValue .trailingCharacters
        | some ']' :: _ => cut .trailingComma .trailingComma
        | rest => scanItems item limit done rest
      | _ => cut .expectedListEnd .trailingCharacters

/-- A list after its opening bracket. -/
def ofList (item : Characters → Node) (cs : Characters) : Node :=
  match skipSpace cs with
  | [] => arr [] (some ⟨.endInList, .endInList⟩)
  | some ']' :: _ => arr [] none
  | cs => scanItems item cs.length [] cs

/-- The members of an object from one on, after the quote that opens its name, at most `limit` of
them, in front of which `done` stand in reverse. -/
def scanMembers (item : Characters → Node) : Nat → List (String × Node) → Characters → Node
  | 0, done, _ => obj done.reverse (some .endInObject)
  | limit + 1, done, cs =>
    match readString cs with
    | .error e => obj done.reverse (some e)
    | .ok (name, rest) =>
      let lacking (e : SyntaxError) : Node := obj ((name, unreadable e) :: done).reverse (some e)
      match skipSpace rest with
      | [] => lacking .endInObject
      | some ':' :: rest =>
        let done := (name, item rest) :: done
        let cut (e : SyntaxError) : Node := obj done.reverse (some e)
        match skipValue rest with
        | .error e => cut e
        | .ok rest =>
          match skipSpace rest with
          | [] => cut .endInObject
          | some '\x7d' :: _ => obj done.reverse none
          | some ',' :: rest =>
            match skipSpace rest with
            | [] => cut .endInValue
            | some '"' :: rest => scanMembers item limit done rest
            | some '\x7d' :: _ => cut .trailingComma
            | _ => cut .expectedKey
          | _ => cut .expectedObjectEnd
      | _ => lacking .expectedColon

/-- An object after its opening brace. -/
def ofObject (item : Characters → Node) (cs : Characters) : Node :=
  match skipSpace cs with
  | [] => obj [] (some .endInObject)
  | some '\x7d' :: _ => obj [] none
  | some '"' :: rest => scanMembers item (rest.length + 1) [] rest
  | cs => nameless (item cs)

/-- The value at the beginning of a text, in which arrays and objects nest at most `depth` deep. -/
def ofText : Nat → Characters → Node
  | depth, cs =>
    match skipSpace cs with
    | [] => unreadable .endInValue
    | some 'n' :: rest => ofWord ['u', 'l', 'l'] null rest
    | some 't' :: rest => ofWord ['r', 'u', 'e'] (bool true) rest
    | some 'f' :: rest => ofWord ['a', 'l', 's', 'e'] (bool false) rest
    | some '"' :: rest => ofString rest
    | some '-' :: rest => ofNumber true rest
    | some '[' :: rest =>
      match depth with
      | 0 => unreadable .tooDeep
      | depth + 1 => ofList (ofText depth) rest
    | some '\x7b' :: rest =>
      match depth with
      | 0 => unreadable .tooDeep
      | depth + 1 => ofObject (ofText depth) rest
    | c :: rest => if (digit? c).isSome then ofNumber false (c :: rest) else broken .expectedValue

/-- How deep arrays and objects may nest. -/
def depthLimit : Nat := 127

end Node

end ControlLoop.Json
