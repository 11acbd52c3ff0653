import ControlLoop.Json.Printer
/-!
# Documents in block style

A document with one entry to a line, where indentation shows what belongs together. Lists stand under
their names without an indentation of their own. Empty lists and objects, numbers and texts stand on
the line of their name.
-/
namespace ControlLoop.Json

/-- Words that would be read as something else than text. -/
def reservedWords : List String := ["null", "true", "false", "yes", "no", "on", "off", "y", "n"]

/-- Whether a character may stand in a text without quotes. -/
def isPlainChar (c : Char) : Bool := ' ' ≤ c && c ≤ '~' && c != ':' && c != '#'

/-- Whether a text can be written without quotes. -/
def isPlainText (s : String) : Bool :=
  match s.toList with
  | [] => false
  | c :: rest =>
    (c.isAlpha || c == '.' || c == '/') && (c :: rest).all isPlainChar &&
      (c :: rest).getLast? != some ' ' && !reservedWords.contains s.toLower

/-- A text in single quotes, where a quote is written twice. -/
def singleQuoted (s : String) : String :=
  "'" ++ String.join (s.toList.map fun c => if c = '\'' then "''" else String.singleton c) ++ "'"

def blockText (s : String) : String := if isPlainText s then s else singleQuoted s

/-- Whether a value stands on the line of its name. -/
def isInline : Json → Bool
  | arr (_ :: _) => false
  | obj (_ :: _) => false
  | _ => true

/-- A value on the line of its name. -/
def inlineText : Json → String
  | str s => blockText s
  | v => v.render

/-- Marks the first line of an item and indents the others. -/
def itemLines : List String → List String
  | [] => []
  | first :: rest => ("- " ++ first) :: rest.map ("  " ++ ·)

/-- The lines under a name. -/
def nestedLines (v : Json) (lines : List String) : List String :=
  match v with
  | obj _ => lines.map ("  " ++ ·)
  | _ => lines

mutual

/-- The lines of a value. -/
def blockLines : Json → List String
  | arr (v :: rest) => blockItems (v :: rest)
  | obj (m :: rest) => blockMembers (m :: rest)
  | v => [inlineText v]

def blockItems : List Json → List String
  | [] => []
  | v :: rest => itemLines (blockLines v) ++ blockItems rest

def blockMembers : List (String × Json) → List String
  | [] => []
  | (name, v) :: rest =>
    (if isInline v then [blockText name ++ ": " ++ inlineText v]
     else (blockText name ++ ":") :: nestedLines v (blockLines v)) ++ blockMembers rest

end

/-- A document in block style, members in increasing order of names. -/
def renderBlock (v : Json) : String := String.join (v.sorted.blockLines.map (· ++ "\n"))

end ControlLoop.Json
