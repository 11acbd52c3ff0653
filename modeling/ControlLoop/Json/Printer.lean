import ControlLoop.Json.Basic
import ControlLoop.Text.Integer
import ControlLoop.Decimal.Shortest
/-!
# Writing JSON text

Compact text: no blanks, members in the order they stand in the value. Strings escape the quote, the
backslash and the control characters, and nothing else.
-/
namespace ControlLoop.Json

/-- How one character stands inside a string. -/
def escapedChar (c : Char) : List Char :=
  match c with
  | '"' => ['\\', '"']
  | '\\' => ['\\', '\\']
  | '\x08' => ['\\', 'b']
  | '\x0c' => ['\\', 'f']
  | '\n' => ['\\', 'n']
  | '\r' => ['\\', 'r']
  | '\t' => ['\\', 't']
  | c => if c.toNat < 0x20 then ['\\', 'u'] ++ (Text.hex 4 c.toNat).toList else [c]

/-- A string between its quotes. -/
def stringChars (s : String) : List Char :=
  '"' :: s.toList.flatMap escapedChar ++ ['"']

/-- The text of a number. -/
def numberText : Number → String
  | .int n => toString n
  | .real bits => Decimal.render .marked bits

mutual

/-- The characters of a value. -/
def chars : Json → List Char
  | null => ['n', 'u', 'l', 'l']
  | bool true => ['t', 'r', 'u', 'e']
  | bool false => ['f', 'a', 'l', 's', 'e']
  | num n => (numberText n).toList
  | str s => stringChars s
  | arr [] => ['[', ']']
  | arr (v :: rest) => '[' :: chars v ++ itemChars rest
  | obj [] => ['\x7b', '\x7d']
  | obj ((k, v) :: rest) =>
    '\x7b' :: stringChars k ++ ':' :: chars v ++ memberChars rest

/-- The items after the first, and the closing bracket. -/
def itemChars : List Json → List Char
  | [] => [']']
  | v :: rest => ',' :: chars v ++ itemChars rest

/-- The members after the first, and the closing brace. -/
def memberChars : List (String × Json) → List Char
  | [] => ['\x7d']
  | (k, v) :: rest => ',' :: stringChars k ++ ':' :: chars v ++ memberChars rest

end

/-- The compact text of a value. -/
def render (v : Json) : String := String.ofList (chars v)

end ControlLoop.Json
