import ControlLoop.Json.Token
/-!
# Passing over a value

A value that nobody asks for is passed over without regard to how deep it nests. What is open is kept
on a stack.
-/
namespace ControlLoop.Json

open Text (Characters)

/-- Passes over a value that is neither an array nor an object. -/
def skipScalar : Characters → Passing
  | some 'n' :: rest => skipWord ['u', 'l', 'l'] rest
  | some 't' :: rest => skipWord ['r', 'u', 'e'] rest
  | some 'f' :: rest => skipWord ['a', 'l', 's', 'e'] rest
  | some '"' :: rest => skipString rest
  | some '-' :: rest => skipNumber rest
  | cs => if (cs.head?.bind digit?).isSome then skipNumber cs else .error .expectedValue

/-- Something open. -/
inductive Frame where
  | list
  | object
  deriving DecidableEq, Repr

namespace Frame

def close : Frame → Char
  | list => ']'
  | object => '\x7d'

/-- The text ends before the close. -/
def endError : Frame → SyntaxError
  | list => .endInList
  | object => .endInObject

/-- Neither a comma nor the close follows a value. -/
def commaError : Frame → SyntaxError
  | list => .expectedListEnd
  | object => .expectedObjectEnd

/-- Passes over what stands before a value: in an object its name and a colon. -/
def skipName : Frame → Characters → Passing
  | list, cs => .ok cs
  | object, cs =>
    match skipSpace cs with
    | [] => .error .endInObject
    | some '"' :: rest => do
      match skipSpace (← skipString rest) with
      | [] => .error .endInObject
      | some ':' :: rest => .ok rest
      | _ => .error .expectedColon
    | _ => .error .expectedKey

end Frame

/-- What is looked for. -/
inductive Stage where
  | value
  /-- The close of the innermost frame; or, after a value, a comma. -/
  | close (afterValue : Bool)
  deriving DecidableEq, Repr

/-- Passes over values until nothing is open, in at most `limit` steps. -/
def skipFrom : Nat → Stage → List Frame → Characters → Passing
  | 0, _, _, _ => .error .endInValue
  | limit + 1, .value, frames, cs =>
    match skipSpace cs with
    | [] => .error .endInValue
    | some '[' :: rest => skipFrom limit (.close false) (.list :: frames) rest
    | some '\x7b' :: rest => skipFrom limit (.close false) (.object :: frames) rest
    | cs => do skipFrom limit (.close true) frames (← skipScalar cs)
  | _ + 1, .close _, [], cs => .ok cs
  | limit + 1, .close afterValue, frame :: frames, cs =>
    match skipSpace cs with
    | [] => .error frame.endError
    | c :: rest =>
      if c = some frame.close then skipFrom limit (.close true) frames rest
      else if !afterValue then do
        skipFrom limit .value (frame :: frames) (← frame.skipName (c :: rest))
      else if c = some ',' then do
        skipFrom limit .value (frame :: frames) (← frame.skipName rest)
      else .error frame.commaError

/-- Passes over a value. Every second step takes a character. -/
def skipValue (cs : Characters) : Passing := skipFrom (2 * cs.length + 2) .value [] cs

end ControlLoop.Json
