import ControlLoop.Json.Basic
import ControlLoop.Decimal.Binary64
import ControlLoop.Text.Characters
import ControlLoop.Text.Integer
/-!
# Words, strings and numbers of JSON text

Each is read for its value, or only passed over. Passing over asks for less: a string may hold
anything but control characters, and a number may have any size.
-/
namespace ControlLoop.Json

open Text (Characters)

/-- Why a text is not JSON. -/
inductive SyntaxError where
  | endInValue
  | endInList
  | endInObject
  | endInString
  | expectedColon
  | expectedListEnd
  | expectedObjectEnd
  | expectedWord
  | expectedValue
  | expectedKey
  | invalidEscape
  | invalidNumber
  | numberOutOfRange
  | controlCharacter
  | loneSurrogate
  | unfinishedSurrogate
  | trailingComma
  | trailingCharacters
  | tooDeep
  | notUnicode
  deriving DecidableEq, Repr

namespace SyntaxError

def message : SyntaxError → String
  | endInValue => "EOF while parsing a value"
  | endInList => "EOF while parsing a list"
  | endInObject => "EOF while parsing an object"
  | endInString => "EOF while parsing a string"
  | expectedColon => "expected `:`"
  | expectedListEnd => "expected `,` or `]`"
  | expectedObjectEnd => "expected `,` or `\x7d`"
  | expectedWord => "expected ident"
  | expectedValue => "expected value"
  | expectedKey => "key must be a string"
  | invalidEscape => "invalid escape"
  | invalidNumber => "invalid number"
  | numberOutOfRange => "number out of range"
  | controlCharacter => "control character (\\u0000-\\u001F) found while parsing a string"
  | loneSurrogate => "lone leading surrogate in hex escape"
  | unfinishedSurrogate => "unexpected end of hex escape"
  | trailingComma => "trailing comma"
  | trailingCharacters => "trailing characters"
  | tooDeep => "recursion limit exceeded"
  | notUnicode => "invalid unicode code point"

/-- Whether the text may be the beginning of a longer one that is JSON. -/
def isIncomplete : SyntaxError → Bool
  | endInValue | endInList | endInObject | endInString => true
  | _ => false

end SyntaxError

/-- What a reader of a part leaves: its result and the text after it. -/
abbrev Reading (α : Type) := Except SyntaxError (α × Characters)

/-- What one who passes over a part leaves: the text after it. -/
abbrev Passing := Except SyntaxError Characters

/-- The blanks between tokens. -/
def isSpace (c : Option Char) : Bool :=
  c == some ' ' || c == some '\n' || c == some '\t' || c == some '\r'

def skipSpace (cs : Characters) : Characters := cs.dropWhile isSpace

/-- Passes over the rest of a word such as `null`. -/
def skipWord : List Char → Characters → Passing
  | [], cs => .ok cs
  | _ :: _, [] => .error .endInValue
  | w :: word, c :: cs => if c = some w then skipWord word cs else .error .expectedWord

/-! ## Strings -/

/-- The value of a hexadecimal digit of either case. -/
def hexDigit? : Option Char → Option Nat
  | none => none
  | some c =>
    if '0' ≤ c ∧ c ≤ '9' then some (c.toNat - '0'.toNat)
    else if 'a' ≤ c ∧ c ≤ 'f' then some (c.toNat - 'a'.toNat + 10)
    else if 'A' ≤ c ∧ c ≤ 'F' then some (c.toNat - 'A'.toNat + 10)
    else none

/-- Four hexadecimal digits. The text ends too early if it has fewer octets. -/
def readUnit : Characters → Reading Nat
  | a :: b :: c :: d :: rest =>
    match hexDigit? a, hexDigit? b, hexDigit? c, hexDigit? d with
    | some a, some b, some c, some d => .ok (((a * 16 + b) * 16 + c) * 16 + d, rest)
    | _, _, _, _ => .error .invalidEscape
  | cs => if cs.octets < 4 then .error .endInString else .error .invalidEscape

/-- The second half of a pair of surrogates whose first half is `high`. -/
def readLowSurrogate (high : Nat) : Characters → Reading Char
  | some '\\' :: some 'u' :: rest =>
    match readUnit rest with
    | .error e => .error e
    | .ok (low, rest) =>
      if 0xDC00 ≤ low ∧ low ≤ 0xDFFF then
        .ok (Char.ofNat (0x10000 + (high - 0xD800) * 0x400 + (low - 0xDC00)), rest)
      else .error .loneSurrogate
  | [] => .error .endInString
  | [some '\\'] => .error .endInString
  | _ => .error .unfinishedSurrogate

/-- The character that a single letter after a backslash stands for. -/
def plainEscape? : Char → Option Char
  | '"' => some '"'
  | '\\' => some '\\'
  | '/' => some '/'
  | 'b' => some '\x08'
  | 'f' => some '\x0c'
  | 'n' => some '\n'
  | 'r' => some '\r'
  | 't' => some '\t'
  | _ => none

/-- The character that an escape stands for, after its backslash. -/
def readEscape : Characters → Reading Char
  | [] => .error .endInString
  | some 'u' :: rest =>
    match readUnit rest with
    | .error e => .error e
    | .ok (unit, rest) =>
      if 0xDC00 ≤ unit ∧ unit ≤ 0xDFFF then .error .loneSurrogate
      else if 0xD800 ≤ unit ∧ unit ≤ 0xDBFF then readLowSurrogate unit rest
      else .ok (Char.ofNat unit, rest)
  | c :: rest =>
    match c.bind plainEscape? with
    | some c => .ok (c, rest)
    | none => .error .invalidEscape

/-- Passes over an escape, after its backslash. -/
def skipEscape : Characters → Passing
  | [] => .error .endInString
  | some 'u' :: rest => (readUnit rest).map (·.2)
  | c :: rest => if (c.bind plainEscape?).isSome then .ok rest else .error .invalidEscape

/-- Whether a character may not stand in a string. -/
def isControl (c : Option Char) : Bool := c.any fun c => c.toNat < 0x20

/-- The characters of a string up to its closing quote, at most `limit` of them, put in front of
`done` in reverse. -/
def readChars : Nat → Characters → Characters → Reading Characters
  | 0, _, _ => .error .endInString
  | _ + 1, _, [] => .error .endInString
  | _ + 1, done, some '"' :: rest => .ok (done.reverse, rest)
  | limit + 1, done, some '\\' :: rest =>
    match readEscape rest with
    | .error e => .error e
    | .ok (c, rest) => readChars limit (some c :: done) rest
  | limit + 1, done, c :: rest =>
    if isControl c then .error .controlCharacter else readChars limit (c :: done) rest

/-- A string after its opening quote. -/
def readString (cs : Characters) : Reading String :=
  match readChars (cs.length + 1) [] cs with
  | .error e => .error e
  | .ok (chars, rest) =>
    match chars.text? with
    | some text => .ok (text, rest)
    | none => .error .notUnicode

/-- Passes over the characters of a string and its closing quote, at most `limit` of them. -/
def skipChars : Nat → Characters → Passing
  | 0, _ => .error .endInString
  | _ + 1, [] => .error .endInString
  | _ + 1, some '"' :: rest => .ok rest
  | limit + 1, some '\\' :: rest =>
    match skipEscape rest with
    | .error e => .error e
    | .ok rest => skipChars limit rest
  | limit + 1, c :: rest =>
    if isControl c then .error .controlCharacter else skipChars limit rest

/-- Passes over a string after its opening quote. -/
def skipString (cs : Characters) : Passing := skipChars (cs.length + 1) cs

/-! ## Numbers -/

def digit? (c : Option Char) : Option Nat := c.bind Text.digit?

/-- The digits in front and what follows them. -/
def takeDigits : Characters → List Nat × Characters
  | [] => ([], [])
  | c :: cs =>
    match digit? c with
    | some d =>
      let r := takeDigits cs
      (d :: r.1, r.2)
    | none => ([], c :: cs)

/-- The digits in front, at least one. -/
def readDigits (cs : Characters) : Reading (List Nat) :=
  match takeDigits cs with
  | ([], []) => .error .endInValue
  | ([], _ :: _) => .error .invalidNumber
  | r => .ok r

/-- The whole part: no zero stands before another digit. -/
def readWhole (cs : Characters) : Reading (List Nat) :=
  match readDigits cs with
  | .ok (0 :: _ :: _, _) => .error .invalidNumber
  | r => r

/-- The decimals, if a point follows. -/
def readFraction : Characters → Reading (Option (List Nat))
  | some '.' :: cs =>
    match readDigits cs with
    | .error e => .error e
    | .ok (digits, rest) => .ok (some digits, rest)
  | cs => .ok (none, cs)

/-- Whether a minus sign stands in front, and the text after a sign. -/
def readSign : Characters → Bool × Characters
  | some '-' :: cs => (true, cs)
  | some '+' :: cs => (false, cs)
  | cs => (false, cs)

def isExponentMark (c : Option Char) : Bool := c == some 'e' || c == some 'E'

/-- The exponent, if its mark follows. -/
def readExponent : Characters → Reading (Option Int)
  | [] => .ok (none, [])
  | c :: cs =>
    if isExponentMark c then
      let (negative, cs) := readSign cs
      match readDigits cs with
      | .error e => .error e
      | .ok (digits, rest) =>
        let size : Nat := digits.foldl (fun n d => n * 10 + d) 0
        .ok (some (if negative then -(size : Int) else size), rest)
    else .ok (none, c :: cs)

/-- Digits of the whole part on top of `value` while it fits a word of 64 bits, and how many are left
over. -/
def packWhole : Nat → List Nat → Nat × Nat
  | value, [] => (value, 0)
  | value, d :: digits =>
    if value * 10 + d ≤ Text.word64Max then packWhole (value * 10 + d) digits
    else (value, (d :: digits).length)

/-- Decimals on top of `value` while it fits a word of 64 bits, and how many were taken. -/
def packFraction : Nat → List Nat → Nat × Nat
  | value, [] => (value, 0)
  | value, d :: digits =>
    if value * 10 + d ≤ Text.word64Max then
      let r := packFraction (value * 10 + d) digits
      (r.1, r.2 + 1)
    else (value, 0)

/-- The number of a sign, a whole part, decimals and an exponent. An integer outside the range of a
word of 64 bits and a negative zero are binary fractions, and of these only the digits that fit a word
count. -/
def numberOf (negative : Bool) (whole : List Nat) (fraction : Option (List Nat))
    (exponent : Option Int) : Except SyntaxError Number :=
  let (n, left) := packWhole 0 whole
  let (m, taken) := packFraction n (fraction.getD [])
  let real : Except SyntaxError Number :=
    match Decimal.ofDecimal? negative m ((left : Int) - taken + exponent.getD 0) with
    | some bits => .ok (.real bits)
    | none => .error .numberOutOfRange
  if fraction.isSome ∨ exponent.isSome ∨ left ≠ 0 then real
  else if !negative then .ok (.int n)
  else if 0 < n ∧ n ≤ 9223372036854775808 then .ok (.int (-n))
  else real

/-- A number, whose sign has been read. -/
def readNumber (negative : Bool) (cs : Characters) : Except SyntaxError (Number × Characters) := do
  let (whole, cs) ← readWhole cs
  let (fraction, cs) ← readFraction cs
  let (exponent, cs) ← readExponent cs
  let n ← numberOf negative whole fraction exponent
  return (n, cs)

/-- Passes over digits, at least one. -/
def skipDigits (cs : Characters) : Passing :=
  match takeDigits cs with
  | ([], _) => .error .invalidNumber
  | (_, rest) => .ok rest

/-- Passes over a whole part: no zero stands before another digit. -/
def skipWhole (cs : Characters) : Passing :=
  match takeDigits cs with
  | ([], _) => .error .invalidNumber
  | (0 :: _ :: _, _) => .error .invalidNumber
  | (_, rest) => .ok rest

/-- Passes over decimals, if a point follows. -/
def skipFraction : Characters → Passing
  | some '.' :: cs => skipDigits cs
  | cs => .ok cs

/-- Passes over an exponent, if its mark follows. -/
def skipExponent : Characters → Passing
  | [] => .ok []
  | c :: cs => if isExponentMark c then skipDigits (readSign cs).2 else .ok (c :: cs)

/-- Passes over a number, whose sign has been read. -/
def skipNumber (cs : Characters) : Passing := do
  skipExponent (← skipFraction (← skipWhole cs))

end ControlLoop.Json
