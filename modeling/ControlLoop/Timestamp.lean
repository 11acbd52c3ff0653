import ControlLoop.Text.Blank
import ControlLoop.Text.Integer
/-!
# Points in time

Whole seconds, written in UTC as `YYYY-MM-DDTHH:MM:SSZ`, or microseconds. The reader is generous: the
parts may have fewer digits and blanks around them, a year with a sign may have more digits, what is
finer than the unit is dropped, and an offset from UTC, which is subtracted, may leave out its colon.
-/
namespace ControlLoop

/-- A second in UTC. -/
structure Timestamp where
  /-- Seconds since the beginning of 1970, leap seconds left out. -/
  seconds : Int
  /-- Whether this is the leap second that follows the one counted. -/
  leap : Bool := false
  deriving DecidableEq, Repr, Inhabited

namespace Timestamp

/-- Why a text is no point in time. -/
inductive ReadError where
  | tooShort
  | invalidCharacter
  | outOfRange
  | trailing
  /-- The offset leads past the first or the last day that can be written. -/
  | impossible
  deriving DecidableEq, Repr

def ReadError.message : ReadError → String
  | tooShort => "premature end of input"
  | invalidCharacter => "input contains invalid characters"
  | outOfRange => "input is out of range"
  | trailing => "trailing input"
  | impossible => "no possible date and time matching input"

/-- Days from the beginning of 1970 to a date of the Gregorian calendar. Years begin in March, so
that a leap day ends one; four hundred of them always have the same number of days. -/
def daysOfDate (year : Int) (month day : Nat) : Int :=
  let y := if month ≤ 2 then year - 1 else year
  let era := y.fdiv 400
  let yearOfEra := y - era * 400
  let shifted := (month + 9) % 12
  let dayOfYear := (153 * shifted + 2) / 5 + day - 1
  let dayOfEra := yearOfEra * 365 + yearOfEra / 4 - yearOfEra / 100 + dayOfYear
  era * 146097 + dayOfEra - 719468

/-- The date that many days after the beginning of 1970. -/
def dateOfDays (days : Int) : Int × Nat × Nat :=
  let z := days + 719468
  let era := z.fdiv 146097
  let dayOfEra := (z - era * 146097).toNat
  let yearOfEra := (dayOfEra - dayOfEra / 1460 + dayOfEra / 36524 - dayOfEra / 146096) / 365
  let dayOfYear := dayOfEra - (365 * yearOfEra + yearOfEra / 4 - yearOfEra / 100)
  let shifted := (5 * dayOfYear + 2) / 153
  let day := dayOfYear - (153 * shifted + 2) / 5 + 1
  let month := if shifted < 10 then shifted + 3 else shifted - 9
  let year := (yearOfEra : Int) + era * 400
  (if month ≤ 2 then year + 1 else year, month, day)

def isLeap (year : Int) : Bool := (year % 4 = 0 && year % 100 ≠ 0) || year % 400 = 0

def daysInMonth (year : Int) (month : Nat) : Nat :=
  if month = 2 then (if isLeap year then 29 else 28)
  else if month = 4 ∨ month = 6 ∨ month = 9 ∨ month = 11 then 30
  else 31

/-- A number in decimal digits, padded with zeros to `width`. -/
def padded (width n : Nat) : String :=
  let digits := Text.digits n
  String.ofList (List.replicate (width - digits.length) '0' ++ digits)

/-- A year has four digits, and a sign where they do not suffice. -/
def yearText (year : Int) : String :=
  if year < 0 then "-" ++ padded 4 year.natAbs
  else if 9999 < year then "+" ++ padded 4 year.natAbs
  else padded 4 year.natAbs

/-- The text in UTC, without the letter for it. -/
def secondText (t : Timestamp) : String :=
  let days := t.seconds.fdiv 86400
  let second := (t.seconds - days * 86400).toNat
  let (year, month, day) := dateOfDays days
  yearText year ++ "-" ++ padded 2 month ++ "-" ++ padded 2 day ++ "T" ++
    padded 2 (second / 3600) ++ ":" ++ padded 2 (second / 60 % 60) ++ ":" ++
    padded 2 (second % 60 + if t.leap then 1 else 0)

/-- The text in UTC. -/
def render (t : Timestamp) : String := t.secondText ++ "Z"

/-! ## Reading -/

def skipBlanks (cs : List Char) : List Char := cs.dropWhile Text.isBlank

/-- The size of a text in octets. -/
def octets (cs : List Char) : Nat := cs.foldl (fun n c => n + c.utf8Size) 0

/-- Digits on top of `value`, at most `limit` of them. -/
def takeDigits : Nat → Nat → List Char → Nat × List Char
  | 0, value, cs => (value, cs)
  | _ + 1, value, [] => (value, [])
  | limit + 1, value, c :: cs =>
    match Text.digit? c with
    | some d => takeDigits limit (value * 10 + d) cs
    | none => (value, c :: cs)

/-- A number of one digit or more, at most `limit`. -/
def readNumber (limit : Nat) : List Char → Except ReadError (Nat × List Char)
  | [] => .error .tooShort
  | c :: cs =>
    if (Text.digit? c).isSome then .ok (takeDigits limit 0 (c :: cs))
    else .error .invalidCharacter

/-- Blanks, then at most two digits with a value in a range. -/
def readField (least greatest : Nat) (cs : List Char) : Except ReadError (Nat × List Char) := do
  let (n, cs) ← readNumber 2 (skipBlanks cs)
  if n < least ∨ greatest < n then throw .outOfRange
  return (n, cs)

/-- Blanks, then a year: at most four digits, or a sign and any number of them. -/
def readYear (cs : List Char) : Except ReadError (Int × List Char) := do
  let cs := skipBlanks cs
  let (year, cs) ← match cs with
    | '-' :: rest => do
      let (n, rest) ← readNumber rest.length rest
      pure (-(n : Int), rest)
    | '+' :: rest => do
      let (n, rest) ← readNumber rest.length rest
      pure ((n : Int), rest)
    | cs => do
      let (n, rest) ← readNumber 4 cs
      pure ((n : Int), rest)
  if year < -2147483648 ∨ 2147483647 < year then throw .outOfRange
  return (year, cs)

/-- Blanks, then a mark between two parts. -/
def readMark (mark : Char) (cs : List Char) : Except ReadError (List Char) :=
  match skipBlanks cs with
  | [] => .error .tooShort
  | c :: cs => if c = mark then .ok cs else .error .invalidCharacter

/-- What stands between the date and the time. -/
def readSeparator : List Char → Except ReadError (List Char)
  | [] => .error .tooShort
  | c :: cs => if c = 'T' ∨ c = 't' ∨ c = ' ' then .ok cs else .error .invalidCharacter

/-- The decimals of a second, of which nine count, in nanoseconds. -/
def readFraction : List Char → Except ReadError (Nat × List Char)
  | '.' :: cs => do
    let (n, rest) ← readNumber 9 cs
    return (n * Nat.pow 10 (9 - (cs.length - rest.length)), rest.dropWhile fun c => (Text.digit? c).isSome)
  | cs => .ok (0, cs)

/-- Two digits, the first of which is at most `most`. -/
def readPair (most : Nat) (cs : List Char) : Except ReadError (Nat × List Char) :=
  if octets cs < 2 then .error .tooShort
  else
    match cs with
    | a :: b :: cs =>
      match Text.digit? a, Text.digit? b with
      | some a, some b => if most < a then .error .outOfRange else .ok (a * 10 + b, cs)
      | _, _ => .error .invalidCharacter
    | _ => .error .invalidCharacter

/-- Whether the text begins with the letters for UTC, of either case. -/
def saysUtc : List Char → Bool
  | a :: b :: c :: _ => a.toUpper = 'U' && b.toUpper = 'T' && c.toUpper = 'C'
  | _ => false

/-- Hours and minutes of an offset, between which colons and blanks may stand, in seconds. -/
def readShift (cs : List Char) : Except ReadError (Int × List Char) := do
  let (hour, cs) ← readPair 9 cs
  let (minute, cs) ← readPair 5 (cs.dropWhile fun c => c = ':' || Text.isBlank c)
  return ((hour * 3600 + minute * 60 : Nat), cs)

/-- Seconds east of UTC. -/
def readOffset (cs : List Char) : Except ReadError (Int × List Char) :=
  if saysUtc cs then .ok (0, cs.drop 3)
  else
    match cs with
    | [] => .error .tooShort
    | 'Z' :: cs => .ok (0, cs)
    | 'z' :: cs => .ok (0, cs)
    | '+' :: cs => readShift cs
    | '-' :: cs => do let (shift, cs) ← readShift cs; return (-shift, cs)
    | '−' :: cs => do let (shift, cs) ← readShift cs; return (-shift, cs)
    | _ :: _ => .error .invalidCharacter

/-- The years that can be written. -/
def firstYear : Int := -262143

def lastYear : Int := 262142

/-- A date, if the calendar has it, in days. -/
def dayOf (year : Int) (month day : Nat) : Except ReadError Int :=
  if year < firstYear ∨ lastYear < year ∨ daysInMonth year month < day then .error .outOfRange
  else .ok (daysOfDate year month day)

/-- Reads a point in time and the nanoseconds after it. Each part must be in its range when it is
read; whether the month has the day, and whether the offset is less than a day, is looked at last. -/
def parsePrecise (text : String) : Except ReadError (Timestamp × Nat) := do
  let (year, cs) ← readYear text.toList
  let cs ← readMark '-' cs
  let (month, cs) ← readField 1 12 cs
  let cs ← readMark '-' cs
  let (day, cs) ← readField 1 31 cs
  let cs ← readSeparator cs
  let (hour, cs) ← readField 0 23 cs
  let cs ← readMark ':' cs
  let (minute, cs) ← readField 0 59 cs
  let cs ← readMark ':' cs
  let (second, cs) ← readField 0 60 cs
  let (nanos, cs) ← readFraction cs
  let (offset, cs) ← readOffset (skipBlanks cs)
  unless (skipBlanks cs).isEmpty do throw .trailing
  let days ← dayOf year month day
  if offset ≤ -86400 ∨ 86400 ≤ offset then throw .outOfRange
  let seconds := days * 86400 + (hour * 3600 + minute * 60 + min second 59 : Nat) - offset
  if seconds < daysOfDate firstYear 1 1 * 86400 ∨ (daysOfDate lastYear 12 31 + 1) * 86400 ≤ seconds then
    throw .impossible
  return ({ seconds := seconds, leap := second = 60 }, nanos)

/-- Reads a point in time. -/
def parse (text : String) : Except ReadError Timestamp := (parsePrecise text).map (·.1)

end Timestamp

/-- A microsecond in UTC. -/
structure MicroTimestamp where
  time : Timestamp
  micros : Nat := 0
  deriving DecidableEq, Repr, Inhabited

namespace MicroTimestamp

/-- The text in UTC, with six decimals. -/
def render (t : MicroTimestamp) : String :=
  t.time.secondText ++ "." ++ Timestamp.padded 6 t.micros ++ "Z"

def parse (text : String) : Except Timestamp.ReadError MicroTimestamp := do
  let (time, nanos) ← Timestamp.parsePrecise text
  return ⟨time, nanos / 1000⟩

end MicroTimestamp

end ControlLoop
