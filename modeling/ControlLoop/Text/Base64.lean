/-!
# Base 64

The standard alphabet with padding. The decoder is strict: a length that is a multiple of four,
padding only at the end, and no bits left over.
-/
namespace ControlLoop.Text.Base64

/-- The 64 characters, in order of their values. -/
def alphabet : List Char :=
  "ABCDEFGHIJKLMNOPQRSTUVWXYZabcdefghijklmnopqrstuvwxyz0123456789+/".toList

/-- The character of a value below 64. -/
def symbol (n : Nat) : Char := alphabet.getD n 'A'

/-- The value of a character. -/
def value? (c : Char) : Option Nat :=
  if 'A' ≤ c ∧ c ≤ 'Z' then some (c.toNat - 65)
  else if 'a' ≤ c ∧ c ≤ 'z' then some (c.toNat - 71)
  else if '0' ≤ c ∧ c ≤ '9' then some (c.toNat + 4)
  else if c = '+' then some 62
  else if c = '/' then some 63
  else none

/-- Four characters for each three octets, padded with `=`. -/
def encodeChars : List UInt8 → List Char
  | [] => []
  | [a] =>
    let n := a.toNat
    [symbol (n / 4), symbol (n % 4 * 16), '=', '=']
  | [a, b] =>
    let n := a.toNat * 256 + b.toNat
    [symbol (n / 1024), symbol (n / 16 % 64), symbol (n % 16 * 4), '=']
  | a :: b :: c :: rest =>
    let n := (a.toNat * 256 + b.toNat) * 256 + c.toNat
    symbol (n / 262144) :: symbol (n / 4096 % 64) :: symbol (n / 64 % 64) :: symbol (n % 64) ::
      encodeChars rest

def encode (octets : List UInt8) : String := String.ofList (encodeChars octets)

/-- Why a text is not base 64. -/
inductive ReadError where
  | invalidSymbol (code offset : Nat)
  | invalidLength (length : Nat)
  | invalidLastSymbol (code offset : Nat)
  | invalidPadding
  deriving DecidableEq, Repr

def ReadError.message : ReadError → String
  | invalidSymbol code offset => s!"Invalid symbol {code}, offset {offset}."
  | invalidLength length => s!"Invalid input length: {length}"
  | invalidLastSymbol code offset => s!"Invalid last symbol {code}, offset {offset}."
  | invalidPadding => "Invalid padding"

/-- The octets of characters, of which `offset` have been read before. -/
def decodeChars (offset : Nat) : List Char → Except ReadError (List UInt8)
  | [] => .ok []
  | [a, b, '=', '='] =>
    match value? a, value? b with
    | some x, some y =>
      if y % 16 = 0 then .ok [((x * 64 + y) / 16).toUInt8]
      else .error (.invalidLastSymbol b.toNat (offset + 1))
    | none, _ => .error (.invalidSymbol a.toNat offset)
    | _, none => .error (.invalidSymbol b.toNat (offset + 1))
  | [a, b, c, '='] =>
    match value? a, value? b, value? c with
    | some x, some y, some z =>
      let n := (x * 64 + y) * 64 + z
      if z % 4 = 0 then .ok [(n / 1024).toUInt8, (n / 4 % 256).toUInt8]
      else .error (.invalidLastSymbol c.toNat (offset + 2))
    | none, _, _ => .error (.invalidSymbol a.toNat offset)
    | _, none, _ => .error (.invalidSymbol b.toNat (offset + 1))
    | _, _, none => .error (.invalidSymbol c.toNat (offset + 2))
  | a :: b :: c :: d :: rest =>
    match value? a, value? b, value? c, value? d with
    | some x, some y, some z, some w =>
      let n := ((x * 64 + y) * 64 + z) * 64 + w
      match decodeChars (offset + 4) rest with
      | .ok more => .ok ((n / 65536).toUInt8 :: (n / 256 % 256).toUInt8 :: (n % 256).toUInt8 :: more)
      | .error e => .error e
    | none, _, _, _ => .error (.invalidSymbol a.toNat offset)
    | _, none, _, _ => .error (.invalidSymbol b.toNat (offset + 1))
    | _, _, none, _ => .error (.invalidSymbol c.toNat (offset + 2))
    | _, _, _, none => .error (.invalidSymbol d.toNat (offset + 3))
  | [a, b, c] => .error (match value? a, value? b, value? c with
    | none, _, _ => .invalidSymbol a.toNat offset
    | _, none, _ => .invalidSymbol b.toNat (offset + 1)
    | _, _, none => if c = '=' then .invalidPadding else .invalidSymbol c.toNat (offset + 2)
    | _, _, _ => .invalidPadding)
  | [a, b] => .error (match value? a, value? b with
    | none, _ => .invalidSymbol a.toNat offset
    | _, none => .invalidSymbol b.toNat (offset + 1)
    | _, _ => .invalidPadding)
  | [a] => .error (match value? a with
    | none => .invalidSymbol a.toNat offset
    | some _ => .invalidLength (offset + 1))

/-- A single character after the last four, such as the end of a line. -/
def strayLast? (cs : List Char) : Option ReadError :=
  if cs.length % 4 = 1 then
    match cs.getLast? with
    | some c =>
      if c ≠ '=' ∧ (value? c).isNone then some (.invalidSymbol c.toNat (cs.length - 1)) else none
    | none => none
  else none

/-- The characters of a text, those that are no single octets taken apart. -/
def octetChars (text : String) : List Char :=
  text.toUTF8.data.toList.map fun b => Char.ofNat b.toNat

def decode (text : String) : Except ReadError (List UInt8) :=
  let cs := octetChars text
  match strayLast? cs with
  | some e => .error e
  | none => decodeChars 0 cs

end ControlLoop.Text.Base64
