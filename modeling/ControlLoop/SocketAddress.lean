import ControlLoop.Text.Integer
/-!
# Socket addresses

An address of four octets or of eight groups, with a port. Reading accepts the usual forms of both;
writing gives each address one text, in which the longest run of zero groups is left out.
-/
namespace ControlLoop

/-- An address at which to listen. -/
inductive SocketAddress where
  | v4 (octets : List Nat) (port : Nat)
  /-- The scope is 0 if none is given. -/
  | v6 (groups : List Nat) (scope port : Nat)
  deriving DecidableEq, Repr

namespace SocketAddress

/-! ## Reading -/

/-- A reader takes a value from the front of a text, or fails and takes nothing. -/
abbrev Reader (α : Type) := List Char → Option (α × List Char)

/-- The value of a digit in a base of at most sixteen. -/
def digitIn? (radix : Nat) (c : Char) : Option Nat :=
  let value :=
    if '0' ≤ c ∧ c ≤ '9' then some (c.toNat - '0'.toNat)
    else if 'a' ≤ c ∧ c ≤ 'f' then some (c.toNat - 'a'.toNat + 10)
    else if 'A' ≤ c ∧ c ≤ 'F' then some (c.toNat - 'A'.toNat + 10)
    else none
  value.filter (· < radix)

/-- The value of digits, read from the left. -/
def valueOf (radix : Nat) (cs : List Char) : Nat :=
  cs.foldl (fun n c => n * radix + (digitIn? radix c).getD 0) 0

/-- What a number may look like. -/
structure Numeral where
  radix : Nat
  /-- The greatest value. -/
  limit : Nat
  /-- The greatest number of digits. -/
  width : Option Nat := none
  /-- Whether more digits may follow a leading zero. -/
  padded : Bool := true

def octet : Numeral := { radix := 10, limit := 255, width := some 3, padded := false }

def group : Numeral := { radix := 16, limit := 65535, width := some 4 }

def portNumber : Numeral := { radix := 10, limit := 65535 }

def scopeNumber : Numeral := { radix := 10, limit := Text.word32Max }

/-- Reads all digits in front as a number. -/
def Numeral.read (f : Numeral) : Reader Nat := fun cs =>
  let digits := cs.takeWhile fun c => (digitIn? f.radix c).isSome
  let fits := match f.width with
    | some w => digits.length ≤ w
    | none => true
  let shaped := f.padded || digits.length ≤ 1 || digits.head? != some '0'
  let value := valueOf f.radix digits
  if !digits.isEmpty && fits && shaped && value ≤ f.limit then
    some (value, cs.dropWhile fun c => (digitIn? f.radix c).isSome)
  else none

/-- Reads one character. -/
def readChar (wanted : Char) : Reader Unit
  | [] => none
  | c :: rest => if c = wanted then some ((), rest) else none

/-- Reads what follows one character. -/
def after {α : Type} (mark : Char) (r : Reader α) : Reader α := fun cs => do
  let ((), rest) ← readChar mark cs
  r rest

/-- Reads four octets with dots between them. -/
def readOctets : Reader (List Nat) := fun cs => do
  let (a, cs) ← octet.read cs
  let (b, cs) ← after '.' octet.read cs
  let (c, cs) ← after '.' octet.read cs
  let (d, cs) ← after '.' octet.read cs
  return ([a, b, c, d], cs)

/-- The two groups that four octets make. -/
def groupsOfOctets : List Nat → List Nat
  | [a, b, c, d] => [a * 256 + b, c * 256 + d]
  | _ => []

/-- Groups read so far, whether octets ended them, and the rest. -/
structure Groups where
  groups : List Nat
  octets : Bool
  rest : List Char

/-- Reads at most `room` more groups with colons between them; octets may stand for the last two. -/
def readGroups : Nat → List Nat → List Char → Groups
  | 0, done, cs => ⟨done, false, cs⟩
  | room + 1, done, cs =>
    let separated {α : Type} (r : Reader α) : Reader α := if done.isEmpty then r else after ':' r
    match if 0 < room then separated readOctets cs else none with
    | some (o, rest) => ⟨done ++ groupsOfOctets o, true, rest⟩
    | none =>
      match separated group.read cs with
      | some (g, rest) => readGroups room (done ++ [g]) rest
      | none => ⟨done, false, cs⟩

/-- Reads eight groups, of which two colons may stand for one or more that are zero. -/
def readLong : Reader (List Nat) := fun cs =>
  let front := readGroups 8 [] cs
  if front.groups.length = 8 then some (front.groups, front.rest)
  else if front.octets then none
  else do
    let ((), rest) ← readChar ':' front.rest
    let ((), rest) ← readChar ':' rest
    let back := readGroups (7 - front.groups.length) [] rest
    let missing := 8 - front.groups.length - back.groups.length
    return (front.groups ++ List.replicate missing 0 ++ back.groups, back.rest)

def readV4 : Reader SocketAddress := fun cs => do
  let (octets, cs) ← readOctets cs
  let (port, cs) ← after ':' portNumber.read cs
  return (v4 octets port, cs)

def readV6 : Reader SocketAddress := fun cs => do
  let (groups, cs) ← after '[' readLong cs
  let (scope, cs) := (after '%' scopeNumber.read cs).getD (0, cs)
  let ((), cs) ← readChar ']' cs
  let (port, cs) ← after ':' portNumber.read cs
  return (v6 groups scope port, cs)

/-- Reads a whole text as an address. -/
def ofString? (text : String) : Option SocketAddress :=
  match (readV4 text.toList).or (readV6 text.toList) with
  | some (a, []) => some a
  | _ => none

/-! ## Writing -/

/-- The start and the length of the longest run of zeros, the first one of equals. -/
def longestZeros (groups : List Nat) : Nat × Nat :=
  let runs := (List.range groups.length).map fun i =>
    (i, ((groups.drop i).takeWhile (· = 0)).length)
  runs.foldl (fun best r => if best.2 < r.2 then r else best) (0, 0)

def joinGroups (groups : List Nat) : String :=
  ":".intercalate (groups.map (Text.hex 1))

def joinOctets (octets : List Nat) : String := ".".intercalate (octets.map toString)

/-- The text of eight groups. An address of four octets inside the longer form stays visible. -/
def groupsText (groups : List Nat) : String :=
  match groups with
  | [0, 0, 0, 0, 0, 65535, x, y] =>
    "::ffff:" ++ joinOctets [x / 256, x % 256, y / 256, y % 256]
  | _ =>
    let (start, length) := longestZeros groups
    if 1 < length then
      joinGroups (groups.take start) ++ "::" ++ joinGroups (groups.drop (start + length))
    else joinGroups groups

def text : SocketAddress → String
  | v4 octets port => joinOctets octets ++ ":" ++ toString port
  | v6 groups scope port =>
    let zone := if scope = 0 then "" else "%" ++ toString scope
    "[" ++ groupsText groups ++ zone ++ "]:" ++ toString port

end SocketAddress

end ControlLoop
