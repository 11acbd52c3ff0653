import ControlLoop.Decimal.Binary64
/-!
# The fewest digits that read back

A finite pattern of 64 bits stands for `n * 2 ^ q`. Of the decimals that round to it, one with the
fewest digits is written, and of those the nearest. For each number of digits the two neighbours of
the value on that decimal grid are tried, in exact arithmetic.
-/
namespace ControlLoop.Decimal

/-- Digits with the exponent of the first one: `d * 10 ^ (e - (digits - 1))`. -/
structure Digits where
  digits : List Char
  exponent : Int
  deriving DecidableEq, Repr

namespace Parts

/-- Compares `c * 10 ^ j` with `x` quarter units. -/
def compareWith (p : Parts) (c : Nat) (j : Int) (x : Nat) : Ordering :=
  let u := p.q - 2
  compare (c * Nat.pow 10 j.toNat * Nat.pow 2 (-u).toNat)
    (x * Nat.pow 2 u.toNat * Nat.pow 10 (-j).toNat)

/-- The value on the grid of step `10 ^ j`, rounded down. -/
def floorOn (p : Parts) (j : Int) : Nat :=
  (p.n * Nat.pow 2 p.q.toNat * Nat.pow 10 (-j).toNat) /
    (Nat.pow 10 j.toNat * Nat.pow 2 (-p.q).toNat)

/-- Whether `c * 10 ^ j` rounds to the value: the ends count when `n` is even. -/
def readsBack (p : Parts) (c : Nat) (j : Int) : Bool :=
  let low := if p.n = hiddenBit ∧ leastUnit < p.q then 4 * p.n - 1 else 4 * p.n - 2
  let high := 4 * p.n + 2
  let below := p.compareWith c j low
  let above := p.compareWith c j high
  if p.n % 2 = 0 then below != .lt && above != .gt else below == .gt && above == .lt

/-- The exponent of the first decimal digit. -/
def leadExponent (p : Parts) : Int :=
  let estimate := (((p.n.log2 : Int) + p.q) * 30103).fdiv 100000
  if p.floorOn (estimate + 1) ≠ 0 then estimate + 1
  else if p.floorOn estimate ≠ 0 then estimate
  else estimate - 1

/-- The multiple of `10 ^ j` nearest to the value that reads back, if one of the two neighbours
does. -/
def nearestOn (p : Parts) (j : Int) : Option Nat :=
  let c := p.floorOn j
  match p.readsBack c j, p.readsBack (c + 1) j with
  | true, false => some c
  | false, true => some (c + 1)
  | false, false => none
  | true, true =>
    match p.compareWith (2 * c + 1) j (8 * p.n) with
    | .lt => some (c + 1)
    | .gt => some c
    | .eq => some (c + c % 2)

/-- Tries `count` digits, then one more, at most `rounds` times. -/
def searchDigits (p : Parts) (lead : Int) : Nat → Nat → Nat × Int
  | 0, count => (p.floorOn (lead - count), lead - count)
  | rounds + 1, count =>
    match p.nearestOn (lead - count) with
    | some c => (c, lead - count)
    | none => searchDigits p lead rounds (count + 1)

/-- The shortest decimal of a value other than zero. -/
def shortest (p : Parts) : Digits :=
  let (c, j) := p.searchDigits p.leadExponent 17 0
  let written := Nat.toDigits 10 c
  let trimmed := (written.reverse.dropWhile (· == '0')).reverse
  ⟨trimmed, j + (written.length - 1 : Nat)⟩

end Parts

/-- How a value is written: the exponents of the first digit that need no exponent mark, and
whether a whole number keeps a decimal. -/
structure Style where
  positional : Int → Bool
  keepPoint : Bool

namespace Style

/-- Values from `1e-5` up to `1e16` are written in full, and a whole number keeps one decimal. -/
def marked : Style := ⟨fun e => -5 ≤ e && e ≤ 15, true⟩

/-- Every value is written in full. -/
def full : Style := ⟨fun _ => true, false⟩

end Style

/-- Digits without an exponent mark. -/
def positionalText (keepPoint : Bool) (d : Digits) : List Char :=
  let size : Int := d.digits.length
  if d.exponent < 0 then
    ['0', '.'] ++ List.replicate (-d.exponent - 1).toNat '0' ++ d.digits
  else if size ≤ d.exponent + 1 then
    d.digits ++ List.replicate (d.exponent + 1 - size).toNat '0' ++
      (if keepPoint then ['.', '0'] else [])
  else
    let whole := (d.exponent + 1).toNat
    d.digits.take whole ++ '.' :: d.digits.drop whole

/-- Digits with an exponent mark, whose sign is always written. -/
def exponentText (d : Digits) : List Char :=
  let mantissa := match d.digits with
    | [] => ['0']
    | [c] => [c]
    | c :: rest => c :: '.' :: rest
  mantissa ++ ['e', if d.exponent < 0 then '-' else '+'] ++ Nat.toDigits 10 d.exponent.natAbs

/-- The text of a finite pattern. -/
def render (style : Style) (bits : UInt64) : String :=
  let p := Parts.ofBits bits
  let sign := if p.negative then ['-'] else []
  let body :=
    if p.n = 0 then (if style.keepPoint then ['0', '.', '0'] else ['0'])
    else
      let d := p.shortest
      if style.positional d.exponent then positionalText style.keepPoint d else exponentText d
  String.ofList (sign ++ body)

end ControlLoop.Decimal
