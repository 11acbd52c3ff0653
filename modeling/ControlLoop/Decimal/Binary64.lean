/-!
# Binary fractions of 64 bits

A finite value is `n * 2 ^ q` with `n < 2 ^ 53` and a sign, in the usual pattern of 64 bits: a sign,
eleven bits of exponent, 52 bits of fraction. Quotients and products are computed in exact
arithmetic and rounded once, to the nearest value, a tie going to the even `n`.

A decimal is read in steps, each of which rounds: its digits, as far as they fit a word, are taken
for a value, which is then multiplied or divided by powers of ten.
-/
namespace ControlLoop.Decimal

/-- The sign bit. -/
def signBit (negative : Bool) : UInt64 := if negative then 0x8000000000000000 else 0

/-- `num / den` to the nearest integer, a tie to the even one. -/
def roundQuotient (num den : Nat) : Nat :=
  let n := num / den
  let r := num % den
  if 2 * r < den then n
  else if den < 2 * r then n + 1
  else n + n % 2

/-- `num / (den * 2 ^ q)` as a quotient of natural numbers. -/
def scaled (num den : Nat) (q : Int) : Nat × Nat :=
  (num * Nat.pow 2 (-q).toNat, den * Nat.pow 2 q.toNat)

/-- The least exponent of a binary unit. -/
def leastUnit : Int := -1074

/-- The greatest exponent of a binary unit of a finite value. -/
def greatestUnit : Int := 971

/-- The weight of the bit in front of the fraction, which is not written: `2 ^ 52`. -/
def hiddenBit : Nat := 0x10000000000000

/-- Packs `n * 2 ^ q` with `n < 2 ^ 53`; values past the greatest finite one have no pattern. -/
def pack? (n : Nat) (q : Int) : Option UInt64 :=
  let (n, q) := if n = 2 * hiddenBit then (hiddenBit, q + 1) else (n, q)
  if greatestUnit < q then none
  else if n < hiddenBit then some n.toUInt64
  else some ((q - leastUnit + 1).toNat.toUInt64 <<< 52 ||| (n - hiddenBit).toUInt64)

/-- The pattern of `num / den`, where `den` is positive. -/
def ofQuotient? (num den : Nat) : Option UInt64 :=
  let estimate := max ((num.log2 : Int) - den.log2 - 53) leastUnit
  let whole := scaled num den estimate
  let q := if whole.1 / whole.2 < 2 * hiddenBit then estimate else estimate + 1
  let (a, b) := scaled num den q
  pack? (roundQuotient a b) q

/-- The parts of a finite value: `n * 2 ^ q` with its sign. -/
structure Parts where
  negative : Bool
  n : Nat
  q : Int
  deriving DecidableEq, Repr

def Parts.ofBits (bits : UInt64) : Parts :=
  let fraction := (bits &&& 0xFFFFFFFFFFFFF).toNat
  let exponent := ((bits >>> 52) &&& 0x7FF).toNat
  { negative := bits >>> 63 == 1
    n := if exponent = 0 then fraction else fraction + hiddenBit
    q := leastUnit + (exponent - 1 : Nat) }

/-- The greatest power of ten that is a finite value. -/
def greatestPower : Nat := 308

/-- The value nearest to a power of ten. -/
def tenPower (k : Nat) : Parts := .ofBits ((ofQuotient? (Nat.pow 10 k) 1).getD 0)

/-- A value that is not negative, times a power of ten. -/
def times? (bits : UInt64) (k : Nat) : Option UInt64 :=
  let a := Parts.ofBits bits
  let b := tenPower k
  let (num, den) := scaled (a.n * b.n) 1 (-(a.q + b.q))
  ofQuotient? num den

/-- A value that is not negative, divided by a power of ten. -/
def divided (bits : UInt64) (k : Nat) : UInt64 :=
  let a := Parts.ofBits bits
  let b := tenPower k
  let (num, den) := scaled a.n b.n (b.q - a.q)
  (ofQuotient? num den).getD 0

/-- A value that is not negative, times `10 ^ e`, or none if that lies past the greatest finite
value. -/
def shift? (bits : UInt64) (e : Int) : Option UInt64 :=
  if e.natAbs ≤ greatestPower then
    if 0 ≤ e then times? bits e.toNat else some (divided bits (-e).toNat)
  else if bits = 0 then some bits
  else if 0 ≤ e then none
  else shift? (divided bits greatestPower) (e + greatestPower)
termination_by (-e).toNat
decreasing_by simp only [greatestPower] at *; omega

/-- The value of `m * 10 ^ e`, step by step, or none if that lies past the greatest finite value. -/
def ofDecimal? (negative : Bool) (m : Nat) (e : Int) : Option UInt64 := do
  let bits ← shift? (← ofQuotient? m 1) e
  return signBit negative ||| bits

end ControlLoop.Decimal
