/-!
# Spans of time

Spans are counted in nanoseconds and have a greatest value, so arithmetic on them is checked.
-/
namespace ControlLoop

/-- A span of time in nanoseconds. -/
abbrev Duration := Nat

namespace Duration

/-- The greatest span: all seconds that a word of 64 bits counts, and a fraction. -/
def greatest : Duration := 18446744073709551615 * 1000000000 + 999999999

def ofMillis (n : Nat) : Duration := n * 1000000

def ofSeconds (n : Nat) : Duration := n * 1000000000

/-- A number, if it fits a word of 64 bits. -/
def word? (n : Nat) : Option Nat := if n ≤ 18446744073709551615 then some n else none

/-- The span of so many seconds and so many nanoseconds besides, if it fits. -/
def join? (seconds nanos : Nat) : Option Duration := do
  let whole ← word? seconds
  let all ← word? (whole + nanos / 1000000000)
  return all * 1000000000 + nanos % 1000000000

/-- A multiple of a span, if it fits. Whole seconds and the rest of the span are multiplied apart. -/
def scale? (d : Duration) (factor : Nat) : Option Duration :=
  join? (d / 1000000000 * factor) (d % 1000000000 * factor)

/-- Whole milliseconds. -/
def millis (d : Duration) : Nat := d / 1000000

end Duration

end ControlLoop
