/-!
# Durations

A duration is a number of whole nanoseconds. Hints and delays are built from milliseconds or
seconds and shown in seconds with as many fraction digits as the value needs.
-/

namespace Pacing

/-- Nanoseconds in a millisecond. -/
def nanosPerMilli : Nat := 1000000

/-- Nanoseconds in a second. -/
def nanosPerSecond : Nat := 1000000000

/-- A span of time in nanoseconds. -/
structure Duration where
  nanos : Nat
  deriving DecidableEq, Repr, Inhabited

namespace Duration

/-- `n` milliseconds. -/
def ofMillis (n : Nat) : Duration := ⟨n * nanosPerMilli⟩

/-- `n` seconds. -/
def ofSeconds (n : Nat) : Duration := ⟨n * nanosPerSecond⟩

/-- `seconds` whole seconds and `nanos` nanoseconds. -/
def ofParts (seconds nanos : Nat) : Duration := ⟨seconds * nanosPerSecond + nanos⟩

/-- Whole seconds of a duration. -/
def seconds (d : Duration) : Nat := d.nanos / nanosPerSecond

/-- Nanoseconds beyond the whole seconds. -/
def subsecondNanos (d : Duration) : Nat := d.nanos % nanosPerSecond

/-- Whole milliseconds of a duration. -/
def millis (d : Duration) : Nat := d.nanos / nanosPerMilli

/-- The shorter of two durations. -/
def shorter (a b : Duration) : Duration := ⟨min a.nanos b.nanos⟩

/-- Exactly `width` decimal digits of `n`, most significant first. -/
def fixedDigits : (width : Nat) → (n : Nat) → List Char
  | 0, _ => []
  | width + 1, n => fixedDigits width (n / 10) ++ [Nat.digitChar (n % 10)]

/-- Drops the zeros a digit string ends with. -/
def dropTrailingZeros (digits : List Char) : List Char :=
  (digits.reverse.dropWhile (· == '0')).reverse

/-- `n / 10 ^ width` in decimal, without a point when it is whole and without trailing
zeros in the fraction. -/
def decimalText (width n : Nat) : String :=
  let unit := Nat.pow 10 width
  match dropTrailingZeros (fixedDigits width (n % unit)) with
  | [] => toString (n / unit)
  | digits => toString (n / unit) ++ "." ++ String.ofList digits

/-- The duration in the largest of `s`, `ms`, `µs` and `ns` of which it holds at least one. -/
def text (d : Duration) : String :=
  if nanosPerSecond ≤ d.nanos then decimalText 9 d.nanos ++ "s"
  else if nanosPerMilli ≤ d.nanos then decimalText 6 d.nanos ++ "ms"
  else if 1000 ≤ d.nanos then decimalText 3 d.nanos ++ "µs"
  else toString d.nanos ++ "ns"

end Duration

end Pacing
