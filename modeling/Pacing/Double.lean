/-!
# Binary floating point

Double precision numbers by their exact value: a finite one is `± significand * 2 ^ exponent`.
Every operation computes the exact rational result and rounds it once, to the nearest double
and to the even one of two nearest, so nothing here depends on the machine's arithmetic.

A finite double is kept in its one normal form: the significand is below `2 ^ 53`, and it is
at least `2 ^ 52` unless the exponent is the lowest one.
-/

namespace Pacing

/-- A double precision number. -/
inductive Double where
  | finite (negative : Bool) (significand : Nat) (exponent : Int)
  | infinite (negative : Bool)
  | nan
  deriving DecidableEq, Repr, Inhabited

namespace Double

/-- Exponent of the smallest positive doubles. -/
def lowestExponent : Int := -1074

/-- Exponent of the largest finite doubles. -/
def highestExponent : Int := 971

/-- `2 ^ k`, one for a negative `k`. -/
def powerOfTwo (k : Int) : Nat := Nat.pow 2 k.toNat

/-- `10 ^ k`, one for a negative `k`. -/
def powerOfTen (k : Int) : Nat := Nat.pow 10 k.toNat

/-- The least significand of a normal double, `2 ^ 52`. -/
def leastNormal : Nat := 4503599627370496

/-- The bound of significands, `2 ^ 53`. -/
def significandBound : Nat := 9007199254740992

/-- Zero with a sign. -/
def zero (negative : Bool) : Double := .finite negative 0 lowestExponent

/-- `num / den` scaled by `2 ^ (-exponent)`, as a fraction. -/
def scaled (num den : Nat) (exponent : Int) : Nat × Nat :=
  if 0 ≤ exponent then (num, den * powerOfTwo exponent)
  else (num * powerOfTwo (-exponent), den)

/-- The integer nearest to `num / den`, the even one of two nearest. -/
def nearest (num den : Nat) : Nat :=
  let quotient := num / den
  let twice := 2 * (num % den)
  if twice < den then quotient
  else if den < twice then quotient + 1
  else quotient + quotient % 2

/-- The exponent at which the integer part of `num / den` has 53 binary digits, or the lowest
exponent if that is larger. -/
def exponentFor (num den : Nat) : Int :=
  let guess : Int := (num.log2 : Int) - (den.log2 : Int) - 52
  let (n, d) := scaled num den guess
  max lowestExponent (if n / d < leastNormal then guess - 1 else guess)

/-- The double nearest to `± num / den`, for a positive `den`. -/
def ofRatio (negative : Bool) (num den : Nat) : Double :=
  if num = 0 then zero negative
  else
    let exponent := exponentFor num den
    let (n, d) := scaled num den exponent
    let significand := nearest n d
    let (significand, exponent) :=
      if significand = significandBound then (leastNormal, exponent + 1)
      else (significand, exponent)
    if highestExponent < exponent then .infinite negative
    else .finite negative significand exponent

/-- The double nearest to a natural number. -/
def ofNat (n : Nat) : Double := ofRatio false n 1

/-- The double nearest to an integer. -/
def ofInt (n : Int) : Double := ofRatio (decide (n < 0)) n.natAbs 1

/-- The double nearest to `10 ^ n`. -/
def pow10 (n : Nat) : Double := ofNat (powerOfTen n)

/-- The number with the other sign. -/
def neg : Double → Double
  | .finite s m e => .finite (!s) m e
  | .infinite s => .infinite (!s)
  | .nan => .nan

/-- The sign bit. -/
def isNegative : Double → Bool
  | .finite s _ _ => s
  | .infinite s => s
  | .nan => false

/-- The number is zero, with either sign. -/
def isZero : Double → Bool
  | .finite _ m _ => m == 0
  | _ => false

/-- The number is infinite, with either sign. -/
def isInfinite : Double → Bool
  | .infinite _ => true
  | _ => false

/-- The magnitude `significand * 2 ^ exponent` as a fraction. -/
def ratio (significand : Nat) (exponent : Int) : Nat × Nat :=
  if 0 ≤ exponent then (significand * powerOfTwo exponent, 1)
  else (significand, powerOfTwo (-exponent))

/-- The product, rounded once. -/
def mul (a b : Double) : Double :=
  match a, b with
  | .nan, _ => .nan
  | _, .nan => .nan
  | .finite s m e, .finite s' m' e' =>
    let (num, den) := ratio (m * m') (e + e')
    ofRatio (s ^^ s') num den
  | a, b => if a.isZero || b.isZero then .nan else .infinite (a.isNegative ^^ b.isNegative)

/-- The quotient of two finite numbers, rounded once, for a nonzero divisor. -/
def div (a b : Double) : Double :=
  match a, b with
  | .finite s m e, .finite s' m' e' =>
    let (num, den) := ratio m (e - e')
    ofRatio (s ^^ s') num (den * m')
  | _, _ => .nan

/-- The integer part as a signed word: zero for a number that is none, the nearest end of the
range beyond it. -/
def truncate : Double → Int
  | .nan => 0
  | .infinite s => if s then -9223372036854775808 else 9223372036854775807
  | .finite s m e =>
    let (num, den) := ratio m e
    let magnitude : Int := ((num / den : Nat) : Int)
    if s then max (-9223372036854775808) (-magnitude) else min 9223372036854775807 magnitude

/-! ### Shortest decimal form -/

/-- A decimal `digits * 10 ^ scale`. -/
structure Decimal where
  digits : Nat
  scale : Int
  deriving DecidableEq, Repr

/-- The double nearest to a nonnegative decimal. -/
def ofDecimal (d : Decimal) : Double :=
  if 0 ≤ d.scale then ofRatio false (d.digits * powerOfTen d.scale) 1
  else ofRatio false d.digits (powerOfTen (-d.scale))

/-- The largest `k` with `10 ^ k ≤ num / den`, searched upward from below. -/
def decimalExponent (num den : Nat) : Int :=
  let guess : Int := ((num.log2 : Int) - (den.log2 : Int) - 1) * 30103 / 100000 - 1
  let atLeast (k : Int) : Bool :=
    if 0 ≤ k then den * powerOfTen k ≤ num else den ≤ num * powerOfTen (-k)
  if atLeast (guess + 3) then guess + 3
  else if atLeast (guess + 2) then guess + 2
  else if atLeast (guess + 1) then guess + 1
  else guess

/-- Of the two decimals with the given scale around `num / den`, the ones that stand for
`value`; the nearer of two such, and the even one of two equally near. -/
def decimalAt (value : Double) (num den : Nat) (scale : Int) : Option Decimal :=
  let (n, d) := if 0 ≤ scale then (num, den * powerOfTen scale)
    else (num * powerOfTen (-scale), den)
  let lower : Decimal := ⟨n / d, scale⟩
  let upper : Decimal := ⟨n / d + 1, scale⟩
  match decide (ofDecimal lower = value), decide (ofDecimal upper = value) with
  | true, true => some (if nearest n d = n / d then lower else upper)
  | true, false => some lower
  | false, true => some upper
  | false, false => none

/-- The decimal with the fewest digits that stands for `value`, trying 17 digits at most. -/
def searchShortest (value : Double) (num den : Nat) (leading : Int) : Nat → Decimal
  | 0 => ⟨0, 0⟩
  | more + 1 =>
    match decimalAt value num den (leading - (16 - (more : Int))) with
    | some decimal => decimal
    | none => searchShortest value num den leading more

/-- The shortest decimal that is read back as the given nonnegative number. -/
def shortest (significand : Nat) (exponent : Int) : Decimal :=
  let (num, den) := ratio significand exponent
  searchShortest (.finite false significand exponent) num den (decimalExponent num den) 17

/-- Drops the zeros at the end of a decimal's digits; `room` bounds how many there are. -/
def Decimal.trim : (room : Nat) → Decimal → Decimal
  | 0, d => d
  | room + 1, d => if d.digits % 10 = 0 then Decimal.trim room ⟨d.digits / 10, d.scale + 1⟩ else d

/-- Digits without a point, and `count` zeros after them. -/
def zeros (count : Nat) : String := String.ofList (List.replicate count '0')

/-- A nonzero decimal in text: plain while its leading digit stands for `10 ^ -5` to
`10 ^ 15`, with at least one digit after the point; otherwise with an exponent. -/
def Decimal.text (d : Decimal) : String :=
  let digits := (Nat.toDigits 10 d.digits)
  let count := digits.length
  let point : Int := d.scale + count
  if 0 ≤ d.scale ∧ point ≤ 16 then String.ofList digits ++ zeros d.scale.toNat ++ ".0"
  else if 0 < point ∧ point ≤ 16 then
    String.ofList (digits.take point.toNat) ++ "." ++ String.ofList (digits.drop point.toNat)
  else if -5 < point ∧ point ≤ 0 then "0." ++ zeros (-point).toNat ++ String.ofList digits
  else
    let lead := String.ofList (digits.take 1)
      ++ (if count = 1 then "" else "." ++ String.ofList (digits.drop 1))
    if 0 < point then lead ++ "e+" ++ toString (point - 1) else lead ++ "e" ++ toString (point - 1)

/-- The shortest text that is read back as a finite number; nothing for the others. -/
def text? : Double → Option String
  | .finite s m e =>
    let sign := if s then "-" else ""
    if m = 0 then some (sign ++ "0.0")
    else some (sign ++ ((shortest m e).trim 20).text)
  | _ => none

end Double

end Pacing
