/-!
# Decimal digits of doubles

A positive double is `significand * 2 ^ exponent`. The reals that round to it form an interval
around it, with its ends when the significand is even. Its shortest decimal has the fewest digits
that lie in this interval; of two such decimals the nearer one is taken.

The text of a double is written from these digits, either positionally or with an exponent when
the decimal point would stand far from the digits. In the other direction a decimal is read as
one scaling of its digits by a power of ten, in double arithmetic.
-/

namespace InlineComponents.Double

/-- A decimal `digits * 10 ^ exponent`. -/
structure Decimal where
  digits : Nat
  exponent : Int
  deriving DecidableEq, Repr

/-- The number of stored fractions, which take up 52 bits. -/
def fractionCount : Nat := Nat.pow 2 52

/-- The number of biased exponents, which take up 11 bits. -/
def exponentCount : Nat := Nat.pow 2 11

/-- Whether the sign bit is set. -/
def isNegative (bits : UInt64) : Bool := bits.toNat ≥ exponentCount * fractionCount

/-- The biased exponent. -/
def biasedExponent (bits : UInt64) : Nat := bits.toNat / fractionCount % exponentCount

/-- The stored fraction. -/
def fraction (bits : UInt64) : Nat := bits.toNat % fractionCount

/-- The significand as an integer. -/
def significand (bits : UInt64) : Nat :=
  if biasedExponent bits = 0 then fraction bits else fractionCount + fraction bits

/-- The power of two that goes with the significand. -/
def binaryExponent (bits : UInt64) : Int :=
  if biasedExponent bits = 0 then -1074 else (biasedExponent bits : Int) - 1075

/-- Whether the next smaller double is only half as far away as the next larger one. -/
def isNarrowBelow (bits : UInt64) : Bool :=
  fraction bits = 0 && biasedExponent bits > 1

/-- The power for a non-negative exponent, and one otherwise. -/
def powerUp (base : Nat) (exponent : Int) : Nat := Nat.pow base exponent.toNat

/-- The place of the leading decimal digit of `numerator / denominator`. -/
def leadingPlace (numerator denominator : Nat) : Int :=
  let guess : Int := (Nat.toDigits 10 numerator).length - (Nat.toDigits 10 denominator).length
  if numerator * powerUp 10 (-guess) < denominator * powerUp 10 guess then guess - 1 else guess

/-- The decimal on the grid of the given power of ten that rounds to the double, if there is one:
of the two neighbours of the double on the grid the nearer one, when it lies in the interval. -/
def onGrid? (bits : UInt64) (exponent : Int) : Option Decimal :=
  let m := significand bits
  let q := binaryExponent bits
  let scale := powerUp 2 q * powerUp 10 (-exponent)
  let unit := 4 * powerUp 10 exponent * powerUp 2 (-q)
  let value := 4 * m * scale
  let low := (4 * m - if isNarrowBelow bits then 1 else 2) * scale
  let high := (4 * m + 2) * scale
  let closed := m % 2 = 0
  let inside (candidate : Nat) : Bool :=
    if closed then low ≤ candidate * unit && candidate * unit ≤ high
    else low < candidate * unit && candidate * unit < high
  let below := value / unit
  let above := below + 1
  let nearer := if value - below * unit ≤ above * unit - value then below else above
  let farther := if nearer = below then above else below
  if nearer ≠ 0 && inside nearer then some ⟨nearer, exponent⟩
  else if farther ≠ 0 && inside farther then some ⟨farther, exponent⟩
  else none

/-- The first success among growing digit counts. -/
def firstGrid? (bits : UInt64) (place : Int) : (remaining count : Nat) → Option Decimal
  | 0, _ => none
  | remaining + 1, count =>
    match onGrid? bits (place + 1 - count) with
    | some decimal => some decimal
    | none => firstGrid? bits place remaining (count + 1)

/-- The decimal without zeros at the end of its digits. -/
def dropZeros : (fuel : Nat) → Decimal → Decimal
  | 0, decimal => decimal
  | fuel + 1, decimal =>
    if decimal.digits ≠ 0 ∧ decimal.digits % 10 = 0 then
      dropZeros fuel ⟨decimal.digits / 10, decimal.exponent + 1⟩
    else decimal

/-- The shortest decimal of the magnitude of a finite double. -/
def shortest (bits : UInt64) : Decimal :=
  if significand bits = 0 then ⟨0, 0⟩
  else
    let m := significand bits
    let q := binaryExponent bits
    let place := leadingPlace (m * powerUp 2 q) (powerUp 2 (-q))
    dropZeros 20 ((firstGrid? bits place 17 1).getD ⟨0, 0⟩)

/-- The given number of zeros. -/
def zeros (count : Nat) : String := String.ofList (List.replicate count '0')

/-- The digits with a decimal point after the first `count` of them. -/
def withPoint (digits : List Char) (count : Nat) : String :=
  String.ofList (digits.take count ++ '.' :: digits.drop count)

/-- The magnitude written positionally, always with a decimal point. -/
def positional (decimal : Decimal) : String :=
  let digits := Nat.toDigits 10 decimal.digits
  let point : Int := digits.length + decimal.exponent
  if decimal.exponent ≥ 0 then
    String.ofList digits ++ zeros decimal.exponent.toNat ++ ".0"
  else if point > 0 then withPoint digits point.toNat
  else "0." ++ zeros (-point).toNat ++ String.ofList digits

/-- The magnitude with one digit before the point and a power of ten, which always has a sign. -/
def scientific (decimal : Decimal) : String :=
  let digits := Nat.toDigits 10 decimal.digits
  let power : Int := digits.length + decimal.exponent - 1
  let mantissa := if digits.length = 1 then String.ofList digits else withPoint digits 1
  mantissa ++ "e" ++ (if power < 0 then "" else "+") ++ toString power

/-- The sign of a double as text. -/
def signText (bits : UInt64) : String := if isNegative bits then "-" else ""

/-- The double written out: positionally while the point stands at most sixteen places after the
first digit or at most four zeros before it, otherwise with an exponent. -/
def compactText (bits : UInt64) : String :=
  let decimal := shortest bits
  let point : Int := (Nat.toDigits 10 decimal.digits).length + decimal.exponent
  signText bits ++
    if decimal.digits = 0 || (-5 < point && point ≤ 16) then positional decimal
    else scientific decimal

/-- The largest power of ten that a double is scaled by in one step. -/
def largestPower : Nat := 308

/-- Ten to the given power as a double. -/
def tenTo (power : Nat) : Float := Float.ofScientific 1 false power

/-- Divisions by the largest power until the exponent is in reach, and then by what is left. -/
def scaleDown (value : Float) : (fuel exponent : Nat) → Float
  | 0, _ => value
  | fuel + 1, exponent =>
    if exponent ≤ largestPower then value / tenTo exponent
    else if value == 0.0 then value
    else scaleDown (value / tenTo largestPower) fuel (exponent - largestPower)

/-- The double nearest to the digits, times the power of ten, in double arithmetic. There is none
when the result overflows. -/
def scaled? (digits : Nat) (exponent : Int) : Option Float :=
  let value := Float.ofNat digits
  if exponent < 0 then some (scaleDown value (exponent.natAbs / largestPower + 1) exponent.natAbs)
  else if exponent.toNat ≤ largestPower then
    let product := value * tenTo exponent.toNat
    if product.isInf then none else some product
  else if digits = 0 then some value
  else none

end InlineComponents.Double
