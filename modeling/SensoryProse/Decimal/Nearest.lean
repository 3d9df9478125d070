import SensoryProse.Decimal.Notation

/-!
# The nearest double

A finite double is a natural number below `2 ^ 53` times a power of two.  A positive quotient goes
to the nearest double, and a quotient midway between two doubles to the one whose last bit is zero.
Quotients beyond the largest double go to infinity.
-/

namespace SensoryProse.Decimal

/-- The nearest natural number to a quotient, the even one of two. -/
def roundHalfEven (numerator denominator : Nat) : Nat :=
  let quotient := numerator / denominator
  let twice := 2 * (numerator % denominator)
  if twice < denominator then quotient
  else if denominator < twice then quotient + 1
  else if quotient % 2 = 0 then quotient
  else quotient + 1

/-- `numerator / (denominator * 2 ^ scale)` as a pair of naturals. -/
def scaled (numerator denominator : Nat) (scale : Int) : Nat × Nat :=
  if 0 ≤ scale then (numerator, denominator <<< scale.toNat)
  else (numerator <<< (-scale).toNat, denominator)

/-- The first of the 53 binary digits of a number in the middle of the range. -/
def leadingBit : Nat := twoTo 52

/-- The bit that marks a negative double. -/
def signBit : Nat := twoTo 63

def leastScale : Int := -1074
def greatestScale : Int := 971

/-- The power of two by which a quotient is scaled to have 53 binary digits, or fewer at the lower
end of the range. -/
def scaleOf (numerator denominator : Nat) : Int :=
  let estimate : Int := (numerator.log2 : Int) - denominator.log2 - 52
  let (top, bottom) := scaled numerator denominator estimate
  max leastScale (if top / bottom < leadingBit then estimate - 1 else estimate)

def infinityBits : Nat := 0x7ff <<< 52

/-- The bits of `mantissa * 2 ^ scale`, for a mantissa of at most `2 ^ 53`. -/
def bitsOf (mantissa : Nat) (scale : Int) : Nat :=
  let (mantissa, scale) :=
    if mantissa = 2 * leadingBit then (leadingBit, scale + 1) else (mantissa, scale)
  if mantissa < leadingBit then mantissa
  else if greatestScale < scale then infinityBits
  else ((scale + 1075).toNat <<< 52) + (mantissa - leadingBit)

/-- The bits of the double nearest to a positive quotient. -/
def nearestBits (numerator denominator : Nat) : Nat :=
  let scale := scaleOf numerator denominator
  let (top, bottom) := scaled numerator denominator scale
  bitsOf (roundHalfEven top bottom) scale

/-- The number of decimal digits of a natural number. -/
def width (number : Nat) : Nat := (Nat.toDigits 10 number).length

/-- Decimals of four hundred places to either side of the point are out of range for certain. -/
def magnitudeBits (digits : Nat) (exponent : Int) : Nat :=
  if digits = 0 then 0
  else
    let order := exponent + width digits
    if 400 < order then infinityBits
    else if order < -400 then 0
    else if 0 ≤ exponent then nearestBits (digits * tenTo exponent.toNat) 1
    else nearestBits digits (tenTo (-exponent).toNat)

def toFloat (decimal : Decimal) : Float :=
  let bits := magnitudeBits decimal.digits decimal.exponent
  .ofBits (.ofNat (if decimal.negative then bits + signBit else bits))

/-- Reads a number, or a name of infinity or of the undefined number in any case of letters. -/
def float? (text : String) : Option Float :=
  let (negative, rest) := takeSign text.toList
  let word := rest.map Char.toLower
  if word = "inf".toList || word = "infinity".toList then
    some (if negative then -(1 / 0) else 1 / 0)
  else if word = "nan".toList then some (0 / 0)
  else (unsigned? negative rest).map toFloat

end SensoryProse.Decimal
