/-!
# Decimal notation

A decimal is a sign, a natural number and a power of ten.  Integers are written as digits with an
optional sign; other numbers may have a point and an exponent, with at least one digit beside the
point and one in the exponent.
-/

namespace SensoryProse

structure Decimal where
  negative : Bool
  digits : Nat
  exponent : Int
  deriving DecidableEq, Repr

namespace Decimal

def tenTo (exponent : Nat) : Nat := Nat.pow 10 exponent

def twoTo (exponent : Nat) : Nat := Nat.pow 2 exponent

def digitValue (c : Char) : Nat := c.toNat - '0'.toNat

/-- The number that digits, read after the number `value`, come to. -/
def valueFrom (value : Nat) (digits : List Char) : Nat :=
  digits.foldl (fun value c => 10 * value + digitValue c) value

def value (digits : List Char) : Nat := valueFrom 0 digits

/-- A leading sign, and what follows it. -/
def takeSign : List Char → Bool × List Char
  | '-' :: rest => (true, rest)
  | '+' :: rest => (false, rest)
  | chars => (false, chars)

def signed (negative : Bool) (magnitude : Nat) : Int :=
  if negative then -magnitude else magnitude

def natural? (chars : List Char) : Option Nat :=
  if !chars.isEmpty && chars.all Char.isDigit then some (value chars) else none

def integer? (chars : List Char) : Option Int :=
  let (negative, digits) := takeSign chars
  (natural? digits).map (signed negative)

/-- An integer between two bounds. -/
def integerIn? (low high : Int) (text : String) : Option Int :=
  (integer? text.toList).filter fun number => low ≤ number && number ≤ high

/-- A natural number below a limit.  A plus sign is allowed. -/
def naturalBelow? (limit : Nat) (text : String) : Option Nat :=
  let digits := match text.toList with
    | '+' :: rest => rest
    | chars => chars
  (natural? digits).filter (· < limit)

/-- What an exponent at the end of a number is, zero if there is none. -/
def exponent? : List Char → Option Int
  | [] => some 0
  | mark :: rest => if mark = 'e' || mark = 'E' then integer? rest else none

/-- Reads a whole number text that starts behind its sign. -/
def unsigned? (negative : Bool) (chars : List Char) : Option Decimal :=
  let whole := chars.takeWhile Char.isDigit
  let (fraction, rest) :=
    match chars.dropWhile Char.isDigit with
    | '.' :: rest => (rest.takeWhile Char.isDigit, rest.dropWhile Char.isDigit)
    | rest => ([], rest)
  if whole.isEmpty && fraction.isEmpty then none
  else
    (exponent? rest).map fun exponent =>
      { negative
        digits := valueFrom (value whole) fraction
        exponent := exponent - fraction.length }

def read? (chars : List Char) : Option Decimal :=
  let (negative, rest) := takeSign chars
  unsigned? negative rest

end Decimal

end SensoryProse
