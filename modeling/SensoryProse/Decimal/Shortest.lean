import SensoryProse.Decimal.Nearest

/-!
# The shortest decimal of a double

A double stands for every real number that is nearer to it than to its neighbours.  Its shortest
decimal is the one with the fewest digits among these, and of those the nearest, or the greater of
two that are equally near.  On each grid of powers of ten only the two grid points around the
double can qualify, and the coarsest grid with a hit gives the fewest digits.
-/

namespace SensoryProse.Decimal

/-- A finite double without its sign: `mantissa * 2 ^ scale`. -/
structure Binary where
  mantissa : Nat
  scale : Int
  deriving DecidableEq, Repr

namespace Binary

def ofBits (bits : Nat) : Binary :=
  let field : Nat := bits / leadingBit % twoTo 11
  let fraction : Nat := bits % leadingBit
  if field = 0 then ⟨fraction, leastScale⟩ else ⟨leadingBit + fraction, (field : Int) - 1075⟩

/-- Below a power of two the neighbours of a double lie at half the distance. -/
def narrowBelow (number : Binary) : Bool :=
  number.mantissa == leadingBit && number.scale != leastScale

/-- A grid point `point * 10 ^ place` beside quarters of `2 ^ scale`, both as multiples of one
unit: first the factor of the grid, then that of the quarters. -/
def factors (number : Binary) (place : Int) : Nat × Nat :=
  let quarter := number.scale - 2
  (tenTo place.toNat * twoTo (-quarter).toNat, tenTo (-place).toNat * twoTo quarter.toNat)

/-- Whether a grid point reads back as the double. -/
def holds (number : Binary) (place : Int) (point : Nat) : Bool :=
  let (grid, quarters) := number.factors place
  let low := (4 * number.mantissa - if number.narrowBelow then 1 else 2) * quarters
  let high := (4 * number.mantissa + 2) * quarters
  if number.mantissa % 2 = 0 then low ≤ point * grid && point * grid ≤ high
  else low < point * grid && point * grid < high

def distance (number : Binary) (place : Int) (point : Nat) : Nat :=
  let (grid, quarters) := number.factors place
  (((point * grid : Nat) : Int) - ((4 * number.mantissa * quarters : Nat) : Int)).natAbs

/-- The grid point of `10 ^ place` at or below the double. -/
def floorPoint (number : Binary) (place : Int) : Nat :=
  let (grid, quarters) := number.factors place
  4 * number.mantissa * quarters / grid

/-- The nearest grid point that reads back as the double. -/
def hit? (number : Binary) (place : Int) : Option Nat :=
  let below := number.floorPoint place
  match number.holds place below, number.holds place (below + 1) with
  | true, true =>
      some (if number.distance place below < number.distance place (below + 1) then below
        else below + 1)
  | true, false => some below
  | false, true => some (below + 1)
  | false, false => none

/-- Looks for a hit on `grids` grids, each ten times finer than the one before. -/
def search (number : Binary) : Nat → Int → Nat × Int
  | 0, place => (number.floorPoint place, place)
  | grids + 1, place =>
      match number.hit? place with
      | some point => (point, place)
      | none => search number grids (place - 1)

/-- A power of ten above the double. -/
def topPlace (number : Binary) : Int :=
  (number.scale + number.mantissa.log2 + 1) * 30103 / 100000 + 1

/-- Digits and exponent of the shortest decimal.  Seventeen digits always suffice. -/
def shortest (number : Binary) : Nat × Int := number.search 20 number.topPlace

end Binary

/-- Writes `point * 10 ^ place` without an exponent. -/
def positional (point : Nat) (place : Int) : String :=
  let digits := Nat.toDigits 10 point
  if 0 ≤ place then String.ofList (digits ++ List.replicate place.toNat '0')
  else
    let places := (-place).toNat
    let padded := List.replicate (places + 1 - digits.length) '0' ++ digits
    let whole := padded.length - places
    String.ofList (padded.take whole ++ '.' :: padded.drop whole)

/-- The text of a double: the digits of its shortest decimal, positional at every size. -/
def floatText (number : Float) : String :=
  let bits := number.toBits.toNat
  let magnitude := bits % signBit
  if number.isNaN then "NaN"
  else
    (if signBit ≤ bits then "-" else "") ++
      (if number.isInf then "inf"
      else if magnitude = 0 then "0"
      else
        let (point, place) := (Binary.ofBits magnitude).shortest
        positional point place)

end SensoryProse.Decimal
