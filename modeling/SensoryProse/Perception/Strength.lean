import SensoryProse.Perception.Channel

/-!
# Detection strength

A viewer perceives a channel inside a band.  An emission inside the band has strength zero; below
it the strength is the negative distance to the floor, above it the distance to the ceiling, both
cut off at one hundred and rounded toward zero.  The computation is the same for every kind of
number that has the few operations it needs.
-/

namespace SensoryProse

structure Band where
  low : Int
  high : Int
  deriving DecidableEq, Repr

/-- Numbers that emissions are measured in. -/
class Quantity (α : Type) extends Add α, Sub α, Neg α where
  ofInt : Int → α
  less : α → α → Bool
  /-- Rounds toward zero a number of at most one hundred in size. -/
  truncate : α → Int

instance : Quantity Float where
  ofInt := Float.ofInt
  less left right := left < right
  truncate number := number.toInt16.toInt

namespace Band

open Quantity

/-- The strength of `emission` against `band`, widened at both ends by `modifier`. -/
def strength {α : Type} [Quantity α] (band : Band) (emission : α) (modifier : Int) : Int :=
  let aboveFloor := emission - (ofInt band.low - ofInt modifier)
  let belowCeiling := (ofInt band.high + ofInt modifier) - emission
  if less aboveFloor (ofInt 0) then
    if less aboveFloor (ofInt (-100)) then -100 else truncate aboveFloor
  else if less belowCeiling (ofInt 0) then
    if less (ofInt 100) (-belowCeiling) then 100 else truncate (-belowCeiling)
  else 0

def midpoint (band : Band) : Float := (Float.ofInt band.low + Float.ofInt band.high) / 2

end Band

/-- A viewer's band on each channel. -/
structure Senses where
  visible : Band := ⟨10, 90⟩
  audible : Band := ⟨1, 100⟩
  olfactory : Band := ⟨10, 80⟩
  psychic : Band := ⟨60, 100⟩
  tactile : Band := ⟨1, 100⟩
  taste : Band := ⟨10, 80⟩
  deriving DecidableEq, Repr, Inhabited

namespace Senses

def band (senses : Senses) : Channel → Band
  | .visible => senses.visible
  | .audible => senses.audible
  | .olfactory => senses.olfactory
  | .psychic => senses.psychic
  | .tactile => senses.tactile
  | .taste => senses.taste

def withBand (senses : Senses) (channel : Channel) (band : Band) : Senses :=
  match channel with
  | .visible => { senses with visible := band }
  | .audible => { senses with audible := band }
  | .olfactory => { senses with olfactory := band }
  | .psychic => { senses with psychic := band }
  | .tactile => { senses with tactile := band }
  | .taste => { senses with taste := band }

end Senses

/-- What feeds emission: the light of the surroundings for sight, and one baseline for every other
channel. -/
structure Emission (α : Type) where
  light : α
  baseline : α

namespace Emission

def on {α : Type} (emission : Emission α) : Channel → α
  | .visible => emission.light
  | _ => emission.baseline

/-- The strength at which a viewer detects what is emitted on `channel`. -/
def strength {α : Type} [Quantity α] (emission : Emission α) (senses : Senses) (channel : Channel)
    (modifier : Int) : Int :=
  (senses.band channel).strength (emission.on channel) modifier

end Emission

end SensoryProse
