import SensoryProse.Perception.Channel
import SensoryProse.Phrase.Basic

/-!
# Sensory events

An event is a phrase tree carried on a channel, with the strength at which the present viewer
detects it: below zero it is too faint, above zero too intense, and at either end of the scale it
is saturated and cannot be made out.
-/

namespace SensoryProse

structure Event where
  phrase : Phrase
  strength : Int
  channel : Channel
  deriving Repr

namespace Event

def weakest : Int := -100
def strongest : Int := 100

def clampStrength (strength : Int) : Int := max weakest (min strength strongest)

/-- An event whose strength is brought into the scale. -/
def of (phrase : Phrase) (strength : Int) (channel : Channel) : Event where
  phrase
  strength := clampStrength strength
  channel

def withStrength (event : Event) (strength : Int) : Event :=
  { event with strength := clampStrength strength }

def isSaturated (event : Event) : Bool := event.strength.natAbs == 100

/-- Too intense rather than too faint. -/
def isTooIntense (event : Event) : Bool := 0 < event.strength

end Event

end SensoryProse
