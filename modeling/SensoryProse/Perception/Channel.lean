import SensoryProse.Named

/-!
# Sensory channels

Every perceivable occurrence is carried on one of six channels.
-/

namespace SensoryProse

inductive Channel where
  | visible
  | audible
  | olfactory
  | psychic
  | tactile
  | taste
  deriving DecidableEq, Repr

namespace Channel

instance : Named Channel where
  all := [.visible, .audible, .olfactory, .psychic, .tactile, .taste]
  name
    | .visible => "Visible"
    | .audible => "Audible"
    | .olfactory => "Olefactory"
    | .psychic => "Psychic"
    | .tactile => "Tactile"
    | .taste => "Taste"

/-- The word a channel is known by in commands. -/
def word : Channel → String
  | .visible => "visible"
  | .audible => "audible"
  | .olfactory => "olefactory"
  | .psychic => "psychic"
  | .tactile => "tactile"
  | .taste => "taste"

def tag (channel : Channel) : String := "sense:" ++ channel.word

end Channel

end SensoryProse
