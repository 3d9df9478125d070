import SensoryProse.Perception.Event
import SensoryProse.Phrase.Attach

/-!
# Entities

An entity is anything that can be perceived.  It owns its descriptions, each an event as it was
authored together with an offset to the viewer's band.
-/

namespace SensoryProse

structure Description where
  event : Event
  modifier : Int := 0
  deriving Repr

structure Entity where
  id : Nat
  name : String
  properName : Bool := false
  pronouns : Pronouns := .they
  descriptions : List Description := []
  deriving Repr

namespace Entity

def describe (entity : Entity) (description : Description) : Entity :=
  { entity with descriptions := entity.descriptions ++ [description] }

/-- The descriptions on one channel, in the order in which they were given. -/
def descriptionsOn (entity : Entity) (channel : Channel) : List Description :=
  entity.descriptions.filter (·.event.channel == channel)

/-- The entity as the subject of a perceived detail.  It speaks the language and the tense of the
detail. -/
def subject (entity : Entity) (detail : Phrase) : Phrase where
  role := .subject
  wordClass := if entity.properName then .properNoun else .noun
  text := entity.name
  context :=
    { language := detail.context.language
      tense := detail.context.tense
      determinant := !entity.properName
      pronouns := entity.pronouns }

/-- The event that a viewer is told of: the entity with the detail attached, if the detail can be
made out. -/
def observed (entity : Entity) (perceived : Event) : Event :=
  let bare := entity.subject perceived.phrase
  let subject :=
    if perceived.isSaturated || perceived.phrase.text.isEmpty then bare
    else bare.attach perceived.phrase
  .of subject perceived.strength perceived.channel

end Entity

end SensoryProse
