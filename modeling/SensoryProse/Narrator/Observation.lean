import SensoryProse.Narrator.Basic
import SensoryProse.Perception.Entity
import SensoryProse.Perception.Strength

/-!
# Observing entities

What a viewer notices about an entity: each description is scaled to the viewer's senses and told
as one line of prose.  A description that cannot be told is left out.
-/

namespace SensoryProse.Narrator

variable {Words : Type}

def emission (narrator : Narrator Words) (light : Float) : Emission Float where
  light
  baseline := narrator.config.baselineEmission

/-- The event that a viewer receives from a description in the given light. -/
def received (narrator : Narrator Words) (description : Description) (senses : Senses)
    (light : Float) : Event :=
  description.event.withStrength
    ((narrator.emission light).strength senses description.event.channel description.modifier)

def observe [Vocabulary Words] (narrator : Narrator Words) (entity : Entity) (senses : Senses)
    (light : Float) (voice : Option Context) : List String :=
  entity.descriptions.filterMap fun description =>
    let perceived := narrator.received description senses light
    match narrator.describe (entity.observed perceived) voice narrator.config.anonymize with
    | .ok line => if line.isEmpty then none else some line
    | .error _ => none

end SensoryProse.Narrator
