import SensoryProse.Narrator.Observation
import SensoryProse.Proofs.Phrase.Attaching

/-!
# Details of what is observed

What is told of an entity carries the detail that was perceived, if it can be made out.  Whether it
can is read off the strength as it was perceived, while what is told has its strength brought into
the scale.  On the scale the two are the same, and nothing is told as saturated together with its
detail.  What was perceived at a strength beyond the scale is told as saturated and carries its
detail all the same.
-/

namespace SensoryProse

namespace Event

/-- The strength of the event was never brought into the scale. -/
def BeyondScale (event : Event) : Prop := event.strength < weakest ∨ strongest < event.strength

theorem isSaturated_iff {event : Event} :
    event.isSaturated = true ↔ event.strength = weakest ∨ event.strength = strongest := by
  simp only [isSaturated, beq_iff_eq, weakest, strongest]
  omega

/-- Bringing an event into the scale leaves it saturated, or makes it so. -/
theorem isSaturated_of_iff {event : Event} {phrase : Phrase} {channel : Channel} :
    (Event.of phrase event.strength channel).isSaturated = true ↔
      event.isSaturated = true ∨ event.BeyondScale := by
  simp only [isSaturated_iff, BeyondScale, Event.of, clampStrength, weakest, strongest]
  omega

theorem not_saturated_of_beyondScale {event : Event} (beyond : event.BeyondScale) :
    event.isSaturated = false := by
  rw [Bool.eq_false_iff]
  intro saturated
  rw [isSaturated_iff] at saturated
  simp only [BeyondScale, weakest, strongest] at beyond saturated
  omega

theorem withStrength_onScale (event : Event) (strength : Int) :
    ¬ (event.withStrength strength).BeyondScale := by
  simp only [BeyondScale, withStrength, clampStrength, weakest, strongest]
  omega

end Event

namespace Entity

/-- The entity has the detail attached, if it can be made out. -/
def Takes (entity : Entity) (detail : Phrase) : Prop :=
  detail.text.isEmpty = false ∧ detail.equivalent (entity.subject detail) = false

/-- What of a perceived detail is told of an entity. -/
structure TellsDetail (entity : Entity) (perceived : Event) : Prop where
  saturated_iff : (entity.observed perceived).isSaturated = true ↔
    perceived.isSaturated = true ∨ perceived.BeyondScale
  bare_iff : (entity.observed perceived).isSaturated = true →
    ((entity.observed perceived).phrase.modifiers = [] ↔
      ¬ (perceived.BeyondScale ∧ entity.Takes perceived.phrase))
  revealed : perceived.BeyondScale → entity.Takes perceived.phrase →
    (entity.observed perceived).phrase.modifiers = [perceived.phrase]
  clear : (entity.observed perceived).isSaturated = false → entity.Takes perceived.phrase →
    (entity.observed perceived).phrase.modifiers = [perceived.phrase]

section

variable {entity : Entity} {perceived : Event}

theorem observed_isSaturated_iff :
    (entity.observed perceived).isSaturated = true ↔
      perceived.isSaturated = true ∨ perceived.BeyondScale :=
  Event.isSaturated_of_iff

theorem observed_modifiers_of_saturated (saturated : perceived.isSaturated = true) :
    (entity.observed perceived).phrase.modifiers = [] := by
  simp [observed, Event.of, saturated, subject]

theorem observed_modifiers_of_takes (clear : perceived.isSaturated = false)
    (takes : entity.Takes perceived.phrase) :
    (entity.observed perceived).phrase.modifiers = [perceived.phrase] := by
  obtain ⟨named, different⟩ := takes
  have attached := Phrase.attach_modifiers_of_fresh different (by simp [subject])
  simpa [observed, Event.of, clear, named, subject] using attached

theorem observed_modifiers_of_not_takes (declines : ¬ entity.Takes perceived.phrase) :
    (entity.observed perceived).phrase.modifiers = [] := by
  have bare := Phrase.attach_bare_modifiers (entity.subject perceived.phrase) perceived.phrase
  cases named : perceived.phrase.text.isEmpty with
  | true => simp [observed, Event.of, named, subject]
  | false =>
      have same : perceived.phrase.equivalent (entity.subject perceived.phrase) = true := by
        simpa [Takes, named] using declines
      rw [same, if_pos rfl] at bare
      simp only [observed, Event.of, named, Bool.or_false]
      split
      · rfl
      · exact bare

end

/-- Nothing that is told as saturated carries a detail, unless it was perceived at a strength beyond
the scale, and what is told as clear carries every detail that the entity takes. -/
theorem tells_detail (entity : Entity) (perceived : Event) : entity.TellsDetail perceived where
  saturated_iff := observed_isSaturated_iff
  bare_iff toldSaturated := by
    constructor
    · intro bare ⟨beyond, takes⟩
      rw [observed_modifiers_of_takes (Event.not_saturated_of_beyondScale beyond) takes] at bare
      cases bare
    · intro withheld
      rcases observed_isSaturated_iff.mp toldSaturated with saturated | beyond
      · exact observed_modifiers_of_saturated saturated
      · apply observed_modifiers_of_not_takes
        intro takes
        exact withheld ⟨beyond, takes⟩
  revealed beyond takes :=
    observed_modifiers_of_takes (Event.not_saturated_of_beyondScale beyond) takes
  clear toldClear takes := by
    apply observed_modifiers_of_takes _ takes
    rw [Bool.eq_false_iff] at toldClear ⊢
    intro saturated
    exact toldClear (observed_isSaturated_iff.mpr (.inl saturated))

/-- Brightness that was perceived at a strength beyond the scale. -/
def dazzling : Event where
  phrase := { role := .descriptive, wordClass := .adjective, text := "bright" }
  strength := 150
  channel := .visible

theorem dazzling_lantern_detailed :
    let told := Entity.observed { id := 1, name := "lantern" } dazzling
    ¬ (told.isSaturated = true → told.phrase.modifiers = []) := by
  decide

end Entity

/-- What a viewer receives is on the scale, so what is told of it as saturated carries no detail. -/
theorem Narrator.observed_received_bare {Words : Type} (narrator : Narrator Words) (entity : Entity)
    (description : Description) (senses : Senses) (light : Float)
    (saturated :
      (entity.observed (narrator.received description senses light)).isSaturated = true) :
    (entity.observed (narrator.received description senses light)).phrase.modifiers = [] := by
  apply Entity.observed_modifiers_of_saturated
  apply (Entity.observed_isSaturated_iff.mp saturated).resolve_right
  exact Event.withStrength_onScale _ _

end SensoryProse
