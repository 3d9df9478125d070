import SensoryProse.Narrator.Observation
import SensoryProse.Proofs.Narrator.Contexts
import SensoryProse.Proofs.Narrator.Glimpses
import SensoryProse.Proofs.Writer.Agreement

/-!
# What cannot be made out

Of an entity that is too faint or too intense to be made out, a viewer is told a glimpse.  Tone,
pronouns and observer outlast in the contexts of a glimpse, but nothing that writes it looks at
them: only an article is chosen by tone, and no phrase of a glimpse is determinate.  So the line
that is told shows the channel, the side of the scale and the language, and nothing else.
-/

namespace SensoryProse

namespace Event

/-- The strength of what cannot be made out, on either side of the scale. -/
def limit (tooIntense : Bool) : Int := if tooIntense then strongest else weakest

theorem clampStrength_limit (tooIntense : Bool) :
    clampStrength (limit tooIntense) = limit tooIntense := by
  cases tooIntense <;> rfl

variable {event : Event} {tooIntense : Bool}

theorem isSaturated_of_limit (unseen : event.strength = limit tooIntense) :
    event.isSaturated = true := by
  rw [isSaturated, unseen]
  cases tooIntense <;> rfl

theorem isTooIntense_of_limit (unseen : event.strength = limit tooIntense) :
    event.isTooIntense = tooIntense := by
  rw [isTooIntense, unseen]
  cases tooIntense <;> rfl

end Event

/-- The context with nothing in it but what equivalence compares. -/
def Context.salient (context : Context) : Context where
  tense := context.tense
  position := context.position
  perspective := context.perspective
  determinant := context.determinant
  plural := context.plural
  possessive := context.possessive

namespace Phrase

mutual

/-- The tree with salient contexts throughout. -/
def salient : Phrase → Phrase
  | ⟨role, wordClass, text, modifiers, context⟩ =>
      ⟨role, wordClass, text, salientList modifiers, context.salient⟩

def salientList : List Phrase → List Phrase
  | [] => []
  | phrase :: phrases => phrase.salient :: salientList phrases

end

@[simp] theorem salientList_eq_map (phrases : List Phrase) :
    salientList phrases = phrases.map salient := by
  induction phrases with
  | nil => rfl
  | cons phrase phrases induction => simp [salientList, induction]

theorem salient_eq (phrase : Phrase) :
    phrase.salient =
      { phrase with
        modifiers := phrase.modifiers.map salient
        context := phrase.context.salient } := by
  cases phrase
  simp [salient]

theorem salient_key (phrase : Phrase) : phrase.salient.key = phrase.key := by
  rw [salient_eq]
  rfl

/-- Nothing of the subject is salient in its glimpse. -/
theorem glimpsed_salient (first second : Phrase) (channel : Channel) (tooIntense : Bool) :
    (first.glimpsed channel tooIntense).salient = (second.glimpsed channel tooIntense).salient := by
  cases channel <;> cases tooIntense <;> rfl

theorem glimpsed_indeterminate (subject : Phrase) (channel : Channel) (tooIntense : Bool) :
    ∀ node ∈ (subject.glimpsed channel tooIntense).nodes, node.context.determinant = false := by
  cases channel <;> cases tooIntense <;>
    simp [glimpsed, Glimpse.of, nodes, attach, equivalent, key, Context.blurred,
      Context.moreElegant]

end Phrase

namespace Writer

variable {Words : Type} [Vocabulary Words] [LawfulVocabulary Words]

theorem salient_agreeAt (language : Language) (lexicon : Words) {node : Phrase}
    (indeterminate : node.context.determinant = false) :
    AgreeAt (Writer.of language lexicon) (Writer.of language lexicon) Phrase.salient node := by
  have supplied : ∀ phrase : Phrase, phrase.context.determinant = false →
      (Writer.of language lexicon).supplied phrase = [] := by
    intro phrase determinant
    simp [Writer.supplied, suppliesArticle, determinant]
  have salientIndeterminate : node.salient.context.determinant = false := by
    rw [Phrase.salient_eq]
    exact indeterminate
  refine ⟨?_, ?_, ?_, ?_, ?_, ?_⟩
  · rw [Phrase.salient_eq]
  · rw [Phrase.salient_eq]
  · rw [Phrase.salient_eq]
  · rw [Phrase.salient_eq]
  · exact shapeOf_of_key language lexicon node.salient_key
  · rw [supplied _ salientIndeterminate, supplied _ indeterminate]

theorem write_glimpsed (language : Language) (lexicon : Words) (kind : ClauseKind)
    (first second : Phrase) (channel : Channel) (tooIntense : Bool) :
    (Writer.of language lexicon).write kind (first.glimpsed channel tooIntense) =
      (Writer.of language lexicon).write kind (second.glimpsed channel tooIntense) := by
  have written : ∀ subject : Phrase,
      (Writer.of language lexicon).write kind (subject.glimpsed channel tooIntense).salient =
        (Writer.of language lexicon).write kind (subject.glimpsed channel tooIntense) := by
    intro subject
    apply write_agree rfl
    intro node member
    exact salient_agreeAt language lexicon
      (subject.glimpsed_indeterminate channel tooIntense node member)
  rw [← written first, ← written second, Phrase.glimpsed_salient first second]

end Writer

namespace Narrator

variable {Words : Type} [Vocabulary Words]

/-- Two voices for two phrases, or no voice for either, that have the roots of events told in the
same language. -/
inductive SameTongue (first second : Phrase) : Option Context → Option Context → Prop
  | voices {firstVoice secondVoice : Context}
      (same : firstVoice.language = secondVoice.language) :
      SameTongue first second (some firstVoice) (some secondVoice)
  | phrases (same : first.context.language = second.context.language) :
      SameTongue first second none none

section

variable {narrator : Narrator Words} {event : Event} {voice : Option Context} {anonymize : Bool}

/-- A saturated event without modifiers is told as one glimpse. -/
theorem clauses_of_bare (named : event.phrase.text.isEmpty = false)
    (bare : event.phrase.modifiers = []) (saturated : event.isSaturated = true) :
    narrator.clauses event voice anonymize =
      (narrator.languageFor (voice.getD event.phrase.context).language).map fun language =>
        [clause event .statement
          ((narrator.partedSubject voice anonymize language 0 event.phrase).glimpsed event.channel
            event.isTooIntense)] := by
  have alone : event.phrase.chainedSubjects 0 = [(0, event.phrase)] := by
    rw [Phrase.chainedSubjects_eq, bare]
    rfl
  have glimpse : ∀ language, narrator.tell event voice anonymize language 0 event.phrase =
      clause event .statement
        ((narrator.partedSubject voice anonymize language 0 event.phrase).glimpsed event.channel
          event.isTooIntense) := by
    intro language
    have noModifiers : (narrator.partedSubject voice anonymize language 0
        event.phrase).modifiers = [] := by
      rw [partedSubject_modifiers, Phrase.withoutSubjects_modifiers, bare]
      rfl
    exact mainClause_of_bare saturated noModifiers
  rw [clauses_eq_map_tell named, alone]
  simp only [List.map_cons, List.map_nil, glimpse]

end

/-- An event of which nothing can be made out but its channel and the side of the scale. -/
structure Undetected (event : Event) (channel : Channel) (tooIntense : Bool) : Prop where
  named : event.phrase.text.isEmpty = false
  bare : event.phrase.modifiers = []
  saturated : event.isSaturated = true
  carried : event.channel = channel
  side : event.isTooIntense = tooIntense

theorem writtenClauses_undetected {narrator : Narrator Words} {event : Event}
    {voice : Option Context} {anonymize : Bool} {channel : Channel} {tooIntense : Bool}
    (undetected : Undetected event channel tooIntense) :
    narrator.writtenClauses event voice anonymize =
      (narrator.languageFor (voice.getD event.phrase.context).language).bind fun language =>
        (narrator.write (clause event .statement
          ((narrator.partedSubject voice anonymize language 0 event.phrase).glimpsed channel
            tooIntense))).map fun written => [written] := by
  obtain ⟨named, bare, saturated, rfl, rfl⟩ := undetected
  rw [writtenClauses, clauses_of_bare named bare saturated]
  cases narrator.languageFor (voice.getD event.phrase.context).language with
  | error cause => rfl
  | ok language =>
      simp only [Except.map, bind, Except.bind, List.mapM_cons, List.mapM_nil, pure, Except.pure]

variable [LawfulVocabulary Words]

/-- Two glimpses of the same kind are written alike if their subjects name the same language. -/
theorem write_clause_glimpsed (narrator : Narrator Words) (firstEvent secondEvent : Event)
    (kind : ClauseKind) {first second : Phrase} (channel : Channel) (tooIntense : Bool)
    (sameLanguage : first.context.language = second.context.language) :
    narrator.write (clause firstEvent kind (first.glimpsed channel tooIntense)) =
      narrator.write (clause secondEvent kind (second.glimpsed channel tooIntense)) := by
  simp only [write, clause, glimpsed_language, sameLanguage]
  cases narrator.languageFor second.context.language with
  | error cause => rfl
  | ok language =>
      have alike := Writer.write_glimpsed language narrator.lexicon kind first second channel
        tooIntense
      simp only [bind, Except.bind, pure, Except.pure, alike]

/-- Two undetected events on one channel are told alike, if they are told in one language. -/
theorem writtenClauses_congr_undetected {narrator : Narrator Words} {first second : Event}
    {firstVoice secondVoice : Option Context} {anonymize : Bool} {channel : Channel}
    {tooIntense : Bool} (firstUndetected : Undetected first channel tooIntense)
    (secondUndetected : Undetected second channel tooIntense)
    (sameLanguage : (firstVoice.getD first.phrase.context).language =
      (secondVoice.getD second.phrase.context).language) :
    narrator.writtenClauses first firstVoice anonymize =
      narrator.writtenClauses second secondVoice anonymize := by
  rw [writtenClauses_undetected firstUndetected, writtenClauses_undetected secondUndetected,
    sameLanguage]
  cases narrator.languageFor (secondVoice.getD second.phrase.context).language with
  | error cause => rfl
  | ok language =>
      have sameRoots := (narrator.partedSubject_language firstVoice anonymize language 0
        first.phrase).trans
          (narrator.partedSubject_language secondVoice anonymize language 0 second.phrase).symm
      simp only [Except.bind,
        narrator.write_clause_glimpsed first second .statement channel tooIntense sameRoots]

/-- What a viewer is told of an entity that cannot be made out does not carry the detail. -/
theorem observed_of_saturated (entity : Entity) {perceived : Event}
    (saturated : perceived.isSaturated = true) :
    entity.observed perceived =
      .of (entity.subject perceived.phrase) perceived.strength perceived.channel := by
  simp [Entity.observed, saturated]

theorem undetected_observed {entity : Entity} {perceived : Event} {tooIntense : Bool}
    (named : entity.name.isEmpty = false)
    (unseen : perceived.strength = Event.limit tooIntense) :
    Undetected (entity.observed perceived) perceived.channel tooIntense := by
  have told := observed_of_saturated entity (Event.isSaturated_of_limit unseen)
  have stillUnseen : (entity.observed perceived).strength = Event.limit tooIntense := by
    rw [told, Event.of, unseen]
    exact Event.clampStrength_limit tooIntense
  constructor
  · rw [told]
    exact named
  · rw [told]
    rfl
  · exact Event.isSaturated_of_limit stillUnseen
  · rw [told]
    rfl
  · exact Event.isTooIntense_of_limit stillUnseen

/-- Both voices, or else both descriptions, ask for the same language. -/
theorem SameTongue.requested {firstEntity secondEntity : Entity} {first second : Event}
    {firstVoice secondVoice : Option Context}
    (sameTongue : SameTongue first.phrase second.phrase firstVoice secondVoice)
    (firstSaturated : first.isSaturated = true) (secondSaturated : second.isSaturated = true) :
    (firstVoice.getD (firstEntity.observed first).phrase.context).language =
      (secondVoice.getD (secondEntity.observed second).phrase.context).language := by
  rw [observed_of_saturated firstEntity firstSaturated,
    observed_of_saturated secondEntity secondSaturated]
  cases sameTongue with
  | voices same => exact same
  | phrases same => exact same

/-- Two named entities with one description each on the same channel, both too faint or both too
intense to be made out, are told in the same lines if they are told in the same language. -/
theorem observe_undetected {narrator : Narrator Words} {first second : Entity}
    {firstDetail secondDetail : Description} {firstSenses secondSenses : Senses}
    {firstLight secondLight : Float} {firstVoice secondVoice : Option Context}
    (firstNamed : first.name.isEmpty = false) (secondNamed : second.name.isEmpty = false)
    (firstOnly : first.descriptions = [firstDetail])
    (secondOnly : second.descriptions = [secondDetail])
    (sameChannel : firstDetail.event.channel = secondDetail.event.channel)
    (sameLimit :
      ((narrator.received firstDetail firstSenses firstLight).strength = Event.weakest ∧
          (narrator.received secondDetail secondSenses secondLight).strength = Event.weakest) ∨
        ((narrator.received firstDetail firstSenses firstLight).strength = Event.strongest ∧
          (narrator.received secondDetail secondSenses secondLight).strength = Event.strongest))
    (sameTongue :
      SameTongue firstDetail.event.phrase secondDetail.event.phrase firstVoice secondVoice) :
    narrator.observe first firstSenses firstLight firstVoice =
      narrator.observe second secondSenses secondLight secondVoice := by
  let firstPerceived := narrator.received firstDetail firstSenses firstLight
  let secondPerceived := narrator.received secondDetail secondSenses secondLight
  obtain ⟨tooIntense, firstUnseen, secondUnseen⟩ : ∃ tooIntense : Bool,
      firstPerceived.strength = Event.limit tooIntense ∧
        secondPerceived.strength = Event.limit tooIntense := by
    rcases sameLimit with faint | intense
    · exact ⟨false, faint⟩
    · exact ⟨true, intense⟩
  have firstUndetected : Undetected (first.observed firstPerceived) firstDetail.event.channel
      tooIntense := undetected_observed firstNamed firstUnseen
  have secondUndetected : Undetected (second.observed secondPerceived) firstDetail.event.channel
      tooIntense := sameChannel ▸ undetected_observed secondNamed secondUnseen
  have sameLanguage :
      (firstVoice.getD (first.observed firstPerceived).phrase.context).language =
        (secondVoice.getD (second.observed secondPerceived).phrase.context).language :=
    SameTongue.requested sameTongue (Event.isSaturated_of_limit firstUnseen)
      (Event.isSaturated_of_limit secondUnseen)
  have alike : narrator.describe (first.observed firstPerceived) firstVoice
        narrator.config.anonymize =
      narrator.describe (second.observed secondPerceived) secondVoice
        narrator.config.anonymize := by
    rw [describe, describe,
      writtenClauses_congr_undetected firstUndetected secondUndetected sameLanguage]
  simp only [observe, firstOnly, secondOnly, List.filterMap_cons, List.filterMap_nil]
  rw [alike]

/-- The eyes of a viewer who needs far more light than there is. -/
def dimSighted : Senses where
  visible := ⟨200, 300⟩

def pale : Description where
  event :=
    { phrase := { role := .descriptive, wordClass := .adjective, text := "pale" }
      strength := 0
      channel := .visible }

def tall : Description where
  event :=
    { phrase :=
        { role := .descriptive, wordClass := .adjective, text := "tall"
          modifiers := [{ role := .descriptive, wordClass := .adverb, text := "very" }]
          context := { plural := true } }
      strength := 10
      channel := .visible }
  modifier := 20

def moth : Entity where
  id := 1
  name := "moth"
  descriptions := [pale]

def aldric : Entity where
  id := 2
  name := "Aldric"
  properName := true
  pronouns := .he
  descriptions := [tall]

def plainVoice : Context := .inLanguage plainLanguage.name

/-- Of a moth in the dark, told plainly, and of Aldric in a little light, told in an elegant past,
the viewer sees the same shadows. -/
theorem moth_observed_as_aldric :
    (plain.received pale dimSighted 0).strength = Event.weakest ∧
      (plain.received tall dimSighted 50).strength = Event.weakest ∧
      plain.observe moth dimSighted 0 (some plainVoice) = ["See shadows."] ∧
      plain.observe moth dimSighted 0 (some plainVoice) =
        plain.observe aldric dimSighted 50
          (some { plainVoice with tense := .past, elegance := 5 }) := by
  have mothUnseen : (plain.received pale dimSighted 0).strength = Event.weakest := by decide
  have aldricUnseen : (plain.received tall dimSighted 50).strength = Event.weakest := by decide
  refine ⟨mothUnseen, aldricUnseen, by decide +kernel, ?_⟩
  exact observe_undetected (by decide) (by decide) rfl rfl rfl (.inl ⟨mothUnseen, aldricUnseen⟩)
    (.voices rfl)

end Narrator

end SensoryProse
