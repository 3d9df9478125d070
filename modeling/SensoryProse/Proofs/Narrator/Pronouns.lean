import SensoryProse.Proofs.Lexicon.Choosing
import SensoryProse.Proofs.Lexicon.Vocabularies
import SensoryProse.Proofs.Narrator.Anonymity

/-!
# The pronoun that stands for a name

A root that is told without its name is called by the pronoun that fits it best.  The second person
counts for the fit but does not decide it: a pronoun of another person may fit better, and it also
stands in where there is none of the second.  The form of gender is left for lexicons without any
pronoun of the language.  Which of several pronouns that fit equally well is drawn plays no part.
-/

namespace SensoryProse.Narrator

/-- A pronoun of the lexicon that can be used in the language of the context. -/
structure PronounFor (lexicon : Lexicon) (context : Context) (sense : Sense) : Prop where
  held : sense ∈ lexicon.senses
  wordClass : sense.wordClass = .pronoun
  language : ∀ its ours, sense.language = some its → context.language = some ours → its = ours

/-- The text is what a phrase is to be called by: a pronoun of the second person or, where there is
none that can be used, the form of gender. -/
def Addresses (lexicon : Lexicon) (context : Context) (text : String) : Prop :=
  (∃ sense, PronounFor lexicon context sense ∧ sense.perspective = some .second ∧
      text = sense.name) ∨
    ((∀ sense, PronounFor lexicon context sense → sense.perspective ≠ some .second) ∧
      text = genderForm context)

section

variable {lexicon : Lexicon} {drawing : Drawing} {context : Context} {sense : Sense}

theorem suits_pronounContext_iff :
    sense ∈ lexicon.senses ∧ Lexicon.Suits (pronounContext context) .pronoun sense ↔
      PronounFor lexicon context sense := by
  constructor
  · rintro ⟨held, sameClass, language, _⟩
    exact ⟨held, sameClass, language⟩
  · rintro ⟨held, sameClass, language⟩
    exact ⟨held, sameClass, language, fun _ tagged => absurd tagged List.not_mem_nil⟩

/-- How well a pronoun fits a phrase of the given context. -/
def pronounFitness (context : Context) (sense : Sense) : Int :=
  Lexicon.fitness sense (pronounContext context)

theorem chooseBy_pronoun_eq_none_iff :
    lexicon.chooseBy drawing (pronounContext context) .pronoun = none ↔
      ∀ sense, ¬PronounFor lexicon context sense := by
  rw [Lexicon.chooseBy_eq_none_iff]
  simp only [← suits_pronounContext_iff, not_and]

theorem pronounFor_of_chooseBy
    (chosen : lexicon.chooseBy drawing (pronounContext context) .pronoun = some sense) :
    PronounFor lexicon context sense ∧ ∀ other, PronounFor lexicon context other →
      pronounFitness context other ≤ pronounFitness context sense := by
  have fits := Lexicon.fitsBest_of_chooseBy chosen
  refine ⟨suits_pronounContext_iff.mp ⟨fits.held, fits.suits⟩, ?_⟩
  intro other pronoun
  obtain ⟨held, suits⟩ := suits_pronounContext_iff.mpr pronoun
  exact fits.greatest other held suits

end

/-- What an anonymized phrase is called by, and when that is what it is to be called by. -/
structure CalledBy (lexicon : Lexicon) (drawing : Drawing) (context : Context) (text : String) :
    Prop where
  gendered : (∀ sense, ¬PronounFor lexicon context sense) → text = genderForm context
  fitting : ∀ sense, PronounFor lexicon context sense →
    ∃ best, PronounFor lexicon context best ∧ text = best.name ∧
      ∀ other, PronounFor lexicon context other →
        pronounFitness context other ≤ pronounFitness context best
  addressed : ∀ second, PronounFor lexicon context second → second.perspective = some .second →
    (∀ other, PronounFor lexicon context other → other.perspective ≠ some .second →
      pronounFitness context other < pronounFitness context second) →
    Addresses lexicon context text
  displaced : ∀ other, PronounFor lexicon context other → other.perspective ≠ some .second →
    (∀ second, PronounFor lexicon context second → second.perspective = some .second →
      pronounFitness context second < pronounFitness context other) →
    ∃ best, PronounFor lexicon context best ∧ best.perspective ≠ some .second ∧ text = best.name
  addresses_iff : Addresses lexicon context text ↔
    ∀ best, lexicon.chooseBy drawing (pronounContext context) .pronoun = some best →
      Addresses lexicon context best.name

section

variable {Words : Type} [DrawnVocabulary Words]

theorem pronounOf_calledBy (narrator : Narrator Words) (context : Context) :
    CalledBy (DrawnVocabulary.lexicon narrator.lexicon)
      (DrawnVocabulary.drawing narrator.lexicon) context (narrator.pronounOf context) := by
  rw [pronounOf, DrawnVocabulary.choose_eq]
  generalize DrawnVocabulary.lexicon narrator.lexicon = lexicon
  generalize DrawnVocabulary.drawing narrator.lexicon = drawing
  cases chosen : lexicon.chooseBy drawing (pronounContext context) .pronoun with
  | none =>
      have unsupplied := chooseBy_pronoun_eq_none_iff.mp chosen
      exact {
        gendered := fun _ => rfl
        fitting := fun sense pronoun => absurd pronoun (unsupplied sense)
        addressed := fun second pronoun => absurd pronoun (unsupplied second)
        displaced := fun other pronoun => absurd pronoun (unsupplied other)
        addresses_iff := by
          refine iff_of_true (.inr ⟨fun sense pronoun => absurd pronoun (unsupplied sense), rfl⟩) ?_
          simp [chosen] }
  | some best =>
      obtain ⟨pronoun, greatest⟩ := pronounFor_of_chooseBy chosen
      exact {
        gendered := fun unsupplied => absurd pronoun (unsupplied best)
        fitting := fun _ _ => ⟨best, pronoun, rfl, greatest⟩
        addressed := by
          intro second isPronoun _ fittest
          refine .inl ⟨best, pronoun, ?_, rfl⟩
          by_contra different
          exact Int.not_le.mpr (fittest best pronoun different) (greatest second isPronoun)
        displaced := by
          intro other isPronoun _ fittest
          refine ⟨best, pronoun, ?_, rfl⟩
          intro isSecond
          exact Int.not_le.mpr (fittest best pronoun isSecond) (greatest other isPronoun)
        addresses_iff := by simp [chosen] }

variable {narrator : Narrator Words} {event : Event} {voice : Option Context} {language : Language}

theorem genderForm_spokenContext (root : Phrase) :
    genderForm (spokenContext voice language root) = genderForm root.context := by
  cases voice <;> rfl

/-- A root that can be made out is told by the name that it is narrated under. -/
theorem tell_text_of_clear {anonymize : Bool} (clear : event.isSaturated = false)
    (root : Phrase) :
    (narrator.tell event voice anonymize language 0 root).subject.text =
      (narrator.narratedRoot voice anonymize language root).text := by
  rw [tell_subject_of_clear _ _ _ _ _ _ clear]
  exact (congrArg Phrase.text (completed_bare narrator _) :)

/-- How an event is told without the name of its root: the phrase that takes the place of the root,
and its clause if it can be made out. -/
structure CallsRoot (narrator : Narrator Words) (event : Event) (voice : Option Context)
    (language : Language) (first : Clause) : Prop where
  called : CalledBy (DrawnVocabulary.lexicon narrator.lexicon)
    (DrawnVocabulary.drawing narrator.lexicon) (spokenContext voice language event.phrase)
    (narrator.narratedRoot voice true language event.phrase).text
  form : genderForm (spokenContext voice language event.phrase) = genderForm event.phrase.context
  shown : event.isSaturated = false → first.subject.text =
    (narrator.narratedRoot voice true language event.phrase).text

/-- The root of an event that is told without its name is called by the pronoun that fits it best.
This is what it is to be called by exactly if the name of the pronoun that is chosen is. -/
theorem clauses_call_root {told : List Clause} (named : event.phrase.text.isEmpty = false)
    (narrated : narrator.clauses event voice true = .ok told) :
    ∃ language first others,
      narrator.languageFor (voice.getD event.phrase.context).language = .ok language ∧
        told = first :: others ∧ CallsRoot narrator event voice language first := by
  obtain ⟨language, found, rfl⟩ := (clauses_eq_ok_iff named).mp narrated
  rw [Phrase.chainedSubjects_eq, List.map_cons]
  refine ⟨language, _, _, found, rfl, ?_, genderForm_spokenContext event.phrase, ?_⟩
  · rw [narratedRoot_eq_anonymized, anonymized_eq]
    exact pronounOf_calledBy narrator (spokenContext voice language event.phrase)
  · intro clear
    exact tell_text_of_clear clear event.phrase

end

def ye : Sense where
  name := "ye"
  wordClass := .pronoun
  perspective := some .second
  elegance := 10

def they : Sense where
  name := "they"
  wordClass := .pronoun
  perspective := some .third

/-- A narrator that knows the given pronouns and nothing else. -/
def calling (pronouns : List Sense) : Narrator where
  languages := .ofList [plainLanguage]
  lexicon := .ofSenses pronouns 0

def mira : Event := waving .properNoun "Mira" { pronouns := some .she }

/-- The context that Mira is spoken of in. -/
def miraContext : Context := spokenContext none plainLanguage mira.phrase

/-- *They waves*. -/
def miraTold : Clause :=
  clause mira .partialClause
    { role := .subject, wordClass := .pronoun, text := "they"
      context := pronounContext miraContext, modifiers := mira.phrase.modifiers }

section

variable {pronouns : List Sense} (known : pronouns = [they] ∨ pronouns = [ye, they])

include known

theorem they_mem_calling : they ∈ (calling pronouns).lexicon.senses := by
  rcases known with rfl | rfl <;> decide

theorem mem_calling {sense : Sense} (held : sense ∈ (calling pronouns).lexicon.senses) :
    sense = ye ∨ sense = they := by
  rcases known with rfl | rfl
  · exact .inr (List.mem_singleton.mp held)
  · have either : sense ∈ [ye, they] := held
    simpa using either

/-- The pronoun of the third person is chosen, whether or not there is one of the second. -/
theorem calling_choose :
    (calling pronouns).lexicon.choose (pronounContext miraContext) .pronoun = some they := by
  have suits : Lexicon.Suits (pronounContext miraContext) .pronoun they :=
    Lexicon.usable_iff.mp (by decide)
  refine Lexicon.chooseBy_eq_some_of_unique (they_mem_calling known) suits ?_
  intro other held _ different
  rw [(mem_calling known held).resolve_right different]
  decide

theorem mira_narrated :
    (calling pronouns).narratedRoot none true plainLanguage mira.phrase = miraTold.subject := by
  have text : (((calling pronouns).lexicon.choose (pronounContext miraContext) .pronoun).map
      (·.name)).getD "she" = "they" := by
    rw [calling_choose known]
    rfl
  rw [narratedRoot_eq_anonymized, anonymized_eq]
  exact congrArg (fun text => { miraTold.subject with text }) text

theorem mira_clauses : (calling pronouns).clauses mira none true = .ok [miraTold] := by
  rw [clauses_eq_ok_iff rfl]
  refine ⟨plainLanguage, rfl, ?_⟩
  change _ = [(calling pronouns).mainClause mira false
    ((calling pronouns).narratedRoot none true plainLanguage mira.phrase).withoutSubjects]
  rw [mira_narrated known]
  rfl

end

theorem mira_called_by_fit :
    mira.phrase.text.isEmpty = false ∧
      (calling [ye, they]).clauses mira none true = .ok [miraTold] ∧
      CallsRoot (calling [ye, they]) mira none plainLanguage miraTold := by
  have narrated := mira_clauses (.inr rfl)
  obtain ⟨language, first, others, found, told, calls⟩ := clauses_call_root rfl narrated
  cases found
  cases told
  exact ⟨rfl, narrated, calls⟩

/-- Mira is neither called by the form of her gender where no pronoun of the second person is known,
nor by that pronoun where one is. -/
theorem mira_called_they :
    mira.phrase.text.isEmpty = false ∧
      (calling [they]).clauses mira none true = .ok [miraTold] ∧
      ¬Addresses (calling [they]).lexicon miraContext miraTold.subject.text ∧
      (calling [ye, they]).clauses mira none true = .ok [miraTold] ∧
      ¬Addresses (calling [ye, they]).lexicon miraContext miraTold.subject.text := by
  have called : ∀ pronouns, pronouns = [they] ∨ pronouns = [ye, they] →
      ¬Addresses (calling pronouns).lexicon miraContext miraTold.subject.text := by
    rintro pronouns known (⟨sense, pronoun, second, name⟩ | ⟨_, form⟩)
    · rcases mem_calling known pronoun.held with rfl | rfl
      · exact absurd name (by decide)
      · exact absurd second (by decide)
    · exact absurd form (by decide)
  exact ⟨rfl, mira_clauses (.inl rfl), called _ (.inl rfl), mira_clauses (.inr rfl),
    called _ (.inr rfl)⟩

end SensoryProse.Narrator
