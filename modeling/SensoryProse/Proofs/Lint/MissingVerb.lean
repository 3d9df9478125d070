import SensoryProse.Lint.Basic
import SensoryProse.Proofs.Lexicon.Choosing
import SensoryProse.Proofs.Narrator.Telling

/-!
# The warning of a missing verb

The linter asks the lexicon for a verb of being in one context of the language, a narrator in the
context of each subject that has a description and no verb.  Which senses suit depends on nothing
but the language in either, so the warning is given exactly if no such subject is completed, and
withheld exactly if every one is.
-/

namespace SensoryProse.Lint

open Lexicon (Suits)

/-- A verb that is tagged as a verb of being and belongs to the language or to none. -/
structure BeingIn (name : String) (sense : Sense) : Prop where
  verb : sense.wordClass = .verb
  language : ∀ its, sense.language = some its → its = name
  tagged : Narrator.existential ∈ sense.semantics

/-- A phrase of the language with a description that no verb stands above. -/
structure Verbless (name : String) (subject : Phrase) : Prop where
  language : subject.context.language = some name
  described : subject.modifiers ≠ []
  noVerb : subject.hasRole .verb = false

section

variable {name : String} {context : Context} {sense : Sense} {lexicon : Lexicon}
  {language : Language} {narrator : Narrator} {subject : Phrase}

/-- Of a context in which a verb of being is sought, only the language matters. -/
theorem suits_verb_iff (spoken : context.language = some name)
    (tags : context.semantics = .singleton Narrator.existential) :
    Suits context .verb sense ↔ BeingIn name sense := by
  have sought : ∀ tag, tag ∈ context.semantics ↔ tag = Narrator.existential := by
    intro tag
    rw [tags, Tags.singleton, Tags.mem_insert]
    exact or_iff_left List.not_mem_nil
  constructor
  · intro suits
    exact {
      verb := suits.wordClass
      language := fun its named => suits.language its name named spoken
      tagged := suits.tags Narrator.existential ((sought _).mpr rfl) }
  · intro being
    refine ⟨being.verb, ?_, ?_⟩
    · intro its ours named oursNamed
      obtain rfl : name = ours := Option.some.inj (spoken.symm.trans oursNamed)
      exact being.language its named
    · intro tag asked
      rw [(sought tag).mp asked]
      exact being.tagged

theorem choose_verb_eq_none_iff (spoken : context.language = some name)
    (tags : context.semantics = .singleton Narrator.existential) :
    lexicon.choose context .verb = none ↔ ∀ sense ∈ lexicon.senses, ¬BeingIn name sense := by
  rw [Lexicon.choose, Lexicon.chooseBy_eq_none_iff]
  simp only [suits_verb_iff spoken tags]

/-- The linter warns if the lexicon holds no verb of being for the language. -/
theorem noExistential_mem_iff :
    .noExistential ∈ lexiconFindings language lexicon ↔
      ∀ sense ∈ lexicon.senses, ¬BeingIn language.name sense := by
  have warned : .noExistential ∈ lexiconFindings language lexicon ↔
      lacksExistential language lexicon = true := by
    simp [lexiconFindings]
  rw [warned, lacksExistential, Option.isNone_iff_eq_none]
  exact choose_verb_eq_none_iff rfl rfl

theorem existentialVerb?_eq_none_iff (verbless : Verbless name subject) :
    narrator.existentialVerb? subject = none ↔
      ∀ sense ∈ narrator.lexicon.senses, ¬BeingIn name sense := by
  have sought : narrator.existentialVerb? subject =
      narrator.lexicon.choose (Narrator.existentialContext subject.context) .verb := by
    simp [Narrator.existentialVerb?, verbless.described, verbless.noVerb]
  rw [sought]
  exact choose_verb_eq_none_iff verbless.language rfl

/-- Even a subject that refuses the verb of being as its equivalent changes: it loses its
description with the verb. -/
theorem completed_eq_self_iff (verbless : Verbless name subject) :
    narrator.completed subject = subject ↔ narrator.existentialVerb? subject = none := by
  cases chosen : narrator.existentialVerb? subject with
  | none => simp [Narrator.completed_eq, chosen]
  | some sense =>
      simp only [reduceCtorEq, iff_false]
      intro same
      have modifiers := Narrator.completed_modifiers_of_some chosen
      rw [same] at modifiers
      split at modifiers
      · exact verbless.described modifiers
      · have verb : subject.hasRole .verb = true := by
          rw [Phrase.hasRole, modifiers]
          simp [Narrator.verbOfBeing]
        rw [verbless.noVerb] at verb
        contradiction

theorem completed_eq_self_iff_warned (held : narrator.lexicon.lexemes = lexicon.lexemes)
    (verbless : Verbless language.name subject) :
    narrator.completed subject = subject ↔
      .noExistential ∈ lexiconFindings language lexicon := by
  have senses : narrator.lexicon.senses = lexicon.senses := by
    rw [Lexicon.senses, held, ← Lexicon.senses]
  rw [completed_eq_self_iff verbless, existentialVerb?_eq_none_iff verbless,
    noExistential_mem_iff, senses]

end

/-- Something that is said to be dark. -/
def darkness (name : String) : Phrase where
  role := .subject
  wordClass := .noun
  text := "it"
  modifiers := [{ role := .descriptive, wordClass := .adjective, text := "dark" }]
  context := .inLanguage name

theorem darkness_verbless (name : String) : Verbless name (darkness name) :=
  ⟨rfl, by simp [darkness], rfl⟩

/-- One subject and the narrator that has nothing but the lexicon tell whether a verb is missing. -/
theorem completed_darkness_iff {language : Language} {lexicon : Lexicon} :
    ({ lexicon } : Narrator).completed (darkness language.name) = darkness language.name ↔
      .noExistential ∈ lexiconFindings language lexicon := by
  have held : ({ lexicon } : Narrator).lexicon.lexemes = lexicon.lexemes := rfl
  exact completed_eq_self_iff_warned held (darkness_verbless language.name)

/-- What the warning of a missing verb says about the phrases that a narrator completes with the
words of the lexicon, whatever its seed. -/
structure WarnsExactly (language : Language) (lexicon : Lexicon) : Prop where
  given : .noExistential ∈ lexiconFindings language lexicon ↔
    ∀ (narrator : Narrator) (subject : Phrase), narrator.lexicon.lexemes = lexicon.lexemes →
      Verbless language.name subject → narrator.completed subject = subject
  withheld : .noExistential ∉ lexiconFindings language lexicon ↔
    ∀ (narrator : Narrator) (subject : Phrase), narrator.lexicon.lexemes = lexicon.lexemes →
      Verbless language.name subject → narrator.completed subject ≠ subject
  lacking : .noExistential ∈ lexiconFindings language lexicon ↔
    ∀ sense ∈ lexicon.senses, ¬BeingIn language.name sense

/-- The linter warns of a missing verb exactly if a narrator leaves every phrase of the language as
it is that has a description and no verb. -/
theorem missing_verb_exact (language : Language) (lexicon : Lexicon) :
    WarnsExactly language lexicon where
  given := by
    constructor
    · intro warned narrator subject held verbless
      exact (completed_eq_self_iff_warned held verbless).mpr warned
    · intro unchanged
      have dark := darkness_verbless language.name
      exact completed_darkness_iff.mp (unchanged { lexicon } _ rfl dark)
  withheld := by
    constructor
    · intro unwarned narrator subject held verbless same
      exact unwarned ((completed_eq_self_iff_warned held verbless).mp same)
    · intro changed warned
      have dark := darkness_verbless language.name
      exact changed { lexicon } _ rfl dark (completed_darkness_iff.mpr warned)
  lacking := noExistential_mem_iff

end SensoryProse.Lint
