import SensoryProse.Proofs.Lexicon.Choosing
import SensoryProse.Proofs.Lexicon.Learning

/-!
# The fitness of learned words

Each property of a sense has a share in its fitness that is greatest where the sense has just what
the context asks for.  The sense made from a phrase has it in every property, so no sense fits the
context of the phrase better, and a lexicon that learned the phrase answers with a sense that fits
as well.
-/

namespace SensoryProse.Lexicon

/-- The sense has every property that fitness compares as the context asks for it. -/
structure Mirrors (context : Context) (sense : Sense) : Prop where
  tense : sense.tense = some context.tense
  perspective : sense.perspective = some context.perspective
  plural : sense.plural = context.plural
  elegance : sense.elegance = context.elegance
  severity : sense.severity = context.severity
  quality : sense.quality = context.quality

/-- The fitness of a sense that mirrors the context. -/
def greatestFitness : Int := 10

/-- The lexicon answers for the context of the phrase with a sense that mirrors it. -/
def AnswersFor (lexicon : Lexicon) (phrase : Phrase) : Prop :=
  ∃ sense, lexicon.choose phrase.context phrase.wordClass = some sense ∧
    Suits phrase.context phrase.wordClass sense ∧ Mirrors phrase.context sense

/-- The share of the grammatical number in the fitness. -/
def numberScore (offered wanted : Bool) : Int := if offered = wanted then 2 else -2

theorem agreement_le {α : Type} [DecidableEq α] (offered : Option α) (wanted : α) :
    agreement offered wanted ≤ 4 := by
  unfold agreement
  split
  · split <;> decide
  · decide

theorem agreement_eq_iff {α : Type} [DecidableEq α] {offered : Option α} {wanted : α} :
    agreement offered wanted = 4 ↔ offered = some wanted := by
  unfold agreement
  split
  · rename_i value
    by_cases same : value = wanted <;> simp [same]
  · simp

theorem numberScore_le (offered wanted : Bool) : numberScore offered wanted ≤ 2 := by
  unfold numberScore
  split <;> decide

theorem numberScore_eq_iff {offered wanted : Bool} :
    numberScore offered wanted = 2 ↔ offered = wanted := by
  unfold numberScore
  split <;> simp_all

theorem distance_nonneg (left right : Int) : 0 ≤ distance left right := by
  unfold distance
  omega

theorem distance_eq_zero_iff {left right : Int} : distance left right = 0 ↔ left = right := by
  unfold distance
  omega

section

variable {sense : Sense} {context : Context} {phrase : Phrase} {lexicon : Lexicon}

theorem fitness_eq (sense : Sense) (context : Context) :
    fitness sense context =
      agreement sense.tense context.tense
        + agreement sense.perspective context.perspective
        + numberScore sense.plural context.plural
        - distance sense.elegance context.elegance
        - distance sense.severity context.severity
        - distance sense.quality context.quality := rfl

/-- A share that is missing in one property can be made up for by no other. -/
theorem fitness_bound (sense : Sense) (context : Context) :
    fitness sense context ≤ greatestFitness ∧
      (fitness sense context = greatestFitness → Mirrors context sense) := by
  have tense := agreement_le sense.tense context.tense
  have perspective := agreement_le sense.perspective context.perspective
  have plural := numberScore_le sense.plural context.plural
  have elegance := distance_nonneg sense.elegance context.elegance
  have severity := distance_nonneg sense.severity context.severity
  have quality := distance_nonneg sense.quality context.quality
  rw [fitness_eq, greatestFitness]
  constructor
  · omega
  · intro reached
    exact {
      tense := agreement_eq_iff.mp (by omega)
      perspective := agreement_eq_iff.mp (by omega)
      plural := numberScore_eq_iff.mp (by omega)
      elegance := distance_eq_zero_iff.mp (by omega)
      severity := distance_eq_zero_iff.mp (by omega)
      quality := distance_eq_zero_iff.mp (by omega) }

theorem fitness_le_greatest (sense : Sense) (context : Context) :
    fitness sense context ≤ greatestFitness :=
  (fitness_bound sense context).1

theorem fitness_eq_greatest_iff :
    fitness sense context = greatestFitness ↔ Mirrors context sense := by
  constructor
  · exact (fitness_bound sense context).2
  · intro mirrors
    rw [fitness_eq, agreement_eq_iff.mpr mirrors.tense, agreement_eq_iff.mpr mirrors.perspective,
      numberScore_eq_iff.mpr mirrors.plural, distance_eq_zero_iff.mpr mirrors.elegance,
      distance_eq_zero_iff.mpr mirrors.severity, distance_eq_zero_iff.mpr mirrors.quality]
    decide

theorem ofPhrase_mirrors (phrase : Phrase) : Mirrors phrase.context (.ofPhrase phrase) :=
  ⟨rfl, rfl, rfl, rfl, rfl, rfl⟩

theorem suits_ofPhrase (phrase : Phrase) :
    Suits phrase.context phrase.wordClass (.ofPhrase phrase) where
  wordClass := rfl
  language := languagesAgree_iff.mp (ofPhrase_suits phrase).2
  tags _ asked := asked

/-- A lexicon that holds the sense made from a phrase can only answer with one that fits as well. -/
theorem answersFor_of_held (held : Sense.ofPhrase phrase ∈ lexicon.senses) :
    lexicon.AnswersFor phrase := by
  cases chosen : lexicon.choose phrase.context phrase.wordClass with
  | none => exact absurd (suits_ofPhrase phrase) (chooseBy_eq_none_iff.mp chosen _ held)
  | some sense =>
      have fits := fitsBest_of_chooseBy chosen
      have least : greatestFitness ≤ fitness sense phrase.context := by
        rw [← fitness_eq_greatest_iff.mpr (ofPhrase_mirrors phrase)]
        exact fits.greatest _ held (suits_ofPhrase phrase)
      have reached := Int.le_antisymm (fitness_le_greatest sense phrase.context) least
      exact ⟨sense, chosen, fits.suits, fitness_eq_greatest_iff.mp reached⟩

/-- Learning a phrase changes the lexicon only by the sense made from the phrase. -/
theorem ofPhrase_mem_of_learned (changed : (lexicon.learnSense phrase).2 ≠ lexicon) :
    Sense.ofPhrase phrase ∈ (lexicon.learnSense phrase).2.senses := by
  have learns := lexicon.learnSense_learns phrase
  generalize lexicon.learnSense phrase = outcome at changed learns
  cases learns with
  | unwritten | known | refused => exact absurd rfl changed
  | added _ _ new => exact mem_insert_of_new new

/-- No lesson takes a sense away. -/
theorem mem_taught (held : sense ∈ lexicon.senses) (lessons : List Lesson) :
    sense ∈ (lexicon.taught lessons).senses := by
  induction lessons generalizing lexicon with
  | nil => exact held
  | cons lesson lessons induction =>
      exact induction ((lexicon.apply_keeps lesson).senses.mem held)

end

/-- How well the sense made from a phrase fits the context of the phrase. -/
structure FitsItsPhrase (phrase : Phrase) : Prop where
  suits : Suits phrase.context phrase.wordClass (.ofPhrase phrase)
  greatest : ∀ sense,
    fitness sense phrase.context ≤ fitness (.ofPhrase phrase) phrase.context
  equalled : ∀ sense,
    fitness sense phrase.context = fitness (.ofPhrase phrase) phrase.context ↔
      Mirrors phrase.context sense
  learned : ∀ lexicon : Lexicon, (lexicon.learnSense phrase).2 ≠ lexicon →
    (lexicon.learnSense phrase).2.AnswersFor phrase
  remembered : ∀ lexicon : Lexicon, (lexicon.learnSense phrase).2 ≠ lexicon →
    ∀ lessons, ((lexicon.learnSense phrase).2.taught lessons).AnswersFor phrase

/-- The sense made from a phrase suits the context of the phrase, and no sense fits it better.  So
the lexicon that took it in answers with a sense that fits as well, whatever it is taught then. -/
theorem learned_words_fit_best (phrase : Phrase) : FitsItsPhrase phrase := by
  have own : fitness (.ofPhrase phrase) phrase.context = greatestFitness :=
    fitness_eq_greatest_iff.mpr (ofPhrase_mirrors phrase)
  exact {
    suits := suits_ofPhrase phrase
    greatest := by
      intro sense
      rw [own]
      exact fitness_le_greatest sense phrase.context
    equalled := by
      intro sense
      rw [own]
      exact fitness_eq_greatest_iff
    learned := fun _ changed => answersFor_of_held (ofPhrase_mem_of_learned changed)
    remembered := fun _ changed lessons =>
      answersFor_of_held (mem_taught (ofPhrase_mem_of_learned changed) lessons) }

/-- An elvish noun that suits the context of a moth and fits it as well. -/
def elvishLamp : Sense := .ofPhrase { mothIn "elvish" with text := "lamp" }

/-- A lexicon that holds an elvish noun takes in the elvish moth, and answers for it with a sense
that fits as well as the moth itself, also when it is taught further nouns. -/
theorem moth_learned_fits_best :
    let lexicon := ofSenses [elvishLamp] 0
    let learned := (lexicon.learnSense (mothIn "elvish")).2
    learned ≠ lexicon ∧ learned.AnswersFor (mothIn "elvish") ∧
      (learned.taught [.insert elvishLamp, .learn (mothIn "english")]).AnswersFor
        (mothIn "elvish") ∧
      fitness elvishLamp (mothIn "elvish").context =
        fitness (.ofPhrase (mothIn "elvish")) (mothIn "elvish").context := by
  intro lexicon learned
  have changed : learned ≠ lexicon := by decide
  have fits := learned_words_fit_best (mothIn "elvish")
  exact ⟨changed, fits.learned lexicon changed, fits.remembered lexicon changed _,
    (fits.equalled elvishLamp).mpr ⟨rfl, rfl, rfl, rfl, rfl, rfl⟩⟩

end SensoryProse.Lexicon
