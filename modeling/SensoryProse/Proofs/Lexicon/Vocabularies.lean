import SensoryProse.Lexicon.Vocabulary

/-!
# Laws of vocabularies

Most of what is written and narrated is the same for any vocabulary.  Where rules ask for the word
that a sense spells, it matters that the sense found for a text spells that text.  Where words are
compared, it matters that they are drawn from a lexicon.  Both hold of the lexicon itself.
-/

namespace SensoryProse

theorem Sense.spells_iff {sense : Sense} {word : String} :
    sense.spells word = true ↔ Text.foldAscii sense.name = Text.foldAscii word := by
  rw [spells, Text.sameUpToAsciiCase, beq_iff_eq]

/-- A vocabulary in which no text stands for a sense of another spelling. -/
class LawfulVocabulary (Words : Type) [Vocabulary Words] : Prop where
  spells_of_find? : ∀ {words : Words} {text : String} {wordClass : WordClass} {context : Context}
    {sense : Sense}, Vocabulary.find? words text wordClass context = some sense →
      sense.spells text = true

/-- A vocabulary whose words are drawn from a lexicon, in whatever way. -/
class DrawnVocabulary (Words : Type) extends Vocabulary Words where
  lexicon : Words → Lexicon
  drawing : Words → Drawing
  choose_eq : ∀ words context wordClass,
    choose words context wordClass = (lexicon words).chooseBy (drawing words) context wordClass

theorem Lexicon.spells_of_find? {lexicon : Lexicon} {text : String} {wordClass : WordClass}
    {context : Context} {sense : Sense}
    (found : lexicon.find? text wordClass context = some sense) : sense.spells text = true := by
  have matching : ∀ sense ∈ lexicon.senses.filter (fun sense =>
      sense.spells text && languagesAgree sense context), sense.spells text = true := by
    intro sense member
    have passed := (List.mem_filter.mp member).2
    rw [Bool.and_eq_true] at passed
    exact passed.1
  unfold find? at found
  split at found
  · contradiction
  · rename_i first others candidates
    rw [candidates] at matching
    split at found
    · cases found
      exact matching sense List.mem_cons_self
    · cases preferred : others.find? (·.wordClass == wordClass) with
      | none =>
          rw [preferred] at found
          cases found
          exact matching sense List.mem_cons_self
      | some other =>
          rw [preferred] at found
          cases found
          exact matching sense (List.mem_cons_of_mem _ (List.mem_of_find?_eq_some preferred))

instance : LawfulVocabulary Lexicon where
  spells_of_find? := Lexicon.spells_of_find?

instance : DrawnVocabulary Lexicon where
  lexicon := id
  drawing lexicon := .seeded lexicon.seed
  choose_eq _ _ _ := rfl

namespace Vocabulary

/-- The sense that is made of a phrase without a look at any vocabulary. -/
def ownSense (phrase : Phrase) : Option Sense :=
  if phrase.text.isEmpty then none else some (.ofPhrase phrase)

theorem senseOf_any_spells {Words : Type} [Vocabulary Words] [LawfulVocabulary Words]
    (words : Words) (phrase : Phrase) (word : String) :
    (senseOf words phrase).any (·.spells word) = (ownSense phrase).any (·.spells word) := by
  unfold senseOf ownSense
  split
  · rfl
  · cases found : find? words phrase.text phrase.wordClass phrase.context with
    | none => rfl
    | some sense =>
        have same := Sense.spells_iff.mp (LawfulVocabulary.spells_of_find? found)
        change sense.spells word = (Sense.ofPhrase phrase).spells word
        rw [Bool.eq_iff_iff, Sense.spells_iff, Sense.spells_iff, same]
        rfl

theorem ownSense_any_spells {phrase other : Phrase} (same : phrase.text = other.text)
    (word : String) :
    (ownSense phrase).any (·.spells word) = (ownSense other).any (·.spells word) := by
  unfold ownSense
  rw [same]
  split
  · rfl
  · simp [Sense.spells, Sense.ofPhrase, same]

end Vocabulary

end SensoryProse
