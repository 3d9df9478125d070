import SensoryProse.Lexicon.Choice

/-!
# Vocabularies

Narrators and writers put two questions to the words they have: which word of a class fits a
context, and which sense a written text stands for.  Whatever answers these is a vocabulary.  The
lexicon is one.
-/

namespace SensoryProse

/-- What words can be asked. -/
class Vocabulary (Words : Type) where
  choose : Words → Context → WordClass → Option Sense
  find? : Words → String → WordClass → Context → Option Sense

instance : Vocabulary Lexicon where
  choose := Lexicon.choose
  find? := Lexicon.find?

/-- The sense of a phrase: the one known for it, or one made from the phrase itself.  An empty
phrase has none. -/
def Vocabulary.senseOf {Words : Type} [Vocabulary Words] (words : Words) (phrase : Phrase) :
    Option Sense :=
  if phrase.text.isEmpty then none
  else (find? words phrase.text phrase.wordClass phrase.context).or (some (.ofPhrase phrase))

namespace Lexicon

def senseOf (lexicon : Lexicon) (phrase : Phrase) : Option Sense :=
  Vocabulary.senseOf lexicon phrase

theorem senseOf_eq (lexicon : Lexicon) (phrase : Phrase) :
    lexicon.senseOf phrase =
      if phrase.text.isEmpty then none
      else (lexicon.find? phrase.text phrase.wordClass phrase.context).or
        (some (.ofPhrase phrase)) := rfl

@[simp] theorem vocabulary_choose (lexicon : Lexicon) (context : Context) (wordClass : WordClass) :
    Vocabulary.choose lexicon context wordClass = lexicon.choose context wordClass := rfl

end Lexicon

end SensoryProse
