import SensoryProse.Lexicon.Choice

/-!
# Senses of one word class

A word is chosen among the senses of one word class.  The choice depends on these, in the order in
which they are held, and on the seed; and what a lexicon learns of other word classes leaves them
as they are.
-/

namespace SensoryProse.Lexicon

/-- The senses of one word class, in the order in which they are held. -/
def ofClass (lexicon : Lexicon) (wordClass : WordClass) : List Sense :=
  lexicon.senses.filter (·.wordClass == wordClass)

theorem candidates_eq_filter_ofClass (lexicon : Lexicon) (context : Context)
    (wordClass : WordClass) :
    lexicon.candidates context wordClass =
      (lexicon.ofClass wordClass).filter (usable context wordClass) := by
  rw [candidates, ofClass, List.filter_filter]
  apply List.filter_congr
  intro sense _
  cases sameClass : sense.wordClass == wordClass <;> simp [usable, sameClass]

/-- A choice depends on the candidates, in the order in which they are held, and on the draw. -/
theorem chooseBy_congr {first second : Lexicon} {context : Context} {wordClass : WordClass}
    (sameCandidates : first.candidates context wordClass = second.candidates context wordClass)
    (drawing : Drawing) :
    first.chooseBy drawing context wordClass = second.chooseBy drawing context wordClass := by
  have sameTied : first.tied context wordClass = second.tied context wordClass := by
    simp only [tied, sameCandidates]
  rw [chooseBy, chooseBy, sameTied]

/-- Lexicons with one seed that hold the same senses of a word class choose the same word of it. -/
theorem choose_congr {first second : Lexicon} {wordClass : WordClass}
    (sameSeed : first.seed = second.seed)
    (sameSenses : first.ofClass wordClass = second.ofClass wordClass) (context : Context) :
    first.choose context wordClass = second.choose context wordClass := by
  rw [choose, choose, sameSeed]
  apply chooseBy_congr
  simp only [candidates_eq_filter_ofClass, sameSenses]

section

variable {sense : Sense} {test : Sense → Bool} (fails : test sense = false)

include fails

theorem add_senses_filter (lexeme : Lexeme) :
    (lexeme.add sense).senses.filter test = lexeme.senses.filter test := by
  unfold Lexeme.add
  split
  · rfl
  · simp [fails]

theorem insertInto_senses_filter (lexemes : List Lexeme) :
    ((insertInto sense lexemes).flatMap (·.senses)).filter test =
      (lexemes.flatMap (·.senses)).filter test := by
  induction lexemes with
  | nil => simp [insertInto, fails]
  | cons lexeme lexemes induction =>
      unfold insertInto
      split
      · simp only [List.flatMap_cons, List.filter_append, add_senses_filter fails]
      · simp only [List.flatMap_cons, List.filter_append, induction]

/-- Inserting a sense leaves the senses that pass a test which it fails as they are. -/
theorem insert_senses_filter (lexicon : Lexicon) :
    (lexicon.insert sense).senses.filter test = lexicon.senses.filter test :=
  insertInto_senses_filter fails lexicon.lexemes

end

theorem insert_ofClass {sense : Sense} {wordClass : WordClass}
    (different : sense.wordClass ≠ wordClass) (lexicon : Lexicon) :
    (lexicon.insert sense).ofClass wordClass = lexicon.ofClass wordClass :=
  insert_senses_filter (by simpa using different) lexicon

/-- Learning a phrase adds at most a sense of its own word class. -/
theorem learn_ofClass {phrase : Phrase} {wordClass : WordClass}
    (different : phrase.wordClass ≠ wordClass) (lexicon : Lexicon) :
    (lexicon.learn phrase).ofClass wordClass = lexicon.ofClass wordClass := by
  unfold learn
  split
  · rfl
  · split
    · rfl
    · have ofPhrase : (Sense.ofPhrase phrase).wordClass ≠ wordClass := different
      exact insert_ofClass ofPhrase lexicon

theorem learn_seed (lexicon : Lexicon) (phrase : Phrase) :
    (lexicon.learn phrase).seed = lexicon.seed := by
  unfold learn
  split
  · rfl
  · split <;> rfl

end SensoryProse.Lexicon
