import SensoryProse.Lexicon.Vocabulary
import SensoryProse.Proofs.Lexicon.Lessons

/-!
# Learning as reading

Learning a phrase answers with the sense that the phrase is read with, before and after.  The one
sense that may come into the lexicon by it is the sense made from the phrase, and this only if no
sense was found; then it is the first that is found from there on.  Where the form is taken for
another language, nothing comes in and the phrase goes on being read by itself.  Either way there is
nothing left to learn.
-/

namespace SensoryProse.Lexicon

/-- What learning a phrase answers and what the lexicon comes to by it. -/
inductive Learns (lexicon : Lexicon) (phrase : Phrase) : Option Sense × Lexicon → Prop where
  | unwritten : phrase.text.isEmpty = true → Learns lexicon phrase (none, lexicon)
  | known {sense : Sense} : phrase.text.isEmpty = false →
      lexicon.find? phrase.text phrase.wordClass phrase.context = some sense →
      Learns lexicon phrase (some sense, lexicon)
  | refused : phrase.text.isEmpty = false →
      lexicon.find? phrase.text phrase.wordClass phrase.context = none →
      lexicon.isNew (.ofPhrase phrase) = false →
      Learns lexicon phrase (some (.ofPhrase phrase), lexicon)
  | added : phrase.text.isEmpty = false →
      lexicon.find? phrase.text phrase.wordClass phrase.context = none →
      lexicon.isNew (.ofPhrase phrase) = true →
      Learns lexicon phrase (some (.ofPhrase phrase), lexicon.insert (.ofPhrase phrase))

section

variable {lexicon : Lexicon} {phrase : Phrase}

theorem learnSense_learns (lexicon : Lexicon) (phrase : Phrase) :
    Learns lexicon phrase (lexicon.learnSense phrase) := by
  unfold learnSense
  cases written : phrase.text.isEmpty with
  | true => exact .unwritten written
  | false =>
      cases found : lexicon.find? phrase.text phrase.wordClass phrase.context with
      | some sense => exact .known written found
      | none =>
          cases new : lexicon.isNew (.ofPhrase phrase) with
          | true => exact .added written found new
          | false =>
              rw [insert_of_old new]
              exact .refused written found new

/-- A sense that came in for an unknown phrase is the only one that the phrase can be read with. -/
theorem find?_insert_of_new
    (unknown : lexicon.find? phrase.text phrase.wordClass phrase.context = none)
    (new : lexicon.isNew (.ofPhrase phrase) = true) :
    (lexicon.insert (.ofPhrase phrase)).find? phrase.text phrase.wordClass phrase.context =
      some (.ofPhrase phrase) := by
  have perm := (lexicon.insert_inserts (.ofPhrase phrase)).senses_perm
  rw [new, if_pos rfl] at perm
  have matched := perm.filter fun sense =>
    sense.spells phrase.text && languagesAgree sense phrase.context
  have suits : ((Sense.ofPhrase phrase).spells phrase.text &&
      languagesAgree (.ofPhrase phrase) phrase.context) = true :=
    Bool.and_eq_true_iff.mpr (ofPhrase_suits phrase)
  have others := find?_eq_none_iff.mp unknown
  rw [senses] at others
  rw [List.filter_append, others, List.nil_append, List.filter_singleton, suits, cond_true,
    List.perm_singleton] at matched
  rw [find?, senses, matched]
  exact if_pos rfl

section

variable {answer : Option Sense} {learned : Lexicon}
  (learns : Learns lexicon phrase (answer, learned))

include learns

theorem Learns.answer_eq : answer = lexicon.senseOf phrase := by
  rw [senseOf_eq]
  cases learns with
  | unwritten blank => rw [blank, if_pos rfl]
  | known written found => rw [written, found]; rfl
  | refused written unknown _ => rw [written, unknown]; rfl
  | added written unknown _ => rw [written, unknown]; rfl

theorem Learns.senses_perm :
    ∃ added : List Sense, added.length ≤ 1 ∧
      learned.senses.Perm (lexicon.senses ++ added) := by
  cases learns with
  | unwritten | known | refused => exact ⟨[], by simp, by simp⟩
  | added _ _ new =>
      have perm := (lexicon.insert_inserts (.ofPhrase phrase)).senses_perm
      rw [new, if_pos rfl] at perm
      exact ⟨[.ofPhrase phrase], Nat.le_refl 1, perm⟩

theorem Learns.eq_of_known
    (known : (lexicon.find? phrase.text phrase.wordClass phrase.context).isSome = true) :
    learned = lexicon := by
  cases learns with
  | unwritten | known | refused => rfl
  | added _ unknown _ => simp [unknown] at known

/-- Once a phrase is learned, learning it again answers the same and adds nothing. -/
theorem Learns.again : Learns learned phrase (answer, learned) := by
  cases learns with
  | unwritten blank => exact .unwritten blank
  | known written found => exact .known written found
  | refused written unknown old => exact .refused written unknown old
  | added written unknown new => exact .known written (find?_insert_of_new unknown new)

end

theorem Learns.learnSense_eq {outcome : Option Sense × Lexicon}
    (learns : Learns lexicon phrase outcome) : lexicon.learnSense phrase = outcome := by
  unfold learnSense
  cases learns with
  | unwritten blank => rw [blank, if_pos rfl]
  | known written found => rw [written, found]; rfl
  | refused written unknown old => rw [written, unknown, insert_of_old old]; rfl
  | added written unknown _ => rw [written, unknown]; rfl

end

/-- How learning a phrase goes together with reading it. -/
structure LearnsAsRead (lexicon : Lexicon) (phrase : Phrase) : Prop where
  answer : (lexicon.learnSense phrase).1 = lexicon.senseOf phrase
  adds : ∃ added : List Sense, added.length ≤ 1 ∧
    (lexicon.learnSense phrase).2.senses.Perm (lexicon.senses ++ added)
  known : (lexicon.find? phrase.text phrase.wordClass phrase.context).isSome = true →
    (lexicon.learnSense phrase).2 = lexicon
  read : (lexicon.learnSense phrase).2.senseOf phrase = lexicon.senseOf phrase
  again : (lexicon.learnSense phrase).2.learnSense phrase = lexicon.learnSense phrase

/-- Learning a phrase answers what reading it does, and neither reading nor learning it again tells
whether it was learned. -/
theorem learns_as_read (lexicon : Lexicon) (phrase : Phrase) : lexicon.LearnsAsRead phrase := by
  have learns := lexicon.learnSense_learns phrase
  exact {
    answer := learns.answer_eq
    adds := learns.senses_perm
    known := learns.eq_of_known
    read := learns.again.answer_eq.symm.trans learns.answer_eq
    again := learns.again.learnSense_eq }

end SensoryProse.Lexicon
