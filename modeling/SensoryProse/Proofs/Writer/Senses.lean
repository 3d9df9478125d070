import SensoryProse.Proofs.Language.Deciding
import SensoryProse.Proofs.Phrase.Editing
import SensoryProse.Proofs.Writer.Agreement

/-!
# Senses and duplicates

It does not show in writing whether a sense was looked for: where none is, no sense could change a
shape.  Nor does it show which sense a lawful vocabulary finds for a phrase.  So phrases that are
equivalent are shaped alike, though different senses may be found for them, and a phrase that is
refused as a duplicate would not have been inflected otherwise than the one that is kept.
-/

namespace SensoryProse.Writer

section

variable {Words : Type} [Vocabulary Words]

theorem resolving_shapeOf (language : Language) (lexicon : Words) (phrase : Phrase) :
    (resolving language lexicon).shapeOf phrase = (Writer.of language lexicon).shapeOf phrase := by
  cases bound : language.rules.any (·.isBound) with
  | true =>
      have same : Writer.of language lexicon = resolving language lexicon := by
        rw [Writer.of, bound, resolving]
      rw [same]
  | false =>
      exact Language.shapeOf_congr fun _ member =>
        Language.applies_of_unbound bound member phrase _ _

theorem agreeAt_resolving (language : Language) (lexicon : Words) (node : Phrase) :
    AgreeAt (resolving language lexicon) (Writer.of language lexicon) id node :=
  agreeAt_id (resolving_shapeOf language lexicon node).symm rfl

/-- What it means that nobody can tell from a text whether senses were looked up. -/
structure ResolvesUnseen (language : Language) (lexicon : Words) : Prop where
  write : ∀ kind phrase,
    (Writer.of language lexicon).write kind phrase =
      (Writer.resolving language lexicon).write kind phrase
  textOf : ∀ phrase,
    (Writer.of language lexicon).textOf phrase = (Writer.resolving language lexicon).textOf phrase
  shapeOf : (Writer.of language lexicon).resolves = false → ∀ phrase sense other,
    language.shapeOf phrase sense = language.shapeOf phrase other

/-- Leaving senses unresolved makes no difference to any text: a writer does so only where no sense
whatever could change a shape. -/
theorem resolves_unseen (language : Language) (lexicon : Words) :
    ResolvesUnseen language lexicon := by
  have sameText : ∀ kind phrase, (Writer.of language lexicon).write kind phrase =
      (Writer.resolving language lexicon).write kind phrase := by
    intro kind phrase
    have agree : ∀ node ∈ phrase.nodes,
        AgreeAt (resolving language lexicon) (Writer.of language lexicon) id node :=
      fun node _ => agreeAt_resolving language lexicon node
    exact write_agree (by rfl) agree kind
  refine ⟨sameText, ?_, ?_⟩
  · intro phrase
    exact congrArg WrittenClause.text (sameText .statement phrase)
  · intro unresolved phrase sense other
    exact Language.shapeOf_congr fun _ member =>
      Language.applies_of_unbound unresolved member phrase sense other

end

/-- A language whose only rule names an empty word, and so is bound to none. -/
def unbinding : Language where
  name := "english"
  rules := [{ wordClass := some .noun, word := some "", afterWord := some "s" }]

/-- A lexicon that knows the moth in two languages. -/
def bilingual : Lexicon :=
  .ofSenses [
    { name := "MOTH", wordClass := .noun, lexeme := "elvish moth", language := some "elvish" },
    { name := "Moth", wordClass := .noun, language := some "english" }] 0

def elvishMoth : Phrase where
  role := .directObject
  wordClass := .noun
  text := "moth"
  context := { language := some "elvish" }

/-- A sense is held for the moth and left alone, and the moth is written as if it had been looked
up. -/
theorem elvishMoth_resolves_unseen :
    (Writer.of unbinding bilingual).senseOf elvishMoth = none ∧
      (resolving unbinding bilingual).senseOf elvishMoth ≠ none ∧
      (Writer.of unbinding bilingual).write .statement elvishMoth =
        (resolving unbinding bilingual).write .statement elvishMoth ∧
      (resolving unbinding bilingual).textOf elvishMoth = "moths" ∧
      unbinding.shapeOf elvishMoth none =
        unbinding.shapeOf elvishMoth (some { name := "lamp", wordClass := .verb }) := by
  have unseen := resolves_unseen unbinding bilingual
  exact ⟨by decide, by decide, unseen.write .statement elvishMoth, by decide +kernel,
    unseen.shapeOf (by decide) elvishMoth _ _⟩

/-- Two phrases that are given one form: the same rules apply to them, in the same order. -/
structure ShapedAlike {Words : Type} [Vocabulary Words] (writer : Writer Words)
    (phrase other : Phrase) : Prop where
  applicable : writer.language.applicable phrase (writer.senseOf phrase) =
    writer.language.applicable other (writer.senseOf other)
  shapeOf : writer.shapeOf phrase = writer.shapeOf other
  inflected : (writer.shapeOf phrase).inflect phrase.text =
    (writer.shapeOf other).inflect other.text

theorem shapedAlike_of_key {Words : Type} [Vocabulary Words] [LawfulVocabulary Words]
    (language : Language) (lexicon : Words) {phrase other : Phrase}
    (same : phrase.key = other.key) : ShapedAlike (Writer.of language lexicon) phrase other := by
  have sameShape := shapeOf_of_key language lexicon same
  have sameText : phrase.text = other.text := congrArg Phrase.Key.text same
  refine ⟨applicable_of_key language lexicon same, sameShape, ?_⟩
  rw [sameShape, sameText]

end SensoryProse.Writer

namespace SensoryProse

theorem Phrase.exists_kept_of_attach_eq {receiver modifier : Phrase}
    (refused : receiver.attach modifier = receiver) :
    ∃ kept ∈ receiver :: receiver.modifiers, modifier.key = kept.key := by
  have present : modifier.key ∈ receiver.taken := by
    have taken := congrArg Phrase.taken refused
    rw [attach_taken] at taken
    split at taken
    · rename_i refuses
      exact refuses_iff.mp refuses
    · simp at taken
  rw [taken, List.mem_cons, List.mem_map] at present
  rcases present with ofReceiver | ⟨kept, member, ofKept⟩
  · exact ⟨receiver, List.mem_cons_self, ofReceiver⟩
  · exact ⟨kept, List.mem_cons_of_mem _ member, ofKept.symm⟩

namespace Writer

/-- Equivalent phrases are shaped alike, and so is whatever is refused as a duplicate and what it
duplicates. -/
theorem equivalents_shaped_alike {Words : Type} [Vocabulary Words] [LawfulVocabulary Words]
    (language : Language) (lexicon : Words) :
    (∀ phrase other : Phrase, phrase.equivalent other = true →
      ShapedAlike (Writer.of language lexicon) phrase other) ∧
    ∀ receiver modifier : Phrase, receiver.attach modifier = receiver →
      ∃ kept ∈ receiver :: receiver.modifiers,
        ShapedAlike (Writer.of language lexicon) modifier kept := by
  constructor
  · intro phrase other equivalent
    exact shapedAlike_of_key language lexicon (Phrase.equivalent_iff.mp equivalent)
  · intro receiver modifier refused
    obtain ⟨kept, member, same⟩ := Phrase.exists_kept_of_attach_eq refused
    exact ⟨kept, member, shapedAlike_of_key language lexicon same⟩

/-- A language in which moths come in swarms. -/
def swarmBinding : Language where
  name := "english"
  rules := [
    { wordClass := some .noun, article := some true },
    { word := some "moth", afterWord := some "s" }]

/-- The moth again, in another language and with more to tell. -/
def paleMoth : Phrase where
  role := .directObject
  wordClass := .noun
  text := "moth"
  modifiers := [{ role := .descriptive, wordClass := .adjective, text := "pale" }]
  context := {
    language := some "english"
    semantics := .singleton "insect"
    elegance := 3
    observer := some 7
    pronouns := some .it }

def lamp : Phrase where
  role := .subject
  wordClass := .noun
  text := "lamp"
  modifiers := [elvishMoth]

/-- The lexicon holds a sense for each of the moths, and the second is refused as a duplicate of the
first. -/
theorem moths_shaped_alike :
    bilingual.senseOf paleMoth ≠ bilingual.senseOf elvishMoth ∧
      paleMoth.equivalent elvishMoth = true ∧
      ShapedAlike (Writer.of swarmBinding bilingual) paleMoth elvishMoth ∧
      (Writer.of swarmBinding bilingual).shapeOf elvishMoth =
        { afterWord := some "s", article := some true } ∧
      lamp.attach paleMoth = lamp ∧
      ∃ kept ∈ lamp :: lamp.modifiers,
        ShapedAlike (Writer.of swarmBinding bilingual) paleMoth kept := by
  have equivalent : paleMoth.equivalent elvishMoth = true := by decide
  have refused : lamp.attach paleMoth = lamp := by rfl
  have all : [(swarmBinding.rules[1], 1), (swarmBinding.rules[0], 0)].Perm
      (swarmBinding.applying elvishMoth
        ((Writer.of swarmBinding bilingual).senseOf elvishMoth)) := by
    decide
  have shape := Language.shapeOf_of_ranked all (by decide)
  have alike := equivalents_shaped_alike swarmBinding bilingual
  exact ⟨by decide, equivalent, alike.1 paleMoth elvishMoth equivalent, shape, refused,
    alike.2 lamp paleMoth refused⟩

end Writer

end SensoryProse
