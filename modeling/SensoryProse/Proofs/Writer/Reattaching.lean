import SensoryProse.Proofs.Writer.Traversal

/-!
# The order of attachment

The modifiers of a phrase are sorted by their places before they are written, and modifiers of one
place keep the order in which they were attached.  So the order of attachment shows between
modifiers of one place only: however else the modifiers are rearranged, and at however many phrases
of a tree at once, the tree is written in the same words.
-/

namespace SensoryProse

namespace Writer

variable {Words : Type} [Vocabulary Words]

/-- The same tree with its modifiers attached in another order, at any of its phrases.  Modifiers
that share a place are attached in the order in which they were. -/
inductive Reattached (writer : Writer Words) : Phrase → Phrase → Prop where
  | attached {phrase : Phrase} {rearranged modifiers : List Phrase} :
      Rearranges (writer.place phrase) phrase.modifiers rearranged →
      List.Forall₂ (Reattached writer) rearranged modifiers →
      Reattached writer phrase { phrase with modifiers }

theorem Reattached.refl (writer : Writer Words) (phrase : Phrase) :
    Reattached writer phrase phrase := by
  induction phrase using Phrase.induction with
  | step phrase induction =>
      have below : List.Forall₂ (Reattached writer) phrase.modifiers phrase.modifiers :=
        List.forall₂_same.mpr induction
      cases phrase
      exact .attached (.refl _ _) below

section

variable {writer : Writer Words}

theorem Reattached.bare {phrase other : Phrase} (reattached : Reattached writer phrase other) :
    other.bare = phrase.bare := by
  cases reattached
  rfl

/-- An article is supplied to a phrase whatever the order of its modifiers. -/
theorem supplied_of_classes {phrase : Phrase} {modifiers : List Phrase}
    (classes : (modifiers.map (·.wordClass)).Perm (phrase.modifiers.map (·.wordClass))) :
    writer.supplied { phrase with modifiers } = writer.supplied phrase := by
  have sameShape : writer.shapeOf { phrase with modifiers } = writer.shapeOf phrase :=
    writer.shapeOf_of_bare rfl
  have articles : modifiers.any (·.wordClass == .article) =
      phrase.modifiers.any (·.wordClass == .article) := by
    have listed : (modifiers.map (·.wordClass)).any (· == .article) =
        (phrase.modifiers.map (·.wordClass)).any (· == .article) := classes.any_eq
    simpa [List.any_map, Function.comp_def] using listed
  unfold supplied suppliesArticle
  rw [sameShape, articles]
  rfl

/-- Siblings are arranged alike whatever their order, while those of one place keep theirs. -/
theorem arrange_of_rearranges {phrase other : Phrase} {siblings rearranged : List Sibling}
    (sameBare : other.bare = phrase.bare)
    (sameArticle : writer.supplied other = writer.supplied phrase)
    (rearranges : Rearranges Sibling.order siblings rearranged) :
    writer.arrange other rearranged = writer.arrange phrase siblings := by
  have sameText : other.text = phrase.text := (congrArg Phrase.text sameBare :)
  have sides : ∀ test : Sibling → Bool,
      ordered (rearranged.filter test) = ordered (siblings.filter test) :=
    fun test => (rearranges.filter test).mergeSort_eq
  rw [arrange_eq, arrange_eq, sameArticle, writer.shapeOf_of_bare sameBare, sameText,
    sides, sides]

/-- What pairs of phrases share, their lists share. -/
private theorem map_eq_of_forall₂ {α β γ : Type} {related : α → β → Prop} {left : α → γ}
    {right : β → γ} {given : List α} {others : List β} (pairs : List.Forall₂ related given others)
    (same : ∀ entry ∈ given, ∀ other, related entry other → right other = left entry) :
    others.map right = given.map left := by
  induction pairs with
  | nil => rfl
  | cons pair _ induction =>
      obtain ⟨here, there⟩ := List.forall_mem_cons.mp same
      rw [List.map_cons, List.map_cons, here _ pair, induction there]

theorem spell_reattached {phrase other : Phrase}
    (reattached : Reattached writer phrase other) (head : Option WordClass) :
    writer.spell head other = writer.spell head phrase := by
  induction phrase using Phrase.induction generalizing other head with
  | step phrase induction =>
      have sameBare := reattached.bare
      have sameShape := writer.shapeOf_of_bare sameBare
      cases reattached with
      | @attached _ rearranged modifiers rearranges below =>
          have classes : modifiers.map (·.wordClass) = rearranged.map (·.wordClass) :=
            map_eq_of_forall₂ below fun _ _ _ reattached =>
              (congrArg Phrase.wordClass reattached.bare :)
          have sameArticle : writer.supplied { phrase with modifiers } = writer.supplied phrase :=
            supplied_of_classes (classes ▸ rearranges.perm.map _)
          have spelled : modifiers.map (writer.spell (some phrase.wordClass)) =
              rearranged.map (writer.spell (some phrase.wordClass)) :=
            map_eq_of_forall₂ below fun modifier member _ reattached =>
              induction modifier (rearranges.perm.mem_iff.mp member) reattached _
          have siblings := rearranges.map (writer.spell_order phrase)
          rw [← spelled] at siblings
          rw [spell_eq, spell_eq, sameShape, arrange_of_rearranges sameBare sameArticle siblings]
          rfl

/-- A tree is written in the same words however its modifiers were attached, while those of one
place follow each other as before. -/
theorem written_reattached {phrase other : Phrase}
    (reattached : Reattached writer phrase other) :
    writer.words other = writer.words phrase ∧
      ∀ kind, (writer.write kind other).text = (writer.write kind phrase).text := by
  have sameWords : writer.words other = writer.words phrase := by
    rw [words, words, spell_reattached reattached]
  refine ⟨sameWords, ?_⟩
  intro kind
  exact congrArg Listing.spaced sameWords

end

/-- A language with articles, lists and a contraction, in which *still* stands in front of what it
modifies. -/
def hovering : Language where
  name := "english"
  rules := [
    { wordClass := some .noun, article := some true },
    { wordClass := some .adjective, listable := some true },
    { word := some "still", order := some (-1) }]
  contractions := [{ first := "is", second := "not", result := "isn't" }]

/-- A lexicon that holds nothing. -/
def noWords : Lexicon := {}

def pale : Phrase := { role := .descriptive, wordClass := .adjective, text := "pale" }

def dim : Phrase := { role := .descriptive, wordClass := .adjective, text := "dim" }

def still : Phrase := { role := .none, wordClass := .adverb, text := "still" }

def negation : Phrase := { role := .none, wordClass := .adverb, text := "not" }

def being (modifiers : List Phrase) : Phrase :=
  { role := .verb, wordClass := .verb, text := "is", modifiers }

def hoveringMoth (modifiers : List Phrase) : Phrase :=
  { role := .subject, wordClass := .noun, text := "moth", modifiers
    context := { determinant := true } }

/-- The moth and the verb below it are given their modifiers in another order.  Exchanging the two
adjectives, which share a place, does show. -/
theorem hoveringMoth_reattached :
    Reattached (Writer.of hovering noWords) (hoveringMoth [pale, being [still, negation], dim])
        (hoveringMoth [being [negation, still], pale, dim]) ∧
      ((Writer.of hovering noWords).write .statement
        (hoveringMoth [being [negation, still], pale, dim])).text =
        ((Writer.of hovering noWords).write .statement
          (hoveringMoth [pale, being [still, negation], dim])).text ∧
      ((Writer.of hovering noWords).write .statement
        (hoveringMoth [pale, being [still, negation], dim])).text =
        "the pale and dim moth still isn't" ∧
      ((Writer.of hovering noWords).write .statement
        (hoveringMoth [dim, being [still, negation], pale])).text =
        "the dim and pale moth still isn't" := by
  have verb : Reattached (Writer.of hovering noWords) (being [still, negation])
      (being [negation, still]) :=
    .attached (.swap (by decide +kernel) _) (List.forall₂_same.mpr fun _ _ => .refl _ _)
  have reattached : Reattached (Writer.of hovering noWords)
      (hoveringMoth [pale, being [still, negation], dim])
      (hoveringMoth [being [negation, still], pale, dim]) :=
    .attached (.swap (by decide +kernel) _)
      (.cons verb (.cons (.refl _ _) (.cons (.refl _ _) .nil)))
  have written := (written_reattached reattached).2 .statement
  refine ⟨reattached, written, ?_, ?_⟩
  · rw [write, textOf, words, spell_words_eq, before, behind,
      placed_of_pairwise _ (by decide +kernel), placed_of_pairwise _ (by decide +kernel)]
    decide +kernel
  · rw [write, textOf, words, spell_words_eq, before, behind,
      placed_of_pairwise _ (by decide +kernel), placed_of_pairwise _ (by decide +kernel)]
    decide +kernel

end Writer

end SensoryProse
