import SensoryProse.Proofs.Writer.Lexicons
import SensoryProse.Proofs.Writer.Traversal

/-!
# English endings

The order of the rules in a table by rank does not depend on the phrase, so what a table says of a
property is read off its ranked rules, the first of which that applies and sets it decides.  For the
English pack this comes down to one definition by word class: the past forms that are used as they
stand come first and mind no word class, and all other nouns and verbs take the regular endings.
-/

namespace SensoryProse

namespace Language

/-- Whether a text ends in one of several endings, whatever its case. -/
def EndsInOneOf (endings : List String) (text : String) : Prop :=
  ∃ ending ∈ endings, ending.toList <:+ (Text.lower text).toList

instance (endings : List String) (text : String) : Decidable (EndsInOneOf endings text) :=
  inferInstanceAs (Decidable (∃ ending ∈ endings, ending.toList <:+ (Text.lower text).toList))

/-- The regular ending of a plural. -/
def pluralEnding (text : String) : String :=
  if EndsInOneOf ["s", "x", "ch", "sh"] text then "es" else "s"

/-- The regular ending of a past tense. -/
def pastEnding (text : String) : String := if EndsInOneOf ["e"] text then "d" else "ed"

/-- A phrase that is written and not one of the past forms that English uses as they stand. -/
structure Regular (phrase : Phrase) : Prop where
  written : phrase.text.isEmpty = false
  different : ∀ word ∈ englishPastWords, Text.sameUpToAsciiCase phrase.text word = false

theorem Regular.not_pastWord {phrase : Phrase} (regular : Regular phrase) :
    englishPastWords.any (Text.sameUpToAsciiCase phrase.text) = false :=
  List.any_eq_false.mpr fun word member => by simp [regular.different word member]

/-- What English appends to a phrase. -/
def englishEnding (phrase : Phrase) : Option String :=
  if englishPastWords.any (Text.sameUpToAsciiCase phrase.text) then some ""
  else
    match phrase.wordClass with
    | .noun =>
        if phrase.context.plural then some (pluralEnding phrase.text)
        else if phrase.context.possessive then some "'s" else none
    | .properNoun => if phrase.context.possessive then some "'s" else none
    | .verb => if phrase.context.tense = .past then some (pastEnding phrase.text) else none
    | _ => none

/-- The rule that appends a suffix to one word. -/
def appending (word suffix : String) : Rule := { word := some word, afterWord := some suffix }

/-- The entries of the English table that append something, by rank. -/
def englishEndings : List (Rule × Nat) :=
  (englishPastWords.zipIdx 11).map (fun (word, place) => (appending word "", place)) ++ [
    ({ wordClass := some .noun, plural := true, endings := "s|x|ch|sh"
       afterWord := some "es" }, 6),
    ({ wordClass := some .verb, tense := some .past, endings := "e", afterWord := some "d" }, 10),
    ({ wordClass := some .noun, plural := true, afterWord := some "s" }, 5),
    ({ wordClass := some .noun, possessive := true, afterWord := some "'s" }, 7),
    ({ wordClass := some .properNoun, possessive := true, afterWord := some "'s" }, 8),
    ({ wordClass := some .verb, tense := some .past, afterWord := some "ed" }, 9)]

theorem englishEndings_perm :
    englishEndings.Perm (english.rules.zipIdx.filter fun entry => entry.1.afterWord.isSome) := by
  decide +kernel

theorem englishEndings_pairwise : englishEndings.Pairwise Outranks := by
  decide +kernel

/-- A list of endings in small letters is met by the texts that end in one of them. -/
theorem meets_endings_iff {list : String} {endings : List String}
    (alternatives : Rule.alternatives list = endings) (some : endings ≠ [])
    (small : ∀ ending ∈ endings, Text.lowerChars ending.toList = ending.toList) (text : String) :
    Rule.meets list (Rule.endsWith text) = true ↔ EndsInOneOf endings text := by
  have constrains : Rule.constrains list = true := by
    simp [Rule.constrains, alternatives, some]
  simp only [Rule.meets, constrains, alternatives, Bool.not_true, Bool.false_or, List.any_eq_true]
  refine exists_congr fun ending => and_congr_right fun member => ?_
  rw [Rule.endsWith, small ending member, List.isSuffixOf_iff_suffix, Text.lower,
    String.toList_ofList]

theorem appending_applies {word suffix : String} (written : word.isEmpty = false)
    (phrase : Phrase) :
    (appending word suffix).applies phrase (Vocabulary.ownSense phrase) =
      Text.sameUpToAsciiCase phrase.text word := by
  have bound : (appending word suffix).boundWord? = some word := by
    simp [appending, Rule.boundWord?, Option.filter, written]
  have free : (appending word suffix).besidesWord.applies phrase none = true := rfl
  rw [Rule.applies_ownSense_of_bound bound, free, Bool.and_true]

/-- Whatever is listed for single words goes by the spelling alone. -/
theorem findSome?_appending {words : List String} {suffix : String}
    (written : ∀ word ∈ words, word.isEmpty = false) (place : Nat) (phrase : Phrase) :
    (((words.zipIdx place).map fun (word, place) => (appending word suffix, place)).findSome?
      fun entry =>
        if entry.1.applies phrase (Vocabulary.ownSense phrase) then entry.1.afterWord else none) =
      if words.any (Text.sameUpToAsciiCase phrase.text) then some suffix else none := by
  induction words generalizing place with
  | nil => rfl
  | cons word words induction =>
      obtain ⟨here, others⟩ := List.forall_mem_cons.mp written
      rw [List.zipIdx_cons, List.map_cons, List.findSome?_cons, appending_applies here,
        induction others, List.any_cons]
      cases Text.sameUpToAsciiCase phrase.text word <;> simp [appending]

theorem english_afterWord (phrase : Phrase) :
    (english.shapeOf phrase (Vocabulary.ownSense phrase)).afterWord = englishEnding phrase := by
  have table := ofShape_shapeOf_of_ranked .afterWord englishEndings_perm englishEndings_pairwise
    phrase (Vocabulary.ownSense phrase)
  have pastWords : ∀ word ∈ englishPastWords, word.isEmpty = false := by decide
  have hissing := meets_endings_iff
    (by rfl : Rule.alternatives "s|x|ch|sh" = ["s", "x", "ch", "sh"])
    (by decide) (by decide) phrase.text
  have voiceless := meets_endings_iff (by rfl : Rule.alternatives "e" = ["e"])
    (by decide) (by decide) phrase.text
  have unconstrained : ∀ test, Rule.meets "" test = true := fun _ => rfl
  refine table.trans ?_
  unfold englishEndings englishEnding
  rw [List.findSome?_append]
  simp only [Shape.Property.afterWord, findSome?_appending pastWords, List.findSome?_cons,
    List.findSome?_nil]
  split
  · rfl
  · simp only [Rule.applies, Rule.boundWord?, Rule.admits, unconstrained]
    cases wordClass : phrase.wordClass with
    | noun =>
        cases phrase.context.plural <;> cases phrase.context.possessive <;>
          by_cases sibilant : EndsInOneOf ["s", "x", "ch", "sh"] phrase.text <;>
          simp [hissing, pluralEnding, sibilant]
    | properNoun => cases phrase.context.possessive <;> simp
    | verb =>
        cases phrase.context.tense <;> by_cases silent : EndsInOneOf ["e"] phrase.text <;>
          simp [voiceless, pastEnding, silent]
    | _ => simp

theorem english_beforeWord (phrase : Phrase) (sense : Option Sense) :
    (english.shapeOf phrase sense).beforeWord = none := by
  have unset : ∀ rule ∈ english.rules, rule.beforeWord = none := by decide
  exact (decided_shapeOf .beforeWord).eq_none_iff.mpr fun rule member _ => unset rule member

end Language

namespace Writer

open SensoryProse.Language

section

variable {Words : Type} [Vocabulary Words]

/-- What a phrase is written as, wherever it stands and whatever stands beside it. -/
structure WrittenAs (writer : Writer Words) (phrase : Phrase) (word : String) : Prop where
  inflected : writer.inflected phrase = [word]
  placed : ∀ head, (writer.spell head phrase).words =
    writer.supplied phrase
      ++ Listing.join ((writer.before phrase).map (writer.spell (some phrase.wordClass)))
      ++ [word]
      ++ Listing.join ((writer.behind phrase).map (writer.spell (some phrase.wordClass)))
  alone : phrase.modifiers = [] → phrase.context.determinant = false →
    ∀ kind, (writer.write kind phrase).text = word

theorem writtenAs_of_inflected {writer : Writer Words} {phrase : Phrase} {word : String}
    (inflected : writer.inflected phrase = [word]) : writer.WrittenAs phrase word where
  inflected := inflected
  placed head := by rw [spell_words_eq, inflected]
  alone bare indefinite kind := by
    have nothing : ∀ test, writer.placed test phrase = [] := by
      intro test
      rw [placed, bare, List.filter_nil, List.mergeSort_nil]
    have words : (writer.spell none phrase).words = [word] := by
      rw [spell_words_eq, inflected, before, behind, nothing, nothing]
      simp [supplied, suppliesArticle, indefinite, Listing.join, Listing.joinAfter, Listing.close]
    change Listing.spaced (writer.language.contract (writer.spell none phrase).words) = word
    rw [words]
    rfl

/-- The regular plurals and past tenses, whatever else is said of the phrases. -/
structure InflectsRegularly (writer : Writer Words) : Prop where
  plural : ∀ phrase, Regular phrase → phrase.wordClass = .noun → phrase.context.plural = true →
    phrase.context.possessive = false →
    writer.WrittenAs phrase (phrase.text ++ pluralEnding phrase.text)
  past : ∀ phrase, Regular phrase → phrase.wordClass = .verb → phrase.context.tense = .past →
    writer.WrittenAs phrase (phrase.text ++ pastEnding phrase.text)

variable [LawfulVocabulary Words]

/-- What English makes of a phrase by itself. -/
theorem english_inflected (lexicon : Words) (phrase : Phrase) :
    (Writer.of english lexicon).inflected phrase =
      if phrase.text.isEmpty then []
      else [phrase.text ++ (englishEnding phrase).getD ""] := by
  rw [inflected, shapeOf_eq_ownSense, Shape.inflect, english_beforeWord, english_afterWord]
  simp

theorem english_writtenAs {phrase : Phrase} {ending : String}
    (written : phrase.text.isEmpty = false) (ends : englishEnding phrase = some ending)
    (lexicon : Words) :
    (Writer.of english lexicon).WrittenAs phrase (phrase.text ++ ending) := by
  apply writtenAs_of_inflected
  rw [english_inflected, written, ends]
  rfl

theorem english_inflects_regularly (lexicon : Words) :
    InflectsRegularly (Writer.of english lexicon) where
  plural phrase regular noun plural _ := by
    apply english_writtenAs regular.written
    simp [englishEnding, regular.not_pastWord, noun, plural]
  past phrase regular verb past := by
    apply english_writtenAs regular.written
    simp [englishEnding, regular.not_pastWord, verb, past]

end

def torches : Phrase where
  role := .directObject
  wordClass := .noun
  text := "Torch"
  context := { plural := true }

def baking : Phrase where
  role := .verb
  wordClass := .verb
  text := "BAKE"
  context := { tense := .past }

theorem torches_baked :
    Regular torches ∧ torches.context.possessive = false ∧ Regular baking ∧
      ((Writer.of english (Lexicon.ofSenses [] 0)).write .statement torches).text = "Torches" ∧
      ((Writer.of english (Lexicon.ofSenses [] 0)).write .statement baking).text = "BAKEd" := by
  have regularNoun : Regular torches := ⟨by decide, by decide⟩
  have regularVerb : Regular baking := ⟨by decide, by decide⟩
  have regularly := english_inflects_regularly (Lexicon.ofSenses [] 0)
  have noun := regularly.plural torches regularNoun rfl rfl rfl
  have verb := regularly.past baking regularVerb rfl rfl
  exact ⟨regularNoun, rfl, regularVerb, noun.alone rfl rfl .statement,
    verb.alone rfl rfl .statement⟩

/-- Saws, which are spelled like a past form. -/
def saws : Phrase where
  role := .subject
  wordClass := .noun
  text := "saw"
  context := { plural := true }

/-- A verb without a word of its own. -/
def silentVerb : Phrase where
  role := .verb
  wordClass := .verb
  text := ""
  context := { tense := .past }

/-- The rules for past forms mind no word class, so several saws are written *saw*; and what has no
word takes no ending. -/
theorem saws_left_as_they_stand :
    saws.context.plural = true ∧ saws.context.possessive = false ∧
      (Writer.of english (Lexicon.ofSenses [] 0)).inflected saws = ["saw"] ∧
      "saw" ≠ saws.text ++ pluralEnding saws.text ∧
      silentVerb.context.tense = .past ∧
      englishPastWords.any (Text.sameUpToAsciiCase silentVerb.text) = false ∧
      (Writer.of english (Lexicon.ofSenses [] 0)).inflected silentVerb = [] := by
  refine ⟨rfl, rfl, ?_, by decide, rfl, by decide, ?_⟩
  · rw [english_inflected]
    rfl
  · rw [english_inflected]
    rfl

end Writer

end SensoryProse
