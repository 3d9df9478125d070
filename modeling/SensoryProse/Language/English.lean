import SensoryProse.Language.Basic

/-!
# English

A small pack for English: which words take articles and which are listed, the regular plural,
possessive and past tense, and the most common contractions.
-/

namespace SensoryProse.Language

/-- Rules about articles and lists. -/
def englishPhraseRules : List Rule := [
  { wordClass := some .noun, article := some true },
  { wordClass := some .properNoun, article := some false },
  { wordClass := some .pronoun, article := some false },
  { wordClass := some .adjective, listable := some true },
  { wordClass := some .noun, role := some .directObject, listable := some true }]

/-- Rules about plurals and possessives. -/
def englishNounRules : List Rule := [
  { wordClass := some .noun, plural := true, afterWord := some "s" },
  { wordClass := some .noun, plural := true, endings := "s|x|ch|sh", afterWord := some "es" },
  { wordClass := some .noun, possessive := true, afterWord := some "'s" },
  { wordClass := some .properNoun, possessive := true, afterWord := some "'s" }]

/-- Past forms that are used as they stand. -/
def englishPastWords : List String := ["was", "were", "saw", "heard"]

/-- Rules about the past tense. -/
def englishVerbRules : List Rule := [
  { wordClass := some .verb, tense := some .past, afterWord := some "ed" },
  { wordClass := some .verb, tense := some .past, endings := "e", afterWord := some "d" }]
  ++ englishPastWords.map fun word => { word := some word, afterWord := some "" }

/-- Adverbs trail whatever they modify. -/
def englishAdverbRule : Rule := { wordClass := some .adverb, order := some 3 }

def english : Language where
  name := "english"
  rules := englishPhraseRules ++ englishNounRules ++ englishVerbRules ++ [englishAdverbRule]
  contractions := [
    { first := "it", second := "is", result := "it's" },
    { first := "do", second := "not", result := "don't" },
    { first := "is", second := "not", result := "isn't" },
    { first := "you", second := "are", result := "you're" }]

end SensoryProse.Language
