import SensoryProse.Proofs.Language.Conditions

/-!
# What a phrase is taken for

A rule that applies to a phrase says something about it: the phrase begins and ends as the rule
asks, has its tense, perspective and number, and is the word that the rule is bound to or else plays
the role and is of the word class that it names.  A rule that asks for a position only gains weight
by it.
-/

namespace SensoryProse

/-- The phrase in another position relative to its head. -/
def Phrase.placed (phrase : Phrase) (position : Position) : Phrase :=
  { phrase with context := { phrase.context with position } }

namespace Rule

/-- The phrase meets what the rule asks of its text, its word and its grammar. -/
structure MetBy (rule : Rule) (phrase : Phrase) (sense : Option Sense) : Prop where
  beginnings : alternatives rule.beginnings ≠ [] →
    ∃ beginning ∈ alternatives rule.beginnings,
      Text.lowerChars beginning.toList <+: Text.lowerChars phrase.text.toList
  endings : alternatives rule.endings ≠ [] →
    ∃ ending ∈ alternatives rule.endings,
      Text.lowerChars ending.toList <:+ Text.lowerChars phrase.text.toList
  tense : ∀ tense, rule.tense = some tense → phrase.context.tense = tense
  perspective : ∀ perspective, rule.perspective = some perspective →
    phrase.context.perspective = perspective
  plural : rule.plural = true → phrase.context.plural = true
  possessive : rule.possessive = true → phrase.context.possessive = true
  word : ∀ word, rule.boundWord? = some word →
    ∃ known, sense = some known ∧ known.spells word = true
  role : rule.boundWord? = none → ∀ role, rule.role = some role → phrase.role = role
  wordClass : rule.boundWord? = none →
    ∀ wordClass, rule.wordClass = some wordClass → phrase.wordClass = wordClass

/-- The phrase has one of the tags that the rule names, if it names any. -/
def TaggedFor (rule : Rule) (phrase : Phrase) : Prop :=
  alternatives rule.semantics ≠ [] →
    ∃ tag ∈ alternatives rule.semantics, tag ∈ phrase.context.semantics

/-- The phrase has a position relative to its head, if the rule asks for one. -/
def PlacedFor (rule : Rule) (phrase : Phrase) : Prop :=
  rule.positional = true → phrase.context.position ≠ .none

section

variable {rule : Rule} {phrase : Phrase} {sense : Option Sense}

theorem isMet_beginnings_iff :
    Condition.beginnings.isMet rule phrase sense = true ↔
      (alternatives rule.beginnings ≠ [] → ∃ beginning ∈ alternatives rule.beginnings,
        Text.lowerChars beginning.toList <+: Text.lowerChars phrase.text.toList) := by
  simp only [Condition.isMet, meets_iff, beginsWith, List.isPrefixOf_iff_prefix]

theorem isMet_endings_iff :
    Condition.endings.isMet rule phrase sense = true ↔
      (alternatives rule.endings ≠ [] → ∃ ending ∈ alternatives rule.endings,
        Text.lowerChars ending.toList <:+ Text.lowerChars phrase.text.toList) := by
  simp only [Condition.isMet, meets_iff, endsWith, List.isSuffixOf_iff_suffix]

theorem isMet_word_iff :
    Condition.word.isMet rule phrase sense = true ↔
      ∀ word, rule.boundWord? = some word →
        ∃ known, sense = some known ∧ known.spells word = true := by
  simp only [Condition.isMet, Option.all_eq_true, Option.any_eq_true]

theorem isMet_role_iff :
    Condition.role.isMet rule phrase sense = true ↔
      (rule.boundWord? = none → ∀ role, rule.role = some role → phrase.role = role) := by
  rw [← admits_iff]
  cases bound : rule.boundWord? <;> simp [Condition.isMet, isBound, bound]

theorem isMet_wordClass_iff :
    Condition.wordClass.isMet rule phrase sense = true ↔
      (rule.boundWord? = none →
        ∀ wordClass, rule.wordClass = some wordClass → phrase.wordClass = wordClass) := by
  rw [← admits_iff]
  cases bound : rule.boundWord? <;> simp [Condition.isMet, isBound, bound]

/-- Of the conditions of a rule, those on tags and on the position are met by every phrase. -/
theorem applies_iff_metBy : rule.applies phrase sense = true ↔ rule.MetBy phrase sense := by
  rw [applies_iff]
  constructor
  · intro met
    exact {
      beginnings := isMet_beginnings_iff.mp (met .beginnings)
      endings := isMet_endings_iff.mp (met .endings)
      tense := admits_iff.mp (met .tense)
      perspective := admits_iff.mp (met .perspective)
      plural := demand_iff.mp (met .plural)
      possessive := demand_iff.mp (met .possessive)
      word := isMet_word_iff.mp (met .word)
      role := isMet_role_iff.mp (met .role)
      wordClass := isMet_wordClass_iff.mp (met .wordClass) }
  · intro metBy condition
    cases condition with
    | semantics => rfl
    | endings => exact isMet_endings_iff.mpr metBy.endings
    | beginnings => exact isMet_beginnings_iff.mpr metBy.beginnings
    | word => exact isMet_word_iff.mpr metBy.word
    | tense => exact admits_iff.mpr metBy.tense
    | perspective => exact admits_iff.mpr metBy.perspective
    | wordClass => exact isMet_wordClass_iff.mpr metBy.wordClass
    | role => exact isMet_role_iff.mpr metBy.role
    | plural => exact demand_iff.mpr metBy.plural
    | possessive => exact demand_iff.mpr metBy.possessive
    | positional => rfl

end

/-- The rule applies where what it asks for is met, in whatever position the phrase stands. -/
structure AppliesAsAsked (rule : Rule) (phrase : Phrase) (sense : Option Sense) : Prop where
  met : rule.applies phrase sense = true → rule.MetBy phrase sense
  applies : rule.MetBy phrase sense → rule.TaggedFor phrase → rule.applies phrase sense = true
  anywhere : ∀ positional position,
    ({ rule with positional }).applies (phrase.placed position) sense = rule.applies phrase sense
  outweighs :
    ({ rule with positional := true }).specificity =
      ({ rule with positional := false }).specificity + 6

/-- What a rule asks of the text, the word and the grammar of a phrase is met by every phrase that
it applies to.  A position is asked of no phrase: it only makes the rule more specific. -/
theorem applies_as_asked (rule : Rule) (phrase : Phrase) (sense : Option Sense) :
    rule.AppliesAsAsked phrase sense where
  met := applies_iff_metBy.mp
  applies metBy _ := applies_iff_metBy.mpr metBy
  anywhere _ _ := rfl
  outweighs := rfl

/-- A rule for what is made of metal or glass. -/
def ofMetal : Rule := { semantics := "metal|glass", afterWord := some "ware" }

/-- A rule for what stands in some position. -/
def wherever : Rule := { positional := true, afterWord := some "ward" }

/-- A lantern without tags and without a position. -/
def plainLantern : Phrase := { text := "lantern", role := .subject, wordClass := .noun }

/-- Both rules apply to a lantern that has no tag and stands in no position. -/
theorem plain_lantern_taken :
    ofMetal.applies plainLantern none = true ∧ ¬ofMetal.TaggedFor plainLantern ∧
      wherever.applies plainLantern none = true ∧ ¬wherever.PlacedFor plainLantern ∧
      ¬∀ (rule : Rule) (phrase : Phrase) (sense : Option Sense),
        rule.applies phrase sense = true →
          rule.MetBy phrase sense ∧ rule.TaggedFor phrase ∧ rule.PlacedFor phrase := by
  have taken : ofMetal.applies plainLantern none = true := by decide +kernel
  have untagged : ¬ofMetal.TaggedFor plainLantern := by
    intro tagged
    obtain ⟨tag, _, carried⟩ := tagged (by decide +kernel)
    contradiction
  have takenHere : wherever.applies plainLantern none = true := by decide +kernel
  have unplaced : ¬wherever.PlacedFor plainLantern := by
    intro placed
    exact placed rfl rfl
  refine ⟨taken, untagged, takenHere, unplaced, ?_⟩
  intro claimed
  exact untagged (claimed ofMetal plainLantern none taken).2.1

end Rule

end SensoryProse
