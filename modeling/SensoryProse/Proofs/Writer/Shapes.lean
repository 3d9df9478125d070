import SensoryProse.Proofs.Lexicon.Vocabularies
import SensoryProse.Prose.Writer

/-!
# What a shape depends on

Rules look at the sense of a phrase only to see which word it spells, and every sense that a lawful
vocabulary finds for a phrase spells the phrase itself.  So a phrase gets the shape that it would
get from the sense made of it, whatever words are known, and of a phrase only what equivalence
compares is looked at.
-/

namespace SensoryProse

namespace Rule

/-- All that a rule looks at: what equivalence compares of the phrase and the words that its sense
spells. -/
theorem applies_congr (rule : Rule) {phrase other : Phrase} {sense otherSense : Option Sense}
    (same : phrase.key = other.key)
    (spelled : ∀ word, sense.any (·.spells word) = otherSense.any (·.spells word)) :
    rule.applies phrase sense = rule.applies other otherSense := by
  obtain ⟨role, wordClass, text, tense, perspective, _, _, plural, possessive⟩ :=
    Phrase.Key.mk.inj same
  unfold applies
  rw [role, wordClass, text, tense, perspective, plural, possessive]
  cases rule.boundWord? with
  | none => rfl
  | some word => simp only [spelled word]

theorem applies_senseOf {Words : Type} [Vocabulary Words] [LawfulVocabulary Words] (rule : Rule)
    (words : Words) (phrase : Phrase) :
    rule.applies phrase (Vocabulary.senseOf words phrase) =
      rule.applies phrase (Vocabulary.ownSense phrase) :=
  rule.applies_congr rfl (Vocabulary.senseOf_any_spells words phrase)

theorem applies_ownSense_of_key (rule : Rule) {phrase other : Phrase}
    (same : phrase.key = other.key) :
    rule.applies phrase (Vocabulary.ownSense phrase) =
      rule.applies other (Vocabulary.ownSense other) :=
  rule.applies_congr same (Vocabulary.ownSense_any_spells (Phrase.Key.mk.inj same).2.2.1)

/-- A rule that is not bound to a word does not look at the sense. -/
theorem applies_of_unbound {rule : Rule} (unbound : rule.isBound = false) (phrase : Phrase)
    (sense other : Option Sense) : rule.applies phrase sense = rule.applies phrase other := by
  rw [isBound, Option.isSome_eq_false_iff, Option.isNone_iff_eq_none] at unbound
  unfold applies
  rw [unbound]

end Rule

namespace Language

section

variable {language : Language} {phrase other : Phrase} {sense otherSense : Option Sense}

theorem shapeOf_of_applicable
    (same : language.applicable phrase sense = language.applicable other otherSense) :
    language.shapeOf phrase sense = language.shapeOf other otherSense := by
  rw [shapeOf, applicableRules, same]
  rfl

theorem applicable_congr
    (same : ∀ rule ∈ language.rules, rule.applies phrase sense = rule.applies other otherSense) :
    language.applicable phrase sense = language.applicable other otherSense := by
  have sameTable : language.rules.zipIdx.filter (fun entry => entry.1.applies phrase sense) =
      language.rules.zipIdx.filter (fun entry => entry.1.applies other otherSense) := by
    apply List.filter_congr
    intro entry member
    exact same entry.1 (List.fst_mem_of_mem_zipIdx member)
  rw [applicable, sameTable]
  rfl

theorem shapeOf_congr
    (same : ∀ rule ∈ language.rules, rule.applies phrase sense = rule.applies other otherSense) :
    language.shapeOf phrase sense = language.shapeOf other otherSense :=
  shapeOf_of_applicable (applicable_congr same)

end

theorem applies_of_unbound {language : Language}
    (unbound : language.rules.any (·.isBound) = false) {rule : Rule}
    (member : rule ∈ language.rules) (phrase : Phrase) (sense other : Option Sense) :
    rule.applies phrase sense = rule.applies phrase other := by
  have ruleUnbound : rule.isBound = false := by
    simpa using List.any_eq_false.mp unbound rule member
  exact Rule.applies_of_unbound ruleUnbound phrase sense other

end Language

namespace Writer

section

variable {Words : Type} [Vocabulary Words]

/-- No vocabulary looks at the modifiers of a phrase, and neither does a rule. -/
theorem shapeOf_of_bare (writer : Writer Words) {phrase other : Phrase}
    (same : phrase.bare = other.bare) : writer.shapeOf phrase = writer.shapeOf other := by
  have sameSense : writer.senseOf phrase = writer.senseOf other := by
    change writer.senseOf phrase.bare = writer.senseOf other.bare
    rw [same]
  have sameKey : phrase.key = other.key := (congrArg Phrase.key same :)
  rw [shapeOf, shapeOf, sameSense]
  apply Language.shapeOf_congr
  intro rule _
  exact rule.applies_congr sameKey fun _ => rfl

variable [LawfulVocabulary Words]

/-- Leaving senses unresolved makes no difference where no rule is bound to a word, and neither
does it matter which sense is found. -/
theorem applies_senseOf {language : Language} {rule : Rule} (member : rule ∈ language.rules)
    (lexicon : Words) (phrase : Phrase) :
    rule.applies phrase ((Writer.of language lexicon).senseOf phrase) =
      rule.applies phrase (Vocabulary.ownSense phrase) := by
  cases bound : language.rules.any (·.isBound) with
  | true =>
      have resolved : (Writer.of language lexicon).senseOf phrase =
          Vocabulary.senseOf lexicon phrase := by
        simp [senseOf, Writer.of, bound]
      rw [resolved, Rule.applies_senseOf]
  | false => exact Language.applies_of_unbound bound member phrase _ _

theorem shapeOf_eq_ownSense (language : Language) (lexicon : Words) (phrase : Phrase) :
    (Writer.of language lexicon).shapeOf phrase =
      language.shapeOf phrase (Vocabulary.ownSense phrase) :=
  Language.shapeOf_congr fun _ member => applies_senseOf member lexicon phrase

theorem applicable_of_key (language : Language) (lexicon : Words) {phrase other : Phrase}
    (same : phrase.key = other.key) :
    language.applicable phrase ((Writer.of language lexicon).senseOf phrase) =
      language.applicable other ((Writer.of language lexicon).senseOf other) := by
  apply Language.applicable_congr
  intro rule member
  rw [applies_senseOf member, applies_senseOf member, rule.applies_ownSense_of_key same]

theorem shapeOf_of_key (language : Language) (lexicon : Words) {phrase other : Phrase}
    (same : phrase.key = other.key) :
    (Writer.of language lexicon).shapeOf phrase = (Writer.of language lexicon).shapeOf other :=
  Language.shapeOf_of_applicable (applicable_of_key language lexicon same)

end

end Writer

end SensoryProse
