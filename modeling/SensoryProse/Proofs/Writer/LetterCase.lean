import SensoryProse.Proofs.Language.Conditions
import SensoryProse.Proofs.Language.Contracting
import SensoryProse.Proofs.Language.Deciding
import SensoryProse.Proofs.Text.LetterCase
import SensoryProse.Proofs.Writer.Lexicons

/-!
# Texts that differ in case

Beginnings and endings are compared by small letters, but the words that rules are bound to, and
those that contract, up to ASCII case only.  So two texts with the same small letters always pass
the same tests on their affixes, while a rule bound to one of them may pass over the other, and so
may a contraction.  For which tables this happens is exactly known, and it never does if the texts
are ASCII.
-/

namespace SensoryProse

/-- The phrase with another text in place of its own. -/
def Phrase.withText (phrase : Phrase) (text : String) : Phrase := { phrase with text }

@[simp] theorem Phrase.withText_text (phrase : Phrase) (text : String) :
    (phrase.withText text).text = text := rfl

namespace Rule

/-- A rule bound to a word takes two texts alike: both are that word or neither is, unless the rule
asks for another beginning or ending anyway. -/
def TakesAlike (rule : Rule) (left right : String) : Prop :=
  ∀ word ∈ rule.boundWord?, meets rule.beginnings (beginsWith left) = true →
    meets rule.endings (endsWith left) = true →
    Text.sameUpToAsciiCase left word = Text.sameUpToAsciiCase right word

instance (rule : Rule) (left right : String) : Decidable (rule.TakesAlike left right) :=
  inferInstanceAs (Decidable (∀ word ∈ rule.boundWord?, _ → _ → _ = _))

/-- A phrase that meets all conditions of a rule but those on its text. -/
def fitting (rule : Rule) : Phrase where
  role := .subject
  wordClass := .noun
  text := ""
  context := {
    tense := rule.tense.getD .present
    perspective := rule.perspective.getD .third
    plural := true
    possessive := true }

theorem fitting_applies (rule : Rule) (text : String) :
    rule.besidesWord.applies (rule.fitting.withText text) none =
      (meets rule.beginnings (beginsWith text) && meets rule.endings (endsWith text)) := by
  have unbound : rule.besidesWord.boundWord? = none := rfl
  unfold applies
  rw [unbound]
  simp [besidesWord, fitting, Phrase.withText]

/-- Whoever passes the tests besides the word passes those on affixes. -/
theorem affixes_of_besidesWord {rule : Rule} {phrase : Phrase} {sense : Option Sense}
    (applies : rule.besidesWord.applies phrase sense = true) :
    meets rule.beginnings (beginsWith phrase.text) = true ∧
      meets rule.endings (endsWith phrase.text) = true := by
  have met := applies_iff.mp applies
  exact ⟨met .beginnings, met .endings⟩

section

variable {left right : String} (same : Text.lower left = Text.lower right)

include same

theorem beginsWith_of_lower : beginsWith left = beginsWith right := by
  funext beginning
  rw [beginsWith, beginsWith, Text.lowerChars_eq_of_lower_eq same]

theorem endsWith_of_lower : endsWith left = endsWith right := by
  funext ending
  rw [endsWith, endsWith, Text.lowerChars_eq_of_lower_eq same]

theorem unbound_applies_withText {rule : Rule} (unbound : rule.isBound = false) (phrase : Phrase)
    (sense other : Option Sense) :
    rule.applies (phrase.withText left) sense = rule.applies (phrase.withText right) other := by
  rw [applies_of_unbound unbound _ sense other]
  simp only [applies, Phrase.withText, beginsWith_of_lower same, endsWith_of_lower same]

end

end Rule

namespace Contraction

variable {rules : List Contraction}

/-- One of the two words of the rule is the text, up to ASCII case. -/
def Mentions (rule : Contraction) (text : String) : Prop :=
  Text.foldAscii rule.first = Text.foldAscii text ∨ Text.foldAscii rule.second = Text.foldAscii text

instance (rule : Contraction) (text : String) : Decidable (rule.Mentions text) :=
  inferInstanceAs (Decidable (_ = _ ∨ _ = _))

theorem Joins.mentions {rule : Contraction} {left word : String} (joins : rule.Joins left word) :
    rule.Mentions left := by
  rcases joins with ⟨first, _⟩ | ⟨_, second⟩
  · exact .inl first
  · exact .inr second

theorem Mentions.exists_joins {rule : Contraction} {left : String}
    (mentions : rule.Mentions left) : ∃ word, rule.Joins left word := by
  rcases mentions with first | second
  · exact ⟨rule.second, .inl ⟨first, rfl⟩⟩
  · exact ⟨rule.first, .inr ⟨rfl, second⟩⟩

/-- A rule joins a word with texts of one form only. -/
theorem Joins.foldAscii_eq {rule : Contraction} {left right word : String}
    (joins : rule.Joins left word) (also : rule.Joins right word) :
    Text.foldAscii left = Text.foldAscii right := by
  rcases joins with ⟨first, second⟩ | ⟨first, second⟩ <;>
    rcases also with ⟨alsoFirst, alsoSecond⟩ | ⟨alsoFirst, alsoSecond⟩
  · exact first.symm.trans alsoFirst
  · exact first.symm.trans (alsoFirst.trans (second.symm.trans alsoSecond))
  · exact second.symm.trans (alsoSecond.trans (first.symm.trans alsoFirst))
  · exact second.symm.trans alsoSecond

theorem joins_comm (rule : Contraction) (left right : String) :
    rule.joins left right = rule.joins right left :=
  Bool.or_comm _ _

theorem find?_comm (rules : List Contraction) (left right : String) :
    find? rules left right = find? rules right left := by
  simp only [find?, joins_comm _ left right]

theorem exists_firstJoining {rule : Contraction} (member : rule ∈ rules) {left word : String}
    (joins : rule.Joins left word) : ∃ first, FirstJoining rules left word first := by
  cases found : find? rules left word with
  | none => exact absurd joins (find?_eq_none_iff.mp found rule member)
  | some first => exact ⟨first, find?_eq_some_iff.mp found⟩

theorem sameUpToAsciiCase_of_mentions {left right : String}
    (alike : ∀ word, find? rules left word = find? rules right word) {rule : Contraction}
    (member : rule ∈ rules) (mentions : rule.Mentions left) :
    Text.sameUpToAsciiCase left right = true := by
  obtain ⟨word, joins⟩ := mentions.exists_joins
  obtain ⟨first, joining⟩ := exists_firstJoining member joins
  have found : find? rules right word = some first := by
    rw [← alike word, find?_eq_some_iff.mpr joining]
  have also := find?_eq_some_iff.mp found
  exact beq_iff_eq.mpr (joining.1.foldAscii_eq also.1)

/-- A table contracts two texts alike with every word only if they are the same up to ASCII case, or
if it does not know either of them. -/
theorem find?_alike_iff {left right : String} :
    (∀ word, find? rules left word = find? rules right word) ↔
      Text.sameUpToAsciiCase left right = true ∨
        ∀ rule ∈ rules, ¬rule.Mentions left ∧ ¬rule.Mentions right := by
  constructor
  · intro alike
    by_cases known : ∃ rule ∈ rules, rule.Mentions left ∨ rule.Mentions right
    · left
      obtain ⟨rule, member, mentions | mentions⟩ := known
      · exact sameUpToAsciiCase_of_mentions alike member mentions
      · have turned : ∀ word, find? rules right word = find? rules left word :=
          fun word => (alike word).symm
        have folded := sameUpToAsciiCase_of_mentions turned member mentions
        exact beq_iff_eq.mpr (beq_iff_eq.mp folded).symm
    · right
      intro rule member
      exact not_or.mp fun mentions => known ⟨rule, member, mentions⟩
  · intro condition word
    rcases condition with same | unknown
    · have folded := beq_iff_eq.mp same
      simp only [find?, joins, Text.sameUpToAsciiCase, folded]
    · have leftApart : Apart rules left word := fun rule member joins =>
        (unknown rule member).1 joins.mentions
      have rightApart : Apart rules right word := fun rule member joins =>
        (unknown rule member).2 joins.mentions
      rw [find?_eq_none_iff.mpr leftApart, find?_eq_none_iff.mpr rightApart]

end Contraction

namespace Writer

/-- A language takes two texts alike: the same rules apply to a phrase, as it is written, whichever
of the two it is, and the same contractions join them with other words, on either side. -/
structure TakenAlike (language : Language) (left right : String) : Prop where
  rules : ∀ {Words : Type} [Vocabulary Words] [LawfulVocabulary Words] (lexicon : Words)
    (phrase : Phrase), language.applicable (phrase.withText left)
        ((Writer.of language lexicon).senseOf (phrase.withText left)) =
      language.applicable (phrase.withText right)
        ((Writer.of language lexicon).senseOf (phrase.withText right))
  before : ∀ word, language.contractionOf? left word = language.contractionOf? right word
  behind : ∀ word, language.contractionOf? word left = language.contractionOf? word right

/-- The tables of a language tell two texts apart in no place. -/
structure Indifferent (language : Language) (left right : String) : Prop where
  rules : ∀ rule ∈ language.rules, rule.TakesAlike left right
  contractions : Text.sameUpToAsciiCase left right = true ∨
    ∀ rule ∈ language.contractions, ¬rule.Mentions left ∧ ¬rule.Mentions right

section

variable {Words : Type} [Vocabulary Words] [LawfulVocabulary Words]

theorem bound_applies_senseOf {language : Language} {rule : Rule} {word : String}
    (member : rule ∈ language.rules) (bound : rule.boundWord? = some word) (lexicon : Words)
    (phrase : Phrase) :
    rule.applies phrase ((Writer.of language lexicon).senseOf phrase) =
      (Text.sameUpToAsciiCase phrase.text word && rule.besidesWord.applies phrase none) :=
  (applies_senseOf member lexicon phrase).trans (Rule.applies_ownSense_of_bound bound phrase)

variable {left right : String} (same : Text.lower left = Text.lower right)

include same

theorem applies_withText {language : Language} {rule : Rule} (member : rule ∈ language.rules)
    (alike : rule.TakesAlike left right) (lexicon : Words) (phrase : Phrase) :
    rule.applies (phrase.withText left)
        ((Writer.of language lexicon).senseOf (phrase.withText left)) =
      rule.applies (phrase.withText right)
        ((Writer.of language lexicon).senseOf (phrase.withText right)) := by
  cases bound : rule.boundWord? with
  | none =>
      have unbound : rule.isBound = false := congrArg Option.isSome bound
      exact Rule.unbound_applies_withText same unbound phrase _ _
  | some word =>
      have besides : rule.besidesWord.applies (phrase.withText left) none =
          rule.besidesWord.applies (phrase.withText right) none :=
        Rule.unbound_applies_withText same rfl phrase none none
      rw [bound_applies_senseOf member bound, bound_applies_senseOf member bound, ← besides]
      cases applies : rule.besidesWord.applies (phrase.withText left) none with
      | false => rw [Bool.and_false, Bool.and_false]
      | true =>
          obtain ⟨begins, ends⟩ := Rule.affixes_of_besidesWord applies
          rw [Phrase.withText_text, Phrase.withText_text, alike word bound begins ends]

theorem applicable_withText_iff (language : Language) :
    (∀ {Words : Type} [Vocabulary Words] [LawfulVocabulary Words] (lexicon : Words)
      (phrase : Phrase),
      language.applicable (phrase.withText left)
          ((Writer.of language lexicon).senseOf (phrase.withText left)) =
        language.applicable (phrase.withText right)
          ((Writer.of language lexicon).senseOf (phrase.withText right))) ↔
      ∀ rule ∈ language.rules, rule.TakesAlike left right := by
  constructor
  · intro applicable rule member word bound begins ends
    have applies := Language.applies_of_applicable (applicable ({} : Lexicon) rule.fitting) member
    have leftFits : rule.besidesWord.applies (rule.fitting.withText left) none = true := by
      rw [Rule.fitting_applies, begins, ends]
      rfl
    have rightFits : rule.besidesWord.applies (rule.fitting.withText right) none = true :=
      (Rule.unbound_applies_withText same rfl rule.fitting none none).symm.trans leftFits
    rw [bound_applies_senseOf member bound, bound_applies_senseOf member bound, leftFits, rightFits,
      Bool.and_true, Bool.and_true] at applies
    exact applies
  · intro alike Words _ _ lexicon phrase
    apply Language.applicable_congr
    intro rule member
    exact applies_withText same member (alike rule member) lexicon phrase

theorem takenAlike_iff (language : Language) :
    TakenAlike language left right ↔ Indifferent language left right := by
  constructor
  · intro alike
    exact ⟨(applicable_withText_iff same language).mp alike.rules,
      Contraction.find?_alike_iff.mp alike.before⟩
  · intro indifferent
    have before := Contraction.find?_alike_iff.mpr indifferent.contractions
    refine ⟨(applicable_withText_iff same language).mpr indifferent.rules, before, ?_⟩
    intro word
    have turned := before word
    rw [Contraction.find?_comm _ left, Contraction.find?_comm _ right] at turned
    exact turned

end

/-- What is the same up to ASCII case is taken alike everywhere, and nothing else is, since any text
may contract. -/
theorem takenAlike_everywhere_iff {left right : String} :
    (∀ language, TakenAlike language left right) ↔
      Text.sameUpToAsciiCase left right = true := by
  constructor
  · intro alike
    let rule : Contraction := { first := left, second := "", result := "" }
    have contracting := (alike { name := "", contractions := [rule] }).before
    rcases Contraction.find?_alike_iff.mp contracting with folded | unknown
    · exact folded
    · exact absurd (.inl rfl) (unknown rule List.mem_cons_self).1
  · intro folded language
    apply (takenAlike_iff (Text.lower_eq_of_sameUpToAsciiCase folded) language).mpr
    refine ⟨?_, .inl folded⟩
    intro rule _ word _ _ _
    rw [Text.sameUpToAsciiCase, Text.sameUpToAsciiCase, beq_iff_eq.mp folded]

/-- What the tests on letter case make of two texts: those on affixes do not tell them apart, nor
does a rule that is not bound to a word, and of the others it is said which do. -/
structure CaseTests (left right : String) : Prop where
  beginnings : ∀ list,
    Rule.meets list (Rule.beginsWith left) = Rule.meets list (Rule.beginsWith right)
  endings : ∀ list, Rule.meets list (Rule.endsWith left) = Rule.meets list (Rule.endsWith right)
  unbound : ∀ rule : Rule, rule.isBound = false →
    ∀ (phrase : Phrase) (sense other : Option Sense),
      rule.applies (phrase.withText left) sense = rule.applies (phrase.withText right) other
  taken : ∀ language, TakenAlike language left right ↔ Indifferent language left right
  everywhere : (∀ language, TakenAlike language left right) ↔
    Text.sameUpToAsciiCase left right = true
  ascii : (∀ c ∈ left.toList, Text.isAscii c = true) →
    (∀ c ∈ right.toList, Text.isAscii c = true) → Text.sameUpToAsciiCase left right = true

/-- Texts with the same small letters are taken alike by every language just in case they are the
same up to ASCII case. -/
theorem case_tests_of_lower {left right : String} (same : Text.lower left = Text.lower right) :
    CaseTests left right where
  beginnings list := by rw [Rule.beginsWith_of_lower same]
  endings list := by rw [Rule.endsWith_of_lower same]
  unbound _ unbound := Rule.unbound_applies_withText same unbound
  taken := takenAlike_iff same
  everywhere := takenAlike_everywhere_iff
  ascii leftAscii rightAscii := Text.sameUpToAsciiCase_of_ascii leftAscii rightAscii same

/-- A language that knows stars, and shooting stars by a word of their own. -/
def starry : Language where
  name := "french"
  rules := [{ word := some "étoile", afterWord := some "s" }]
  contractions := [{ first := "étoile", second := "filante", result := "météore" }]

def star : Phrase := { role := .subject, wordClass := .noun, text := "étoile" }

/-- A star with a capital passes the same tests on affixes as one without, and English, which has no
rule for stars, takes both alike.  Other languages do not. -/
theorem star_case_tests :
    Text.lower "étoile" = Text.lower "Étoile" ∧
      Rule.meets "é|è" (Rule.beginsWith "étoile") = Rule.meets "é|è" (Rule.beginsWith "Étoile") ∧
      TakenAlike .english "étoile" "Étoile" ∧
      ¬∀ language, TakenAlike language "étoile" "Étoile" := by
  have same : Text.lower "étoile" = Text.lower "Étoile" := by decide +kernel
  have tests := case_tests_of_lower same
  refine ⟨same, tests.beginnings "é|è", ?_, ?_⟩
  · exact (tests.taken .english).mpr ⟨by decide +kernel, .inr (by decide +kernel)⟩
  · intro alike
    exact absurd (tests.everywhere.mp alike) (by decide +kernel)

/-- The star that begins a sentence is another word to the rule and to the contraction. -/
theorem star_taken_otherwise :
    Text.lower "étoile" = Text.lower "Étoile" ∧
      starry.applicable (star.withText "étoile")
          ((Writer.of starry ({} : Lexicon)).senseOf (star.withText "étoile")) ≠
        starry.applicable (star.withText "Étoile")
          ((Writer.of starry ({} : Lexicon)).senseOf (star.withText "Étoile")) ∧
      starry.contractionOf? "étoile" "filante" ≠ starry.contractionOf? "Étoile" "filante" ∧
      ¬∀ (language : Language) (left right : String), Text.lower left = Text.lower right →
        TakenAlike language left right := by
  have same : Text.lower "étoile" = Text.lower "Étoile" := by decide +kernel
  have contracted :
      starry.contractionOf? "étoile" "filante" ≠ starry.contractionOf? "Étoile" "filante" := by
    decide +kernel
  have listed : starry.applicable (star.withText "étoile")
        ((Writer.of starry ({} : Lexicon)).senseOf (star.withText "étoile")) ≠
      starry.applicable (star.withText "Étoile")
        ((Writer.of starry ({} : Lexicon)).senseOf (star.withText "Étoile")) := by
    decide +kernel
  refine ⟨same, listed, contracted, ?_⟩
  intro alike
  exact contracted ((alike starry "étoile" "Étoile" same).before "filante")

end Writer

end SensoryProse
