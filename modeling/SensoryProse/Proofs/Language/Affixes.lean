import SensoryProse.Proofs.Language.Conditions
import SensoryProse.Proofs.Text.Affixes

/-!
# Verbatim beginnings and endings

A rule that asks for a beginning compares the small letters of the beginning with those of the
phrase.  So it takes a phrase that begins so letter for letter, unless the beginning ends in a
capital sigma that the rest of the word makes another letter of, and no other alternative begins the
phrase.  Endings are compared alike, and are missed where they open with such a sigma.
-/

namespace SensoryProse.Rule

/-- The rule makes no other condition. -/
def AsksOnly (rule : Rule) (condition : Condition) : Prop :=
  ∀ other, other ≠ condition → other.isMade rule = false

/-- By itself the beginning ends in a final sigma, but the rest goes on with the word. -/
def cutsAfter (beginning rest : String) : Bool :=
  Text.endsInSigma beginning.toList && Text.startsCased rest.toList

/-- By itself the ending opens with a small sigma, but the word in front of it ends there. -/
def cutsBefore (front ending : String) : Bool :=
  Text.opensWithSigma ending.toList && Text.startsCased front.toList.reverse

theorem beginsWith_append (beginning rest : String) :
    beginsWith (beginning ++ rest) beginning = !cutsAfter beginning rest := by
  rw [beginsWith, String.toList_append, Text.lowerChars_isPrefixOf_append, cutsAfter]

theorem endsWith_append (front ending : String) :
    endsWith (front ++ ending) ending = !cutsBefore front ending := by
  rw [endsWith, String.toList_append, Text.lowerChars_isSuffixOf_append, cutsBefore]

/-- A letter goes on with every word. -/
theorem cutsAfter_letter (beginning : String) :
    cutsAfter beginning "a" = Text.endsInSigma beginning.toList := by
  have goesOn : Text.startsCased "a".toList = true := by decide +kernel
  rw [cutsAfter, goesOn, Bool.and_true]

theorem cutsBefore_letter (ending : String) :
    cutsBefore "a" ending = Text.opensWithSigma ending.toList := by
  have wordBefore : Text.startsCased "a".toList.reverse = true := by decide +kernel
  rw [cutsBefore, wordBefore, Bool.and_true]

section

variable {rule : Rule} {condition : Condition} {list alternative : String}

theorem AsksOnly.applies_iff (only : rule.AsksOnly condition) {phrase : Phrase}
    {sense : Option Sense} :
    rule.applies phrase sense = true ↔ condition.isMet rule phrase sense = true := by
  rw [Rule.applies_iff]
  constructor
  · intro met
    exact met condition
  · intro met other
    by_cases same : other = condition
    · rwa [same]
    · exact Condition.isMet_of_open (only other same) phrase sense

/-- One alternative passes, or another one has to. -/
theorem meets_iff_of_mem (member : alternative ∈ alternatives list) {test : String → Bool} :
    meets list test = true ↔
      test alternative = true ∨
        ∃ other ∈ alternatives list, other ≠ alternative ∧ test other = true := by
  rw [meets_iff]
  constructor
  · intro met
    obtain ⟨other, among, passes⟩ := met (List.ne_nil_of_mem member)
    by_cases same : other = alternative
    · exact .inl (same ▸ passes)
    · exact .inr ⟨other, among, same, passes⟩
  · rintro (passes | ⟨other, among, _, passes⟩) _
    · exact ⟨alternative, member, passes⟩
    · exact ⟨other, among, passes⟩

end

/-- Which phrases a rule takes that asks for beginnings only, or for endings only, among those that
have one letter for letter. -/
structure TakesVerbatim (rule : Rule) : Prop where
  beginnings : rule.AsksOnly .beginnings → ∀ beginning ∈ alternatives rule.beginnings,
    ∀ (phrase : Phrase) (sense : Option Sense) (rest : String), phrase.text = beginning ++ rest →
      (rule.applies phrase sense = true ↔
        cutsAfter beginning rest = false ∨
          ∃ other ∈ alternatives rule.beginnings,
            other ≠ beginning ∧ beginsWith phrase.text other = true)
  endings : rule.AsksOnly .endings → ∀ ending ∈ alternatives rule.endings,
    ∀ (phrase : Phrase) (sense : Option Sense) (front : String), phrase.text = front ++ ending →
      (rule.applies phrase sense = true ↔
        cutsBefore front ending = false ∨
          ∃ other ∈ alternatives rule.endings,
            other ≠ ending ∧ endsWith phrase.text other = true)
  soleBeginning : rule.AsksOnly .beginnings →
    ∀ beginning, alternatives rule.beginnings = [beginning] →
      ((∀ (phrase : Phrase) (sense : Option Sense) (rest : String),
          phrase.text = beginning ++ rest → rule.applies phrase sense = true) ↔
        Text.endsInSigma beginning.toList = false)
  soleEnding : rule.AsksOnly .endings → ∀ ending, alternatives rule.endings = [ending] →
    ((∀ (phrase : Phrase) (sense : Option Sense) (front : String),
        phrase.text = front ++ ending → rule.applies phrase sense = true) ↔
      Text.opensWithSigma ending.toList = false)

section

variable {rule : Rule} {affix : String}

/-- The beginning has to stay whole, or another one has to begin the phrase. -/
theorem applies_beginning_iff (only : rule.AsksOnly .beginnings)
    (member : affix ∈ alternatives rule.beginnings) {phrase : Phrase} {sense : Option Sense}
    {rest : String} (text : phrase.text = affix ++ rest) :
    rule.applies phrase sense = true ↔
      cutsAfter affix rest = false ∨
        ∃ other ∈ alternatives rule.beginnings,
          other ≠ affix ∧ beginsWith phrase.text other = true := by
  have whole : beginsWith phrase.text affix = !cutsAfter affix rest := by
    rw [text, beginsWith_append]
  rw [only.applies_iff, Condition.isMet, meets_iff_of_mem member, whole, Bool.not_eq_true']

theorem applies_ending_iff (only : rule.AsksOnly .endings)
    (member : affix ∈ alternatives rule.endings) {phrase : Phrase} {sense : Option Sense}
    {front : String} (text : phrase.text = front ++ affix) :
    rule.applies phrase sense = true ↔
      cutsBefore front affix = false ∨
        ∃ other ∈ alternatives rule.endings,
          other ≠ affix ∧ endsWith phrase.text other = true := by
  have whole : endsWith phrase.text affix = !cutsBefore front affix := by
    rw [text, endsWith_append]
  rw [only.applies_iff, Condition.isMet, meets_iff_of_mem member, whole, Bool.not_eq_true']

/-- A rule without alternatives to fall back on has only the one affix to go by. -/
theorem not_exists_other {list : String} (sole : alternatives list = [affix])
    (test : String → Bool) :
    ¬∃ other ∈ alternatives list, other ≠ affix ∧ test other = true := by
  rintro ⟨other, among, different, _⟩
  rw [sole] at among
  exact different (List.mem_singleton.mp among)

end

/-- A rule that asks only for a beginning, or only for an ending, takes the phrases that have it
letter for letter, but for those that it cuts at a sigma. -/
theorem takes_verbatim (rule : Rule) : rule.TakesVerbatim where
  beginnings only _ member _ _ _ text := applies_beginning_iff only member text
  endings only _ member _ _ _ text := applies_ending_iff only member text
  soleBeginning only beginning sole := by
    have member : beginning ∈ alternatives rule.beginnings := by simp [sole]
    constructor
    · intro taken
      have applies := taken { text := beginning ++ "a", role := .subject, wordClass := .noun }
        none "a" rfl
      have uncut := ((applies_beginning_iff only member rfl).mp applies).resolve_right
        (not_exists_other sole _)
      rwa [cutsAfter_letter] at uncut
    · intro whole phrase sense rest text
      have uncut : cutsAfter beginning rest = false := by rw [cutsAfter, whole, Bool.false_and]
      exact (applies_beginning_iff only member text).mpr (.inl uncut)
  soleEnding only ending sole := by
    have member : ending ∈ alternatives rule.endings := by simp [sole]
    constructor
    · intro taken
      have applies := taken { text := "a" ++ ending, role := .subject, wordClass := .noun }
        none "a" rfl
      have uncut := ((applies_ending_iff only member rfl).mp applies).resolve_right
        (not_exists_other sole _)
      rwa [cutsBefore_letter] at uncut
    · intro whole phrase sense front text
      have uncut : cutsBefore front ending = false := by rw [cutsBefore, whole, Bool.false_and]
      exact (applies_ending_iff only member text).mpr (.inl uncut)

/-- A rule for the words with a Greek prefix. -/
def prefixed : Rule := { beginnings := "ΠΡΟΣ", afterWord := some "!" }

/-- A rule for the words with a Greek ending. -/
def suffixed : Rule := { endings := "Σ", afterWord := some "!" }

/-- A face and a road, both in capitals. -/
def face : Phrase := { text := "ΠΡΟΣΩΠΟ", role := .subject, wordClass := .noun }

def road : Phrase := { text := "ΔΡΟΜΟΣ", role := .subject, wordClass := .noun }

/-- *Toward me*, in which the prefix is a word. -/
def towardMe : Phrase := { text := "ΠΡΟΣ ΕΜΕ", role := .directObject, wordClass := .noun }

/-- The letter by itself. -/
def sigma : Phrase := { text := "Σ", role := .subject, wordClass := .noun }

theorem prefixed_asksOnly : prefixed.AsksOnly .beginnings := by
  intro other different
  cases other <;> first | contradiction | decide +kernel

theorem suffixed_asksOnly : suffixed.AsksOnly .endings := by
  intro other different
  cases other <;> first | contradiction | decide +kernel

/-- Either affix is found in a phrase that has it, but not in all phrases that do. -/
theorem greek_affixes_taken :
    (prefixed.AsksOnly .beginnings ∧ alternatives prefixed.beginnings = ["ΠΡΟΣ"] ∧
        towardMe.text = "ΠΡΟΣ" ++ " ΕΜΕ" ∧ prefixed.applies towardMe none = true ∧
        ¬∀ (phrase : Phrase) (sense : Option Sense) (rest : String),
          phrase.text = "ΠΡΟΣ" ++ rest → prefixed.applies phrase sense = true) ∧
      (suffixed.AsksOnly .endings ∧ alternatives suffixed.endings = ["Σ"] ∧
        sigma.text = "" ++ "Σ" ∧ suffixed.applies sigma none = true ∧
        ¬∀ (phrase : Phrase) (sense : Option Sense) (front : String),
          phrase.text = front ++ "Σ" → suffixed.applies phrase sense = true) := by
  have solePrefix : alternatives prefixed.beginnings = ["ΠΡΟΣ"] := by decide +kernel
  have soleSuffix : alternatives suffixed.endings = ["Σ"] := by decide +kernel
  have word : towardMe.text = "ΠΡΟΣ" ++ " ΕΜΕ" := by decide +kernel
  have letter : sigma.text = "" ++ "Σ" := by decide +kernel
  have prefixedTakes := takes_verbatim prefixed
  have suffixedTakes := takes_verbatim suffixed
  refine ⟨⟨prefixed_asksOnly, solePrefix, word, ?_, ?_⟩,
    suffixed_asksOnly, soleSuffix, letter, ?_, ?_⟩
  · have whole : cutsAfter "ΠΡΟΣ" " ΕΜΕ" = false := by decide +kernel
    have taken := prefixedTakes.beginnings prefixed_asksOnly "ΠΡΟΣ" (by simp [solePrefix]) towardMe
      none " ΕΜΕ" word
    exact taken.mpr (.inl whole)
  · rw [prefixedTakes.soleBeginning prefixed_asksOnly "ΠΡΟΣ" solePrefix]
    decide +kernel
  · have whole : cutsBefore "" "Σ" = false := by decide +kernel
    have taken := suffixedTakes.endings suffixed_asksOnly "Σ" (by simp [soleSuffix]) sigma none ""
      letter
    exact taken.mpr (.inl whole)
  · rw [suffixedTakes.soleEnding suffixed_asksOnly "Σ" soleSuffix]
    decide +kernel

/-- The sigma of the prefix is final by itself but not in the word, and that of the ending is final
in the word but not by itself. -/
theorem greek_affixes_missed :
    (prefixed.AsksOnly .beginnings ∧ "ΠΡΟΣ" ∈ alternatives prefixed.beginnings ∧
        face.text = "ΠΡΟΣ" ++ "ΩΠΟ" ∧ prefixed.applies face none = false) ∧
      (suffixed.AsksOnly .endings ∧ "Σ" ∈ alternatives suffixed.endings ∧
        road.text = "ΔΡΟΜΟ" ++ "Σ" ∧ suffixed.applies road none = false) := by
  refine ⟨⟨prefixed_asksOnly, ?_, ?_, ?_⟩, suffixed_asksOnly, ?_, ?_, ?_⟩ <;> decide +kernel

end SensoryProse.Rule
