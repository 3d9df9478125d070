import Mathlib.Algebra.Order.BigOperators.Group.List
import Mathlib.Algebra.Order.Group.Nat
import SensoryProse.Proofs.Language.Conditions
import SensoryProse.Proofs.Language.Deciding

/-!
# Which rules take precedence

A rule that leaves open what another demands applies wherever the other does and is less specific,
so it decides nothing that the narrower rule sets.  Being bound to a word counts for more than all
other conditions together, as long as a rule does not make up for it by the number of its
alternatives.
-/

namespace SensoryProse

namespace Rule

/-- The wider rule makes its conditions as the narrower one does.  A rule bound to a word does not
look at role and word class, so a rule that is not bound to the word has to leave them open. -/
structure Widens (wide narrow : Rule) : Prop where
  conditions : ∀ condition : Condition, condition ≠ .word →
    condition.Shared wide narrow ∨ condition.isMade wide = false
  word : Condition.word.Shared wide narrow ∨
    wide.isBound = false ∧ wide.wordClass = none ∧ wide.role = none

section

variable {wide narrow : Rule}

theorem Widens.shared_or_open (widens : wide.Widens narrow) (condition : Condition) :
    condition.Shared wide narrow ∨ condition.isMade wide = false := by
  by_cases word : condition = .word
  · subst word
    exact widens.word.imp_right fun dropped => dropped.1
  · exact widens.conditions condition word

theorem Widens.isMet (widens : wide.Widens narrow) {phrase : Phrase} {sense : Option Sense}
    {condition : Condition} (met : condition.isMet narrow phrase sense = true) :
    condition.isMet wide phrase sense = true := by
  rcases widens.shared_or_open condition with shared | isOpen
  · rcases widens.word with sameWord | ⟨_, wordClass, role⟩
    · have bound : wide.isBound = narrow.isBound := congrArg Option.isSome sameWord
      rw [Condition.isMet_of_shared shared (.inl bound), met]
    · by_cases named : condition = .wordClass ∨ condition = .role
      · have isOpen : condition.isMade wide = false := by
          rcases named with rfl | rfl
          · exact congrArg Option.isSome wordClass
          · exact congrArg Option.isSome role
        exact Condition.isMet_of_open isOpen phrase sense
      · rw [Condition.isMet_of_shared shared (.inr (not_or.mp named)), met]
  · exact Condition.isMet_of_open isOpen phrase sense

theorem Widens.applies (widens : wide.Widens narrow) {phrase : Phrase} {sense : Option Sense}
    (applies : narrow.applies phrase sense = true) : wide.applies phrase sense = true := by
  rw [applies_iff] at applies ⊢
  intro condition
  exact widens.isMet (applies condition)

theorem Widens.score_le (widens : wide.Widens narrow) (condition : Condition) :
    condition.score wide ≤ condition.score narrow := by
  rcases widens.shared_or_open condition with shared | isOpen
  · exact Nat.le_of_eq (Condition.score_of_shared shared)
  · rw [Condition.score_eq_zero_iff.mpr isOpen]
    exact Nat.zero_le _

theorem Widens.specificity_le (widens : wide.Widens narrow) :
    wide.specificity ≤ narrow.specificity := by
  rw [specificity_eq_sum, specificity_eq_sum]
  exact List.sum_le_sum fun condition _ => widens.score_le condition

/-- Every condition that is made no more makes a rule less specific. -/
theorem Widens.specificity_lt_iff (widens : wide.Widens narrow) :
    wide.specificity < narrow.specificity ↔
      ∃ condition : Condition, condition.isMade narrow = true ∧ condition.isMade wide = false := by
  rw [specificity_eq_sum, specificity_eq_sum]
  constructor
  · intro less
    by_contra kept
    have atLeast : ∀ condition : Condition, condition.score narrow ≤ condition.score wide := by
      intro condition
      rcases widens.shared_or_open condition with shared | isOpen
      · exact Nat.le_of_eq (Condition.score_of_shared shared).symm
      · have openToo : condition.isMade narrow = false := by
          rw [← Bool.not_eq_true]
          intro made
          exact kept ⟨condition, made, isOpen⟩
        rw [Condition.score_eq_zero_iff.mpr openToo]
        exact Nat.zero_le _
    exact absurd (List.sum_le_sum fun condition _ => atLeast condition) (Nat.not_le.mpr less)
  · intro dropped
    obtain ⟨condition, made, isOpen⟩ := dropped
    have lower : condition.score wide < condition.score narrow := by
      rw [Condition.score_eq_zero_iff.mpr isOpen]
      exact Condition.score_pos_iff.mpr made
    exact List.sum_lt_sum _ _ (fun condition _ => widens.score_le condition)
      ⟨condition, condition.mem_all, lower⟩

end

/-- How a wide rule stands behind a narrow one: it applies more widely, it is the less specific by
what it drops, and it decides nothing that the narrow rule sets. -/
structure StandsBehind (wide narrow : Rule) : Prop where
  applies : ∀ phrase sense, narrow.applies phrase sense = true → wide.applies phrase sense = true
  specificity_le : wide.specificity ≤ narrow.specificity
  specificity_lt_iff : wide.specificity < narrow.specificity ↔
    ∃ condition : Condition, condition.isMade narrow = true ∧ condition.isMade wide = false
  decided : ∀ (language : Language), narrow ∈ language.rules →
    wide.specificity ≠ narrow.specificity →
      ∀ phrase sense, narrow.applies phrase sense = true →
        ∀ {α : Type} (property : Shape.Property α), (property.ofRule narrow).isSome = true →
          (∃ entry, language.Decides phrase sense property.ofRule entry ∧
            property.ofShape (language.shapeOf phrase sense) = property.ofRule entry.1 ∧
            wide.specificity < entry.1.specificity) ∧
          ∀ place, ¬language.Decides phrase sense property.ofRule (wide, place)

/-- A rule stands behind every narrower one. -/
theorem widened_stands_behind {wide narrow : Rule} (widens : wide.Widens narrow) :
    wide.StandsBehind narrow where
  applies phrase sense := widens.applies
  specificity_le := widens.specificity_le
  specificity_lt_iff := widens.specificity_lt_iff
  decided language member different phrase sense applies α property sets := by
    have less : wide.specificity < narrow.specificity :=
      Nat.lt_of_le_of_ne widens.specificity_le different
    obtain ⟨entry, decides, value, atLeast⟩ := Language.exists_decides property member applies sets
    have outranked : wide.specificity < entry.1.specificity := Nat.lt_of_lt_of_le less atLeast
    refine ⟨⟨entry, decides, value, outranked⟩, ?_⟩
    intro place alsoDecides
    rw [decides.unique alsoDecides] at outranked
    exact Nat.lt_irrefl _ outranked

/-- Whatever is plural, since lists of blanks and an empty word are no conditions. -/
def anyPlural : Rule where
  endings := " | "
  plural := true
  word := some ""
  afterWord := some "s"

/-- The plural of one animal. -/
def oxPlural : Rule where
  wordClass := some .noun
  role := some .subject
  semantics := "animal|beast"
  endings := "x|s"
  plural := true
  word := some "ox"
  afterWord := some "en"

def pluralizing : Language where
  name := "english"
  rules := [anyPlural, oxPlural]

def oxen : Phrase where
  role := .directObject
  wordClass := .noun
  text := "Ox"
  context := { plural := true }

theorem anyPlural_stands_behind :
    anyPlural.Widens oxPlural ∧ anyPlural.StandsBehind oxPlural ∧
      anyPlural.specificity = 2 ∧ oxPlural.specificity = 114 ∧
      oxPlural.applies oxen (some (.ofPhrase oxen)) = true ∧
      (pluralizing.shapeOf oxen (some (.ofPhrase oxen))).afterWord = some "en" ∧
      ¬pluralizing.Decides oxen (some (.ofPhrase oxen)) Shape.Property.afterWord.ofRule
        (anyPlural, 0) := by
  have widens : anyPlural.Widens oxPlural := by
    refine ⟨?_, .inr ⟨by decide, rfl, rfl⟩⟩
    intro condition different
    cases condition with
    | plural => exact .inl rfl
    | word => contradiction
    | positional => exact .inl rfl
    | _ => exact .inr (by decide)
  have behind := widened_stands_behind widens
  have applies : oxPlural.applies oxen (some (.ofPhrase oxen)) = true := by decide
  have member : oxPlural ∈ pluralizing.rules := List.mem_cons_of_mem _ List.mem_cons_self
  have decided := behind.decided pluralizing member (by decide) oxen _ applies .afterWord rfl
  have listed : [(oxPlural, 1), (anyPlural, 0)].Perm (pluralizing.rules.zipIdx.filter fun entry =>
      (Shape.Property.afterWord.ofRule entry.1).isSome) := .swap _ _ _
  have value := Language.ofShape_shapeOf_of_ranked .afterWord listed (by decide) oxen
    (some (.ofPhrase oxen))
  exact ⟨widens, behind, by decide, by decide, applies, value, decided.2 0⟩

/-- What a rule scores by having more than one alternative in its lists. -/
def listPoints (rule : Rule) : Nat :=
  3 * bars rule.semantics + bars rule.endings + bars rule.beginnings

theorem le_specificity_of_bound {rule : Rule} (bound : rule.isBound = true) :
    99 ≤ rule.specificity := by
  have scored : Condition.word.score rule = 99 := by
    simp [Condition.score, Condition.isMade, Condition.points, weight, bound]
  rw [specificity_eq_sum, ← scored]
  exact List.le_sum_of_mem (List.mem_map_of_mem Condition.word.mem_all)

/-- All conditions together but the one on the word score 26 points beside the lists. -/
theorem specificity_le_of_unbound {rule : Rule} (unbound : rule.isBound = false) :
    rule.specificity ≤ rule.listPoints + 26 := by
  have most : ∀ condition : Condition, condition.score rule ≤
      if condition = .word then 0 else condition.points rule := by
    intro condition
    split
    · rename_i word
      subst word
      exact Nat.le_of_eq (Condition.score_eq_zero_iff.mpr unbound)
    · exact Condition.score_le_points
  calc rule.specificity
      = (Condition.all.map (Condition.score rule)).sum := rule.specificity_eq_sum
    _ ≤ (Condition.all.map fun condition =>
          if condition = .word then 0 else condition.points rule).sum :=
        List.sum_le_sum fun condition _ => most condition
    _ = rule.listPoints + 26 := by
        simp [Condition.all, Condition.points, listPoints]
        omega

end Rule

namespace Language

/-- The lists of the rules that are bound to no word score up to `limit` points. -/
def ListsWithin (limit : Nat) (language : Language) : Prop :=
  ∀ rule ∈ language.rules, rule.isBound = false → rule.listPoints ≤ limit

/-- Where a rule bound to a word sets a property, it is one of these rules that decides it. -/
def BoundDecide (language : Language) : Prop :=
  ∀ phrase sense {α : Type} (property : Shape.Property α),
    (∃ rule ∈ language.rules, rule.isBound = true ∧ rule.applies phrase sense = true ∧
      (property.ofRule rule).isSome = true) →
    ∃ entry, language.Decides phrase sense property.ofRule entry ∧
      property.ofShape (language.shapeOf phrase sense) = property.ofRule entry.1 ∧
      entry.1.isBound = true

theorem boundDecide_of_listsWithin {language : Language} (within : language.ListsWithin 72) :
    language.BoundDecide := by
  intro phrase sense α property setting
  obtain ⟨rule, member, bound, applies, sets⟩ := setting
  obtain ⟨entry, decides, value, atLeast⟩ := exists_decides property member applies sets
  refine ⟨entry, decides, value, ?_⟩
  cases entryBound : entry.1.isBound with
  | true => rfl
  | false =>
      have listed : entry.1 ∈ language.rules :=
        List.mem_of_getElem? (mem_applying_iff.mp decides.applies).1
      have lists := within entry.1 listed entryBound
      have below := Rule.specificity_le_of_unbound entryBound
      have above := Rule.le_specificity_of_bound bound
      omega

/-- A rule that describes a phrase in every way and does not name it. -/
def describing (endings : String) : Rule where
  wordClass := some .noun
  role := some .subject
  semantics := "insect||||||||||||||||||||||||"
  beginnings := "m"
  endings := endings
  tense := some .present
  perspective := some .third
  plural := true
  possessive := true
  positional := true
  afterWord := some "s'"

def naming : Rule where
  word := some "moth"
  afterWord := some "kind's"

def describingFirst (endings : String) : Language where
  name := "english"
  rules := [describing endings, naming]

def mothsOfLamp : Phrase where
  role := .subject
  wordClass := .noun
  text := "moth"
  context := { plural := true, possessive := true, position := .near }

/-- The describing rule ties with the naming one and stands first. -/
theorem describing_decides :
    (describingFirst "h|x").Decides mothsOfLamp (some (.ofPhrase mothsOfLamp)) Rule.afterWord
      (describing "h|x", 0) := by
  rw [decides_iff]
  refine ⟨mem_applying_iff.mpr ⟨rfl, by decide⟩, rfl, ?_⟩
  intro other member _
  have entry : other ∈ [(describing "h|x", 0), (naming, 1)] :=
    (List.mem_filter.mp member).1
  rcases List.mem_pair.mp entry with rfl | rfl
  · exact .inr ⟨rfl, Nat.le_refl _⟩
  · exact .inr ⟨by decide, by decide⟩

/-- Rules bound to a word have precedence over all others while the lists of these score up to 72
points, and not always if they score 73. -/
theorem bound_rules_decide :
    (∀ language : Language, language.ListsWithin 72 → language.BoundDecide) ∧
      ∃ language : Language, language.ListsWithin 73 ∧ ∃ phrase sense,
        (∃ rule ∈ language.rules, rule.isBound = true ∧ rule.applies phrase sense = true ∧
          rule.afterWord.isSome = true) ∧
        ∃ entry, language.Decides phrase sense Rule.afterWord entry ∧
          (language.shapeOf phrase sense).afterWord = entry.1.afterWord ∧
          entry.1.isBound = false := by
  refine ⟨fun _ within => boundDecide_of_listsWithin within, describingFirst "h|x", ?_,
    mothsOfLamp, some (.ofPhrase mothsOfLamp), ?_, (describing "h|x", 0), describing_decides, ?_,
    rfl⟩
  · unfold ListsWithin
    decide
  · exact ⟨naming, List.mem_cons_of_mem _ List.mem_cons_self, rfl, by decide, rfl⟩
  · exact ((decided_shapeOf .afterWord).eq_some_iff _).mpr ⟨_, describing_decides, rfl⟩

theorem naming_decides :
    (describingFirst "h").ListsWithin 72 ∧ (describing "h").listPoints = 72 ∧
      (describing "h").specificity = 98 ∧
      (∃ rule ∈ (describingFirst "h").rules, rule.isBound = true ∧
        rule.applies mothsOfLamp (some (.ofPhrase mothsOfLamp)) = true ∧
        (Shape.Property.afterWord.ofRule rule).isSome = true) ∧
      ∃ entry,
        (describingFirst "h").Decides mothsOfLamp (some (.ofPhrase mothsOfLamp))
          Shape.Property.afterWord.ofRule entry ∧
        Shape.Property.afterWord.ofShape
            ((describingFirst "h").shapeOf mothsOfLamp (some (.ofPhrase mothsOfLamp))) =
          Shape.Property.afterWord.ofRule entry.1 ∧
        entry.1.isBound = true := by
  have within : (describingFirst "h").ListsWithin 72 := by
    unfold ListsWithin
    decide
  have setting : ∃ rule ∈ (describingFirst "h").rules, rule.isBound = true ∧
      rule.applies mothsOfLamp (some (.ofPhrase mothsOfLamp)) = true ∧
      (Shape.Property.afterWord.ofRule rule).isSome = true :=
    ⟨naming, List.mem_cons_of_mem _ List.mem_cons_self, rfl, by decide, rfl⟩
  exact ⟨within, by decide, by decide, setting,
    bound_rules_decide.1 (describingFirst "h") within mothsOfLamp _ .afterWord setting⟩

end Language

end SensoryProse
