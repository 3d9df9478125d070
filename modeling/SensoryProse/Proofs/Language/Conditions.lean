import Mathlib.Algebra.GroupWithZero.Nat
import SensoryProse.Language.Rule

/-!
# The conditions of a rule

A rule makes some conditions and leaves the others open.  It applies where all of its conditions are
met, and its specificity is the sum of what they score.  Tags and a position are scored without
being looked at, and a rule bound to a word does not look at role and word class.
-/

namespace SensoryProse.Rule

@[simp] theorem admits_none {α : Type} [DecidableEq α] (value : α) :
    admits none value = true := rfl

@[simp] theorem admits_getD {α : Type} [DecidableEq α] (condition : Option α) (other : α) :
    admits condition (condition.getD other) = true := by
  cases condition <;> simp [admits]

theorem admits_iff {α : Type} [DecidableEq α] {condition : Option α} {value : α} :
    admits condition value = true ↔ ∀ wanted, condition = some wanted → value = wanted := by
  cases condition with
  | none => simp
  | some wanted =>
      rw [admits, beq_iff_eq]
      constructor
      · rintro rfl _ same
        exact Option.some.inj same
      · intro equal
        exact (equal wanted rfl).symm

theorem meets_iff {list : String} {test : String → Bool} :
    meets list test = true ↔
      (alternatives list ≠ [] → ∃ alternative ∈ alternatives list, test alternative = true) := by
  cases found : alternatives list <;> simp [meets, constrains, found]

theorem demand_iff {demand given : Bool} :
    (!demand || given) = true ↔ (demand = true → given = true) := by
  cases demand <;> simp

/-- What a rule may ask of a phrase. -/
inductive Condition where
  | semantics
  | endings
  | beginnings
  | word
  | tense
  | perspective
  | wordClass
  | role
  | plural
  | possessive
  | positional
  deriving DecidableEq, Repr

namespace Condition

def all : List Condition :=
  [.semantics, .endings, .beginnings, .word, .tense, .perspective, .wordClass, .role, .plural,
    .possessive, .positional]

theorem mem_all (condition : Condition) : condition ∈ all := by
  cases condition <;> decide

/-- Whether a rule makes the condition. -/
def isMade (rule : Rule) : Condition → Bool
  | .semantics => constrains rule.semantics
  | .endings => constrains rule.endings
  | .beginnings => constrains rule.beginnings
  | .word => rule.isBound
  | .tense => rule.tense.isSome
  | .perspective => rule.perspective.isSome
  | .wordClass => rule.wordClass.isSome
  | .role => rule.role.isSome
  | .plural => rule.plural
  | .possessive => rule.possessive
  | .positional => rule.positional

/-- What the condition is worth where it is made. -/
def points (rule : Rule) : Condition → Nat
  | .semantics => 3 * bars rule.semantics + 1
  | .endings => bars rule.endings + 3
  | .beginnings => bars rule.beginnings + 3
  | .word => 99
  | .tense | .perspective | .role | .plural | .possessive => 2
  | .wordClass => 3
  | .positional => 6

/-- What the condition adds to the specificity of a rule. -/
def score (rule : Rule) (condition : Condition) : Nat :=
  weight (condition.isMade rule) (condition.points rule)

/-- Whether a phrase meets the condition as the rule makes it.  An open condition is met by every
phrase. -/
def isMet (rule : Rule) (phrase : Phrase) (sense : Option Sense) : Condition → Bool
  | .semantics | .positional => true
  | .endings => meets rule.endings (endsWith phrase.text)
  | .beginnings => meets rule.beginnings (beginsWith phrase.text)
  | .word => rule.boundWord?.all fun word => sense.any (·.spells word)
  | .tense => admits rule.tense phrase.context.tense
  | .perspective => admits rule.perspective phrase.context.perspective
  | .wordClass => rule.isBound || admits rule.wordClass phrase.wordClass
  | .role => rule.isBound || admits rule.role phrase.role
  | .plural => !rule.plural || phrase.context.plural
  | .possessive => !rule.possessive || phrase.context.possessive

/-- Two rules make the condition in the same way, or both leave it open in the same way. -/
def Shared (left right : Rule) : Condition → Prop
  | .semantics => left.semantics = right.semantics
  | .endings => left.endings = right.endings
  | .beginnings => left.beginnings = right.beginnings
  | .word => left.boundWord? = right.boundWord?
  | .tense => left.tense = right.tense
  | .perspective => left.perspective = right.perspective
  | .wordClass => left.wordClass = right.wordClass
  | .role => left.role = right.role
  | .plural => left.plural = right.plural
  | .possessive => left.possessive = right.possessive
  | .positional => left.positional = right.positional

section

variable {condition : Condition} {rule left right : Rule}

theorem points_pos : 0 < condition.points rule := by
  cases condition <;> simp [points]

theorem score_le_points : condition.score rule ≤ condition.points rule := by
  unfold score weight
  split
  · exact Nat.le_refl _
  · exact Nat.zero_le _

theorem score_pos_iff : 0 < condition.score rule ↔ condition.isMade rule = true := by
  have positive : 0 < condition.points rule := points_pos
  cases made : condition.isMade rule <;> simp [score, weight, made, positive]

theorem score_eq_zero_iff : condition.score rule = 0 ↔ condition.isMade rule = false := by
  rw [← Nat.le_zero, ← Nat.not_lt, score_pos_iff, Bool.not_eq_true]

theorem score_of_shared (shared : condition.Shared left right) :
    condition.score left = condition.score right := by
  cases condition <;> simp_all [Shared, score, isMade, points, isBound]

theorem isMet_of_open (isOpen : condition.isMade rule = false) (phrase : Phrase)
    (sense : Option Sense) : condition.isMet rule phrase sense = true := by
  cases condition <;> simp_all [isMade, isMet, meets, admits, isBound]

/-- Whether a rule is bound matters to the conditions on role and word class. -/
theorem isMet_of_shared (shared : condition.Shared left right)
    (bound : left.isBound = right.isBound ∨ condition ≠ .wordClass ∧ condition ≠ .role)
    (phrase : Phrase) (sense : Option Sense) :
    condition.isMet left phrase sense = condition.isMet right phrase sense := by
  cases condition <;> simp_all [Shared, isMet]

end

end Condition

theorem specificity_eq_sum (rule : Rule) :
    rule.specificity = (Condition.all.map (Condition.score rule)).sum := by
  simp only [specificity, Condition.all, List.map_cons, List.map_nil, List.sum_cons, List.sum_nil,
    Nat.add_zero, Nat.add_assoc]
  rfl

/-- A rule applies where all of its conditions are met. -/
theorem applies_iff {rule : Rule} {phrase : Phrase} {sense : Option Sense} :
    rule.applies phrase sense = true ↔
      ∀ condition : Condition, condition.isMet rule phrase sense = true := by
  have parts : rule.applies phrase sense =
      (Condition.beginnings.isMet rule phrase sense && Condition.endings.isMet rule phrase sense
        && Condition.tense.isMet rule phrase sense
        && Condition.perspective.isMet rule phrase sense
        && Condition.plural.isMet rule phrase sense
        && Condition.possessive.isMet rule phrase sense
        && (Condition.word.isMet rule phrase sense
          && (Condition.role.isMet rule phrase sense
            && Condition.wordClass.isMet rule phrase sense))) := by
    unfold applies
    cases bound : rule.boundWord? <;> simp [Condition.isMet, isBound, bound]
  simp only [parts, Bool.and_eq_true, and_assoc]
  constructor
  · intro met condition
    obtain ⟨beginnings, endings, tense, perspective, plural, possessive, word, role, wordClass⟩ :=
      met
    cases condition with
    | semantics => rfl
    | endings => exact endings
    | beginnings => exact beginnings
    | word => exact word
    | tense => exact tense
    | perspective => exact perspective
    | wordClass => exact wordClass
    | role => exact role
    | plural => exact plural
    | possessive => exact possessive
    | positional => rfl
  · intro met
    exact ⟨met .beginnings, met .endings, met .tense, met .perspective, met .plural,
      met .possessive, met .word, met .role, met .wordClass⟩

end SensoryProse.Rule
