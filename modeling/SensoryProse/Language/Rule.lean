import SensoryProse.Lexicon.Sense
import SensoryProse.Prose.Kind
import SensoryProse.Text.Blank
import SensoryProse.Text.Split

/-!
# Word rules

A rule says which phrases it applies to and which properties of their written form it sets.  A
condition that is left open admits every phrase, and a property that is left open is for other
rules to decide.  The more a rule demands, the greater its specificity.
-/

namespace SensoryProse

/-- Lists of tags, beginnings and endings separate their alternatives by bars. -/
structure Rule where
  wordClass : Option WordClass := none
  role : Option Role := none
  semantics : String := ""
  beginnings : String := ""
  endings : String := ""
  tense : Option Tense := none
  perspective : Option Perspective := none
  plural : Bool := false
  possessive : Bool := false
  positional : Bool := false
  word : Option String := none
  beforeWord : Option String := none
  afterWord : Option String := none
  article : Option Bool := none
  order : Option Int := none
  kind : Option ClauseKind := none
  listable : Option Bool := none
  deriving DecidableEq, Repr, Inhabited

namespace Rule

/-- The alternatives of a list, trimmed, without the blank ones. -/
def alternatives (list : String) : List String :=
  ((Text.splitAt '|' list).map Text.trim).filter fun alternative => !alternative.isEmpty

/-- A list without alternatives is no condition at all. -/
def constrains (list : String) : Bool := !(alternatives list).isEmpty

def bars (list : String) : Nat := list.toList.count '|'

/-- The word a rule is bound to.  An empty word binds to nothing. -/
def boundWord? (rule : Rule) : Option String := rule.word.filter fun word => !word.isEmpty

def isBound (rule : Rule) : Bool := rule.boundWord?.isSome

def beginsWith (text alternative : String) : Bool :=
  (Text.lowerChars alternative.toList).isPrefixOf (Text.lowerChars text.toList)

def endsWith (text alternative : String) : Bool :=
  (Text.lowerChars alternative.toList).isSuffixOf (Text.lowerChars text.toList)

/-- Whether one of the alternatives passes `test`, if there are any. -/
def meets (list : String) (test : String → Bool) : Bool :=
  !constrains list || (alternatives list).any test

def admits {α : Type} [DecidableEq α] (condition : Option α) (value : α) : Bool :=
  match condition with
  | none => true
  | some wanted => wanted == value

/-- Whether the rule applies to a phrase.  A rule bound to a word looks at the sense of the phrase
in place of its role and word class. -/
def applies (rule : Rule) (phrase : Phrase) (sense : Option Sense) : Bool :=
  meets rule.beginnings (beginsWith phrase.text)
    && meets rule.endings (endsWith phrase.text)
    && admits rule.tense phrase.context.tense
    && admits rule.perspective phrase.context.perspective
    && (!rule.plural || phrase.context.plural)
    && (!rule.possessive || phrase.context.possessive)
    && (match rule.boundWord? with
        | some word => sense.any (·.spells word)
        | none => admits rule.role phrase.role && admits rule.wordClass phrase.wordClass)

def weight (holds : Bool) (points : Nat) : Nat := if holds then points else 0

def specificity (rule : Rule) : Nat :=
  weight (constrains rule.semantics) (3 * bars rule.semantics + 1)
    + weight (constrains rule.endings) (bars rule.endings + 3)
    + weight (constrains rule.beginnings) (bars rule.beginnings + 3)
    + weight rule.isBound 99
    + weight rule.tense.isSome 2
    + weight rule.perspective.isSome 2
    + weight rule.wordClass.isSome 3
    + weight rule.role.isSome 2
    + weight rule.plural 2
    + weight rule.possessive 2
    + weight rule.positional 6

end Rule

end SensoryProse
