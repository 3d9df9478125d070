import SensoryProse.Language.Rule

/-!
# Findings

What is wrong with a language pack or missing from a word list.  Rules and contractions are named
by their places in the tables, counted from zero.  Some findings are errors, the others are
warnings.
-/

namespace SensoryProse.Lint

/-- The lists of alternatives that a rule has. -/
inductive AlternativeList where
  | semantics
  | beginnings
  | endings
  deriving DecidableEq, Repr

namespace AlternativeList

def all : List AlternativeList := [.semantics, .beginnings, .endings]

def of (rule : Rule) : AlternativeList → String
  | .semantics => rule.semantics
  | .beginnings => rule.beginnings
  | .endings => rule.endings

def name : AlternativeList → String
  | .semantics => "from_semantics"
  | .beginnings => "from_begins_with"
  | .endings => "from_ends_with"

end AlternativeList

/-- The properties that a rule can set. -/
inductive Property where
  | beforeWord
  | afterWord
  | article
  | order
  | kind
  | listable
  deriving DecidableEq, Repr

namespace Property

def all : List Property := [.beforeWord, .afterWord, .article, .order, .kind, .listable]

def name : Property → String
  | .beforeWord => "add_prefix"
  | .afterWord => "add_suffix"
  | .article => "needs_article"
  | .order => "modification_order"
  | .kind => "alters_sentence"
  | .listable => "listable"

def isSet (rule : Rule) : Property → Bool
  | .beforeWord => rule.beforeWord.isSome
  | .afterWord => rule.afterWord.isSome
  | .article => rule.article.isSome
  | .order => rule.order.isSome
  | .kind => rule.kind.isSome
  | .listable => rule.listable.isSome

/-- Whether two rules give a property the same value, or both leave it open. -/
def agrees (left right : Rule) : Property → Bool
  | .beforeWord => left.beforeWord == right.beforeWord
  | .afterWord => left.afterWord == right.afterWord
  | .article => left.article == right.article
  | .order => left.order == right.order
  | .kind => left.kind == right.kind
  | .listable => left.listable == right.listable

/-- The rule with a property left open. -/
def cleared (rule : Rule) : Property → Rule
  | .beforeWord => { rule with beforeWord := none }
  | .afterWord => { rule with afterWord := none }
  | .article => { rule with article := none }
  | .order => { rule with order := none }
  | .kind => { rule with kind := none }
  | .listable => { rule with listable := none }

end Property

inductive Finding where
  | emptyAlternative (rule : Nat) (list : AlternativeList) (content : String)
  | changesNothing (rule : Nat)
  | positional (rule : Nat)
  | duplicate (rule earlier : Nat)
  | neverWins (rule : Nat) (property : Property) (earlier : Nat)
  | emptyWord (contraction : Nat)
  | collapsesToNothing (contraction : Nat) (first second : String)
  | collapsesToOwnWord (contraction : Nat) (first second : String)
  | noExistential
  | unknownWord (word : String)
  deriving DecidableEq, Repr

namespace Finding

def isError : Finding → Bool
  | .emptyAlternative .. | .emptyWord .. | .collapsesToNothing .. => true
  | _ => false

def ruleLabel (language : String) (rule : Nat) : String :=
  s!"'{language}' rule #{rule}"

def contractionLabel (language : String) (contraction : Nat) : String :=
  s!"'{language}' contraction #{contraction}"

/-- The text of a finding about the language of the given name. -/
def message (language : String) : Finding → String
  | .emptyAlternative rule list content =>
      ruleLabel language rule ++ " has an empty alternative in " ++ list.name
        ++ " ('" ++ content ++ "')"
  | .changesNothing rule => ruleLabel language rule ++ " changes nothing"
  | .positional rule =>
      ruleLabel language rule ++ " sets when_positional, which only raises its specificity"
  | .duplicate rule earlier => ruleLabel language rule ++ s!" duplicates rule #{earlier}"
  | .neverWins rule property earlier =>
      ruleLabel language rule ++ " never wins " ++ property.name
        ++ s!": rule #{earlier} matches the same phrases first"
  | .emptyWord contraction => contractionLabel language contraction ++ " has an empty word"
  | .collapsesToNothing contraction first second =>
      contractionLabel language contraction ++ s!" ({first} + {second}) collapses to nothing"
  | .collapsesToOwnWord contraction first second =>
      contractionLabel language contraction
        ++ s!" ({first} + {second}) collapses to one of its own words"
  | .noExistential =>
      s!"Lexicon has no 'existential' verb for '{language}'; "
        ++ "described subjects will render without a verb"
  | .unknownWord word =>
      s!"'{language}' rule for specific word '{word}' names a word missing from the lexicon"

end Finding

end SensoryProse.Lint
