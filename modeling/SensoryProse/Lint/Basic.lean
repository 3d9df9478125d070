import SensoryProse.Language.Basic
import SensoryProse.Lexicon.Choice
import SensoryProse.Lint.Finding
import SensoryProse.Narrator.Basic

/-!
# Linting

A language pack is searched for rules that cannot have an effect and contractions that cannot be
meant, and a word list for words that a language needs.  Two rules with the same conditions have
the same specificity, so the earlier of them wins every property that both set.
-/

namespace SensoryProse.Lint

def hasBlankAlternative (list : String) : Bool :=
  !list.isEmpty && (Text.splitAt '|' list).any Text.isBlankText

def isIdle (rule : Rule) : Bool := Property.all.all fun property => !property.isSet rule

/-- The rule with every property left open. -/
def conditionsOf (rule : Rule) : Rule :=
  { rule with
    beforeWord := none
    afterWord := none
    article := none
    order := none
    kind := none
    listable := none }

/-- The properties to which two rules give different values. -/
def conflicts (left right : Rule) : List Property :=
  Property.all.filter fun property =>
    property.isSet left && property.isSet right && !property.agrees left right

def ruleFindings (entry : Rule × Nat) : List Finding :=
  let (rule, index) := entry
  ((AlternativeList.all.filter fun list => hasBlankAlternative (list.of rule)).map
      fun list => .emptyAlternative index list (list.of rule))
    ++ (if isIdle rule then [.changesNothing index] else [])
    ++ (if rule.positional then [.positional index] else [])

/-- Findings about a rule and one that comes later in the table. -/
def pairFindings (earlier later : Rule × Nat) : List Finding :=
  if earlier.1 = later.1 then [.duplicate later.2 earlier.2]
  else if conditionsOf earlier.1 = conditionsOf later.1 then
    (conflicts earlier.1 later.1).map fun property => .neverWins later.2 property earlier.2
  else []

/-- Findings about all pairs of table entries. -/
def tableFindings : List (Rule × Nat) → List Finding
  | [] => []
  | entry :: entries => entries.flatMap (pairFindings entry) ++ tableFindings entries

def contractionFindings (entry : Contraction × Nat) : List Finding :=
  let (rule, index) := entry
  (if Text.isBlankText rule.first || Text.isBlankText rule.second then [.emptyWord index] else [])
    ++ (if Text.isBlankText rule.result then [.collapsesToNothing index rule.first rule.second]
      else [])
    ++ (if Text.sameUpToAsciiCase rule.result rule.first
          || Text.sameUpToAsciiCase rule.result rule.second then
        [.collapsesToOwnWord index rule.first rule.second]
      else [])

def languageFindings (language : Language) : List Finding :=
  language.rules.zipIdx.flatMap ruleFindings
    ++ tableFindings language.rules.zipIdx
    ++ language.contractions.zipIdx.flatMap contractionFindings

/-- A language needs a verb of being. -/
def lacksExistential (language : Language) (lexicon : Lexicon) : Bool :=
  let context := (Context.inLanguage language.name).tagged Narrator.existential
  (lexicon.choose context .verb).isNone

/-- The bound words of a language that the lexicon has in no word class. -/
def unknownWords (language : Language) (lexicon : Lexicon) : List String :=
  (language.rules.filterMap (·.boundWord?)).filter fun word =>
    (lexicon.find? word .verb (.inLanguage language.name)).isNone

def lexiconFindings (language : Language) (lexicon : Lexicon) : List Finding :=
  (if lacksExistential language lexicon then [.noExistential] else [])
    ++ (unknownWords language lexicon).map .unknownWord

end SensoryProse.Lint
