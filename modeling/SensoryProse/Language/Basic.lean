import SensoryProse.Language.Contraction
import SensoryProse.Language.Shape

/-!
# Languages

A language is a table of word rules and a table of contractions.  The shape of a phrase is filled
by the rules that apply to it, from the most specific to the least and in table order among equals,
so that each property is decided by the most specific rule that sets it.
-/

namespace SensoryProse

structure Language where
  name : String
  rules : List Rule := []
  contractions : List Contraction := []
  deriving DecidableEq, Repr, Inhabited

namespace Language

def hasRules (language : Language) : Bool := !language.rules.isEmpty

/-- Whether the first of two table entries is at least as specific as the second. -/
def precedes (left right : Rule × Nat) : Bool := right.1.specificity ≤ left.1.specificity

/-- The rules that apply to a phrase with their places in the table, most specific first.  The sort
is stable. -/
def applicable (language : Language) (phrase : Phrase) (sense : Option Sense) :
    List (Rule × Nat) :=
  (language.rules.zipIdx.filter fun entry => entry.1.applies phrase sense).mergeSort precedes

def applicableRules (language : Language) (phrase : Phrase) (sense : Option Sense) : List Rule :=
  (language.applicable phrase sense).map Prod.fst

def shapeOf (language : Language) (phrase : Phrase) (sense : Option Sense) : Shape :=
  (language.applicableRules phrase sense).foldl .fill {}

def contractionOf? (language : Language) (left right : String) : Option Contraction :=
  Contraction.find? language.contractions left right

def contract (language : Language) (words : List String) : List String :=
  Contraction.contract language.contractions words

/-- Appends the tables of `other`, so that on equal specificity the rules already present come
first. -/
def append (language other : Language) : Language :=
  { language with
    rules := language.rules ++ other.rules
    contractions := language.contractions ++ other.contractions }

end Language

end SensoryProse
