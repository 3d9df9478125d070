import SensoryProse.Text.Case

/-!
# Contractions

A contraction replaces two words that stand side by side, in either order, by a third.  Contracting
goes through the words from left to right, and a contracted word may contract again with the word
that follows it.
-/

namespace SensoryProse

structure Contraction where
  first : String
  second : String
  result : String
  deriving DecidableEq, Repr

namespace Contraction

def joins (rule : Contraction) (left right : String) : Bool :=
  (Text.sameUpToAsciiCase rule.first left && Text.sameUpToAsciiCase rule.second right)
    || (Text.sameUpToAsciiCase rule.first right && Text.sameUpToAsciiCase rule.second left)

def find? (rules : List Contraction) (left right : String) : Option Contraction :=
  rules.find? (·.joins left right)

/-- Contracts `words` after the word `last`, which is not yet written. -/
def contractAfter (rules : List Contraction) (last : String) : List String → List String
  | [] => [last]
  | word :: words =>
      match find? rules last word with
      | some rule => contractAfter rules rule.result words
      | none => last :: contractAfter rules word words

def contract (rules : List Contraction) : List String → List String
  | [] => []
  | word :: words => contractAfter rules word words

end Contraction

end SensoryProse
