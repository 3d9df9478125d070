import SensoryProse.Phrase.WordClass

/-!
# Listing siblings

Neighbouring siblings of one word class whose shapes are listable are written as one list, *a, b
and c*.  Going through the siblings, the items of the current run are kept back until the run ends.
-/

namespace SensoryProse

/-- A written sibling, as the phrase above sees it. -/
structure Sibling where
  words : List String
  order : Int
  listable : Bool
  wordClass : WordClass
  deriving DecidableEq, Repr

namespace Listing

def spaced (words : List String) : String := " ".intercalate words

/-- The words that a run of items comes to, where `items` has the last item first. -/
def close : List String → List String
  | [] => []
  | [item] => [item]
  | last :: others => [", ".intercalate others.reverse ++ " and " ++ last]

/-- Joins siblings after the run `items` of class `wordClass`, which has its last item first. -/
def joinAfter (items : List String) (wordClass : WordClass) : List Sibling → List String
  | [] => close items
  | sibling :: siblings =>
      if sibling.listable then
        if items.isEmpty || wordClass == sibling.wordClass then
          joinAfter (spaced sibling.words :: items) sibling.wordClass siblings
        else
          close items ++ joinAfter [spaced sibling.words] sibling.wordClass siblings
      else close items ++ sibling.words ++ joinAfter [] sibling.wordClass siblings

def join (siblings : List Sibling) : List String := joinAfter [] .none siblings

end Listing

end SensoryProse
