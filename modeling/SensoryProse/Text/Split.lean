/-!
# Splitting at a mark

A text with `n` occurrences of a mark splits into `n + 1` pieces, some of which may be empty.
-/

namespace SensoryProse.Text

def pieces (mark : Char) : List Char → List (List Char)
  | [] => [[]]
  | c :: rest =>
      if c = mark then [] :: pieces mark rest
      else
        match pieces mark rest with
        | [] => [[c]]
        | piece :: others => (c :: piece) :: others

def splitAt (mark : Char) (text : String) : List String :=
  (pieces mark text.toList).map String.ofList

end SensoryProse.Text
