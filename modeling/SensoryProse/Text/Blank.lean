/-!
# Blank characters

A character is blank when Unicode gives it the White_Space property.  Trimming removes blanks from
both ends of a text, and the words of a text are its maximal runs of characters that are not blank.
-/

namespace SensoryProse.Text

def isBlank (c : Char) : Bool :=
  let code := c.toNat
  (9 ≤ code && code ≤ 13) || code == 0x20 || code == 0x85 || code == 0xa0 || code == 0x1680
    || (0x2000 ≤ code && code ≤ 0x200a) || code == 0x2028 || code == 0x2029 || code == 0x202f
    || code == 0x205f || code == 0x3000

def trimChars (chars : List Char) : List Char :=
  ((chars.dropWhile isBlank).reverse.dropWhile isBlank).reverse

def trim (text : String) : String :=
  String.ofList (trimChars text.toList)

def isBlankText (text : String) : Bool :=
  text.toList.all isBlank

/-- The words of `chars`, where `started` holds the letters of the word being read, last first. -/
def wordsFrom (started : List Char) : List Char → List (List Char)
  | [] => if started.isEmpty then [] else [started.reverse]
  | c :: rest =>
      if isBlank c then
        if started.isEmpty then wordsFrom [] rest else started.reverse :: wordsFrom [] rest
      else wordsFrom (c :: started) rest

def words (text : String) : List String :=
  (wordsFrom [] text.toList).map String.ofList

end SensoryProse.Text
