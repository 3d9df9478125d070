import SensoryProse.Text.CaseMapping
import SensoryProse.Text.CasedTable

/-!
# Letter case

Lower-casing and capitalizing follow Unicode's full case mappings.  One mapping depends on its
surroundings: a capital sigma that ends a word becomes the final form.  Comparing words up to case
is a coarser matter and folds the ASCII letters only.
-/

namespace SensoryProse.Text

def isAscii (c : Char) : Bool := c.toNat < 0x80

def capitalSigma : Char := Char.ofNat 0x03a3
def smallSigma : Char := Char.ofNat 0x03c3
def finalSigma : Char := Char.ofNat 0x03c2

/-- Only the dotted capital I has a lower-case form of two characters. -/
def lowerChar (c : Char) : List Char :=
  if isAscii c then [c.toLower]
  else if c.toNat = 0x0130 then ['i', Char.ofNat 0x0307]
  else [Char.ofNat (CaseRun.lookup lowerRuns c.toNat)]

def upperChar (c : Char) : List Char :=
  if isAscii c then [c.toUpper]
  else
    match upperExpansions.lookup c.toNat with
    | some codes => codes.map Char.ofNat
    | none => [Char.ofNat (CaseRun.lookup upperRuns c.toNat)]

/-- Whether the first character that is not case-ignorable is cased. -/
def startsCased (chars : List Char) : Bool :=
  match chars.dropWhile isCaseIgnorable with
  | [] => false
  | c :: _ => isCased c

/-- A sigma between `before`, read backwards, and `after` ends a word if a cased character comes
before it and none comes after it. -/
def lowerSigma (before after : List Char) : Char :=
  if startsCased before && !startsCased after then finalSigma else smallSigma

/-- Lower-cases the rest of a text, of which `before` is the part already read, last character
first. -/
def lowerAfter (before : List Char) : List Char → List Char
  | [] => []
  | c :: rest =>
      if c = capitalSigma then lowerSigma before rest :: lowerAfter (c :: before) rest
      else lowerChar c ++ lowerAfter (c :: before) rest

def lowerChars (chars : List Char) : List Char := lowerAfter [] chars

def lower (text : String) : String := String.ofList (lowerChars text.toList)

def capitalizeChars : List Char → List Char
  | [] => []
  | c :: rest => upperChar c ++ rest

def capitalize (text : String) : String := String.ofList (capitalizeChars text.toList)

/-- Replaces each ASCII capital by its small letter. -/
def foldAscii (text : String) : List Char := text.toList.map Char.toLower

@[simp] theorem foldAscii_length (text : String) : (foldAscii text).length = text.length := by
  simp [foldAscii, String.length_toList]

def sameUpToAsciiCase (left right : String) : Bool := foldAscii left == foldAscii right

theorem length_eq_of_sameUpToAsciiCase {left right : String}
    (same : sameUpToAsciiCase left right = true) : left.length = right.length := by
  rw [← foldAscii_length left, beq_iff_eq.mp same, foldAscii_length]

end SensoryProse.Text
