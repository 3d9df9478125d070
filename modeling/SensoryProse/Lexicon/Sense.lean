import SensoryProse.Phrase.Basic
import SensoryProse.Text.Case

/-!
# Senses and lexemes

A sense is one written word in one use.  A lexeme gathers the senses that are forms of one word,
such as *is* and *was*; no two of its senses are the same form.
-/

namespace SensoryProse

/-- A tense or perspective left open suits every context. -/
structure Sense where
  name : String
  wordClass : WordClass
  lexeme : String := ""
  semantics : Tags := .empty
  elegance : Int := 0
  severity : Int := 0
  quality : Int := 0
  tense : Option Tense := none
  perspective : Option Perspective := none
  plural : Bool := false
  possessive : Bool := false
  determinant : Bool := false
  language : Option String := none
  deriving DecidableEq, Repr

namespace Sense

/-- The sense that a phrase has when nothing but the phrase is known of it. -/
def ofPhrase (phrase : Phrase) : Sense where
  name := phrase.text
  wordClass := phrase.wordClass
  semantics := phrase.context.semantics
  elegance := phrase.context.elegance
  severity := phrase.context.severity
  quality := phrase.context.quality
  tense := some phrase.context.tense
  perspective := some phrase.context.perspective
  plural := phrase.context.plural
  possessive := phrase.context.possessive
  determinant := phrase.context.determinant
  language := phrase.context.language

/-- A sense that names no lexeme belongs to the one of its own name. -/
def lexemeKey (sense : Sense) : String :=
  if sense.lexeme.isEmpty then sense.name else sense.lexeme

def spells (sense : Sense) (word : String) : Bool := Text.sameUpToAsciiCase sense.name word

def sameForm (left right : Sense) : Bool :=
  left.spells right.name && left.wordClass == right.wordClass && left.tense == right.tense
    && left.perspective == right.perspective && left.plural == right.plural

def tagged (sense : Sense) (tag : String) : Sense :=
  { sense with semantics := sense.semantics.insert tag }

end Sense

structure Lexeme where
  name : String
  senses : List Sense := []
  deriving DecidableEq, Repr

namespace Lexeme

def holds (lexeme : Lexeme) (sense : Sense) : Bool := lexeme.senses.any (·.sameForm sense)

/-- Adds a form unless it is there already. -/
def add (lexeme : Lexeme) (sense : Sense) : Lexeme :=
  if lexeme.holds sense then lexeme else { lexeme with senses := lexeme.senses ++ [sense] }

end Lexeme

end SensoryProse
