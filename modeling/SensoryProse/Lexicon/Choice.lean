import SensoryProse.Draw
import SensoryProse.Lexicon.Basic

/-!
# Choosing a word

A sense is usable in a context when its word class and language fit and it has every tag the
context asks for.  Among the usable senses those of greatest fitness are tied, and the seed settles
which of them is chosen.
-/

namespace SensoryProse.Lexicon

/-- Agreement in a property that the sense may leave open. -/
def agreement {α : Type} [DecidableEq α] (offered : Option α) (wanted : α) : Int :=
  match offered with
  | some value => if value = wanted then 4 else -4
  | none => 0

def distance (left right : Int) : Int := (left - right).natAbs

def fitness (sense : Sense) (context : Context) : Int :=
  agreement sense.tense context.tense
    + agreement sense.perspective context.perspective
    + (if sense.plural = context.plural then 2 else -2)
    - distance sense.elegance context.elegance
    - distance sense.severity context.severity
    - distance sense.quality context.quality

def usable (context : Context) (wordClass : WordClass) (sense : Sense) : Bool :=
  sense.wordClass == wordClass && languagesAgree sense context
    && context.semantics.subset sense.semantics

def candidates (lexicon : Lexicon) (context : Context) (wordClass : WordClass) : List Sense :=
  lexicon.senses.filter (usable context wordClass)

/-- The candidates of greatest fitness, in the order in which they are held. -/
def tied (lexicon : Lexicon) (context : Context) (wordClass : WordClass) : List Sense :=
  let found := lexicon.candidates context wordClass
  match (found.map (fitness · context)).max? with
  | none => []
  | some best => found.filter fun sense => fitness sense context == best

/-- The tied sense that is drawn. -/
def chooseBy (lexicon : Lexicon) (drawing : Drawing) (context : Context) (wordClass : WordClass) :
    Option Sense :=
  let best := lexicon.tied context wordClass
  best[drawing.index best.length]?

def choose (lexicon : Lexicon) (context : Context) (wordClass : WordClass) : Option Sense :=
  lexicon.chooseBy (.seeded lexicon.seed) context wordClass

end SensoryProse.Lexicon
