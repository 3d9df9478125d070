import SensoryProse.Lexicon.Sense

/-!
# The word bank

A lexicon holds lexemes in the order in which their first sense came in, and a seed that settles
ties.  Looking up a written word prefers a sense of the wanted word class but makes do with any
sense of that spelling.
-/

namespace SensoryProse

structure Lexicon where
  lexemes : List Lexeme := []
  seed : UInt64 := 0
  deriving DecidableEq, Repr, Inhabited

namespace Lexicon

def senses (lexicon : Lexicon) : List Sense := lexicon.lexemes.flatMap (·.senses)

/-- The number of senses held. -/
def size (lexicon : Lexicon) : Nat := lexicon.senses.length

def lexeme? (lexicon : Lexicon) (name : String) : Option Lexeme :=
  lexicon.lexemes.find? (·.name == name)

/-- Whether inserting `sense` would add it. -/
def isNew (lexicon : Lexicon) (sense : Sense) : Bool :=
  match lexicon.lexeme? sense.lexemeKey with
  | some lexeme => !lexeme.holds sense
  | none => true

def insertInto (sense : Sense) : List Lexeme → List Lexeme
  | [] => [{ name := sense.lexemeKey, senses := [sense] }]
  | lexeme :: lexemes =>
      if lexeme.name = sense.lexemeKey then lexeme.add sense :: lexemes
      else lexeme :: insertInto sense lexemes

/-- Adds a sense to its lexeme, or as the first sense of a new one. -/
def insert (lexicon : Lexicon) (sense : Sense) : Lexicon :=
  { lexicon with lexemes := insertInto sense lexicon.lexemes }

def ofSenses (senses : List Sense) (seed : UInt64) : Lexicon :=
  senses.foldl insert { seed }

/-- A sense and a context that both name a language have to name the same one. -/
def languagesAgree (sense : Sense) (context : Context) : Bool :=
  match sense.language, context.language with
  | some ofSense, some ofContext => ofSense == ofContext
  | _, _ => true

def find? (lexicon : Lexicon) (text : String) (wordClass : WordClass) (context : Context) :
    Option Sense :=
  match lexicon.senses.filter fun sense => sense.spells text && languagesAgree sense context with
  | [] => none
  | first :: others =>
      if first.wordClass = wordClass then some first
      else (others.find? (·.wordClass == wordClass)).or (some first)

/-- Inserts the sense made from a phrase that no sense is held for. -/
def learn (lexicon : Lexicon) (phrase : Phrase) : Lexicon :=
  if phrase.text.isEmpty then lexicon
  else if (lexicon.find? phrase.text phrase.wordClass phrase.context).isSome then lexicon
  else lexicon.insert (.ofPhrase phrase)

/-- Learns a phrase and answers with the sense that it has then. -/
def learnSense (lexicon : Lexicon) (phrase : Phrase) : Option Sense × Lexicon :=
  if phrase.text.isEmpty then (none, lexicon)
  else
    match lexicon.find? phrase.text phrase.wordClass phrase.context with
    | some sense => (some sense, lexicon)
    | none => (some (.ofPhrase phrase), lexicon.insert (.ofPhrase phrase))

theorem learnSense_snd (lexicon : Lexicon) (phrase : Phrase) :
    (lexicon.learnSense phrase).2 = lexicon.learn phrase := by
  unfold learnSense learn
  split
  · rfl
  · cases lexicon.find? phrase.text phrase.wordClass phrase.context <;> rfl

end Lexicon

end SensoryProse
