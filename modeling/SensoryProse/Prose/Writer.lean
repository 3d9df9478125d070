import SensoryProse.Language.Basic
import SensoryProse.Lexicon.Vocabulary
import SensoryProse.Prose.Clause
import SensoryProse.Prose.Listing

/-!
# Writing phrases

A writer turns a phrase tree into words.  Each phrase is inflected by its shape, modifiers of
negative order stand before their head and the others behind it, in ascending order on either side,
and adjacent words contract.  The first phrase of the tree, in order of attachment, whose shape
names a kind of clause decides the kind of the whole.
-/

namespace SensoryProse

/-- Only rules bound to a word look at senses, so a writer without such rules leaves them
unresolved. -/
structure Writer (Words : Type := Lexicon) where
  language : Language
  lexicon : Words
  resolves : Bool

namespace Writer

variable {Words : Type}

def of (language : Language) (lexicon : Words) : Writer Words where
  language
  lexicon
  resolves := language.rules.any (·.isBound)

/-- A writer that looks up the sense of every phrase. -/
def resolving (language : Language) (lexicon : Words) : Writer Words where
  language
  lexicon
  resolves := true

variable [Vocabulary Words]

def senseOf (writer : Writer Words) (phrase : Phrase) : Option Sense :=
  if writer.resolves then Vocabulary.senseOf writer.lexicon phrase else none

def shapeOf (writer : Writer Words) (phrase : Phrase) : Shape :=
  writer.language.shapeOf phrase (writer.senseOf phrase)

/-- Where a modifier stands if no rule says so, given the word class of its head. -/
def usualOrder (phrase : Phrase) (head : Option WordClass) : Int :=
  match phrase.wordClass with
  | .article => -2
  | .adjective =>
      if head.any (·.isNominal) then -1 else if phrase.role = .directObject then 1 else 2
  | _ => if phrase.role = .directObject then 1 else 2

def usualArticle : String := "the"

/-- The definite article that fits the context of a phrase. -/
def definiteArticle (writer : Writer Words) (phrase : Phrase) : String :=
  let context := { phrase.context with semantics := .singleton "definite" }
  ((Vocabulary.choose writer.lexicon context .article).map (·.name)).getD usualArticle

/-- An article is supplied for a determinate phrase that needs one and was not given one. -/
def suppliesArticle (phrase : Phrase) (shape : Shape) : Bool :=
  shape.takesArticle && phrase.context.determinant
    && !phrase.modifiers.any (·.wordClass == .article)

/-- Written siblings of one side of their head, in ascending order.  The sort is stable. -/
def ordered (siblings : List Sibling) : List Sibling :=
  siblings.mergeSort fun left right => left.order ≤ right.order

/-- The words of a phrase whose modifiers are written already. -/
def arrange (writer : Writer Words) (phrase : Phrase) (modifiers : List Sibling) : List String :=
  let shape := writer.shapeOf phrase
  let before := modifiers.filter fun sibling => sibling.order < 0
  let behind := modifiers.filter fun sibling => !(sibling.order < 0)
  (if suppliesArticle phrase shape then [writer.definiteArticle phrase] else [])
    ++ Listing.join (ordered before)
    ++ (if phrase.text.isEmpty then [] else [shape.inflect phrase.text])
    ++ Listing.join (ordered behind)

mutual

/-- Writes a phrase below a head of the given word class. -/
def spell (writer : Writer Words) (head : Option WordClass) : Phrase → Sibling
  | ⟨role, wordClass, text, modifiers, context⟩ =>
      let phrase : Phrase := ⟨role, wordClass, text, modifiers, context⟩
      let shape := writer.shapeOf phrase
      { words := writer.arrange phrase (spellList writer wordClass modifiers)
        order := shape.order.getD (usualOrder phrase head)
        listable := shape.isListed
        wordClass }

def spellList (writer : Writer Words) (head : WordClass) : List Phrase → List Sibling
  | [] => []
  | phrase :: phrases => spell writer (some head) phrase :: spellList writer head phrases

end

@[simp] theorem spellList_eq_map (writer : Writer Words) (head : WordClass)
    (phrases : List Phrase) :
    spellList writer head phrases = phrases.map (writer.spell (some head)) := by
  induction phrases with
  | nil => rfl
  | cons phrase phrases induction => simp [spellList, induction]

mutual

/-- The kind of clause that a phrase tree asks for, given the kind that was asked for before it. -/
def askedKind (writer : Writer Words) (asked : Option ClauseKind) : Phrase → Option ClauseKind
  | ⟨role, wordClass, text, modifiers, context⟩ =>
      askedKindList writer
        (asked.or (writer.shapeOf ⟨role, wordClass, text, modifiers, context⟩).kind) modifiers

def askedKindList (writer : Writer Words) (asked : Option ClauseKind) :
    List Phrase → Option ClauseKind
  | [] => asked
  | phrase :: phrases => askedKindList writer (askedKind writer asked phrase) phrases

end

/-- The words of a phrase tree, contracted. -/
def words (writer : Writer Words) (phrase : Phrase) : List String :=
  writer.language.contract (writer.spell none phrase).words

def textOf (writer : Writer Words) (phrase : Phrase) : String :=
  Listing.spaced (writer.words phrase)

def write (writer : Writer Words) (kind : ClauseKind) (phrase : Phrase) : WrittenClause where
  text := writer.textOf phrase
  kind := (writer.askedKind none phrase).getD kind

end Writer

end SensoryProse
