import SensoryProse.Phrase.Context
import SensoryProse.Phrase.WordClass

/-!
# Phrase trees

A phrase is a word or a fixed group of words together with its modifiers, which are phrases in
turn.  Two phrases are equivalent when they agree in role, word class, text and the part of their
context that shows in writing; their modifiers play no part in it.
-/

namespace SensoryProse

structure Phrase where
  role : Role
  wordClass : WordClass
  text : String
  modifiers : List Phrase := []
  context : Context := {}
  deriving Repr, Inhabited

namespace Phrase

/-- What equivalence compares. -/
structure Key where
  role : Role
  wordClass : WordClass
  text : String
  tense : Tense
  perspective : Perspective
  position : Position
  determinant : Bool
  plural : Bool
  possessive : Bool
  deriving DecidableEq, Repr

def key (phrase : Phrase) : Key where
  role := phrase.role
  wordClass := phrase.wordClass
  text := phrase.text
  tense := phrase.context.tense
  perspective := phrase.context.perspective
  position := phrase.context.position
  determinant := phrase.context.determinant
  plural := phrase.context.plural
  possessive := phrase.context.possessive

def equivalent (left right : Phrase) : Bool := left.key == right.key

theorem equivalent_iff {left right : Phrase} :
    left.equivalent right = true ↔ left.key = right.key := by
  simp [equivalent]

/-- The phrase without its modifiers. -/
def bare (phrase : Phrase) : Phrase := { phrase with modifiers := [] }

def hasRole (phrase : Phrase) (role : Role) : Bool :=
  phrase.modifiers.any (·.role == role)

mutual

/-- All phrases of the tree, each before its modifiers. -/
def nodes : Phrase → List Phrase
  | ⟨role, wordClass, text, modifiers, context⟩ =>
      ⟨role, wordClass, text, modifiers, context⟩ :: nodesList modifiers

def nodesList : List Phrase → List Phrase
  | [] => []
  | phrase :: phrases => phrase.nodes ++ nodesList phrases

end

@[simp] theorem nodesList_eq_flatMap (phrases : List Phrase) :
    nodesList phrases = phrases.flatMap nodes := by
  induction phrases with
  | nil => rfl
  | cons phrase phrases induction => simp [nodesList, induction]

theorem nodes_eq (phrase : Phrase) : phrase.nodes = phrase :: phrase.modifiers.flatMap nodes := by
  cases phrase
  simp [nodes]

/-- The phrase that a path of modifier indexes leads to. -/
def at? : List Nat → Phrase → Option Phrase
  | [], phrase => some phrase
  | index :: path, phrase => phrase.modifiers[index]?.bind (at? path)

/-- Changes the phrase that a path leads to, if it leads to one. -/
def modifyAt (change : Phrase → Phrase) : List Nat → Phrase → Phrase
  | [], phrase => change phrase
  | index :: path, phrase =>
      { phrase with modifiers := phrase.modifiers.modify index (modifyAt change path) }

end Phrase

end SensoryProse
