import SensoryProse.Phrase.Basic

/-!
# Attaching modifiers

The modifiers of a phrase are a set in order of attachment: a phrase equivalent to the receiver or
to a modifier already present is refused.  Attaching never drops, replaces or reorders what is
there.  A chain of attachments goes on either at the receiver or at the modifier just attached.
-/

namespace SensoryProse.Phrase

def attach (phrase modifier : Phrase) : Phrase :=
  if modifier.equivalent phrase || phrase.modifiers.any (·.equivalent modifier) then phrase
  else { phrase with modifiers := phrase.modifiers ++ [modifier] }

def attachAll (phrase : Phrase) (modifiers : List Phrase) : Phrase :=
  modifiers.foldl attach phrase

/-- Where `modifier` stands once it is attached.  A phrase equivalent to the receiver stands
nowhere below it. -/
def place? (phrase modifier : Phrase) : Option Nat :=
  if modifier.equivalent phrase then none
  else some ((phrase.modifiers.findIdx? (·.equivalent modifier)).getD phrase.modifiers.length)

/-- Something to attach: a phrase, or a single word that takes the context of its receiver. -/
inductive Attachment where
  | tree (phrase : Phrase)
  | word (wordClass : WordClass) (role : Role) (text : String)

def Attachment.below (receiver : Phrase) : Attachment → Phrase
  | .tree phrase => phrase
  | .word wordClass role text => { role, wordClass, text, context := receiver.context }

def attachWord (phrase : Phrase) (wordClass : WordClass) (role : Role) (text : String) : Phrase :=
  phrase.attach ((Attachment.word wordClass role text).below phrase)

def attachWords (phrase : Phrase) (words : List (WordClass × Role × String)) : Phrase :=
  words.foldl (fun phrase (wordClass, role, text) => phrase.attachWord wordClass role text) phrase

/-- One step of a chain.  With `descend` the next step acts on the attached modifier, otherwise on
the same receiver. -/
structure Link where
  attachment : Attachment
  descend : Bool := false

/-- The modifier that the rest of a chain acts on, if the chain leaves the receiver. -/
def Link.descent? (link : Link) (phrase : Phrase) : Option Nat :=
  if link.descend then phrase.place? (link.attachment.below phrase) else none

def chain : List Link → Phrase → Phrase
  | [], phrase => phrase
  | link :: links, phrase =>
      let grown := phrase.attach (link.attachment.below phrase)
      match link.descent? phrase with
      | none => chain links grown
      | some index => { grown with modifiers := grown.modifiers.modify index (chain links) }

/-- The phrases that the steps of a chain lead to, each as it stands at that moment. -/
def trail : List Link → Phrase → List Phrase
  | [], _ => []
  | link :: links, phrase =>
      let grown := phrase.attach (link.attachment.below phrase)
      match (link.descent? phrase).bind (grown.modifiers[·]?) with
      | none => grown :: trail links grown
      | some modifier => modifier :: trail links modifier

/-- The phrase without the modifiers that pass `test`. -/
def without (phrase : Phrase) (test : Phrase → Bool) : Phrase :=
  { phrase with modifiers := phrase.modifiers.filter fun modifier => !test modifier }

def isSubject (phrase : Phrase) : Bool := phrase.role == .subject

/-- The phrase without its direct modifiers of subject role. -/
def withoutSubjects (phrase : Phrase) : Phrase := phrase.without isSubject

mutual

/-- The phrases below `phrase` that chains of subjects lead to, in depth-first order and each
without the subjects below it. -/
def nestedSubjects : Phrase → List Phrase
  | ⟨_, _, _, modifiers, _⟩ => nestedSubjectsList modifiers

def nestedSubjectsList : List Phrase → List Phrase
  | [] => []
  | phrase :: phrases =>
      (if phrase.isSubject then phrase.withoutSubjects :: phrase.nestedSubjects else [])
        ++ nestedSubjectsList phrases

end

end SensoryProse.Phrase
