import SensoryProse.Named
import SensoryProse.Phrase.Tags

/-!
# Grammatical context

Every phrase carries the grammar it is to be written in: tense, perspective, position, number, the
tags its meaning has, its tone and the language it names.  A narrator's voice is a context too, of
which a phrase adopts only language, tense, perspective and tone.
-/

namespace SensoryProse

inductive Tense where
  | past
  | present
  | future
  deriving DecidableEq, Repr

instance : Inhabited Tense := ⟨.present⟩

instance : Named Tense where
  all := [.past, .present, .future]
  name
    | .past => "Past"
    | .present => "Present"
    | .future => "Future"

inductive Perspective where
  | first
  | second
  | third
  deriving DecidableEq, Repr

instance : Inhabited Perspective := ⟨.third⟩

instance : Named Perspective where
  all := [.first, .second, .third]
  name
    | .first => "FirstPerson"
    | .second => "SecondPerson"
    | .third => "ThirdPerson"

inductive Position where
  | none
  | around
  | on
  | attached
  | inside
  | near
  | far
  | partOf
  deriving DecidableEq, Repr, Inhabited

instance : Named Position where
  all := [.none, .around, .on, .attached, .inside, .near, .far, .partOf]
  name
    | .none => "None"
    | .around => "Around"
    | .on => "On"
    | .attached => "Attached"
    | .inside => "Inside"
    | .near => "Near"
    | .far => "Far"
    | .partOf => "PartOf"

inductive Pronouns where
  | she
  | he
  | they
  | it
  deriving DecidableEq, Repr

instance : Inhabited Pronouns := ⟨.they⟩

instance : Named Pronouns where
  all := [.she, .he, .they, .it]
  name
    | .she => "SheHer"
    | .he => "HeHim"
    | .they => "TheyThem"
    | .it => "ItIts"

/-- The form that stands as the subject of a clause. -/
def Pronouns.subject : Pronouns → String
  | .she => "she"
  | .he => "he"
  | .they => "they"
  | .it => "it"

structure Context where
  tense : Tense := .present
  position : Position := .none
  perspective : Perspective := .third
  determinant : Bool := false
  plural : Bool := false
  possessive : Bool := false
  semantics : Tags := .empty
  severity : Int := 0
  elegance : Int := 0
  quality : Int := 0
  language : Option String := none
  observer : Option Nat := none
  pronouns : Option Pronouns := none
  deriving DecidableEq, Repr, Inhabited

namespace Context

def inLanguage (language : String) : Context := { language := some language }

/-- Takes over the narrative fields of `voice` and keeps all others. -/
def inVoiceOf (context voice : Context) : Context :=
  { context with
    language := voice.language
    tense := voice.tense
    perspective := voice.perspective
    elegance := voice.elegance
    severity := voice.severity
    quality := voice.quality }

def tagged (context : Context) (tag : String) : Context :=
  { context with semantics := context.semantics.insert tag }

end Context

end SensoryProse
