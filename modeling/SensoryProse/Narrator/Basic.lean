import SensoryProse.Language.Collection
import SensoryProse.Narrator.Config
import SensoryProse.Perception.Glimpse
import SensoryProse.Prose.Writer

/-!
# Narrating events

A narrator breaks an event into clauses.  The root of the event and every subject below it become
clauses of their own; a subject that still carries a description but has no verb is given a verb of
being, under which its description moves; and a saturated subject without a verb is replaced by a
glimpse.
-/

namespace SensoryProse

inductive NarrationError where
  | missingBaseLanguage (name : String)
  deriving DecidableEq, Repr

def NarrationError.message : NarrationError → String
  | .missingBaseLanguage name => "base language '" ++ name ++ "' is not loaded"

structure Narrator (Words : Type := Lexicon) where
  languages : Languages := {}
  lexicon : Words
  config : Config := {}
  deriving Repr, Inhabited

namespace Narrator

/-- The tag that marks verbs of being. -/
def existential : String := "existential"

variable {Words : Type}

def languageFor (narrator : Narrator Words) (requested : Option String) :
    Except NarrationError Language :=
  match narrator.languages.select requested narrator.config.baseLanguage with
  | some language => .ok language
  | none => .error (.missingBaseLanguage narrator.config.baseLanguage)

/-- The context in which a pronoun stands for a phrase. -/
def pronounContext (context : Context) : Context :=
  { context with
    position := .none
    tense := .present
    determinant := false
    semantics := .empty
    perspective := .second }

variable [Vocabulary Words]

/-- The phrase with its name replaced by a pronoun. -/
def anonymized (narrator : Narrator Words) (phrase : Phrase) : Phrase :=
  let context := pronounContext phrase.context
  { phrase with
    text :=
      match Vocabulary.choose narrator.lexicon context .pronoun with
      | some sense => sense.name
      | none => (phrase.context.pronouns.getD .they).subject
    wordClass := .pronoun
    context }

/-- The context in which a verb of being is chosen for a subject. -/
def existentialContext (context : Context) : Context :=
  { context with
    semantics := .singleton existential
    position := .none
    determinant := false
    possessive := false }

/-- The subject with a verb of being above its modifiers, if it has modifiers, none of them is a
verb and a verb of being is known. -/
def completed (narrator : Narrator Words) (subject : Phrase) : Phrase :=
  if subject.modifiers.isEmpty || subject.hasRole .verb then subject
  else
    let context := existentialContext subject.context
    match Vocabulary.choose narrator.lexicon context .verb with
    | none => subject
    | some sense =>
        let verb : Phrase := { role := .verb, wordClass := .verb, text := sense.name, context }
        subject.bare.attach (verb.attachAll subject.modifiers)

/-- The root of an event as it is narrated in `language`. -/
def narratedRoot (narrator : Narrator Words) (voice : Option Context) (anonymize : Bool)
    (language : Language) (root : Phrase) : Phrase :=
  let voiced := { root with context := voice.elim root.context root.context.inVoiceOf }
  let spoken := { voiced with context := { voiced.context with language := some language.name } }
  if anonymize then narrator.anonymized spoken else spoken

/-- A subject detached from the root speaks its own language, or else that of the root. -/
def inLanguage (language : Language) (subject : Phrase) : Phrase :=
  { subject with
    context :=
      { subject.context with language := subject.context.language.or (some language.name) } }

/-- The root without its subjects, followed by these. -/
def subjectsOf (language : Language) (root : Phrase) : List Phrase :=
  root.withoutSubjects ::
    (root.modifiers.filter Phrase.isSubject).map (inLanguage language)

def clause (event : Event) (kind : ClauseKind) (subject : Phrase) : Clause where
  kind
  subject
  channel := event.channel
  strength := event.strength

/-- The clause of a subject that has been parted from the subjects below it. -/
def mainClause (narrator : Narrator Words) (event : Event) (hasNested : Bool) (subject : Phrase) :
    Clause :=
  let whole := narrator.completed subject
  if whole.hasRole .verb then clause event .partialClause whole
  else if event.isSaturated && !hasNested then
    clause event .statement (whole.glimpsed event.channel event.isTooIntense)
  else clause event .statement whole

/-- The clause of a subject and those of the subjects below it. -/
def clausesOf (narrator : Narrator Words) (event : Event) (subject : Phrase) : List Clause :=
  let nested := subject.nestedSubjects
  narrator.mainClause event (!nested.isEmpty) subject.withoutSubjects
    :: nested.map (clause event .statement)

/-- The clauses of an event in the order in which they are told.  `voice` overrides the narrative
voice of the root. -/
def clauses (narrator : Narrator Words) (event : Event) (voice : Option Context)
    (anonymize : Bool) : Except NarrationError (List Clause) :=
  if event.phrase.text.isEmpty then .ok []
  else do
    let requested := (voice.getD event.phrase.context).language
    let language ← narrator.languageFor requested
    let root := narrator.narratedRoot voice anonymize language event.phrase
    return (subjectsOf language root).flatMap (narrator.clausesOf event)

/-- Writes a clause in the language of its subject. -/
def write (narrator : Narrator Words) (clause : Clause) : Except NarrationError WrittenClause := do
  let language ← narrator.languageFor clause.subject.context.language
  return (Writer.of language narrator.lexicon).write clause.kind clause.subject

def writtenClauses (narrator : Narrator Words) (event : Event) (voice : Option Context)
    (anonymize : Bool) : Except NarrationError (List WrittenClause) := do
  (← narrator.clauses event voice anonymize).mapM narrator.write

/-- The texts of the written clauses that have any. -/
def texts (narrator : Narrator Words) (event : Event) (voice : Option Context) (anonymize : Bool) :
    Except NarrationError (List String) := do
  let written ← narrator.writtenClauses event voice anonymize
  return (written.filter fun clause => !clause.isEmpty).map (·.text)

def describe (narrator : Narrator Words) (event : Event) (voice : Option Context)
    (anonymize : Bool) : Except NarrationError String :=
  Prose.compose <$> narrator.writtenClauses event voice anonymize

end Narrator

end SensoryProse
