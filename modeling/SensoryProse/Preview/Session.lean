import SensoryProse.Narrator.Observation
import SensoryProse.Preview.Command

/-!
# Preview sessions

A session holds entities, a viewer and a voice, which its commands change one at a time.  Looking
describes every entity as the viewer perceives it.  A refused line leaves the session as it was.
-/

namespace SensoryProse.Preview

structure Session where
  entities : List Entity := []
  senses : Senses := {}
  light : Float := 50
  modifier : Int := 0
  voice : Context
  anonymize : Bool := false
  deriving Repr

/-- What a line leads to: the session after it and the lines printed. -/
structure Reply where
  session : Session
  lines : List String
  closes : Bool := false
  deriving Repr

def helpLines : List String := [
  "Commands:",
  "  entity <name> <channel> <strength> <word...>  Add a descriptive",
  "  proper <name>                                 Toggle proper name",
  "  range <channel> <low> <high>                  Set the viewer's band",
  "  light <n>                                     Set ambient luminosity",
  "  modifier <n>                                  Band offset for new descriptives",
  "  tense <past|present|future>                   Narrative tense",
  "  lang <name>                                   Narrative language",
  "  anon                                          Toggle anonymized subjects",
  "  look                                          Describe every entity",
  "  help                                          Show this help",
  "  quit                                          Exit"]

namespace Session

variable {Words : Type}

def start (narrator : Narrator Words) : Session where
  voice := .inLanguage narrator.config.baseLanguage

def flagText (flag : Bool) : String := if flag then "true" else "false"

/-- Adds a description to the entity of the given name, or to a new entity with the next number. -/
def describeIn (name : String) (description : Description) (count : Nat) :
    List Entity → List Entity
  | [] => [{ id := count + 1, name, descriptions := [description] }]
  | entity :: entities =>
      if entity.name = name then entity.describe description :: entities
      else entity :: describeIn name description count entities

def describe (session : Session) (name : String) (description : Description) : Session :=
  { session with
    entities := describeIn name description session.entities.length session.entities }

def entity? (session : Session) (name : String) : Option Entity :=
  session.entities.find? (·.name == name)

def toggleProperIn (name : String) : List Entity → List Entity
  | [] => []
  | entity :: entities =>
      if entity.name = name then { entity with properName := !entity.properName } :: entities
      else entity :: toggleProperIn name entities

def toggleProper (session : Session) (name : String) : Session :=
  { session with entities := toggleProperIn name session.entities }

/-- A number in a column of four places, flush right. -/
def column (number : Int) : String :=
  let digits := toString number
  String.ofList (List.replicate (4 - digits.length) ' ') ++ digits

variable [Vocabulary Words]

def lookLine (narrator : Narrator Words) (session : Session) (entity : Entity)
    (description : Description) : String :=
  let perceived := narrator.received description session.senses session.light
  match narrator.describe (entity.observed perceived) session.voice session.anonymize with
  | .ok prose => "  [" ++ column perceived.strength ++ "] " ++ prose
  | .error error => "  ERROR: " ++ error.message

def lookLines (narrator : Narrator Words) (session : Session) : List String :=
  if session.entities.isEmpty then ["Nothing here. Add one with 'entity'."]
  else
    session.entities.flatMap fun entity =>
      (entity.name ++ ":") :: entity.descriptions.map (session.lookLine narrator entity)

def perform (narrator : Narrator Words) (session : Session) : Command → Reply
  | .quit => { session, lines := ["Goodbye."], closes := true }
  | .help => { session, lines := helpLines }
  | .entity name channel strength detail =>
      let phrase : Phrase := { role := .descriptive, wordClass := .adjective, text := detail }
      let description : Description :=
        { event := .of phrase strength channel, modifier := session.modifier }
      { session := session.describe name description
        lines := ["Described " ++ name ++ " on " ++ channel.tag] }
  | .proper name =>
      match session.entity? name with
      | none => { session, lines := (Refusal.unknownEntity name).lines }
      | some entity =>
          { session := session.toggleProper name
            lines := [name ++ " proper name: " ++ flagText (!entity.properName)] }
  | .band channel low high =>
      { session := { session with senses := session.senses.withBand channel ⟨low, high⟩ }
        lines := ["Viewer " ++ channel.tag ++ " band: " ++ toString low ++ ".." ++ toString high] }
  | .light luminosity =>
      { session := { session with light := luminosity }
        lines := ["Luminosity: " ++ Decimal.floatText luminosity] }
  | .modifier amount =>
      { session := { session with modifier := amount }
        lines := ["Modifier for new descriptives: " ++ toString amount] }
  | .tense tense =>
      { session := { session with voice := { session.voice with tense } }
        lines := ["Tense: " ++ Named.name tense] }
  | .language name =>
      { session := { session with voice := { session.voice with language := name } }
        lines :=
          (if (narrator.languages.find? name).isSome then []
            else ["'" ++ name ++ "' is not loaded; rendering will fall back"])
          ++ ["Language: " ++ name] }
  | .anonymize =>
      { session := { session with anonymize := !session.anonymize }
        lines := ["Anonymize: " ++ flagText (!session.anonymize)] }
  | .look => { session, lines := session.lookLines narrator }

/-- Responds to one line of input. -/
def respond (narrator : Narrator Words) (session : Session) (line : String) : Reply :=
  match Command.read? line with
  | none => { session, lines := [] }
  | some (.error refusal) => { session, lines := refusal.lines }
  | some (.ok command) => session.perform narrator command

end Session

end SensoryProse.Preview
