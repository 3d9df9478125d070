import SensoryProse.Narrator.Build
import SensoryProse.Outcome
import SensoryProse.Preview.Session

/-!
# The preview command

The command sets up a narrator from its arguments, greets and then answers its input line by line
until the input ends or a line closes the session.
-/

namespace SensoryProse.Preview

def usageLines : List String := [
  "Usage: preview --languages <dir> [--lexicon <file>] [--config <file>] [--seed <n>]",
  "",
  "Options:",
  "  --languages <dir>  Directory of language packs (<lang>/language.ron)",
  "  --lexicon <file>   Word list in RON",
  "  --config <file>    Render config in RON",
  "  --seed <n>         Seed for lexicon tie-breaking (default: 42)"]

def defaultSeed : UInt64 := 42

/-- A seed that is no number of 64 bits counts as the default. -/
def seedOf (word : String) : UInt64 :=
  (Decimal.naturalBelow? UInt64.size word).elim defaultSeed .ofNat

/-- Takes the options one by one.  The argument that is no option with a value is the error. -/
def options (setup : Setup) : List String → Except String Setup
  | [] => .ok setup
  | "--languages" :: value :: rest => options { setup with languagesFolder := value } rest
  | "--lexicon" :: value :: rest => options { setup with lexiconPath := value } rest
  | "--config" :: value :: rest => options { setup with configPath := value } rest
  | "--seed" :: value :: rest => options { setup with seed := seedOf value } rest
  | unknown :: _ => .error unknown

/-- How a run begins: it is over at once, or a session starts with a greeting. -/
inductive Beginning where
  | over (outcome : Outcome)
  | session (narrator : Narrator) (greeting : List String)

def greeting (narrator : Narrator) (seed : UInt64) : List String := [
  "Languages: " ++ ", ".intercalate narrator.languages.names,
  "Base language: " ++ narrator.config.baseLanguage,
  "Seed: " ++ toString seed.toNat,
  "Type 'help' for commands.",
  ""]

def begin (files : Files) (arguments : List String) : Beginning :=
  if arguments.isEmpty || arguments.head? == some "--help" || arguments.head? == some "-h" then
    .over (.printed usageLines)
  else
    match options { seed := defaultSeed } arguments with
    | .error unknown =>
        .over { Outcome.failed ("Unknown argument: " ++ unknown) with
          output := Outcome.joinLines usageLines }
    | .ok setup =>
        match setup.build files with
        | .error error => .over (.failed ("ERROR: " ++ error.message))
        | .ok narrator => .session narrator (greeting narrator setup.seed)

def prompt : String := "preview> "

/-- What a session prints from its next prompt on. -/
def transcript {Words : Type} [Vocabulary Words] (narrator : Narrator Words)
    (session : Session) : List String → String
  | [] => prompt
  | line :: lines =>
      let reply := session.respond narrator line
      prompt ++ Outcome.joinLines reply.lines
        ++ (if reply.closes then "" else transcript narrator reply.session lines)

/-- The lines of an input.  A line break at the end starts no further line. -/
def inputLines (input : String) : List String :=
  let lines := Text.splitAt '\n' input
  if lines.getLast? == some "" then lines.dropLast else lines

def run (files : Files) (arguments : List String) (input : String) : Outcome :=
  match begin files arguments with
  | .over outcome => outcome
  | .session narrator greeting =>
      { output :=
          Outcome.joinLines greeting
            ++ transcript narrator (.start narrator) (inputLines input) }

end SensoryProse.Preview
