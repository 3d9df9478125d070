import SensoryProse.Decimal.Nearest
import SensoryProse.Decimal.Shortest
import SensoryProse.Perception.Channel
import SensoryProse.Phrase.Context
import SensoryProse.Text.Blank
import SensoryProse.Text.Case

/-!
# Session commands

A line of a preview session is a command word followed by its arguments.  A line that is no valid
command is refused for a reason, and each reason has its reply.
-/

namespace SensoryProse.Preview

inductive Command where
  | quit
  | help
  | entity (name : String) (channel : Channel) (strength : Int) (detail : String)
  | proper (name : String)
  | band (channel : Channel) (low high : Int)
  | light (luminosity : Float)
  | modifier (amount : Int)
  | tense (tense : Tense)
  | language (name : String)
  | anonymize
  | look
  deriving Repr

/-- Commands that have a usage line. -/
inductive Usage where
  | entity
  | proper
  | band
  | light
  | modifier
  | tense
  | language
  deriving DecidableEq, Repr

def Usage.lines : Usage → List String
  | .entity =>
      ["Usage: entity <name> <channel> <strength> <word...>",
        "  channel: visible, audible, olefactory, psychic, tactile, taste"]
  | .proper => ["Usage: proper <name>"]
  | .band => ["Usage: range <channel> <low> <high>"]
  | .light => ["Usage: light <n>"]
  | .modifier => ["Usage: modifier <n>"]
  | .tense => ["Usage: tense <past|present|future>"]
  | .language => ["Usage: lang <name>"]

inductive Refusal where
  | misused (command : Usage)
  | unknownCommand (word : String)
  | unknownChannel (word : String)
  | unknownEntity (name : String)
  | badStrength (word : String)
  | badBounds
  deriving DecidableEq, Repr

def Refusal.lines : Refusal → List String
  | .misused command => command.lines
  | .unknownCommand word => ["Unknown command: " ++ word ++ ". Type 'help' for commands."]
  | .unknownChannel word => ["Unknown channel: " ++ word]
  | .unknownEntity name => ["No entity named " ++ name]
  | .badStrength word => ["Strength must be a number: " ++ word]
  | .badBounds => ["Band bounds must be numbers"]

/-- Reads an integer of 16 bits. -/
def small? (word : String) : Option Int := Decimal.integerIn? (-0x8000) 0x7fff word

/-- A channel is named by its word or its tag, in any case of ASCII letters. -/
def channel? (word : String) : Option Channel :=
  (Named.all : List Channel).find? fun channel =>
    Text.sameUpToAsciiCase channel.tag word || Text.sameUpToAsciiCase channel.word word

def tense? (word : String) : Option Tense :=
  match Text.lower word with
  | "past" => some .past
  | "present" => some .present
  | "future" => some .future
  | _ => none

def orUsage {α : Type} (usage : Usage) (argument : Option α) : Except Refusal α :=
  match argument with
  | some value => .ok value
  | none => .error (.misused usage)

namespace Command

def readEntity : List String → Except Refusal Command
  | name :: channel :: strength :: word :: words =>
      match channel? channel with
      | none => .error (.unknownChannel channel)
      | some channel =>
          match small? strength with
          | none => .error (.badStrength strength)
          | some strength =>
              .ok (.entity name channel strength (" ".intercalate (word :: words)))
  | _ => .error (.misused .entity)

def readBand : List String → Except Refusal Command
  | channel :: low :: high :: _ =>
      match channel? channel with
      | none => .error (.unknownChannel channel)
      | some channel =>
          match small? low, small? high with
          | some low, some high => .ok (.band channel low high)
          | _, _ => .error .badBounds
  | _ => .error (.misused .band)

/-- Reads the arguments of a command word in small letters. -/
def readArguments (word : String) (arguments : List String) : Except Refusal Command :=
  match word with
  | "quit" | "exit" | "q" => .ok .quit
  | "help" | "h" | "?" => .ok .help
  | "entity" => readEntity arguments
  | "proper" => (orUsage .proper arguments.head?).map .proper
  | "range" => readBand arguments
  | "light" => (orUsage .light (arguments.head?.bind Decimal.float?)).map .light
  | "modifier" => (orUsage .modifier (arguments.head?.bind small?)).map .modifier
  | "tense" => (orUsage .tense (arguments.head?.bind tense?)).map .tense
  | "lang" => (orUsage .language arguments.head?).map .language
  | "anon" => .ok .anonymize
  | "look" => .ok .look
  | _ => .error (.unknownCommand word)

/-- Reads a line.  A blank line is no command and is not refused either. -/
def read? (line : String) : Option (Except Refusal Command) :=
  match Text.words line with
  | [] => none
  | word :: arguments => some (readArguments (Text.lower word) arguments)

end Command

end SensoryProse.Preview
