import SensoryProse.Files
import SensoryProse.Narrator.Basic
import SensoryProse.Ron.Records

/-!
# Setting up a narrator

Languages, word list and settings are given directly or read from files, and what is given directly
comes first.  A folder of languages holds packs in files of one fixed name, in the folder itself or
one level below.  Settings are read before languages and languages before the word list, so the
first fault in this order is the one reported.
-/

namespace SensoryProse

inductive LoadError where
  | unreadable (path : String)
  | malformed
  | unnamed
  deriving DecidableEq, Repr

namespace LoadError

def message : LoadError → String
  | .unreadable _ => "IO error: nothing to read at the path"
  | .malformed => "RON deserialization error: not a text of the expected kind"
  | .unnamed => "language pack has no name"

def ofLanguageError : LanguageError → LoadError
  | .malformed => .malformed
  | .unnamed => .unnamed

end LoadError

inductive BuildError where
  | config (cause : LoadError)
  | languages (cause : LoadError)
  | lexicon (cause : LoadError)
  deriving DecidableEq, Repr

def BuildError.message : BuildError → String
  | .config cause => "config error: " ++ cause.message
  | .languages cause => "grammar error: " ++ cause.message
  | .lexicon cause => "lexicon error: " ++ cause.message

namespace Files

def read (files : Files) (path : String) : Except LoadError String :=
  match files path with
  | some (.file text) => .ok text
  | _ => .error (.unreadable path)

def loadConfig (files : Files) (path : String) : Except LoadError Config := do
  let text ← files.read path
  (Config.parse? text).elim (.error .malformed) .ok

def loadLexicon (files : Files) (path : String) (seed : UInt64) : Except LoadError Lexicon := do
  let text ← files.read path
  (Lexicon.parse? text seed).elim (.error .malformed) .ok

def loadLanguage (files : Files) (path : String) : Except LoadError Language := do
  let text ← files.read path
  (Language.parse text).mapError .ofLanguageError

/-- The name of the file that holds a language pack. -/
def packName : String := "language.ron"

/-- The path of the pack that an entry of a languages folder is or holds. -/
def packAt? (files : Files) (folder name : String) : Option String :=
  let path := inFolder folder name
  match files path with
  | some (.folder _) =>
      let pack := inFolder path packName
      if (files pack).isSome then some pack else none
  | some (.file _) => if name = packName then some path else none
  | none => none

/-- Registers every language of a folder. -/
def loadLanguages (files : Files) (folder : String) (languages : Languages) :
    Except LoadError Languages :=
  match files folder with
  | some (.folder names) =>
      (names.filterMap (files.packAt? folder)).foldlM
        (fun languages pack => languages.add <$> files.loadLanguage pack) languages
  | _ => .error (.unreadable folder)

end Files

/-- What a narrator is set up from. -/
structure Setup where
  seed : UInt64 := 0
  languages : Languages := {}
  lexicon : Option Lexicon := none
  config : Option Config := none
  languagesFolder : Option String := none
  lexiconPath : Option String := none
  configPath : Option String := none

namespace Setup

def buildConfig (setup : Setup) (files : Files) : Except LoadError Config :=
  match setup.config, setup.configPath with
  | some config, _ => .ok config
  | none, some path => files.loadConfig path
  | none, none => .ok {}

/-- A languages folder that does not exist is passed over. -/
def buildLanguages (setup : Setup) (files : Files) : Except LoadError Languages :=
  match setup.languagesFolder.filter fun folder => (files folder).isSome with
  | some folder => files.loadLanguages folder setup.languages
  | none => .ok setup.languages

def buildLexicon (setup : Setup) (files : Files) : Except LoadError Lexicon :=
  match setup.lexicon, setup.lexiconPath with
  | some lexicon, _ => .ok lexicon
  | none, some path => files.loadLexicon path setup.seed
  | none, none => .ok { seed := setup.seed }

def build (setup : Setup) (files : Files) : Except BuildError Narrator := do
  let config ← (setup.buildConfig files).mapError .config
  let languages ← (setup.buildLanguages files).mapError .languages
  let lexicon ← (setup.buildLexicon files).mapError .lexicon
  return { languages, lexicon, config }

end Setup

end SensoryProse
