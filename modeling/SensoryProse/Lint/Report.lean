import SensoryProse.Lint.Basic
import SensoryProse.Narrator.Build
import SensoryProse.Outcome

/-!
# Lint reports

The command loads a language pack, or all packs of a folder, and reports on each language in order
of name: warnings first, then errors, then their number.  It fails if there are errors.
-/

namespace SensoryProse.Lint

def usage : String := "Usage: rule_linter <language_dir> [--lexicon <file>]"

/-- The last word list named among the arguments. -/
def lexiconPath? : List String → Option String
  | "--lexicon" :: path :: rest => (lexiconPath? rest).or (some path)
  | _ :: rest => lexiconPath? rest
  | [] => none

/-- Findings about one language with its name. -/
def findingsFor (lexicon : Option Lexicon) (language : Language) : List (String × Finding) :=
  (languageFindings language ++ lexicon.elim [] (lexiconFindings language)).map
    fun finding => (language.name, finding)

def loadedLine (language : Language) : String :=
  s!"Loaded '{language.name}': " ++ toString language.rules.length ++ " rules, "
    ++ toString language.contractions.length ++ " contractions"

def report (languages : Languages) (lexicon : Option Lexicon) : Outcome :=
  let ordered := languages.names.filterMap languages.find?
  let findings := ordered.flatMap (findingsFor lexicon)
  let errors := findings.filter (·.2.isError)
  let warnings := findings.filter fun found => !found.2.isError
  let lines :=
    ordered.map loadedLine
      ++ ["", "=== Rule Lint Report ===", ""]
      ++ (if findings.isEmpty then ["All checks passed!"] else [])
      ++ (warnings.map fun found => "WARNING: " ++ found.2.message found.1)
      ++ (errors.map fun found => "ERROR: " ++ found.2.message found.1)
      ++ ["", s!"Summary: {errors.length} errors, {warnings.length} warnings"]
  { Outcome.printed lines with code := if errors.isEmpty then 0 else 1 }

def load (files : Files) (path : String) : Except String Languages :=
  match files path with
  | none => .error ("ERROR: Path '" ++ path ++ "' does not exist")
  | some node =>
      let loaded :=
        match node with
        | .file _ => Languages.add {} <$> files.loadLanguage path
        | .folder _ => files.loadLanguages path {}
      loaded.mapError fun error => "ERROR: Failed to load language pack: " ++ error.message

def loadLexicon (files : Files) (path : Option String) : Except String (Option Lexicon) :=
  match path with
  | none => .ok none
  | some path =>
      match files.loadLexicon path 0 with
      | .ok lexicon => .ok (some lexicon)
      | .error error => .error ("ERROR: Failed to load lexicon: " ++ error.message)

def run (files : Files) (arguments : List String) : Outcome :=
  match arguments with
  | [] => .printed [usage]
  | path :: rest =>
      if path = "--help" || path = "-h" then .printed [usage]
      else
        let loaded : Except String (Languages × Option Lexicon) := do
          let languages ← load files path
          let lexicon ← loadLexicon files (lexiconPath? rest)
          return (languages, lexicon)
        match loaded with
        | .ok (languages, lexicon) => report languages lexicon
        | .error message => .failed message

end SensoryProse.Lint
