import SensoryProse.Lint.Report
import SensoryProse.Preview.Run

/-!
# Command line

Two commands: `preview` opens a session on standard input, and `lint` reports on language packs.
The files that the arguments can lead to are looked at before a command runs.
-/

namespace SensoryProse.CommandLine

/-- What stands at a path. -/
def nodeAt (path : String) : IO (Option Node) := do
  try
    let place ← IO.FS.realPath path
    if ← place.isDir then
      let entries ← place.readDir
      return some (.folder (entries.toList.map (·.fileName)).mergeSort)
    else return some (.file (← IO.FS.readFile place))
  catch _ => return none

/-- What stands at a path and, below a folder, where language packs may stand. -/
def survey (path : String) : IO (List (String × Node)) := do
  let some node ← nodeAt path | return []
  let .folder names := node | return [(path, node)]
  let below ← names.mapM fun name => do
    let inner := Files.inFolder path name
    let some node ← nodeAt inner | return []
    let pack := Files.inFolder inner Files.packName
    let found ← nodeAt pack
    return (inner, node) :: (found.map fun node => (pack, node)).toList
  return (path, node) :: below.flatten

def filesFor (arguments : List String) : IO Files := do
  let nodes := (← arguments.mapM survey).flatten
  return fun path => nodes.lookup path

def finish (outcome : Outcome) : IO UInt32 := do
  (← IO.getStdout).putStr outcome.output
  (← IO.getStderr).putStr outcome.errors
  return outcome.code.toUInt32

partial def converse (narrator : Narrator) (session : Preview.Session) : IO Unit := do
  let output ← IO.getStdout
  output.putStr Preview.prompt
  output.flush
  let line ← (← IO.getStdin).getLine
  unless line.isEmpty do
    let reply := session.respond narrator line
    output.putStr (Outcome.joinLines reply.lines)
    unless reply.closes do converse narrator reply.session

def preview (arguments : List String) : IO UInt32 := do
  match Preview.begin (← filesFor arguments) arguments with
  | .over outcome => finish outcome
  | .session narrator greeting =>
      (← IO.getStdout).putStr (Outcome.joinLines greeting)
      converse narrator (.start narrator)
      return 0

def lint (arguments : List String) : IO UInt32 := do
  finish (Lint.run (← filesFor arguments) arguments)

end SensoryProse.CommandLine

def main : List String → IO UInt32
  | "preview" :: arguments => SensoryProse.CommandLine.preview arguments
  | "lint" :: arguments => SensoryProse.CommandLine.lint arguments
  | _ => do
      (← IO.getStderr).putStrLn
        "Usage: preview <option...> | lint <language_dir> [--lexicon <file>]"
      return 1
