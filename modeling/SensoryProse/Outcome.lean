/-!
# Outcomes of a command

What a command leaves behind: an exit code, what it printed and what it reported as errors.
-/

namespace SensoryProse

structure Outcome where
  code : Nat := 0
  output : String := ""
  errors : String := ""
  deriving DecidableEq, Repr

namespace Outcome

def joinLines (lines : List String) : String := String.join (lines.map (· ++ "\n"))

def printed (lines : List String) : Outcome := { output := joinLines lines }

def failed (message : String) : Outcome := { code := 1, errors := message ++ "\n" }

end Outcome

end SensoryProse
