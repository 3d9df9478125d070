import SensoryProse.Named

/-!
# Kinds of clause

The kind of a clause decides its closing mark.  A partial clause has none: it runs on into the next
clause.
-/

namespace SensoryProse

inductive ClauseKind where
  | partialClause
  | statement
  | question
  | exclamation
  deriving DecidableEq, Repr

instance : Inhabited ClauseKind := ⟨.statement⟩

instance : Named ClauseKind where
  all := [.partialClause, .statement, .question, .exclamation]
  name
    | .partialClause => "Partial"
    | .statement => "Statement"
    | .question => "Question"
    | .exclamation => "Exclamation"

def ClauseKind.mark : ClauseKind → String
  | .partialClause => ""
  | .statement => "."
  | .question => "?"
  | .exclamation => "!"

end SensoryProse
