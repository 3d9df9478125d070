import SensoryProse.Perception.Channel
import SensoryProse.Phrase.Basic
import SensoryProse.Prose.Kind
import SensoryProse.Text.Case

/-!
# Clauses and prose

A clause is a phrase tree that is to be written as one unit, with the channel and strength of the
event that it comes from.  Written clauses make up prose: each is capitalized and closed by its
mark, except that a partial clause runs on into the next one after a comma.
-/

namespace SensoryProse

structure Clause where
  kind : ClauseKind
  subject : Phrase
  channel : Channel
  strength : Int
  deriving Repr

structure WrittenClause where
  text : String
  kind : ClauseKind
  deriving DecidableEq, Repr

namespace WrittenClause

def isEmpty (clause : WrittenClause) : Bool := clause.text.isEmpty

/-- The clause as a sentence of its own. -/
def punctuated (clause : WrittenClause) : String := Text.capitalize clause.text ++ clause.kind.mark

end WrittenClause

namespace Prose

/-- What follows a clause directly.  A partial clause that ends the prose is closed by a full
stop. -/
def closing (kind : ClauseKind) (isLast : Bool) : String :=
  match kind with
  | .partialClause => if isLast then "." else ","
  | _ => kind.mark

/-- Continues prose with clauses that have text.  `running` says that the clause before was
partial. -/
def continued (running : Bool) : List WrittenClause → String
  | [] => ""
  | clause :: clauses =>
      (if running then clause.text else Text.capitalize clause.text)
        ++ closing clause.kind clauses.isEmpty
        ++ (if clauses.isEmpty then "" else " ")
        ++ continued (clause.kind == .partialClause) clauses

def compose (clauses : List WrittenClause) : String :=
  continued false (clauses.filter fun clause => !clause.isEmpty)

end Prose

end SensoryProse
