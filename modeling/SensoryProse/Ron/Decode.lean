import SensoryProse.Decimal.Nearest
import SensoryProse.Named
import SensoryProse.Phrase.Tags
import SensoryProse.Ron.Token
import SensoryProse.Ron.Value

/-!
# Decoding values

What a value means in a place where a text, a flag, a number, a named value, a list or a record is
wanted.  Records may carry their name and list known fields in any order, each at most once; fields
that are not known are passed over.
-/

namespace SensoryProse.Ron.Value

def asText : Value → Option String
  | .text content => some content
  | _ => none

def asFlag : Value → Option Bool
  | .flag holds => some holds
  | _ => none

/-- An integer between two bounds. -/
def asInteger (low high : Int) : Value → Option Int
  | .number digits =>
      match integer low high digits.toList with
      | some (found, []) => some found
      | _ => none
  | _ => none

def asFloat : Value → Option Float
  | .number digits => Decimal.float? digits
  | _ => none

def asNamed {α : Type} [Named α] : Value → Option α
  | .word name => Named.ofName? name
  | .absent => Named.ofName? "None"
  | _ => none

def asList {α : Type} (decode : Value → Option α) : Value → Option (List α)
  | .list values => values.mapM decode
  | _ => none

def asTags (value : Value) : Option Tags := (value.asList asText).map Tags.ofList

/-- A value that may be absent.  Where parentheses may be left out a bare value counts as
present. -/
def asOption {α : Type} (lenient : Bool) (decode : Value → Option α) :
    Value → Option (Option α)
  | .absent => some none
  | .present value => (decode value).map some
  | value => if lenient then (decode value).map some else none

/-- The fields of a record of the given name. -/
def asRecord (name : String) : Value → Option (List (String × Value))
  | .unit => some []
  | .tuple title [] => if title.all (· == name) then some [] else none
  | .record title fields => if title.all (· == name) then some fields else none
  | _ => none

/-- Decodes a field that may be left out, but not given twice. -/
def fieldOr {α : Type} (fields : List (String × Value)) (name : String) (default : α)
    (decode : Value → Option α) : Option α :=
  match fields.filter (·.1 == name) with
  | [] => some default
  | [field] => decode field.2
  | _ => none

/-- Decodes a field that has to be given. -/
def requiredField {α : Type} (fields : List (String × Value)) (name : String)
    (decode : Value → Option α) : Option α :=
  match fields.filter (·.1 == name) with
  | [field] => decode field.2
  | _ => none

end SensoryProse.Ron.Value
