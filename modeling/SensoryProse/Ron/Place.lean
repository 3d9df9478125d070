/-!
# Places for values

What is wanted where a value stands.  A value is read in the same way everywhere, except where it
may be absent: there the word for a value that is present need not end where the value begins.
-/

namespace SensoryProse.Ron

/-- What is wanted where a value stands.  In a place for `any` value nothing is known of it. -/
inductive Place where
  | any
  | optional
  | list (items : Place)
  | record (field : String → Place)

namespace Place

def isOptional : Place → Bool
  | .optional => true
  | _ => false

/-- The place for each value of a list. -/
def items : Place → Place
  | .list items => items
  | _ => .any

/-- The place for the value of a field. -/
def field : Place → String → Place
  | .record field, key => field key
  | _, _ => .any

/-- A record of which the given fields may be absent. -/
def withOptional (keys : List String) : Place :=
  .record fun key => if keys.contains key then .optional else .any

end Place

end SensoryProse.Ron
