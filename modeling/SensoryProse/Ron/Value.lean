/-!
# Object notation values

The values of the notation that language packs, word lists and settings are written in.  Names of
records and of alternatives are kept as they stand, and a number is kept as its text, because what
they mean depends on what is wanted in their place.
-/

namespace SensoryProse.Ron

inductive Value where
  | unit
  | flag (holds : Bool)
  | number (digits : String)
  | text (content : String)
  | char (char : Char)
  | absent
  | present (value : Value)
  | word (name : String)
  | list (values : List Value)
  | map (entries : List (Value × Value))
  | tuple (name : Option String) (values : List Value)
  | record (name : Option String) (fields : List (String × Value))
  deriving Repr, Inhabited

end SensoryProse.Ron
