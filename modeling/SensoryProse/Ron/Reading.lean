import SensoryProse.Ron.Place
import SensoryProse.Ron.Token
import SensoryProse.Ron.Value

/-!
# Reading object notation

A text is read as one value between gaps, after any number of attributes that switch on leniencies
of the notation.  The items of a list, tuple, map or record are separated by commas, of which one
may stand behind the last item.  Values nest up to a limit; a bracket and an item inside it count
one level each.

The word `Some` announces a value that is present.  In a place for an optional value it is found at
the front of any word, so that a value may be glued to it; elsewhere it has to be a word of its own.
-/

namespace SensoryProse.Ron

/-- The most levels that values may nest. -/
def nestingLimit : Nat := 128

/-- Reads items and commas up to the closing bracket.  The fuel bounds the number of items. -/
def itemsFrom {α : Type} (close : Char) (item : Reader α) : Nat → Reader (List α)
  | 0, _ => none
  | fuel + 1, chars => do
      match ← gap chars with
      | [] => none
      | c :: rest =>
          if c = close then some ([], rest)
          else
            let (first, rest) ← item (c :: rest)
            match ← gap rest with
            | [] => none
            | c :: rest =>
                if c = ',' then prepend first (itemsFrom close item fuel rest)
                else if c = close then some ([first], rest)
                else none

/-- Each item takes at least one character. -/
def items {α : Type} (close : Char) (item : Reader α) : Reader (List α) :=
  fun chars => itemsFrom close item (chars.length + 1) chars

/-- Reads a colon between gaps. -/
def colon (chars : List Char) : Option (List Char) := do
  match ← gap chars with
  | ':' :: rest => gap rest
  | _ => none

def field (item : String → Reader Value) : Reader (String × Value) := fun chars => do
  let (key, rest) ← name chars
  let (value, rest) ← item key.text (← colon rest)
  some ((key.text, value), rest)

def entry (item : Reader Value) : Reader (Value × Value) := fun chars => do
  let (key, rest) ← item chars
  let (value, rest) ← item (← colon rest)
  some ((key, value), rest)

/-- Whether the first thing inside parentheses is the name of a field. -/
def startsField (chars : List Char) : Bool :=
  ((gap chars).bind name).any fun found => (colon found.2).isSome

/-- Reads what follows an opening parenthesis. -/
def parenthesized (title : Option String) (item : Place → Reader Value) (place : Place) :
    Reader Value := fun chars =>
  if startsField chars then
    (items ')' (field fun key => item (place.field key)) chars).map fun found =>
      (.record title found.1, found.2)
  else
    (items ')' (item .any) chars).map fun found => (.tuple title found.1, found.2)

/-- Reads what follows the word for a value that is present: the value in parentheses, or if the
parentheses may be left out the bare value. -/
def presentValue (lenient : Bool) (inner : Reader Value) : Reader Value := fun chars => do
  match ← gap chars with
  | '(' :: rest =>
      let (value, rest) ← inner (← gap rest)
      let rest ← match ← gap rest with
        | ',' :: rest => gap rest
        | rest => some rest
      match rest with
      | ')' :: rest => some (.present value, rest)
      | _ => none
  | rest => if lenient then (inner rest).map fun found => (.present found.1, found.2) else none

/-- Reads a value that starts with a name. -/
def named (lenient opens : Bool) (inner item : Place → Reader Value) (place : Place)
    (title : Name) : Reader Value := fun chars =>
  if title.raw = false ∧ title.text = "true" then some (.flag true, chars)
  else if title.raw = false ∧ title.text = "false" then some (.flag false, chars)
  else if title.raw = false ∧ title.text = "Some" then presentValue lenient (inner .any) chars
  else if title.raw = false ∧ title.text = "None" then some (.absent, chars)
  else if title.raw = false ∧ title.text ∈ numberNames then some (.number title.text, chars)
  else do
    match ← gap chars with
    | '(' :: rest => if opens then parenthesized title.text item place rest else none
    | rest => some (.word title.text, rest)

/-- Reads a value of which `inner` reads the part one level down and `item` that two levels down.
Brackets are refused unless `opens`. -/
def form (lenient opens : Bool) (inner item : Place → Reader Value) (place : Place) : Reader Value
  | '(' :: ')' :: rest => some (.unit, rest)
  | '(' :: rest => if opens then parenthesized none item place rest else none
  | '[' :: rest =>
      if opens then
        (items ']' (item place.items) rest).map fun found => (.list found.1, found.2)
      else none
  | '{' :: rest =>
      if opens then
        (items '}' (entry (item .any)) rest).map fun found => (.map found.1, found.2)
      else none
  | '"' :: rest =>
      (quoted '"' none rest).map fun found => (.text (String.ofList found.1), found.2)
  | '\'' :: rest =>
      match quoted '\'' none rest with
      | some ([c], rest) => some (.char c, rest)
      | _ => none
  | chars =>
      if place.isOptional && "Some".toList.isPrefixOf chars then
        presentValue lenient (inner .any) (chars.drop 4)
      else
        match name chars, chars with
        | some (title, rest), _ => named lenient opens inner item place title rest
        | none, 'r' :: rest =>
            (rawText rest).map fun found => (.text (String.ofList found.1), found.2)
        | none, chars => (numberText chars).map fun found => (.number found.1, found.2)

/-- Reads a value that nests at most the given number of levels. -/
def value (lenient : Bool) : Nat → Place → Reader Value
  | 0 => form lenient false (fun _ => refuse) (fun _ => refuse)
  | 1 => form lenient true (value lenient 0) (fun _ => refuse)
  | depth + 2 => form lenient true (value lenient (depth + 1)) (value lenient depth)

/-- Passes over a fixed token and the gap behind it. -/
def expect (token : String) (chars : List Char) : Option (List Char) :=
  if token.toList.isPrefixOf chars then gap (chars.drop token.length) else none

def leniencies : List String := ["unwrap_newtypes", "implicit_some", "unwrap_variant_newtypes"]

def leniency : Reader String := fun chars => do
  let (found, rest) ← name chars
  if leniencies.contains found.text then some (found.text, rest) else none

/-- Reads one attribute, with the leniencies it switches on. -/
def attributeNames : Reader (List String) := fun chars => do
  let rest ← expect "#" chars
  let rest ← expect "!" rest
  let rest ← expect "[" rest
  let rest ← expect "enable" rest
  let rest ← expect "(" rest
  let (names, rest) ← items ')' leniency rest
  if names.isEmpty then none
  else some (names, ← expect "]" (← gap rest))

/-- Reads all attributes at the front of a text. -/
def attributes : Nat → Reader (List String)
  | 0, _ => none
  | fuel + 1, chars =>
      if chars.head? = some '#' then do
        let (names, rest) ← attributeNames chars
        let (others, rest) ← attributes fuel rest
        some (names ++ others, rest)
      else some ([], chars)

/-- A whole text: its value, and whether parentheses around present values may be left out. -/
structure Document where
  value : Value
  lenient : Bool
  deriving Repr

/-- Reads a whole text in the place for it. -/
def document? (place : Place) (text : String) : Option Document := do
  let chars ← gap text.toList
  let (names, rest) ← attributes (chars.length + 1) chars
  let lenient := names.contains "implicit_some"
  let (value, rest) ← value lenient nestingLimit place rest
  match ← gap rest with
  | [] => some { value, lenient }
  | _ => none

end SensoryProse.Ron
