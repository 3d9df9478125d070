import SensoryProse.Decimal.Notation

/-!
# Object notation tokens

Readers take a token off the front of a text and return what is left, or nothing if no such token
stands there.  Tokens may be separated by white space, line comments and block comments, and block
comments nest.
-/

namespace SensoryProse.Ron

abbrev Reader (α : Type) := List Char → Option (α × List Char)

def refuse {α : Type} : Reader α := fun _ => none

/-! ## Gaps -/

def isSpace (c : Char) : Bool := c == ' ' || c == '\t' || c == '\n' || c == '\r'

/-- What is being passed over.  `block depth` is a comment inside `depth` others. -/
inductive Gap where
  | space
  | line
  | block (depth : Nat)

/-- The text behind a gap.  A slash that opens no comment, and a block comment without end, are
errors. -/
def skip : Gap → List Char → Option (List Char)
  | .space, '/' :: '/' :: rest => skip .line rest
  | .space, '/' :: '*' :: rest => skip (.block 0) rest
  | .space, '/' :: _ => none
  | .space, c :: rest => if isSpace c then skip .space rest else some (c :: rest)
  | .space, [] => some []
  | .line, '\n' :: rest => skip .space rest
  | .line, _ :: rest => skip .line rest
  | .line, [] => some []
  | .block depth, '/' :: '*' :: rest => skip (.block (depth + 1)) rest
  | .block 0, '*' :: '/' :: rest => skip .space rest
  | .block (depth + 1), '*' :: '/' :: rest => skip (.block depth) rest
  | .block depth, _ :: rest => skip (.block depth) rest
  | .block _, [] => none

def gap (chars : List Char) : Option (List Char) := skip .space chars

/-! ## Names -/

def isNameStart (c : Char) : Bool := c.isAlpha || c == '_'
def isNameRest (c : Char) : Bool := c.isAlphanum || c == '_'

/-- Characters of a name that is marked as raw. -/
def isRawName (c : Char) : Bool := isNameRest c || c == '.' || c == '+' || c == '-'

structure Name where
  text : String
  raw : Bool := false
  deriving DecidableEq, Repr

/-- Reads a name.  The letter `r` in front of a quoted text is none. -/
def name : Reader Name
  | 'r' :: '"' :: _ => none
  | 'r' :: '#' :: rest =>
      let letters := rest.takeWhile isRawName
      if letters.isEmpty then none
      else some (⟨String.ofList letters, true⟩, rest.dropWhile isRawName)
  | c :: rest =>
      if isNameStart c then
        some (⟨String.ofList (c :: rest.takeWhile isNameRest), false⟩, rest.dropWhile isNameRest)
      else none
  | [] => none

/-! ## Quoted texts -/

def hexDigit? (c : Char) : Option Nat :=
  if '0' ≤ c && c ≤ '9' then some (c.toNat - '0'.toNat)
  else if 'a' ≤ c && c ≤ 'f' then some (c.toNat - 'a'.toNat + 10)
  else if 'A' ≤ c && c ≤ 'F' then some (c.toNat - 'A'.toNat + 10)
  else none

def escape? : Char → Option Char
  | '\'' => some '\''
  | '"' => some '"'
  | '\\' => some '\\'
  | 'n' => some '\n'
  | 'r' => some '\r'
  | 't' => some '\t'
  | '0' => some (Char.ofNat 0)
  | _ => none

def prepend {α : Type} (first : α) : Option (List α × List Char) → Option (List α × List Char)
  | some (others, rest) => some (first :: others, rest)
  | none => none

/-- Reads up to the closing mark.  Inside a code point escape, `pending` holds the number read so
far and how many digits it has. -/
def quoted (close : Char) (pending : Option (Nat × Nat)) : Reader (List Char)
  | [] => none
  | c :: rest =>
      match pending with
      | some (code, digits) =>
          if c = '}' then
            if digits = 0 || !decide code.isValidChar then none
            else prepend (Char.ofNat code) (quoted close none rest)
          else if digits < 6 then
            match hexDigit? c with
            | some digit => quoted close (some (16 * code + digit, digits + 1)) rest
            | none => none
          else none
      | none =>
          if c = close then some ([], rest)
          else if c = '\\' then
            match rest with
            | 'x' :: high :: low :: rest =>
                match hexDigit? high, hexDigit? low with
                | some high, some low =>
                    prepend (Char.ofNat (16 * high + low)) (quoted close none rest)
                | _, _ => none
            | 'u' :: '{' :: rest => quoted close (some (0, 0)) rest
            | c :: rest =>
                match escape? c with
                | some char => prepend char (quoted close none rest)
                | none => none
            | [] => none
          else prepend c (quoted close none rest)

/-- Reads up to the first quotation mark that `hashes` hash marks follow. -/
def rawQuoted (hashes : Nat) : Reader (List Char)
  | [] => none
  | c :: rest =>
      if c = '"' && (List.replicate hashes '#').isPrefixOf rest then some ([], rest.drop hashes)
      else prepend c (rawQuoted hashes rest)

/-- Reads a raw text behind its letter `r`. -/
def rawText : Reader (List Char) := fun chars =>
  match chars.dropWhile (· == '#') with
  | '"' :: rest => rawQuoted (chars.takeWhile (· == '#')).length rest
  | _ => none

/-! ## Numbers -/

def isIntegerChar (c : Char) : Bool := (hexDigit? c).isSome || c == '_'
def isFloatChar (c : Char) : Bool :=
  c.isDigit || c == '.' || c == 'e' || c == 'E' || c == '+' || c == '-'

/-- The base that the start of a number announces, and the digits behind it. -/
def takeBase : List Char → Nat × List Char
  | '0' :: 'x' :: rest => (16, rest)
  | '0' :: 'b' :: rest => (2, rest)
  | '0' :: 'o' :: rest => (8, rest)
  | chars => (10, chars)

/-- The value of digits in a base, where underscores count for nothing. -/
def digitsValue? (base value : Nat) : List Char → Option Nat
  | [] => some value
  | c :: rest =>
      if c = '_' then digitsValue? base value rest
      else
        match hexDigit? c with
        | some digit => if digit < base then digitsValue? base (base * value + digit) rest else none
        | none => none

/-- Reads an integer between two bounds. -/
def integer (low high : Int) : Reader Int := fun chars =>
  let (negative, unsigned) := Decimal.takeSign chars
  let (base, rest) := takeBase unsigned
  let digits := rest.takeWhile isIntegerChar
  if digits.isEmpty || digits.head? == some '_' then none
  else
    match digitsValue? base 0 digits with
    | some magnitude =>
        let number := Decimal.signed negative magnitude
        if low ≤ number && number ≤ high then some (number, rest.dropWhile isIntegerChar) else none
    | none => none

/-- Reads the text of a number with a point or an exponent. -/
def floatText : Reader String := fun chars =>
  let text := chars.takeWhile isFloatChar
  if (Decimal.read? text).isSome then some (String.ofList text, chars.dropWhile isFloatChar)
  else none

def integerText (low high : Int) : Reader String := fun chars =>
  match integer low high chars with
  | some (_, rest) => some (String.ofList (chars.take (chars.length - rest.length)), rest)
  | none => none

/-- Reads the text of an unnamed number: an integer of 64 bits if it looks like one, or else a
number with a point or an exponent. -/
def digitsText : Reader String := fun chars =>
  let unsigned := (Decimal.takeSign chars).2
  let isSigned := unsigned.length < chars.length
  if (unsigned.takeWhile isIntegerChar).length < (unsigned.takeWhile isFloatChar).length then
    floatText chars
  else
    match (if isSigned then integerText (-0x8000000000000000) 0x7fffffffffffffff chars
      else integerText 0 0xffffffffffffffff chars) with
    | some found => some found
    | none => floatText chars

/-- The numbers that have names. -/
def numberNames : List String := ["inf", "NaN"]

/-- Reads a sign with the name of a number behind it. -/
def signedName : Reader String
  | sign :: rest =>
      if sign = '+' ∨ sign = '-' then
        match name rest with
        | some (found, rest) =>
            if found.raw = false ∧ found.text ∈ numberNames then
              some (String.singleton sign ++ found.text, rest)
            else none
        | none => none
      else none
  | [] => none

/-- Reads the text of a number, unless it is a name without a sign. -/
def numberText : Reader String := fun chars =>
  match signedName chars with
  | some found => some found
  | none => digitsText chars

end SensoryProse.Ron
