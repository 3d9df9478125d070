import SensoryProse.Language.Basic
import SensoryProse.Lexicon.Basic
import SensoryProse.Narrator.Config
import SensoryProse.Ron.Decode
import SensoryProse.Ron.Reading
import SensoryProse.Text.Blank

/-!
# Language packs, word lists and settings

The three kinds of text that are read from files.  A text is malformed if it is not in the
notation or does not hold a value of the kind that is wanted.  A language pack must have a name
that is not blank.
-/

namespace SensoryProse

open Ron Ron.Value

/-- An order of modification has 16 bits. -/
def Ron.asOrder : Value → Option Int := asInteger (-0x8000) 0x7fff

/-- A rating of tone has 32 bits. -/
def Ron.asRating : Value → Option Int := asInteger (-0x80000000) 0x7fffffff

/-- Where the fields of a rule may be absent. -/
def Rule.place : Place :=
  .withOptional ["from_type", "from_role", "tense", "perspective", "specific_word", "add_prefix",
    "add_suffix", "needs_article", "modification_order", "alters_sentence", "listable"]

def Rule.decode (lenient : Bool) (value : Value) : Option Rule := do
  let fields ← value.asRecord "WordRule"
  some
    { wordClass := ← fieldOr fields "from_type" none (asOption lenient asNamed)
      role := ← fieldOr fields "from_role" none (asOption lenient asNamed)
      semantics := ← fieldOr fields "from_semantics" "" asText
      beginnings := ← fieldOr fields "from_begins_with" "" asText
      endings := ← fieldOr fields "from_ends_with" "" asText
      tense := ← fieldOr fields "tense" none (asOption lenient asNamed)
      perspective := ← fieldOr fields "perspective" none (asOption lenient asNamed)
      plural := ← fieldOr fields "when_plural" false asFlag
      possessive := ← fieldOr fields "when_possessive" false asFlag
      positional := ← fieldOr fields "when_positional" false asFlag
      word := ← fieldOr fields "specific_word" none (asOption lenient asText)
      beforeWord := ← fieldOr fields "add_prefix" none (asOption lenient asText)
      afterWord := ← fieldOr fields "add_suffix" none (asOption lenient asText)
      article := ← fieldOr fields "needs_article" none (asOption lenient asFlag)
      order := ← fieldOr fields "modification_order" none (asOption lenient asOrder)
      kind := ← fieldOr fields "alters_sentence" none (asOption lenient asNamed)
      listable := ← fieldOr fields "listable" none (asOption lenient asFlag) }

def Contraction.decode (value : Value) : Option Contraction := do
  let fields ← value.asRecord "ContractionRule"
  some
    { first := ← requiredField fields "first" asText
      second := ← requiredField fields "second" asText
      result := ← requiredField fields "contraction" asText }

def Language.place : Place :=
  .record fun key => if key = "rules" then .list Rule.place else .any

def Language.decode (lenient : Bool) (value : Value) : Option Language := do
  let fields ← value.asRecord "Language"
  some
    { name := ← requiredField fields "name" asText
      rules := ← fieldOr fields "rules" [] (asList (Rule.decode lenient))
      contractions := ← fieldOr fields "contractions" [] (asList Contraction.decode) }

/-- Where the fields of a sense may be absent. -/
def Sense.place : Place := .withOptional ["tense", "perspective", "language"]

def Sense.decode (lenient : Bool) (value : Value) : Option Sense := do
  let fields ← value.asRecord "Dictata"
  some
    { name := ← requiredField fields "name" asText
      wordClass := ← requiredField fields "word_type" asNamed
      lexeme := ← fieldOr fields "lexeme" "" asText
      semantics := ← fieldOr fields "semantics" .empty asTags
      elegance := ← fieldOr fields "elegance" 0 asRating
      severity := ← fieldOr fields "severity" 0 asRating
      quality := ← fieldOr fields "quality" 0 asRating
      tense := ← fieldOr fields "tense" none (asOption lenient asNamed)
      perspective := ← fieldOr fields "perspective" none (asOption lenient asNamed)
      plural := ← fieldOr fields "plural" false asFlag
      possessive := ← fieldOr fields "possessive" false asFlag
      determinant := ← fieldOr fields "determinant" false asFlag
      language := ← fieldOr fields "language" none (asOption lenient asText) }

def Config.decode (value : Value) : Option Config := do
  let fields ← value.asRecord "RenderConfig"
  let standard : Config := {}
  some
    { baseLanguage := ← fieldOr fields "base_language" standard.baseLanguage asText
      baselineEmission :=
        ← fieldOr fields "baseline_emission" standard.baselineEmission asFloat
      anonymize := ← fieldOr fields "anonymize" standard.anonymize asFlag }

inductive LanguageError where
  | malformed
  | unnamed
  deriving DecidableEq, Repr

/-- A language pack in object notation, whatever its name is. -/
def Language.parse? (text : String) : Option Language :=
  (document? Language.place text).bind fun found => Language.decode found.lenient found.value

def Language.parse (text : String) : Except LanguageError Language :=
  match Language.parse? text with
  | none => .error .malformed
  | some language => if Text.isBlankText language.name then .error .unnamed else .ok language

/-- The senses of a word list. -/
def Lexicon.parseSenses? (text : String) : Option (List Sense) :=
  (document? (.list Sense.place) text).bind fun found =>
    found.value.asList (Sense.decode found.lenient)

def Lexicon.parse? (text : String) (seed : UInt64) : Option Lexicon :=
  (Lexicon.parseSenses? text).map fun senses => .ofSenses senses seed

def Config.parse? (text : String) : Option Config :=
  (document? .any text).bind fun found => Config.decode found.value

end SensoryProse
