import SensoryProse.Proofs.Ron.Decoding
import SensoryProse.Proofs.Ron.Documents
import SensoryProse.Ron.Records

/-!
# Reading language packs

Which values and texts spell a language, and that each such text gives the language back, or the
error for a language without a name if its name is blank.

The notation is not derived from anything else.  Its rules are taken for granted as `document?` and
the decoders have them:

- A gap is made of blanks, line comments and block comments that nest.  It may stand between any two
  tokens, and nothing but a gap stands behind the value of a text.
- Behind the attribute for `implicit_some` a value that is present may stand by itself in the place
  of an option.  Elsewhere it stands in parentheses behind `Some`, and `None` is written for none.
- Commas stand between items, and one may stand behind the last of them.
- A record bears the name of its type or none.  Its fields are known by their names and stand in any
  order, a known one at most once, and one with a default may be left out.  The value of a field
  that is not known has to be a value of the notation and is passed over.
- An alternative is written as its bare name.
- A text is quoted with the escapes of `Quotes`, or raw between as many hash marks as are needed.
- An integer has the signs, bases and underscores of `IntegerText`.  An order of modification has 16
  bits, and a number of which nothing is known 64 unless it has a point or an exponent.
- Values nest at most `nestingLimit` levels.

Nothing is said here of texts that spell no language.
-/

namespace SensoryProse

open Ron

/-! ## Rules -/

namespace Rule

/-- An order of modification has 16 bits. -/
def SpellsOrder : Int → Value → Prop := SpellsInteger (-0x8000) 0x7fff

theorem readAs_order : ReadAs SpellsOrder asOrder := readAs_integer _ _

/-- The fields that spell a rule.  Each may be left out where the rule has its default. -/
structure FieldsSpell (lenient : Bool) (rule : Rule) (fields : List (String × Value)) : Prop where
  wordClass : GivenOr fields "from_type" none rule.wordClass (SpellsOption lenient SpellsNamed)
  role : GivenOr fields "from_role" none rule.role (SpellsOption lenient SpellsNamed)
  semantics : GivenOr fields "from_semantics" "" rule.semantics SpellsText
  beginnings : GivenOr fields "from_begins_with" "" rule.beginnings SpellsText
  endings : GivenOr fields "from_ends_with" "" rule.endings SpellsText
  tense : GivenOr fields "tense" none rule.tense (SpellsOption lenient SpellsNamed)
  perspective : GivenOr fields "perspective" none rule.perspective
    (SpellsOption lenient SpellsNamed)
  plural : GivenOr fields "when_plural" false rule.plural SpellsFlag
  possessive : GivenOr fields "when_possessive" false rule.possessive SpellsFlag
  positional : GivenOr fields "when_positional" false rule.positional SpellsFlag
  word : GivenOr fields "specific_word" none rule.word (SpellsOption lenient SpellsText)
  beforeWord : GivenOr fields "add_prefix" none rule.beforeWord (SpellsOption lenient SpellsText)
  afterWord : GivenOr fields "add_suffix" none rule.afterWord (SpellsOption lenient SpellsText)
  article : GivenOr fields "needs_article" none rule.article (SpellsOption lenient SpellsFlag)
  order : GivenOr fields "modification_order" none rule.order
    (SpellsOption lenient SpellsOrder)
  kind : GivenOr fields "alters_sentence" none rule.kind (SpellsOption lenient SpellsNamed)
  listable : GivenOr fields "listable" none rule.listable (SpellsOption lenient SpellsFlag)

def SpelledBy (lenient : Bool) (rule : Rule) (value : Value) : Prop :=
  ∃ fields, SpellsRecord "WordRule" fields value ∧ rule.FieldsSpell lenient fields

theorem distinctNames_wordClass : DistinctNames WordClass := by
  rintro ⟨⟩ <;> decide

theorem distinctNames_role : DistinctNames Role := by
  rintro ⟨⟩ <;> decide

theorem distinctNames_tense : DistinctNames Tense := by
  rintro ⟨⟩ <;> decide

theorem distinctNames_perspective : DistinctNames Perspective := by
  rintro ⟨⟩ <;> decide

theorem distinctNames_clauseKind : DistinctNames ClauseKind := by
  rintro ⟨⟩ <;> decide

theorem decode_of_spelledBy {lenient : Bool} {rule : Rule} {value : Value}
    (spelled : rule.SpelledBy lenient value) : Rule.decode lenient value = some rule := by
  obtain ⟨fields, record, each⟩ := spelled
  rw [Rule.decode, record.asRecord_eq, Option.bind_eq_bind, Option.bind_some,
    each.wordClass.fieldOr_eq (readAs_option (readAs_named distinctNames_wordClass)).decode_eq,
    each.role.fieldOr_eq (readAs_option (readAs_named distinctNames_role)).decode_eq,
    each.semantics.fieldOr_eq readAs_text.decode_eq,
    each.beginnings.fieldOr_eq readAs_text.decode_eq,
    each.endings.fieldOr_eq readAs_text.decode_eq,
    each.tense.fieldOr_eq (readAs_option (readAs_named distinctNames_tense)).decode_eq,
    each.perspective.fieldOr_eq (readAs_option (readAs_named distinctNames_perspective)).decode_eq,
    each.plural.fieldOr_eq readAs_flag.decode_eq,
    each.possessive.fieldOr_eq readAs_flag.decode_eq,
    each.positional.fieldOr_eq readAs_flag.decode_eq,
    each.word.fieldOr_eq (readAs_option readAs_text).decode_eq,
    each.beforeWord.fieldOr_eq (readAs_option readAs_text).decode_eq,
    each.afterWord.fieldOr_eq (readAs_option readAs_text).decode_eq,
    each.article.fieldOr_eq (readAs_option readAs_flag).decode_eq,
    each.order.fieldOr_eq (readAs_option readAs_order).decode_eq,
    each.kind.fieldOr_eq (readAs_option (readAs_named distinctNames_clauseKind)).decode_eq,
    each.listable.fieldOr_eq (readAs_option readAs_flag).decode_eq]
  rfl

/-- In the fields of a rule that may be absent no value begins like one that is present. -/
theorem suits_of_spelledBy {lenient : Bool} {rule : Rule} {value : Value}
    (spelled : rule.SpelledBy lenient value) : Rule.place.Suits value := by
  obtain ⟨fields, record, each⟩ := spelled
  rintro title _ rfl ⟨key, value⟩ member
  cases record
  simp only
  split
  · rename_i isOptional
    simp only [List.contains_eq_mem, decide_eq_true_eq, List.mem_cons, List.not_mem_nil,
      or_false] at isOptional
    rcases isOptional with rfl | rfl | rfl | rfl | rfl | rfl | rfl | rfl | rfl | rfl | rfl
    · exact (readAs_option (readAs_named distinctNames_wordClass)).unlike
        (each.wordClass.of_mem member)
    · exact (readAs_option (readAs_named distinctNames_role)).unlike (each.role.of_mem member)
    · exact (readAs_option (readAs_named distinctNames_tense)).unlike (each.tense.of_mem member)
    · exact (readAs_option (readAs_named distinctNames_perspective)).unlike
        (each.perspective.of_mem member)
    · exact (readAs_option readAs_text).unlike (each.word.of_mem member)
    · exact (readAs_option readAs_text).unlike (each.beforeWord.of_mem member)
    · exact (readAs_option readAs_text).unlike (each.afterWord.of_mem member)
    · exact (readAs_option readAs_flag).unlike (each.article.of_mem member)
    · exact (readAs_option readAs_order).unlike (each.order.of_mem member)
    · exact (readAs_option (readAs_named distinctNames_clauseKind)).unlike
        (each.kind.of_mem member)
    · exact (readAs_option readAs_flag).unlike (each.listable.of_mem member)
  · trivial

end Rule

/-! ## Contractions -/

namespace Contraction

structure FieldsSpell (rule : Contraction) (fields : List (String × Value)) : Prop where
  first : Given fields "first" (SpellsText rule.first)
  second : Given fields "second" (SpellsText rule.second)
  result : Given fields "contraction" (SpellsText rule.result)

def SpelledBy (rule : Contraction) (value : Value) : Prop :=
  ∃ fields, SpellsRecord "ContractionRule" fields value ∧ rule.FieldsSpell fields

theorem decode_of_spelledBy {rule : Contraction} {value : Value}
    (spelled : rule.SpelledBy value) : Contraction.decode value = some rule := by
  obtain ⟨fields, record, each⟩ := spelled
  rw [Contraction.decode, record.asRecord_eq, Option.bind_eq_bind, Option.bind_some,
    each.first.requiredField_eq readAs_text.decode_eq,
    each.second.requiredField_eq readAs_text.decode_eq,
    each.result.requiredField_eq readAs_text.decode_eq]
  rfl

end Contraction

/-! ## Languages -/

namespace Language

structure FieldsSpell (lenient : Bool) (language : Language) (fields : List (String × Value)) :
    Prop where
  name : Given fields "name" (SpellsText language.name)
  rules : GivenOr fields "rules" [] language.rules (SpellsList (Rule.SpelledBy lenient))
  contractions : GivenOr fields "contractions" [] language.contractions
    (SpellsList Contraction.SpelledBy)

def SpelledBy (lenient : Bool) (language : Language) (value : Value) : Prop :=
  ∃ fields, SpellsRecord "Language" fields value ∧ language.FieldsSpell lenient fields

/-- A text spells a language if it spells a value of the notation that does.  Where the text allows
present values to be bare, the values of the language may be. -/
def Spelled (language : Language) (text : String) : Prop :=
  ∃ lenient value, DocumentText lenient value text.toList ∧ language.SpelledBy lenient value

theorem spelled_of_text {lenient : Bool} {language : Language} {value : Value} {text : String}
    {chars : List Char} (written : DocumentText lenient value chars)
    (same : text = String.ofList chars) (spells : language.SpelledBy lenient value) :
    language.Spelled text :=
  ⟨lenient, value, by rwa [same, String.toList_ofList], spells⟩

theorem decode_of_spelledBy {lenient : Bool} {language : Language} {value : Value}
    (spelled : language.SpelledBy lenient value) :
    Language.decode lenient value = some language := by
  obtain ⟨fields, record, each⟩ := spelled
  rw [Language.decode, record.asRecord_eq, Option.bind_eq_bind, Option.bind_some,
    each.name.requiredField_eq readAs_text.decode_eq,
    each.rules.fieldOr_eq (asList_eq fun rule _ spelled => rule.decode_of_spelledBy spelled),
    each.contractions.fieldOr_eq (asList_eq fun rule _ spelled => rule.decode_of_spelledBy spelled)]
  rfl

theorem suits_of_spelledBy {lenient : Bool} {language : Language} {value : Value}
    (spelled : language.SpelledBy lenient value) : Language.place.Suits value := by
  obtain ⟨fields, record, each⟩ := spelled
  rintro title _ rfl ⟨key, value⟩ member
  cases record
  simp only
  split
  · rename_i isRules
    subst isRules
    rintro values rfl item inside
    obtain ⟨rule, spells⟩ := (each.rules.of_mem member).exists_of_mem inside
    exact Rule.suits_of_spelledBy spells
  · trivial

theorem parse?_of_spelled {language : Language} {text : String} (spelled : language.Spelled text) :
    Language.parse? text = some language := by
  obtain ⟨lenient, value, written, spells⟩ := spelled
  have read : document? Language.place text = some { value, lenient } :=
    document?_of_text written (suits_of_spelledBy spells)
  rw [Language.parse?, read]
  exact decode_of_spelledBy spells

/-- No text spells two languages. -/
theorem Spelled.unique {language other : Language} {text : String} (first : language.Spelled text)
    (second : other.Spelled text) : language = other := by
  have same := parse?_of_spelled first
  rw [parse?_of_spelled second] at same
  exact (Option.some.inj same).symm

/-- A text that spells a language is read as that language, unless its name is blank. -/
theorem parse_of_spelled {language : Language} {text : String} (spelled : language.Spelled text) :
    Language.parse text
      = if Text.isBlankText language.name then .error .unnamed else .ok language := by
  rw [Language.parse, parse?_of_spelled spelled]

/-- A pack with bare values, with a field that is not known and with the name behind the rules. -/
def packText : String :=
  "#![enable(implicit_some)]//\n(version:\x7b'v':-0x1F\x7d,rules:[WordRule(tense:Some(Past),"
    ++ "modification_order:-7,add_prefix:r#\"a\"b\"#,),],/*/**/*/name:\"\\u\x7be9\x7d\\n\",)"

def pack : Language where
  name := "é\n"
  rules := [{ tense := some .past, order := some (-7), beforeWord := some "a\"b" }]

def versionValue : Value := .map [(.char 'v', .number "-0x1F")]

def ruleFields : List (String × Value) :=
  [("tense", .present (.word "Past")), ("modification_order", .number "-7"),
    ("add_prefix", .text "a\"b")]

def packFields : List (String × Value) :=
  [("version", versionValue), ("rules", .list [.record (some "WordRule") ruleFields]),
    ("name", .text "é\n")]

theorem written_version : Written 126 versionValue "\x7b'v':-0x1F\x7d".toList := by
  have digits : Numeral 16 [1, 15] "1F".toList :=
    .digit (by decide) (by decide) (.digit (by decide) (by decide) .nil)
  have sign : (true, ['-']) ∈ signs := by decide
  have mark : (16, ['0', 'x']) ∈ bases := by decide
  have integer : IntegerText (-31) "-0x1F".toList :=
    IntegerText.intro sign mark digits (by decide) (by decide)
  have number : Written 124 (.number "-0x1F") "-0x1F".toList :=
    .of_form (.number (.integer integer (.inl (by decide))))
  have letter : Quotes '\'' ['v'] ['v'] := .char (by decide) (by decide) .nil
  have key : Written 124 (.char 'v') _ := .of_form (.char letter)
  have entry : EntryText (Written 124) (.char 'v', .number "-0x1F") _ :=
    EntryText.intro key IsGap.nil IsGap.nil number
  have entries : Separated '}' (EntryText (Written 124)) [(.char 'v', .number "-0x1F")] _ :=
    Separated.last IsGap.nil entry IsGap.nil
  exact (Written.of_form (.map rfl entries)).congr (by decide +kernel)

theorem integerText_order : IntegerText (-7) "-7".toList := by
  have digits : Numeral 10 [7] "7".toList := .digit (by decide) (by decide) .nil
  have sign : (true, ['-']) ∈ signs := by decide
  have mark : (10, []) ∈ bases := by decide
  exact IntegerText.intro sign mark digits (by decide) (by decide)

theorem written_rule : Written 124 (.record (some "WordRule") ruleFields)
    "WordRule(tense:Some(Past),modification_order:-7,add_prefix:r#\"a\"b\"#,)".toList := by
  have past : Written 121 (.word "Past") "Past".toList :=
    .of_form (.name (.plain (by decide) (by decide)) (.word (.inr (by decide))))
  have inside : Separated ')' (Written 121) [.word "Past"] _ :=
    Separated.last IsGap.nil past IsGap.nil
  have tense : Written 122 (.present (.word "Past")) _ :=
    .of_form (Form.present IsGap.nil inside)
  have order : Written 122 (.number "-7") "-7".toList :=
    .of_form (.number (.integer integerText_order (.inl (by decide))))
  have raw : RawText "a\"b".toList _ := @RawText.intro 1 _ (by decide)
  have front : Written 122 (.text "a\"b") _ := .of_form (.rawText raw)
  have fields : Separated ')' (FieldText (Written 122)) ruleFields _ :=
    Separated.cons IsGap.nil (FieldText.plain (.plain (by decide) (by decide)) tense) IsGap.nil
      (Separated.cons IsGap.nil (FieldText.plain (.plain (by decide) (by decide)) order) IsGap.nil
        (Separated.cons IsGap.nil (FieldText.plain (.plain (by decide) (by decide)) front) IsGap.nil
          (Separated.nil IsGap.nil)))
  have named : NameText ⟨"WordRule", false⟩ "WordRule".toList := .plain (by decide) (by decide)
  have heading : Heading (some "WordRule") _ := Heading.some named (.inr (by decide)) IsGap.nil
  exact (Written.of_form (.record rfl heading fields (by decide))).congr (by decide +kernel)

theorem fieldsSpell_ruleFields :
    Rule.FieldsSpell true { tense := some .past, order := some (-7), beforeWord := some "a\"b" }
      ruleFields where
  wordClass := .inr ⟨rfl, by decide⟩
  role := .inr ⟨rfl, by decide⟩
  semantics := .inr ⟨rfl, by decide⟩
  beginnings := .inr ⟨rfl, by decide⟩
  endings := .inr ⟨rfl, by decide⟩
  tense := .inl ⟨[], _, _, rfl, by decide, .present (.inl rfl)⟩
  perspective := .inr ⟨rfl, by decide⟩
  plural := .inr ⟨rfl, by decide⟩
  possessive := .inr ⟨rfl, by decide⟩
  positional := .inr ⟨rfl, by decide⟩
  word := .inr ⟨rfl, by decide⟩
  beforeWord := .inl ⟨ruleFields.take 2, _, [], rfl, by decide, .bare rfl rfl nofun nofun⟩
  afterWord := .inr ⟨rfl, by decide⟩
  article := .inr ⟨rfl, by decide⟩
  order := .inl ⟨ruleFields.take 1, _, ruleFields.drop 2, rfl, by decide,
    .bare rfl ⟨by decide, by decide, _, integerText_order, rfl⟩ nofun nofun⟩
  kind := .inr ⟨rfl, by decide⟩
  listable := .inr ⟨rfl, by decide⟩

theorem spelledBy_packFields : pack.SpelledBy true (.record none packFields) := by
  refine ⟨packFields, .fields (by simp), ?_, ?_, ?_⟩
  · exact ⟨packFields.take 2, _, [], rfl, by decide, rfl⟩
  · refine .inl ⟨packFields.take 1, _, packFields.drop 2, rfl, by decide, .intro ?_⟩
    exact .cons ⟨ruleFields, .fields (by simp), fieldsSpell_ruleFields⟩ .nil
  · exact .inr ⟨rfl, by decide⟩

theorem spelled_pack : pack.Spelled packText := by
  have items : Separated ']' (Written 124) [.record (some "WordRule") ruleFields] _ :=
    Separated.cons IsGap.nil written_rule IsGap.nil (Separated.nil IsGap.nil)
  have rules : Written 126 (.list [.record (some "WordRule") ruleFields]) _ :=
    .of_form (.list rfl items)
  have digits : List.Forall₂ (fun mark digit => (mark, digit) ∈ hexDigits) ['e', '9'] [14, 9] :=
    .cons (by decide) (.cons (by decide) .nil)
  have newline : Quotes '"' ['\n'] ['\\', 'n'] := .escape (by decide) .nil
  have content : Quotes '"' ['é', '\n'] _ :=
    Quotes.point digits (by decide) (by decide) (by decide) newline
  have name : Written 126 (.text "é\n") _ := .of_form (.text content)
  have comment : IsGap "/*/**/*/".toList :=
    IsGap.block (.openInner (.closeInner .close)) IsGap.nil
  have fields : Separated ')' (FieldText (Written 126)) packFields _ :=
    Separated.cons IsGap.nil
      (FieldText.plain (.plain (by decide) (by decide)) written_version) IsGap.nil
      (Separated.cons IsGap.nil (FieldText.plain (.plain (by decide) (by decide)) rules) IsGap.nil
        (Separated.cons comment (FieldText.plain (.plain (by decide) (by decide)) name) IsGap.nil
          (Separated.nil IsGap.nil)))
  have body : Written nestingLimit (.record none packFields) _ :=
    Written.of_form (Form.record rfl Heading.none fields (by decide))
  have line : IsGap "//\n".toList := IsGap.line List.not_mem_nil IsGap.nil
  have names : Separated ')' LeniencyText ["implicit_some"] _ :=
    Separated.last IsGap.nil ⟨rfl, rfl⟩ IsGap.nil
  have header : Header true _ :=
    Header.implicitSome IsGap.nil IsGap.nil IsGap.nil IsGap.nil names IsGap.nil line
  have written : DocumentText true (.record none packFields) _ :=
    DocumentText.intro IsGap.nil header body (IsLastGap.ended IsGap.nil)
  exact spelled_of_text written (by decide +kernel) spelledBy_packFields

theorem parse_packText : pack.Spelled packText ∧ Language.parse packText = .ok pack :=
  ⟨spelled_pack, (parse_of_spelled spelled_pack).trans (if_neg (by decide))⟩

end Language

end SensoryProse
