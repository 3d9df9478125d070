import SensoryProse.Proofs.Language.Reading

/-!
# Writing language packs

Every language is spelled by some text if its orders of modification have 16 bits, so that whatever
holds of the reading of packs is said of all of them.
-/

namespace SensoryProse

namespace Ron

variable {α : Type} {depth : Nat} {value : Value}

/-! ## Values that some text spells -/

def Writable (depth : Nat) (value : Value) : Prop := ∃ chars, Written depth value chars

theorem exists_quotes (content : List Char) : ∃ chars, Quotes '"' content chars := by
  induction content with
  | nil => exact ⟨[], .nil⟩
  | cons c content ih =>
      obtain ⟨chars, written⟩ := ih
      by_cases isMark : c = '"' ∨ c = '\\'
      · have escaped : (c, c) ∈ escapes := by rcases isMark with rfl | rfl <;> decide
        exact ⟨_, .escape escaped written⟩
      · rw [not_or] at isMark
        exact ⟨_, .char isMark.1 isMark.2 written⟩

theorem writable_text (text : String) : Writable (depth + 2) (.text text) := by
  obtain ⟨chars, written⟩ := exists_quotes text.toList
  have form : Written (depth + 2) (.text (String.ofList text.toList)) _ := .of_form (.text written)
  rw [String.ofList_toList] at form
  exact ⟨_, form⟩

theorem writable_flag (holds : Bool) : Writable (depth + 2) (.flag holds) := by
  cases holds with
  | true => exact ⟨"true".toList, .of_form (.name (.plain (by decide) (by decide)) .yes)⟩
  | false => exact ⟨"false".toList, .of_form (.name (.plain (by decide) (by decide)) .no)⟩

theorem writable_absent : Writable (depth + 2) .absent :=
  ⟨"None".toList, .of_form (.name (.plain (by decide) (by decide)) .absent)⟩

/-- Letters, digits and underscores that begin with no digit. -/
def isPlainName (word : String) : Bool :=
  match word.toList with
  | c :: rest => isNameStart c && rest.all isNameRest
  | [] => false

theorem nameText_of_plain {word : String} (plain : isPlainName word = true) :
    NameText ⟨word, false⟩ word.toList := by
  rw [isPlainName] at plain
  split at plain
  case h_1 c rest split =>
    rw [Bool.and_eq_true] at plain
    have spelled : NameText ⟨String.ofList (c :: rest), false⟩ (c :: rest) :=
      .plain plain.1 plain.2
    rwa [← split, String.ofList_toList] at spelled
  case h_2 => cases plain

theorem writable_word {word : String} (plain : isPlainName word = true) (free : word ∉ reserved) :
    Writable (depth + 2) (.word word) :=
  ⟨_, .of_form (.name (nameText_of_plain plain) (.word (.inr free)))⟩

theorem exists_separated {close : Char} {spelled : α → List Char → Prop} {values : List α}
    (each : ∀ value ∈ values, ∃ chars, spelled value chars) :
    ∃ chars, Separated close spelled values chars := by
  induction values with
  | nil => exact ⟨_, .nil .nil⟩
  | cons value values ih =>
      obtain ⟨chars, first⟩ := each value List.mem_cons_self
      obtain ⟨others, later⟩ := ih fun value member => each value (List.mem_cons_of_mem _ member)
      exact ⟨_, .cons .nil first .nil later⟩

theorem writable_present (inner : Writable (depth + 1) value) :
    Writable (depth + 2) (.present value) := by
  obtain ⟨chars, written⟩ := inner
  exact ⟨_, .of_form (.present .nil (.last .nil written .nil))⟩

theorem writable_list {values : List Value} (each : ∀ value ∈ values, Writable depth value) :
    Writable (depth + 2) (.list values) := by
  obtain ⟨chars, items⟩ := exists_separated each
  exact ⟨_, .of_form (.list rfl items)⟩

theorem writable_record {fields : List (String × Value)} (filled : fields ≠ [])
    (named : ∀ field ∈ fields, isPlainName field.1 = true)
    (each : ∀ field ∈ fields, Writable depth field.2) :
    Writable (depth + 2) (.record none fields) := by
  have spelled : ∀ field ∈ fields, ∃ chars, FieldText (Written depth) field chars := by
    intro field member
    obtain ⟨chars, written⟩ := each field member
    exact ⟨_, .plain (nameText_of_plain (named field member)) written⟩
  obtain ⟨chars, items⟩ := exists_separated spelled
  exact ⟨_, .of_form (.record rfl .none items filled)⟩

/-! ## Integers -/

theorem exists_numeral {digits : List Nat} (small : ∀ digit ∈ digits, digit < 10) :
    ∃ marks, Numeral 10 digits marks ∧ marks.length = digits.length
      ∧ marks.head? ≠ some '_' := by
  induction digits with
  | nil => exact ⟨[], .nil, rfl, by simp⟩
  | cons digit digits ih =>
      obtain ⟨marks, numeral, length, -⟩ := ih fun digit member =>
        small digit (List.mem_cons_of_mem _ member)
      have all : ∀ digit < 10, ∃ entry ∈ hexDigits, entry.2 = digit ∧ entry.1 ≠ '_' := by decide
      obtain ⟨⟨mark, _⟩, known, rfl, other⟩ := all digit (small digit List.mem_cons_self)
      exact ⟨mark :: marks, .digit known (small _ List.mem_cons_self) numeral, by simp [length],
        by simpa using other⟩

/-- The digits of a number behind a zero, so that there is a digit also where the number is zero. -/
theorem exists_integerText (number : Int) : ∃ digits, IntegerText number digits := by
  have small : ∀ digit ∈ 0 :: (Nat.digits 10 number.natAbs).reverse, digit < 10 := by
    intro digit member
    rcases List.mem_cons.mp member with rfl | member
    · decide
    · exact Nat.digits_lt_base (by decide) (List.mem_reverse.mp member)
  have value : Nat.ofDigits 10 (0 :: (Nat.digits 10 number.natAbs).reverse).reverse
      = number.natAbs := by
    simp [Nat.ofDigits_append, Nat.ofDigits_digits]
  obtain ⟨marks, numeral, length, first⟩ := exists_numeral small
  have filled : marks ≠ [] := by
    rintro rfl
    simp at length
  have decimal : (10, []) ∈ bases := by decide
  by_cases below : number < 0
  · have minus : (true, ['-']) ∈ signs := by decide
    have spelled := IntegerText.intro minus decimal numeral filled first
    have same : -(number.natAbs : Int) = number := by omega
    rw [value, Decimal.signed, if_pos rfl, same] at spelled
    exact ⟨_, spelled⟩
  · have none : (false, []) ∈ signs := by decide
    have spelled := IntegerText.intro none decimal numeral filled first
    have same : (number.natAbs : Int) = number := by omega
    rw [value, Decimal.signed, if_neg Bool.false_ne_true, same] at spelled
    exact ⟨_, spelled⟩

theorem writable_number {number : Int} {digits : List Char} (spelled : IntegerText number digits)
    (least : -0x8000 ≤ number) (most : number ≤ 0x7fff) :
    Writable (depth + 2) (.number (String.ofList digits)) :=
  ⟨_, .of_form (.number (.integer spelled (.inl ⟨by omega, by omega⟩)))⟩

/-! ## What some value and some text spell -/

def Spellable (depth : Nat) (spells : Value → Prop) : Prop :=
  ∃ value, spells value ∧ Writable depth value

theorem spellable_text (text : String) : Spellable (depth + 2) (SpellsText text) :=
  ⟨_, rfl, writable_text text⟩

theorem spellable_flag (holds : Bool) : Spellable (depth + 2) (SpellsFlag holds) :=
  ⟨_, rfl, writable_flag holds⟩

theorem spellable_integer {low high number : Int} (least : low ≤ number) (most : number ≤ high)
    (fits : -0x8000 ≤ low ∧ high ≤ 0x7fff) :
    Spellable (depth + 2) (SpellsInteger low high number) := by
  obtain ⟨digits, spelled⟩ := exists_integerText number
  exact ⟨_, ⟨least, most, digits, spelled, rfl⟩, writable_number spelled (by omega) (by omega)⟩

/-- Every alternative has a name that may stand as a word, or that of a value that is absent. -/
def PlainNames (α : Type) [Named α] : Prop :=
  ∀ alternative : α, isPlainName (Named.name alternative) = true
    ∧ (Named.name alternative = "None" ∨ Named.name alternative ∉ reserved)

theorem spellable_named [Named α] (plain : PlainNames α) (alternative : α) :
    Spellable (depth + 2) (SpellsNamed alternative) := by
  obtain ⟨plain, none | free⟩ := plain alternative
  · exact ⟨.absent, .inr ⟨none, rfl⟩, writable_absent⟩
  · exact ⟨_, .inl rfl, writable_word plain free⟩

theorem spellable_option {spells : α → Value → Prop} {content : Option α}
    (each : ∀ inner ∈ content, Spellable (depth + 1) (spells inner)) :
    Spellable (depth + 2) (SpellsOption false spells content) := by
  cases content with
  | none => exact ⟨.absent, .absent, writable_absent⟩
  | some inner =>
      obtain ⟨value, spelled, written⟩ := each inner rfl
      exact ⟨.present value, .present spelled, writable_present written⟩

theorem spellable_list {spells : α → Value → Prop} {contents : List α}
    (each : ∀ content ∈ contents, Spellable depth (spells content)) :
    Spellable (depth + 2) (SpellsList spells contents) := by
  have values : ∃ values, List.Forall₂ spells contents values
      ∧ ∀ value ∈ values, Writable depth value := by
    induction contents with
    | nil => exact ⟨[], .nil, by simp⟩
    | cons content contents ih =>
        obtain ⟨value, spelled, written⟩ := each content List.mem_cons_self
        obtain ⟨values, spelledAll, writtenAll⟩ := ih fun content member =>
          each content (List.mem_cons_of_mem _ member)
        refine ⟨value :: values, .cons spelled spelledAll, ?_⟩
        simpa [written] using writtenAll
  obtain ⟨values, spelled, written⟩ := values
  exact ⟨_, .intro spelled, writable_list written⟩

/-- Where the names of fields are distinct each field is given once. -/
theorem given_of_mem {fields : List (String × Value)} (distinct : (fields.map Prod.fst).Nodup)
    {key : String} {spells : Value → Prop} (member : (key, value) ∈ fields)
    (spelled : spells value) : Given fields key spells := by
  obtain ⟨before, behind, rfl⟩ := List.append_of_mem member
  refine ⟨before, value, behind, rfl, ?_, spelled⟩
  have apart : key ∉ (before ++ behind).map Prod.fst := by
    have moved := List.perm_middle.map Prod.fst |>.nodup_iff.mp distinct
    exact (List.nodup_cons.mp moved).1
  rintro other inside rfl
  exact apart (List.mem_map_of_mem inside)

/-- Where the values of all fields are spellable, some text spells a record that gives each field
once. -/
theorem exists_record {wanted : List (String × (Value → Prop))} (filled : wanted ≠ [])
    (distinct : (wanted.map Prod.fst).Nodup)
    (plain : ∀ key ∈ wanted.map Prod.fst, isPlainName key = true)
    (each : ∀ field ∈ wanted, Spellable depth field.2) :
    ∃ fields, Writable (depth + 2) (.record none fields)
      ∧ ∀ field ∈ wanted, Given fields field.1 field.2 := by
  have found : ∃ fields : List (String × Value), fields.map Prod.fst = wanted.map Prod.fst
      ∧ (∀ field ∈ wanted, ∃ value, (field.1, value) ∈ fields ∧ field.2 value)
      ∧ ∀ field ∈ fields, Writable depth field.2 := by
    clear filled distinct plain
    induction wanted with
    | nil => exact ⟨[], rfl, by simp, by simp⟩
    | cons first wanted ih =>
        obtain ⟨value, spelled, written⟩ := each first List.mem_cons_self
        obtain ⟨fields, keys, values, writtenAll⟩ := ih fun field member =>
          each field (List.mem_cons_of_mem _ member)
        refine ⟨(first.1, value) :: fields, by simp [keys], ?_, ?_⟩
        · intro field member
          rcases List.mem_cons.mp member with rfl | later
          · exact ⟨value, List.mem_cons_self, spelled⟩
          · obtain ⟨value, inside, spelled⟩ := values field later
            exact ⟨value, List.mem_cons_of_mem _ inside, spelled⟩
        · simpa [written] using writtenAll
  obtain ⟨fields, keys, values, written⟩ := found
  rw [← keys] at distinct plain
  refine ⟨fields, writable_record ?_ ?_ written, fun field member => ?_⟩
  · rintro rfl
    exact filled (by simpa using keys.symm)
  · exact fun field member => plain field.1 (List.mem_map_of_mem member)
  · obtain ⟨value, inside, spelled⟩ := values field member
    exact given_of_mem distinct inside spelled

end Ron

open Ron

/-! ## Languages -/

theorem plainNames_wordClass : PlainNames WordClass := by
  rintro ⟨⟩ <;> decide

theorem plainNames_role : PlainNames Role := by
  rintro ⟨⟩ <;> decide

theorem plainNames_tense : PlainNames Tense := by
  rintro ⟨⟩ <;> decide

theorem plainNames_perspective : PlainNames Perspective := by
  rintro ⟨⟩ <;> decide

theorem plainNames_clauseKind : PlainNames ClauseKind := by
  rintro ⟨⟩ <;> decide

/-- Whether the order of modification that a rule sets, if any, has 16 bits. -/
def Rule.HasSmallOrder (rule : Rule) : Prop :=
  ∀ order ∈ rule.order, -0x8000 ≤ order ∧ order ≤ 0x7fff

/-- What is wanted of the fields of a rule. -/
def Rule.wanted (rule : Rule) : List (String × (Value → Prop)) :=
  [("from_type", SpellsOption false SpellsNamed rule.wordClass),
    ("from_role", SpellsOption false SpellsNamed rule.role),
    ("from_semantics", SpellsText rule.semantics),
    ("from_begins_with", SpellsText rule.beginnings),
    ("from_ends_with", SpellsText rule.endings),
    ("tense", SpellsOption false SpellsNamed rule.tense),
    ("perspective", SpellsOption false SpellsNamed rule.perspective),
    ("when_plural", SpellsFlag rule.plural),
    ("when_possessive", SpellsFlag rule.possessive),
    ("when_positional", SpellsFlag rule.positional),
    ("specific_word", SpellsOption false SpellsText rule.word),
    ("add_prefix", SpellsOption false SpellsText rule.beforeWord),
    ("add_suffix", SpellsOption false SpellsText rule.afterWord),
    ("needs_article", SpellsOption false SpellsFlag rule.article),
    ("modification_order", SpellsOption false SpellsOrder rule.order),
    ("alters_sentence", SpellsOption false SpellsNamed rule.kind),
    ("listable", SpellsOption false SpellsFlag rule.listable)]

theorem Rule.wanted_spellable {depth : Nat} {rule : Rule} (small : rule.HasSmallOrder) :
    ∀ field ∈ rule.wanted, Spellable (depth + 3) field.2 := by
  have named {α : Type} [Named α] (plain : PlainNames α) (content : Option α) :
      Spellable (depth + 3) (SpellsOption false SpellsNamed content) :=
    spellable_option fun inner _ => spellable_named plain inner
  have text (content : Option String) :
      Spellable (depth + 3) (SpellsOption false SpellsText content) :=
    spellable_option fun inner _ => spellable_text inner
  have flag (content : Option Bool) :
      Spellable (depth + 3) (SpellsOption false SpellsFlag content) :=
    spellable_option fun inner _ => spellable_flag inner
  have order : Spellable (depth + 3) (SpellsOption false SpellsOrder rule.order) :=
    spellable_option fun inner sets =>
      spellable_integer (small inner sets).1 (small inner sets).2 (by decide)
  simp only [Rule.wanted, List.forall_mem_cons]
  exact ⟨named plainNames_wordClass _, named plainNames_role _, spellable_text _,
    spellable_text _, spellable_text _, named plainNames_tense _, named plainNames_perspective _,
    spellable_flag _, spellable_flag _, spellable_flag _, text _, text _, text _, flag _, order,
    named plainNames_clauseKind _, flag _, by simp⟩

theorem Rule.spellable {depth : Nat} {rule : Rule} (small : rule.HasSmallOrder) :
    Spellable (depth + 5) (rule.SpelledBy false) := by
  have each : ∀ field ∈ rule.wanted, Spellable (depth + 3) field.2 := wanted_spellable small
  have plain : ∀ key ∈ rule.wanted.map Prod.fst, isPlainName key = true := by
    simp only [Rule.wanted, List.map_cons, List.map_nil]
    decide
  obtain ⟨fields, written, given⟩ :=
    exists_record (by simp [Rule.wanted]) (by simp [Rule.wanted]) plain each
  simp only [Rule.wanted, List.forall_mem_cons] at given
  obtain ⟨wordClass, role, semantics, beginnings, endings, tense, perspective, plural, possessive,
    positional, word, beforeWord, afterWord, article, order, kind, listable, -⟩ := given
  exact ⟨_, ⟨fields, .fields (by simp),
    { wordClass := .inl wordClass
      role := .inl role
      semantics := .inl semantics
      beginnings := .inl beginnings
      endings := .inl endings
      tense := .inl tense
      perspective := .inl perspective
      plural := .inl plural
      possessive := .inl possessive
      positional := .inl positional
      word := .inl word
      beforeWord := .inl beforeWord
      afterWord := .inl afterWord
      article := .inl article
      order := .inl order
      kind := .inl kind
      listable := .inl listable }⟩, written⟩

theorem Contraction.spellable {depth : Nat} (rule : Contraction) :
    Spellable (depth + 4) rule.SpelledBy := by
  have each : ∀ field ∈ [("first", SpellsText rule.first), ("second", SpellsText rule.second),
      ("contraction", SpellsText rule.result)], Spellable (depth + 2) field.2 := by
    simp only [List.forall_mem_cons]
    exact ⟨spellable_text _, spellable_text _, spellable_text _, by simp⟩
  obtain ⟨fields, written, given⟩ := exists_record (by simp) (by simp) (by simp; decide) each
  simp only [List.forall_mem_cons] at given
  obtain ⟨first, second, result, -⟩ := given
  exact ⟨_, ⟨fields, .fields (by simp), { first, second, result }⟩, written⟩

/-- Some text spells a language if its orders of modification have 16 bits. -/
theorem Language.exists_spelled {language : Language}
    (small : ∀ rule ∈ language.rules, rule.HasSmallOrder) : ∃ text, language.Spelled text := by
  have rules : Spellable 126 (SpellsList (Rule.SpelledBy false) language.rules) :=
    spellable_list fun rule member => Rule.spellable (small rule member)
  have contractions : Spellable 126 (SpellsList Contraction.SpelledBy language.contractions) :=
    spellable_list fun rule _ => rule.spellable
  have each : ∀ field ∈ [("name", SpellsText language.name),
      ("rules", SpellsList (Rule.SpelledBy false) language.rules),
      ("contractions", SpellsList Contraction.SpelledBy language.contractions)],
      Spellable 126 field.2 := by
    simp only [List.forall_mem_cons]
    exact ⟨spellable_text _, rules, contractions, by simp⟩
  obtain ⟨fields, ⟨chars, written⟩, given⟩ :=
    exists_record (by simp) (by simp) (by simp; decide) each
  simp only [List.forall_mem_cons] at given
  obtain ⟨name, rules, contractions, -⟩ := given
  have spells : language.SpelledBy false (.record none fields) :=
    ⟨fields, .fields (by simp), { name, rules := .inl rules, contractions := .inl contractions }⟩
  have document : DocumentText false (.record none fields) _ :=
    .intro .nil .none written (.ended .nil)
  exact ⟨_, spelled_of_text document rfl spells⟩

end SensoryProse
