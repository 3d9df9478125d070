import SensoryProse.Proofs.Ron.Items
import SensoryProse.Proofs.Ron.Numbers

/-!
# Values

The grammar of the notation: which texts spell a value that nests at most a number of levels.  It
says nothing of how a text is read or of the place where a value is wanted.  Every text of the
grammar is read back.
-/

namespace SensoryProse.Ron

variable {chars rest : List Char}

/-! ## Grammar -/

/-- Names that stand for something else than a word if they are not marked as raw. -/
def reserved : List String := ["true", "false", "Some", "None"] ++ numberNames

def Name.IsFree (name : Name) : Prop := name.raw = true ∨ name.text ∉ reserved

/-- What a name by itself stands for. -/
inductive NameValue : Name → Value → Prop where
  | yes : NameValue ⟨"true", false⟩ (.flag true)
  | no : NameValue ⟨"false", false⟩ (.flag false)
  | absent : NameValue ⟨"None", false⟩ .absent
  | number {word : String} : word ∈ numberNames → NameValue ⟨word, false⟩ (.number word)
  | word {name : Name} : name.IsFree → NameValue name (.word name.text)

/-- What stands in front of the parentheses of a tuple or a record that has a name, or has none. -/
inductive Heading : Option String → List Char → Prop where
  | none : Heading none []
  | some {name : Name} {chars space : List Char} :
      NameText name chars → name.IsFree → IsGap space → Heading (some name.text) (chars ++ space)

/-- A value of which `inner` spells the part one level down and `item` that two levels down.  There
are no brackets unless it `opens`. -/
inductive Form (opens : Bool) (inner item : Value → List Char → Prop) :
    Value → List Char → Prop where
  | unit : Form opens inner item .unit ['(', ')']
  | name {found : Name} {value : Value} {chars : List Char} :
      NameText found chars → NameValue found value → Form opens inner item value chars
  | number {chars : List Char} :
      NumberText chars → Form opens inner item (.number (String.ofList chars)) chars
  | text {content chars : List Char} :
      Quotes '"' content chars →
      Form opens inner item (.text (String.ofList content)) ('"' :: (chars ++ ['"']))
  | rawText {content chars : List Char} :
      RawText content chars → Form opens inner item (.text (String.ofList content)) chars
  | char {c : Char} {chars : List Char} :
      Quotes '\'' [c] chars → Form opens inner item (.char c) ('\'' :: (chars ++ ['\'']))
  | present {value : Value} {space chars : List Char} :
      IsGap space → Separated ')' inner [value] chars →
      Form opens inner item (.present value) ("Some".toList ++ (space ++ '(' :: chars))
  | list {values : List Value} {chars : List Char} :
      opens = true → Separated ']' item values chars →
      Form opens inner item (.list values) ('[' :: chars)
  | map {entries : List (Value × Value)} {chars : List Char} :
      opens = true → Separated '}' (EntryText item) entries chars →
      Form opens inner item (.map entries) ('{' :: chars)
  | tuple {title : Option String} {values : List Value} {heading chars : List Char} :
      opens = true → Heading title heading → Separated ')' item values chars →
      (heading = [] → chars.head? ≠ some ')') →
      Form opens inner item (.tuple title values) (heading ++ '(' :: chars)
  | record {title : Option String} {fields : List (String × Value)} {heading chars : List Char} :
      opens = true → Heading title heading → Separated ')' (FieldText item) fields chars →
      fields ≠ [] → Form opens inner item (.record title fields) (heading ++ '(' :: chars)

/-- A value that nests at most the given number of levels, where a bracket and an item inside it
count one each. -/
def Written : Nat → Value → List Char → Prop
  | 0 => Form false (fun _ _ => False) (fun _ _ => False)
  | 1 => Form true (Written 0) (fun _ _ => False)
  | depth + 2 => Form true (Written (depth + 1)) (Written depth)

theorem Written.of_form {depth : Nat} {value : Value} {chars : List Char}
    (form : Form true (Written (depth + 1)) (Written depth) value chars) :
    Written (depth + 2) value chars := form

theorem Written.congr {depth : Nat} {value : Value} {chars others : List Char}
    (written : Written depth value chars) (same : chars = others) : Written depth value others :=
  same ▸ written

/-! ## What a value begins with -/

/-- The marks that say of what form a value is. -/
def brackets : List Char := ['(', '[', '{', '"', '\'']

theorem starts_of_mem_brackets {c : Char} (member : c ∈ brackets) : Starts (c :: chars) := by
  have other : ∀ c ∈ brackets, c ∉ separators := by simp [brackets, separators]
  exact ⟨c, chars, rfl, other c member⟩

theorem Starts.append {behind : List Char} (starts : Starts chars) : Starts (chars ++ behind) := by
  obtain ⟨c, front, rfl, other⟩ := starts
  exact ⟨c, front ++ behind, rfl, other⟩

theorem Heading.starts {title : Option String} {heading : List Char}
    (spelled : Heading title heading) : Starts (heading ++ '(' :: chars) := by
  cases spelled with
  | none => exact starts_of_mem_brackets (by decide)
  | some named _ _ => exact named.starts.append.append

theorem gap_append_paren {space : List Char} (spelled : IsGap space) :
    gap (space ++ '(' :: rest) = some ('(' :: rest) := by
  rw [spelled.gap_append]
  simp [gap, skip, isSpace]

theorem delimited_append_paren {space : List Char} (spelled : IsGap space) :
    Delimited (space ++ '(' :: rest) :=
  spelled.delimited (delimited_cons (by decide))

theorem someText : NameText ⟨"Some", false⟩ "Some".toList :=
  .plain (by decide) (by decide)

/-- Whether a text is not the front of a field, with a name and a colon. -/
def NoField (chars : List Char) : Prop :=
  ∀ rest tail, Follows rest tail → (∀ c ∈ tail.head?, c ≠ ':') →
    ((name (chars ++ rest)).any fun found => (colon found.2).isSome) = false

theorem noField_of_not_name {c : Char} (other : isNameStart c = false) : NoField (c :: chars) := by
  intro rest tail _ _
  simp [name_eq_none other]

/-- A name in front of an opening parenthesis is not that of a field. -/
theorem noField_of_paren {found : Name} {title space : List Char} (named : NameText found title)
    (spelled : IsGap space) : NoField (title ++ (space ++ '(' :: chars)) := by
  intro rest tail _ _
  have colonless : colon (space ++ '(' :: (chars ++ rest)) = none :=
    colon_eq_none (gap_append_paren spelled) (by simp)
  simp [named.reads (delimited_append_paren spelled), colonless]

theorem Heading.noField {title : Option String} {heading : List Char}
    (spelled : Heading title heading) : NoField (heading ++ '(' :: chars) := by
  cases spelled with
  | none => exact noField_of_not_name (by decide)
  | some named _ space => simpa using noField_of_paren named space

theorem NumberText.not_name (spelled : NumberText chars) :
    ∃ c front, chars = c :: front ∧ isNameStart c = false ∧ c ∉ brackets := by
  obtain ⟨c, front, rfl, digit | sign⟩ := spelled.exists_cons
  · exact ⟨c, front, rfl, isNameStart_of_isDigit digit, not_mem_of_any (by decide) digit⟩
  · simp only [List.mem_cons, List.not_mem_nil, or_false] at sign
    rcases sign with rfl | rfl | rfl <;> exact ⟨_, front, rfl, by decide⟩

namespace Form

variable {opens : Bool} {inner item : Value → List Char → Prop} {value : Value}

theorem noField (written : Form opens inner item value chars) : NoField chars := by
  cases written with
  | unit => exact noField_of_not_name (by decide)
  | name named _ =>
      intro rest tail follows other
      simp [named.reads follows.delimited, colon_eq_none follows.gap other]
  | number spelled =>
      obtain ⟨c, front, rfl, other, -⟩ := spelled.not_name
      exact noField_of_not_name other
  | text _ => exact noField_of_not_name (by decide)
  | rawText spelled =>
      intro rest tail _ _
      obtain ⟨behind, -, nameless, -⟩ := spelled.reads rest
      simp [nameless]
  | char _ => exact noField_of_not_name (by decide)
  | present space _ => exact noField_of_paren someText space
  | list _ _ => exact noField_of_not_name (by decide)
  | map _ _ => exact noField_of_not_name (by decide)
  | tuple _ heading _ _ => exact heading.noField
  | record _ heading _ _ => exact heading.noField

theorem starts (written : Form opens inner item value chars) : Starts chars := by
  cases written with
  | unit => exact starts_of_mem_brackets (by decide)
  | name named _ => exact named.starts
  | number spelled => exact spelled.starts
  | text _ => exact starts_of_mem_brackets (by decide)
  | rawText spelled =>
      obtain ⟨behind, rfl, -⟩ := spelled.reads []
      exact ⟨'r', behind, rfl, by decide⟩
  | char _ => exact starts_of_mem_brackets (by decide)
  | present _ _ => exact someText.starts.append
  | list _ _ => exact starts_of_mem_brackets (by decide)
  | map _ _ => exact starts_of_mem_brackets (by decide)
  | tuple _ heading _ _ => exact heading.starts
  | record _ heading _ _ => exact heading.starts

end Form

/-! ## Places -/

/-- The name that a value begins with, unless it has a meaning of its own. -/
def Value.title? : Value → Option String
  | .word name => some name
  | .tuple title _ => title
  | .record title _ => title
  | _ => none

/-- In a place for a value that may be absent no name may begin with the word for a value that is
present. -/
def Place.Suits : Place → Value → Prop
  | .any, _ => True
  | .optional, value => ∀ title ∈ value.title?, ¬"Some".toList <+: title.toList
  | .list items, value => ∀ values, value = .list values → ∀ item ∈ values, items.Suits item
  | .record field, value => ∀ title fields, value = .record title fields →
      ∀ entry ∈ fields, (field entry.1).Suits entry.2

namespace Place.Suits

variable {place : Place}

theorem item {values : List Value} (suits : place.Suits (.list values)) :
    ∀ item ∈ values, place.items.Suits item := by
  cases place with
  | list items => exact suits values rfl
  | any | optional | record _ => exact fun _ _ => trivial

theorem field {title : Option String} {fields : List (String × Value)}
    (suits : place.Suits (.record title fields)) :
    ∀ entry ∈ fields, (place.field entry.1).Suits entry.2 := by
  cases place with
  | record field => exact suits title fields rfl
  | any | optional | list _ => exact fun _ _ => trivial

theorem title {value : Value} (suits : place.Suits value) (isOptional : place.isOptional = true) :
    ∀ title ∈ value.title?, ¬"Some".toList <+: title.toList := by
  cases place with
  | optional => exact suits
  | any | list _ | record _ => cases isOptional

end Place.Suits

/-! ## Reading forms -/

section

variable {lenient opens : Bool} {innerReader itemReader : Place → Reader Value} {place : Place}

/-- A text that begins with no mark for a form begins with a name, a raw text or a number. -/
theorem form_of_not_bracket {c : Char} (other : c ∉ brackets) :
    form lenient opens innerReader itemReader place (c :: chars)
      = if place.isOptional && "Some".toList.isPrefixOf (c :: chars) then
          presentValue lenient (innerReader .any) ((c :: chars).drop 4)
        else
          match name (c :: chars), c :: chars with
          | some (title, rest), _ =>
              named lenient opens innerReader itemReader place title rest
          | none, 'r' :: rest =>
              (rawText rest).map fun found => (.text (String.ofList found.1), found.2)
          | none, chars => (numberText chars).map fun found => (.number found.1, found.2) := by
  simp only [brackets, List.mem_cons, List.not_mem_nil, or_false, not_or] at other
  rw [form.eq_def]
  split
  case h_7 => rfl
  all_goals simp_all

theorem NameText.not_bracket {found : Name} (spelled : NameText found chars) :
    ∃ c front, chars = c :: front ∧ c ∉ brackets := by
  cases spelled with
  | @plain c chars start _ =>
      exact ⟨c, chars, rfl, not_mem_of_any (by decide) start⟩
  | raw _ _ => exact ⟨'r', _, rfl, by decide⟩

theorem form_of_name {found : Name} {title : List Char} (spelled : NameText found title)
    (delimited : Delimited rest)
    (unlike : place.isOptional = true → ¬"Some".toList <+: found.text.toList) :
    form lenient opens innerReader itemReader place (title ++ rest)
      = named lenient opens innerReader itemReader place found rest := by
  have read := spelled.reads delimited
  have notPresent : (place.isOptional && "Some".toList.isPrefixOf (title ++ rest)) = false := by
    rw [Bool.and_eq_false_imp, Bool.eq_false_iff, Ne, List.isPrefixOf_iff_prefix]
    exact fun isOptional => spelled.not_someText delimited (unlike isOptional)
  obtain ⟨c, front, rfl, other⟩ := spelled.not_bracket
  rw [List.cons_append] at read notPresent ⊢
  rw [form_of_not_bracket other, notPresent, read]
  rfl

/-- The word for a value that is present is found in every place. -/
theorem form_present {space : List Char} (spelled : IsGap space) :
    form lenient opens innerReader itemReader place ("Some".toList ++ (space ++ '(' :: rest))
      = presentValue lenient (innerReader .any) (space ++ '(' :: rest) := by
  by_cases isOptional : place.isOptional = true
  · have split : "Some".toList ++ (space ++ '(' :: rest)
        = 'S' :: 'o' :: 'm' :: 'e' :: (space ++ '(' :: rest) := rfl
    rw [split, form_of_not_bracket (by decide)]
    simp [isOptional]
  · rw [form_of_name someText (delimited_append_paren spelled) (absurd · isOptional)]
    simp [named]

theorem presentValue_append {inner : Value → List Char → Prop} {reader : Reader Value}
    {value : Value} {space : List Char} (spelled : IsGap space)
    (written : Separated ')' inner [value] chars)
    (back : ∀ chars, inner value chars → ReadsBack reader value chars) :
    presentValue lenient reader (space ++ '(' :: (chars ++ rest))
      = some (.present value, rest) := by
  have opened : gap (space ++ '(' :: (chars ++ rest)) = some ('(' :: (chars ++ rest)) :=
    gap_append_paren spelled
  cases written with
  | @last _ front chars behind before spelledValue after =>
      have inner := back chars spelledValue
      have follows : Follows (behind ++ ')' :: rest) (')' :: rest) := .ofGap after (by decide)
      obtain ⟨left, read, found⟩ := inner.reads follows
      have start : gap (front ++ (chars ++ (behind ++ ')' :: rest)))
          = some (chars ++ (behind ++ ')' :: rest)) := by
        rw [before.gap_append, inner.starts.gap_append]
      rw [presentValue, opened]
      simp [start, read, found]
  | @cons _ _ front chars behind _ before spelledValue after written =>
      cases written with
      | @nil space isGap =>
          have inner := back chars spelledValue
          have follows : Follows (behind ++ ',' :: (space ++ ')' :: rest))
              (',' :: (space ++ ')' :: rest)) := .ofGap after (by decide)
          have closed : Follows (space ++ ')' :: rest) (')' :: rest) := .ofGap isGap (by decide)
          obtain ⟨left, read, found⟩ := inner.reads follows
          have start : gap (front ++ (chars ++ (behind ++ ',' :: (space ++ ')' :: rest))))
              = some (chars ++ (behind ++ ',' :: (space ++ ')' :: rest))) := by
            rw [before.gap_append, inner.starts.gap_append]
          rw [presentValue, opened]
          simp [start, read, found, closed.gap]

/-- Behind an opening parenthesis the first item is seen through the gap in front of it. -/
theorem startsField_of_gap {front item behind : List Char} (space : IsGap front)
    (starts : Starts item) :
    startsField (front ++ (item ++ behind))
      = (name (item ++ behind)).any fun found => (colon found.2).isSome := by
  rw [startsField, space.gap_append, starts.gap_append]
  rfl

theorem startsField_tuple {item : Value → List Char → Prop} {values : List Value}
    (starts : ∀ value chars, item value chars → Starts chars)
    (noField : ∀ value chars, item value chars → NoField chars)
    (written : Separated ')' item values chars) : startsField (chars ++ rest) = false := by
  cases written with
  | @nil space isGap =>
      have closed : Follows (space ++ ')' :: rest) (')' :: rest) := .ofGap isGap (by decide)
      rw [startsField, List.append_assoc, List.singleton_append, closed.gap]
      simp [name_eq_none (show isNameStart ')' = false by decide)]
  | last before spelled after =>
      simp only [List.append_assoc]
      rw [startsField_of_gap before (starts _ _ spelled)]
      exact noField _ _ spelled _ _ (.ofGap after (by decide)) (by simp)
  | cons before spelled after _ =>
      simp only [List.append_assoc, List.cons_append]
      rw [startsField_of_gap before (starts _ _ spelled)]
      exact noField _ _ spelled _ _ (.ofGap after (by decide)) (by simp)

theorem FieldText.any_colon {spelled : Value → List Char → Prop} {entry : String × Value}
    (starts : ∀ value chars, spelled value chars → Starts chars)
    (written : FieldText spelled entry chars) :
    ((name (chars ++ rest)).any fun found => (colon found.2).isSome) = true := by
  cases written with
  | @intro key value title before behind chars named after space spelled =>
      have delimited : Delimited (before ++ ':' :: (behind ++ (chars ++ rest))) :=
        after.delimited (delimited_cons (by decide))
      simp [named.reads delimited, colon_append after space (starts _ _ spelled)]

theorem FieldText.starts {spelled : Value → List Char → Prop} {entry : String × Value}
    (written : FieldText spelled entry chars) : Starts chars := by
  cases written with
  | intro named _ _ _ => exact named.starts.append

theorem startsField_record {item : Value → List Char → Prop} {fields : List (String × Value)}
    (starts : ∀ value chars, item value chars → Starts chars) (filled : fields ≠ [])
    (written : Separated ')' (FieldText item) fields chars) :
    startsField (chars ++ rest) = true := by
  cases written with
  | nil _ => exact absurd rfl filled
  | last before spelled after =>
      simp only [List.append_assoc]
      rw [startsField_of_gap before spelled.starts, spelled.any_colon starts]
  | cons before spelled after _ =>
      simp only [List.append_assoc]
      rw [startsField_of_gap before spelled.starts, spelled.any_colon starts]

theorem named_of_isFree {title : Name} (free : title.IsFree) :
    named lenient opens innerReader itemReader place title chars
      = (gap chars).bind fun
          | '(' :: rest => if opens then parenthesized title.text itemReader place rest else none
          | rest => some (.word title.text, rest) := by
  have other : ∀ word ∈ reserved, ¬(title.raw = false ∧ title.text = word) := by
    rintro word member ⟨plain, same⟩
    rcases free with raw | free
    · simp [raw] at plain
    · exact free (same ▸ member)
  have notNumber : ¬(title.raw = false ∧ title.text ∈ numberNames) := fun number =>
    other _ (List.mem_append_right _ number.2) ⟨number.1, rfl⟩
  rw [named, if_neg (other "true" (by decide)), if_neg (other "false" (by decide)),
    if_neg (other "Some" (by decide)), if_neg (other "None" (by decide)), if_neg notNumber]
  rfl

theorem form_heading {title : Option String} {heading body : List Char}
    (spelled : Heading title heading) (untitled : heading = [] → body.head? ≠ some ')')
    (unlike : place.isOptional = true → ∀ name ∈ title, ¬"Some".toList <+: name.toList) :
    form lenient true innerReader itemReader place (heading ++ '(' :: body)
      = parenthesized title itemReader place body := by
  cases spelled with
  | none =>
      have notClosed := untitled rfl
      rw [List.nil_append, form.eq_def]
      split
      case h_1 same =>
        obtain ⟨-, rfl⟩ := List.cons.inj same
        exact absurd rfl notClosed
      all_goals simp_all
  | @some found title space named free isGap =>
      rw [List.append_assoc, form_of_name named (delimited_append_paren isGap)
        fun isOptional => unlike isOptional _ rfl, named_of_isFree free, gap_append_paren isGap]
      rfl

/-- Where a name stands for a value by itself, what follows is passed over up to the next token. -/
theorem named_value {found : Name} {value : Value} {tail : List Char}
    (stands : NameValue found value) (follows : Follows rest tail) :
    ∃ left, named lenient opens innerReader itemReader place found rest = some (value, left)
      ∧ gap left = some tail := by
  cases stands with
  | yes => exact ⟨rest, by simp [named], follows.gap⟩
  | no => exact ⟨rest, by simp [named], follows.gap⟩
  | absent => exact ⟨rest, by simp [named], follows.gap⟩
  | @number word known =>
      simp only [numberNames, List.mem_cons, List.not_mem_nil, or_false] at known
      rcases known with rfl | rfl <;> exact ⟨rest, by simp [named, numberNames], follows.gap⟩
  | word free =>
      refine ⟨tail, ?_, follows.gap_tail⟩
      rw [named_of_isFree free, follows.gap]
      cases tail with
      | nil => rfl
      | cons c tail =>
          have notParen : c ≠ '(' := by
            rintro rfl
            exact absurd (follows.stop _ rfl) (by decide)
          simp [notParen]

/-- What the parts of a form have to be for the form to be read back. -/
structure PartsReadBack (inner item : Value → List Char → Prop)
    (innerReader itemReader : Place → Reader Value) : Prop where
  ofInner : ∀ value chars, inner value chars → ReadsBack (innerReader .any) value chars
  ofItem : ∀ place value chars, place.Suits value → item value chars →
    ReadsBack (itemReader place) value chars
  noField : ∀ value chars, item value chars → NoField chars

theorem PartsReadBack.starts {inner item : Value → List Char → Prop}
    (parts : PartsReadBack inner item innerReader itemReader) :
    ∀ value chars, item value chars → Starts chars :=
  fun value chars spelled => (parts.ofItem .any value chars trivial spelled).starts

namespace Form

variable {inner item : Value → List Char → Prop} {value : Value}

theorem readsBack_list (parts : PartsReadBack inner item innerReader itemReader)
    {values : List Value} (suits : place.Suits (.list values))
    (written : Separated ']' item values chars) :
    form lenient true innerReader itemReader place ('[' :: (chars ++ rest))
      = some (.list values, rest) := by
  have read : items ']' (itemReader place.items) (chars ++ rest) = some (values, rest) :=
    written.items (by decide) fun value member chars spelled =>
      parts.ofItem _ value chars (suits.item value member) spelled
  simp [form, read]

theorem readsBack_map (parts : PartsReadBack inner item innerReader itemReader)
    {entries : List (Value × Value)} (written : Separated '}' (EntryText item) entries chars) :
    form lenient true innerReader itemReader place ('{' :: (chars ++ rest))
      = some (.map entries, rest) := by
  have read : items '}' (entry (itemReader .any)) (chars ++ rest) = some (entries, rest) :=
    written.items (by decide) fun _ _ _ spelled => spelled.readsBack fun value chars =>
      parts.ofItem .any value chars trivial
  simp [form, read]

theorem parenthesized_tuple (parts : PartsReadBack inner item innerReader itemReader)
    {title : Option String} {values : List Value} (written : Separated ')' item values chars) :
    parenthesized title itemReader place (chars ++ rest) = some (.tuple title values, rest) := by
  have read : items ')' (itemReader .any) (chars ++ rest) = some (values, rest) :=
    written.items (by decide) fun value _ chars => parts.ofItem .any value chars trivial
  have notField : startsField (chars ++ rest) = false :=
    startsField_tuple parts.starts parts.noField written
  simp [parenthesized, notField, read]

theorem parenthesized_record (parts : PartsReadBack inner item innerReader itemReader)
    {title : Option String} {fields : List (String × Value)}
    (suits : place.Suits (.record title fields)) (filled : fields ≠ [])
    (written : Separated ')' (FieldText item) fields chars) :
    parenthesized title itemReader place (chars ++ rest) = some (.record title fields, rest) := by
  have read : items ')' (field fun key => itemReader (place.field key)) (chars ++ rest)
      = some (fields, rest) :=
    written.items (by decide) fun entry member chars spelled => spelled.readsBack fun chars =>
      parts.ofItem _ entry.2 chars (suits.field entry member)
  have isField : startsField (chars ++ rest) = true :=
    startsField_record parts.starts filled written
  simp [parenthesized, isField, read]

theorem readsBack (parts : PartsReadBack inner item innerReader itemReader)
    (suits : place.Suits value) (written : Form opens inner item value chars) :
    ReadsBack (form lenient opens innerReader itemReader place) value chars := by
  have starts := written.starts
  cases written with
  | unit => exact .exact starts fun rest _ => by simp [form]
  | @name found _ _ spelled stands =>
      refine ⟨starts, fun follows => ?_⟩
      have unlike : place.isOptional = true → ¬"Some".toList <+: found.text.toList := by
        intro isOptional
        cases stands with
        | word _ => exact suits.title isOptional _ rfl
        | yes | no | absent => decide
        | number known =>
            have all : ∀ word ∈ numberNames, ¬"Some".toList <+: word.toList := by decide
            exact all _ known
      rw [form_of_name spelled follows.delimited unlike]
      exact named_value stands follows
  | number spelled =>
      refine .exact starts fun rest delimited => ?_
      have read := spelled.reads delimited
      obtain ⟨c, front, rfl, nameless, other⟩ := spelled.not_name
      have notLetter : c ≠ 'S' ∧ c ≠ 'r' := by
        constructor <;> rintro rfl <;> exact absurd nameless (by decide)
      have noPrefix : "Some".toList.isPrefixOf (c :: (front ++ rest)) = false := by
        simp [List.isPrefixOf, notLetter.1.symm]
      rw [List.cons_append] at read ⊢
      rw [form_of_not_bracket other, noPrefix, Bool.and_false, name_eq_none nameless]
      split <;> simp_all
  | text spelled =>
      refine .exact starts fun rest _ => ?_
      simp [form, spelled.reads (by decide)]
  | rawText spelled =>
      refine .exact starts fun rest _ => ?_
      obtain ⟨behind, rfl, nameless, read⟩ := spelled.reads rest
      have other : "Some".toList.isPrefixOf ('r' :: (behind ++ rest)) = false := rfl
      rw [List.cons_append] at nameless ⊢
      rw [form_of_not_bracket (by decide), other, Bool.and_false, nameless]
      simp [read]
  | char spelled =>
      refine .exact starts fun rest _ => ?_
      simp [form, spelled.reads (by decide)]
  | present space written =>
      refine .exact starts fun rest _ => ?_
      rw [List.append_assoc, List.append_assoc, List.cons_append, form_present space]
      exact presentValue_append space written (parts.ofInner _)
  | list opened written =>
      subst opened
      exact .exact starts fun rest _ => readsBack_list parts suits written
  | map opened written =>
      subst opened
      exact .exact starts fun rest _ => readsBack_map parts written
  | tuple opened heading written untitled =>
      subst opened
      refine .exact starts fun rest _ => ?_
      have notClosed := fun bare => written.head?_append rest ▸ untitled bare
      rw [List.append_assoc, List.cons_append, form_heading heading notClosed suits.title]
      exact parenthesized_tuple parts written
  | @record _ _ _ chars opened heading written filled =>
      subst opened
      refine .exact starts fun rest _ => ?_
      have notClosed : (chars ++ rest).head? ≠ some ')' := by
        rw [written.head?_append]
        exact written.head?_ne_close filled (by decide) fun _ _ spelled => spelled.starts
      rw [List.append_assoc, List.cons_append,
        form_heading heading (fun _ => notClosed) suits.title]
      exact parenthesized_record parts suits filled written

end Form

end

/-! ## Reading values -/

theorem Written.noField : ∀ {depth : Nat} {value : Value}, Written depth value chars → NoField chars
  | 0, _, written => Form.noField written
  | 1, _, written => Form.noField written
  | _ + 2, _, written => Form.noField written

/-- Every spelling of a value is read back in every place that suits it. -/
theorem Written.readsBack (lenient : Bool) :
    ∀ {depth : Nat} {place : Place} {value : Value} {chars : List Char}, place.Suits value →
      Written depth value chars → ReadsBack (Ron.value lenient depth place) value chars
  | 0, _, _, _, suits, written =>
      Form.readsBack
        { ofInner := fun _ _ absurd => absurd.elim
          ofItem := fun _ _ _ _ absurd => absurd.elim
          noField := fun _ _ absurd => absurd.elim } suits written
  | 1, _, _, _, suits, written =>
      Form.readsBack
        { ofInner := fun _ _ inner => Written.readsBack lenient trivial inner
          ofItem := fun _ _ _ _ absurd => absurd.elim
          noField := fun _ _ absurd => absurd.elim } suits written
  | _ + 2, _, _, _, suits, written =>
      Form.readsBack
        { ofInner := fun _ _ inner => Written.readsBack lenient trivial inner
          ofItem := fun _ _ _ suits item => Written.readsBack lenient suits item
          noField := fun _ _ item => Written.noField item } suits written

end SensoryProse.Ron
