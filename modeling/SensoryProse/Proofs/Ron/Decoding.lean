import SensoryProse.Proofs.Ron.Values
import SensoryProse.Ron.Decode

/-!
# What values spell

How texts, flags, integers, named values, options, lists and the fields of records are spelled by
values of the notation, and that each such value is decoded to what it spells.  A field stands once
at any place among the others.  Fields of other names are not looked at.
-/

namespace SensoryProse.Ron

variable {α : Type}

/-! ## Single values -/

def SpellsText (text : String) (value : Value) : Prop := value = .text text

def SpellsFlag (holds : Bool) (value : Value) : Prop := value = .flag holds

/-- The alternative of the name `None` may be spelled as a value that is absent. -/
def SpellsNamed [Named α] (alternative : α) (value : Value) : Prop :=
  value = .word (Named.name alternative) ∨ (Named.name alternative = "None" ∧ value = .absent)

def SpellsInteger (low high : Int) (number : Int) (value : Value) : Prop :=
  low ≤ number ∧ number ≤ high ∧
    ∃ digits, IntegerText number digits ∧ value = .number (String.ofList digits)

/-- A bare value counts as present where that is allowed and it cannot be taken for an option. -/
inductive SpellsOption (lenient : Bool) (spells : α → Value → Prop) :
    Option α → Value → Prop where
  | absent : SpellsOption lenient spells none .absent
  | present {content : α} {value : Value} :
      spells content value → SpellsOption lenient spells (some content) (.present value)
  | bare {content : α} {value : Value} :
      lenient = true → spells content value → value ≠ .absent →
      (∀ inner, value ≠ .present inner) → SpellsOption lenient spells (some content) value

inductive SpellsList (spells : α → Value → Prop) : List α → Value → Prop where
  | intro {contents : List α} {values : List Value} :
      List.Forall₂ spells contents values → SpellsList spells contents (.list values)

/-- What is spelled is decoded, and begins with no name like that for present values. -/
structure ReadAs (spells : α → Value → Prop) (decode : Value → Option α) : Prop where
  decode_eq : ∀ {content value}, spells content value → decode value = some content
  unlike : ∀ {content value}, spells content value →
    ∀ title ∈ value.title?, ¬"Some".toList <+: title.toList

theorem readAs_text : ReadAs SpellsText Value.asText where
  decode_eq := by
    rintro text _ rfl
    rfl
  unlike := by
    rintro text _ rfl title ⟨⟩

theorem readAs_flag : ReadAs SpellsFlag Value.asFlag where
  decode_eq := by
    rintro holds _ rfl
    rfl
  unlike := by
    rintro holds _ rfl title ⟨⟩

/-- Every alternative is found by its name, which begins with no name for present values. -/
def DistinctNames (α : Type) [Named α] : Prop :=
  ∀ alternative : α, Named.ofName? (Named.name alternative) = some alternative
    ∧ ¬"Some".toList <+: (Named.name alternative).toList

theorem readAs_named [Named α] (distinct : DistinctNames α) :
    ReadAs (SpellsNamed (α := α)) Value.asNamed where
  decode_eq := by
    rintro alternative _ (rfl | ⟨none, rfl⟩)
    · exact (distinct alternative).1
    · rw [Value.asNamed, ← none, (distinct alternative).1]
  unlike := by
    rintro alternative _ (rfl | ⟨-, rfl⟩) title ⟨⟩
    exact (distinct alternative).2

theorem readAs_integer (low high : Int) :
    ReadAs (SpellsInteger low high) (Value.asInteger low high) where
  decode_eq := by
    rintro number _ ⟨least, most, digits, spelled, rfl⟩
    have read := spelled.integer_append least most delimited_nil
    rw [List.append_nil] at read
    simp [Value.asInteger, read]
  unlike := by
    rintro number _ ⟨-, -, digits, -, rfl⟩ title ⟨⟩

theorem readAs_option {lenient : Bool} {spells : α → Value → Prop} {decode : Value → Option α}
    (readAs : ReadAs spells decode) :
    ReadAs (SpellsOption lenient spells) (Value.asOption lenient decode) where
  decode_eq := by
    intro content value spelled
    cases spelled with
    | absent => rfl
    | present spelled => simp [Value.asOption, readAs.decode_eq spelled]
    | bare isLenient spelled notAbsent notPresent =>
        rw [Value.asOption.eq_def]
        split
        · exact absurd rfl notAbsent
        · exact absurd rfl (notPresent _)
        · simp [isLenient, readAs.decode_eq spelled]
  unlike := by
    intro content value spelled
    cases spelled with
    | absent => rintro title ⟨⟩
    | present _ => rintro title ⟨⟩
    | bare _ spelled _ _ => exact readAs.unlike spelled

theorem asList_eq {spells : α → Value → Prop} {decode : Value → Option α}
    (decodes : ∀ content value, spells content value → decode value = some content)
    {contents : List α} {value : Value} (spelled : SpellsList spells contents value) :
    value.asList decode = some contents := by
  cases spelled with
  | intro each =>
      rw [Value.asList]
      induction each with
      | nil => rfl
      | cons first _ ih => simp [List.mapM_cons, decodes _ _ first, ih]

theorem SpellsList.exists_of_mem {spells : α → Value → Prop} {contents : List α}
    {values : List Value} (spelled : SpellsList spells contents (.list values)) {value : Value}
    (member : value ∈ values) : ∃ content, spells content value := by
  cases spelled with
  | intro each =>
      induction each with
      | nil => cases member
      | cons first _ ih =>
          rcases List.mem_cons.mp member with rfl | later
          · exact ⟨_, first⟩
          · exact ih later

/-! ## Fields -/

/-- The field of a name is given once. -/
def Given (fields : List (String × Value)) (key : String) (spells : Value → Prop) : Prop :=
  ∃ before value behind, fields = before ++ (key, value) :: behind
    ∧ (∀ other ∈ before ++ behind, other.1 ≠ key) ∧ spells value

/-- The field of a name is given once, or left out if what it says is the default. -/
def GivenOr (fields : List (String × Value)) (key : String) (default content : α)
    (spells : α → Value → Prop) : Prop :=
  Given fields key (spells content)
    ∨ (content = default ∧ ∀ other ∈ fields, other.1 ≠ key)

/-- The fields of a record of the given name, which may be left out.  Parentheses with nothing
inside are a record without fields. -/
inductive SpellsRecord (name : String) : List (String × Value) → Value → Prop where
  | unit : SpellsRecord name [] .unit
  | empty {title : Option String} :
      (∀ word ∈ title, word = name) → SpellsRecord name [] (.tuple title [])
  | fields {title : Option String} {fields : List (String × Value)} :
      (∀ word ∈ title, word = name) → SpellsRecord name fields (.record title fields)

theorem SpellsRecord.asRecord_eq {name : String} {fields : List (String × Value)} {value : Value}
    (spelled : SpellsRecord name fields value) : value.asRecord name = some fields := by
  cases spelled with
  | unit => rfl
  | @empty title titled => cases title <;> simp_all [Value.asRecord]
  | @fields title _ titled => cases title <;> simp_all [Value.asRecord]

namespace Given

variable {fields : List (String × Value)} {key : String} {spells : Value → Prop}

theorem filter_eq (given : Given fields key spells) :
    ∃ value, fields.filter (·.1 == key) = [(key, value)] ∧ spells value := by
  obtain ⟨before, value, behind, rfl, others, spelled⟩ := given
  have noneBefore : before.filter (·.1 == key) = [] := by
    rw [List.filter_eq_nil_iff]
    intro other member
    simpa using others other (List.mem_append_left _ member)
  have noneBehind : behind.filter (·.1 == key) = [] := by
    rw [List.filter_eq_nil_iff]
    intro other member
    simpa using others other (List.mem_append_right _ member)
  exact ⟨value, by simp [noneBefore, noneBehind], spelled⟩

theorem requiredField_eq {decode : Value → Option α} {content : α}
    (given : Given fields key spells)
    (decodes : ∀ {value}, spells value → decode value = some content) :
    Value.requiredField fields key decode = some content := by
  obtain ⟨value, only, spelled⟩ := given.filter_eq
  rw [Value.requiredField, only]
  exact decodes spelled

theorem of_mem (given : Given fields key spells) {value : Value} (member : (key, value) ∈ fields) :
    spells value := by
  obtain ⟨only, isOnly, spelled⟩ := given.filter_eq
  have found : (key, value) ∈ fields.filter (·.1 == key) := by simpa using member
  rw [isOnly] at found
  obtain rfl : value = only := by simpa using found
  exact spelled

end Given

namespace GivenOr

variable {fields : List (String × Value)} {key : String} {default content : α}
  {spells : α → Value → Prop}

theorem fieldOr_eq {decode : Value → Option α} (given : GivenOr fields key default content spells)
    (decodes : ∀ {content value}, spells content value → decode value = some content) :
    Value.fieldOr fields key default decode = some content := by
  rcases given with given | ⟨rfl, left⟩
  · obtain ⟨value, only, spelled⟩ := given.filter_eq
    rw [Value.fieldOr, only]
    exact decodes spelled
  · have none : fields.filter (·.1 == key) = [] := by
      simpa [List.filter_eq_nil_iff] using fun a b member => left (a, b) member
    rw [Value.fieldOr, none]

theorem of_mem (given : GivenOr fields key default content spells) {value : Value}
    (member : (key, value) ∈ fields) : spells content value := by
  rcases given with given | ⟨-, left⟩
  · exact given.of_mem member
  · exact absurd rfl (left _ member)

end GivenOr

end SensoryProse.Ron
