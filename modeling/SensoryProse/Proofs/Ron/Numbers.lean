import Mathlib.Data.List.TakeWhile
import SensoryProse.Proofs.Ron.Texts

/-!
# Numbers

How integers and numbers with a point or an exponent are spelled, and that each spelling is read
back: an integer as its value where it is known to stand, any number as its text elsewhere.
-/

namespace SensoryProse.Ron

variable {chars rest : List Char}

/-! ## Integers -/

/-- The signs, and whether they make a number negative. -/
def signs : List (Bool × List Char) := [(false, []), (false, ['+']), (true, ['-'])]

/-- The bases and how they are announced. -/
def bases : List (Nat × List Char) :=
  [(10, []), (16, ['0', 'x']), (8, ['0', 'o']), (2, ['0', 'b'])]

theorem eq_of_mem_signs {negative : Bool} {sign : List Char} (member : (negative, sign) ∈ signs) :
    (negative = false ∧ sign = []) ∨ (negative = false ∧ sign = ['+'])
      ∨ (negative = true ∧ sign = ['-']) := by
  simpa [signs] using member

theorem eq_of_mem_bases {base : Nat} {mark : List Char} (member : (base, mark) ∈ bases) :
    (base = 10 ∧ mark = []) ∨ (base = 16 ∧ mark = ['0', 'x'])
      ∨ (base = 8 ∧ mark = ['0', 'o']) ∨ (base = 2 ∧ mark = ['0', 'b']) := by
  simpa [bases] using member

/-- Digits in a base, with any underscores between them. -/
inductive Numeral (base : Nat) : List Nat → List Char → Prop where
  | nil : Numeral base [] []
  | digit {c : Char} {digit : Nat} {digits : List Nat} {marks : List Char} :
      (c, digit) ∈ hexDigits → digit < base → Numeral base digits marks →
      Numeral base (digit :: digits) (c :: marks)
  | underscore {digits : List Nat} {marks : List Char} :
      Numeral base digits marks → Numeral base digits ('_' :: marks)

/-- An integer has at least one digit and does not begin with an underscore. -/
inductive IntegerText : Int → List Char → Prop where
  | intro {negative : Bool} {sign mark marks : List Char} {base : Nat} {digits : List Nat} :
      (negative, sign) ∈ signs → (base, mark) ∈ bases → Numeral base digits marks →
      marks ≠ [] → marks.head? ≠ some '_' →
      IntegerText (Decimal.signed negative (Nat.ofDigits base digits.reverse))
        (sign ++ (mark ++ marks))

namespace Numeral

variable {base : Nat} {digits : List Nat} {marks : List Char}

theorem value (numeral : Numeral base digits marks) (start : Nat) :
    digitsValue? base start marks
      = some (digits.foldl (fun value digit => base * value + digit) start) := by
  induction numeral generalizing start with
  | nil => rfl
  | @digit c digit _ _ member small _ ih =>
      have notUnderscore : c ≠ '_' := ne_of_mem_hexDigits member (by decide)
      simp [digitsValue?, notUnderscore, hexDigit?_eq_some member, small, ih]
  | underscore _ ih => simp [digitsValue?, ih]

theorem mem_marks (numeral : Numeral base digits marks) {c : Char} (member : c ∈ marks) :
    c = '_' ∨ ∃ digit < base, (c, digit) ∈ hexDigits := by
  induction numeral with
  | nil => simp at member
  | digit known small _ ih =>
      rcases List.mem_cons.mp member with rfl | later
      · exact .inr ⟨_, small, known⟩
      · exact ih later
  | underscore _ ih =>
      rcases List.mem_cons.mp member with rfl | later
      · exact .inl rfl
      · exact ih later

theorem isIntegerChar (numeral : Numeral base digits marks) :
    ∀ c ∈ marks, isIntegerChar c = true := by
  intro c member
  rcases numeral.mem_marks member with rfl | ⟨digit, -, known⟩
  · decide
  · simp [Ron.isIntegerChar, hexDigit?_eq_some known]

end Numeral

theorem not_sign_of_starts {c : Char} (first : c.isDigit = true ∨ c = '.') :
    c ≠ '+' ∧ c ≠ '-' := by
  constructor <;> rintro rfl <;> exact absurd first (by decide)

theorem takeSign_append {negative : Bool} {sign : List Char} (member : (negative, sign) ∈ signs)
    (unsigned : ∀ c ∈ chars.head?, c ≠ '+' ∧ c ≠ '-') :
    Decimal.takeSign (sign ++ chars) = (negative, chars) := by
  rcases eq_of_mem_signs member with ⟨rfl, rfl⟩ | ⟨rfl, rfl⟩ | ⟨rfl, rfl⟩
  · rw [List.nil_append, Decimal.takeSign.eq_def]
    split <;> simp_all
  · rfl
  · rfl

/-- Digits announce no base unless a letter for it is the second of them. -/
theorem takeBase_of_unmarked (unmarked : ∀ c, chars[1]? = some c → c ∉ ['x', 'b', 'o']) :
    takeBase chars = (10, chars) := by
  rw [takeBase.eq_def]
  split
  case h_1 => simp at unmarked
  case h_2 => simp at unmarked
  case h_3 => simp at unmarked
  case h_4 => rfl

/-- The second character of a text whose front is known and not empty. -/
theorem getElem?_one_append {p : Char → Prop} (filled : chars ≠ []) (inside : ∀ c ∈ chars, p c)
    (behind : ∀ c ∈ rest.head?, p c) : ∀ c, (chars ++ rest)[1]? = some c → p c := by
  intro c second
  rcases chars with _ | ⟨a, _ | ⟨b, chars⟩⟩
  · exact absurd rfl filled
  · exact behind c (by simpa [List.head?_eq_getElem?] using second)
  · obtain rfl : b = c := by simpa using second
    exact inside b (by simp)

theorem unmarked_of_mem_delimiters : ∀ c ∈ delimiters, c ∉ ['x', 'b', 'o'] := by
  simp [delimiters]

theorem takeBase_append {base : Nat} {mark marks : List Char} {digits : List Nat}
    (member : (base, mark) ∈ bases) (numeral : Numeral base digits marks) (filled : marks ≠ [])
    (delimited : Delimited rest) :
    takeBase (mark ++ (marks ++ rest)) = (base, marks ++ rest) := by
  rcases eq_of_mem_bases member with ⟨rfl, rfl⟩ | ⟨rfl, rfl⟩ | ⟨rfl, rfl⟩ | ⟨rfl, rfl⟩
  · have digitsUnmarked : ∀ c ∈ marks, c ∉ ['x', 'b', 'o'] := by
      intro c inside
      rcases numeral.mem_marks inside with rfl | ⟨digit, small, known⟩
      · decide
      · have all : ∀ entry ∈ hexDigits, entry.2 < 10 → entry.1 ∉ ['x', 'b', 'o'] := by decide
        exact all _ known small
    rw [List.nil_append]
    exact takeBase_of_unmarked (getElem?_one_append filled digitsUnmarked
      fun c head => unmarked_of_mem_delimiters c (delimited c head))
  · rfl
  · rfl
  · rfl

/-- The digits of an integer, with the announcement of their base, begin with a decimal digit. -/
theorem exists_digit_cons {base : Nat} {mark marks : List Char} {digits : List Nat}
    (member : (base, mark) ∈ bases) (numeral : Numeral base digits marks) (filled : marks ≠ [])
    (notUnderscore : marks.head? ≠ some '_') :
    ∃ c front, mark ++ marks = c :: front ∧ c.isDigit = true := by
  rcases eq_of_mem_bases member with ⟨rfl, rfl⟩ | ⟨rfl, rfl⟩ | ⟨rfl, rfl⟩ | ⟨rfl, rfl⟩
  · cases numeral with
    | nil => exact absurd rfl filled
    | digit known small _ =>
        have all : ∀ entry ∈ hexDigits, entry.2 < 10 → entry.1.isDigit = true := by decide
        exact ⟨_, _, rfl, all _ known small⟩
    | underscore _ => exact absurd rfl notUnderscore
  · exact ⟨'0', _, rfl, rfl⟩
  · exact ⟨'0', _, rfl, rfl⟩
  · exact ⟨'0', _, rfl, rfl⟩

theorem takeSign_integer {negative : Bool} {sign : List Char} {base : Nat}
    {mark marks : List Char} {digits : List Nat} (signed : (negative, sign) ∈ signs)
    (based : (base, mark) ∈ bases) (numeral : Numeral base digits marks) (filled : marks ≠ [])
    (notUnderscore : marks.head? ≠ some '_') :
    Decimal.takeSign (sign ++ (mark ++ marks) ++ rest) = (negative, mark ++ (marks ++ rest)) := by
  obtain ⟨d, front, split, digit⟩ := exists_digit_cons based numeral filled notUnderscore
  rw [List.append_assoc, List.append_assoc, takeSign_append signed]
  rw [← List.append_assoc, split]
  rintro c ⟨⟩
  exact not_sign_of_starts (.inl digit)

/-- Whether a text begins with a digit or a point, perhaps behind a sign. -/
def StartsNumber (chars : List Char) : Prop :=
  ∃ negative sign c front, (negative, sign) ∈ signs ∧ chars = sign ++ c :: front ∧
    (c.isDigit = true ∨ c = '.')

namespace IntegerText

variable {number : Int}

theorem startsNumber (spelled : IntegerText number chars) : StartsNumber chars := by
  cases spelled with
  | intro signed based numeral filled notUnderscore =>
      obtain ⟨c, front, split, digit⟩ := exists_digit_cons based numeral filled notUnderscore
      exact ⟨_, _, c, front, signed, by rw [split], .inl digit⟩

theorem integer_append (spelled : IntegerText number chars) {low high : Int} (least : low ≤ number)
    (most : number ≤ high) (delimited : Delimited rest) :
    integer low high (chars ++ rest) = some (number, rest) := by
  cases spelled with
  | @intro negative sign mark marks base digits signed based numeral filled notUnderscore =>
      have taken := takeWhile_append numeral.isIntegerChar (delimited.head_not (by decide))
      have counted := numeral.value 0
      rw [← ofDigits_reverse] at counted
      rw [integer, takeSign_integer signed based numeral filled notUnderscore]
      simp only [takeBase_append based numeral filled delimited, taken]
      simp [filled, notUnderscore, counted, least, most]

end IntegerText

/-! ## Numbers with a point or an exponent -/

inductive ExponentText : List Char → Prop where
  | none : ExponentText []
  | some {mark : Char} {negative : Bool} {sign digits : List Char} :
      mark ∈ ['e', 'E'] → (negative, sign) ∈ signs → digits ≠ [] →
      (∀ c ∈ digits, c.isDigit = true) → ExponentText (mark :: (sign ++ digits))

/-- The part of a number in front of its exponent has digits on one side of the point at least. -/
inductive MantissaText : List Char → Prop where
  | whole {whole : List Char} :
      whole ≠ [] → (∀ c ∈ whole, c.isDigit = true) → MantissaText whole
  | point {whole fraction : List Char} :
      whole ++ fraction ≠ [] → (∀ c ∈ whole ++ fraction, c.isDigit = true) →
      MantissaText (whole ++ '.' :: fraction)

inductive FloatText : List Char → Prop where
  | intro {negative : Bool} {sign mantissa exponent : List Char} :
      (negative, sign) ∈ signs → MantissaText mantissa → ExponentText exponent →
      FloatText (sign ++ (mantissa ++ exponent))

theorem integer?_isSome {negative : Bool} {sign digits : List Char}
    (signed : (negative, sign) ∈ signs) (filled : digits ≠ [])
    (all : ∀ c ∈ digits, c.isDigit = true) : (Decimal.integer? (sign ++ digits)).isSome := by
  have unsigned : ∀ c ∈ digits.head?, c ≠ '+' ∧ c ≠ '-' :=
    fun c head => not_sign_of_starts (.inl (all c (List.mem_of_mem_head? head)))
  simp [Decimal.integer?, takeSign_append signed unsigned, Decimal.natural?, filled,
    List.all_eq_true.mpr all]

namespace ExponentText

theorem exponent?_isSome (spelled : ExponentText chars) : (Decimal.exponent? chars).isSome := by
  cases spelled with
  | none => rfl
  | @some mark _ _ _ marked signed filled all =>
      have mark : mark = 'e' ∨ mark = 'E' := by simpa using marked
      simpa [Decimal.exponent?, mark] using integer?_isSome signed filled all

theorem head_not_digit (spelled : ExponentText chars) :
    ∀ c ∈ chars.head?, c.isDigit = false ∧ c ≠ '.' := by
  cases spelled with
  | none => simp
  | some marked _ _ _ =>
      rintro c ⟨⟩
      simp only [List.mem_cons, List.not_mem_nil, or_false] at marked
      rcases marked with rfl | rfl <;> decide

end ExponentText

theorem unsigned?_isSome {negative : Bool} {mantissa exponent : List Char}
    (front : MantissaText mantissa) (back : ExponentText exponent) :
    (Decimal.unsigned? negative (mantissa ++ exponent)).isSome := by
  have stops : ∀ c ∈ exponent.head?, c.isDigit = false := fun c head =>
    (back.head_not_digit c head).1
  cases front with
  | whole filled all =>
      obtain ⟨taken, left⟩ := takeWhile_append all stops
      have read := back.exponent?_isSome
      rw [Decimal.unsigned?, taken, left]
      cases exponent with
      | nil => simp [filled, read]
      | cons c exponent =>
          have pointless : c ≠ '.' := (back.head_not_digit c rfl).2
          simp [filled, read, pointless]
  | @point whole fraction filled all =>
      have point : ∀ c ∈ ('.' :: (fraction ++ exponent)).head?, c.isDigit = false := by simp
      obtain ⟨taken, left⟩ := takeWhile_append
        (fun c member => all c (List.mem_append_left _ member)) point
      obtain ⟨takenFraction, leftExponent⟩ := takeWhile_append
        (fun c member => all c (List.mem_append_right _ member)) stops
      rw [Decimal.unsigned?, List.append_assoc, List.cons_append, taken, left]
      simp only [takenFraction, leftExponent]
      have filled : ¬(whole = [] ∧ fraction = []) := by simpa using filled
      simp [filled, back.exponent?_isSome]

namespace MantissaText

theorem exists_cons (spelled : MantissaText chars) :
    ∃ c front, chars = c :: front ∧ (c.isDigit = true ∨ c = '.') := by
  cases spelled with
  | whole filled all =>
      obtain ⟨c, front, rfl⟩ := List.exists_cons_of_ne_nil filled
      exact ⟨c, front, rfl, .inl (all c List.mem_cons_self)⟩
  | @point whole fraction _ all =>
      rcases whole with _ | ⟨c, whole⟩
      · exact ⟨'.', fraction, rfl, .inr rfl⟩
      · exact ⟨c, _, rfl, .inl (all c List.mem_cons_self)⟩

theorem isFloatChar (spelled : MantissaText chars) : ∀ c ∈ chars, isFloatChar c = true := by
  cases spelled with
  | whole _ all =>
      intro c member
      simp [Ron.isFloatChar, all c member]
  | point _ all =>
      intro c member
      rcases List.mem_append.mp member with inWhole | behind
      · simp [Ron.isFloatChar, all c (List.mem_append_left _ inWhole)]
      · rcases List.mem_cons.mp behind with rfl | inFraction
        · decide
        · simp [Ron.isFloatChar, all c (List.mem_append_right _ inFraction)]

end MantissaText

theorem isFloatChar_of_mem_sign {negative : Bool} {sign : List Char}
    (signed : (negative, sign) ∈ signs) : ∀ c ∈ sign, isFloatChar c = true := by
  have all : ∀ entry ∈ signs, entry.2.all isFloatChar = true := by decide
  exact List.all_eq_true.mp (all _ signed)

theorem ExponentText.isFloatChar (spelled : ExponentText chars) :
    ∀ c ∈ chars, isFloatChar c = true := by
  cases spelled with
  | none => simp
  | some marked signed _ all =>
      intro c member
      rcases List.mem_cons.mp member with rfl | behind
      · simp only [List.mem_cons, List.not_mem_nil, or_false] at marked
        rcases marked with rfl | rfl <;> decide
      · rcases List.mem_append.mp behind with inSign | inDigits
        · exact isFloatChar_of_mem_sign signed c inSign
        · simp [Ron.isFloatChar, all c inDigits]

/-! ## Numbers as texts -/

theorem integerText_of_integer {low high number : Int}
    (read : integer low high (chars ++ rest) = some (number, rest)) :
    integerText low high (chars ++ rest) = some (String.ofList chars, rest) := by
  simp [integerText, read]

/-- Where only digits stand, reading an integer takes all of them if it does not fail. -/
theorem integerText_of_digits {negative : Bool} {sign body : List Char} {low high : Int}
    {found : String × List Char} (signed : (negative, sign) ∈ signs)
    (unsigned : ∀ c ∈ (body ++ rest).head?, c ≠ '+' ∧ c ≠ '-')
    (unmarked : takeBase (body ++ rest) = (10, body ++ rest))
    (digits : ∀ c ∈ body, isIntegerChar c = true) (delimited : Delimited rest)
    (read : integerText low high (sign ++ body ++ rest) = some found) :
    found = (String.ofList (sign ++ body), rest) := by
  obtain ⟨taken, left⟩ := takeWhile_append digits (delimited.head_not (by decide))
  cases asInteger : integer low high (sign ++ body ++ rest) with
  | none =>
      simp only [integerText, asInteger] at read
      cases read
  | some number =>
      obtain ⟨value, behind⟩ := number
      obtain rfl : rest = behind := by
        rw [integer, List.append_assoc, takeSign_append signed unsigned] at asInteger
        simp only [unmarked, taken, left] at asInteger
        split at asInteger
        · cases asInteger
        · split at asInteger
          · split at asInteger <;> simp_all
          · cases asInteger
      exact Option.some.inj (read.symm.trans (integerText_of_integer asInteger))

/-- Whatever a reader of integers makes of the text of a number, the text is taken whole. -/
theorem digitsText_of_floatText {negative : Bool} {sign body : List Char} {first : Char}
    (signed : (negative, sign) ∈ signs) (unsigned : first ≠ '+' ∧ first ≠ '-')
    (floats : ∀ c ∈ first :: body, isFloatChar c = true) (delimited : Delimited rest)
    (asFloat : floatText (sign ++ (first :: body) ++ rest)
      = some (String.ofList (sign ++ first :: body), rest)) :
    digitsText (sign ++ (first :: body) ++ rest)
      = some (String.ofList (sign ++ first :: body), rest) := by
  have head : ∀ c ∈ (first :: body ++ rest).head?, c ≠ '+' ∧ c ≠ '-' := by simpa using unsigned
  have taken := (takeWhile_append floats (delimited.head_not (by decide))).1
  have signTaken : Decimal.takeSign (sign ++ (first :: body) ++ rest)
      = (negative, first :: body ++ rest) := by
    rw [List.append_assoc, takeSign_append signed head]
  rw [digitsText, signTaken, taken]
  split
  · exact asFloat
  · rename_i long
    have whole : first :: body <+: (first :: body ++ rest).takeWhile isIntegerChar :=
      List.prefix_of_prefix_length_le (List.prefix_append _ _) (List.takeWhile_prefix _)
        (Nat.le_of_not_lt long)
    have digits : ∀ c ∈ first :: body, isIntegerChar c = true := fun c member =>
      List.mem_takeWhile_imp (whole.subset member)
    have floatsUnmarked : ∀ c ∈ first :: body, c ∉ ['x', 'b', 'o'] := fun c member =>
      not_mem_of_any (by decide) (floats c member)
    have unmarked : takeBase (first :: body ++ rest) = (10, first :: body ++ rest) :=
      takeBase_of_unmarked (getElem?_one_append (by simp) floatsUnmarked
        fun c head => unmarked_of_mem_delimiters c (delimited c head))
    -- Behind a sign the bounds are others, and what is taken is the same.
    have same : ∀ low high found,
        integerText low high (sign ++ (first :: body) ++ rest) = some found →
        found = (String.ofList (sign ++ first :: body), rest) := fun _ _ _ =>
      integerText_of_digits signed head unmarked digits delimited
    split
    · rename_i read
      split at read
      · rw [same _ _ _ read]
      · rw [same _ _ _ read]
    · exact asFloat

namespace FloatText

theorem startsNumber (spelled : FloatText chars) : StartsNumber chars := by
  cases spelled with
  | intro signed mantissa _ =>
      obtain ⟨c, front, rfl, first⟩ := mantissa.exists_cons
      exact ⟨_, _, c, _, signed, rfl, first⟩

theorem isFloatChar (spelled : FloatText chars) : ∀ c ∈ chars, isFloatChar c = true := by
  cases spelled with
  | intro signed front back =>
      intro c member
      rcases List.mem_append.mp member with inSign | behind
      · exact isFloatChar_of_mem_sign signed c inSign
      · rcases List.mem_append.mp behind with inMantissa | inExponent
        · exact front.isFloatChar c inMantissa
        · exact back.isFloatChar c inExponent

theorem floatText_append (spelled : FloatText chars) (delimited : Delimited rest) :
    floatText (chars ++ rest) = some (String.ofList chars, rest) := by
  obtain ⟨taken, left⟩ :=
    takeWhile_append spelled.isFloatChar (delimited.head_not (by decide))
  have read : (Decimal.read? chars).isSome := by
    cases spelled with
    | intro signed front back =>
        obtain ⟨d, behind, rfl, first⟩ := front.exists_cons
        have unsigned := not_sign_of_starts first
        rw [Decimal.read?, takeSign_append signed (by simpa using unsigned)]
        exact unsigned?_isSome front back
  simp [floatText, taken, left, read]

/-- A number without a point or an exponent is read as an integer if it has 64 bits, and as any
other number if not.  Its text is the same. -/
theorem digitsText_append (spelled : FloatText chars) (delimited : Delimited rest) :
    digitsText (chars ++ rest) = some (String.ofList chars, rest) := by
  have asFloat := spelled.floatText_append delimited
  have floats := spelled.isFloatChar
  cases spelled with
  | @intro negative sign mantissa exponent signed front back =>
      obtain ⟨d, behind, rfl, first⟩ := front.exists_cons
      exact digitsText_of_floatText signed (not_sign_of_starts first)
        (fun c member => floats c (List.mem_append_right _ member)) delimited asFloat

end FloatText

/-- An integer has at most 64 bits.  Behind a sign one of them is for the sign. -/
def HasWordSize (number : Int) (chars : List Char) : Prop :=
  (-0x8000000000000000 ≤ number ∧ number ≤ 0x7fffffffffffffff)
    ∨ (number ≤ 0xffffffffffffffff ∧ chars.head? ∉ [some '+', some '-'])

theorem length_takeWhile_append_le {p : Char → Bool} (stops : ∀ c ∈ rest.head?, p c = false) :
    ((chars ++ rest).takeWhile p).length ≤ chars.length := by
  induction chars with
  | nil =>
      cases rest with
      | nil => simp
      | cons c rest => simp [stops c rfl]
  | cons c chars ih =>
      rw [List.cons_append, List.takeWhile_cons]
      split <;> simp [ih]

/-- The digits of an integer are not taken for the front of a number with a point or an
exponent. -/
theorem floats_le_digits {base : Nat} {mark marks : List Char} {digits : List Nat}
    (member : (base, mark) ∈ bases) (numeral : Numeral base digits marks)
    (delimited : Delimited rest) :
    ((mark ++ (marks ++ rest)).takeWhile isFloatChar).length
      ≤ ((mark ++ (marks ++ rest)).takeWhile isIntegerChar).length := by
  rcases eq_of_mem_bases member with ⟨rfl, rfl⟩ | ⟨rfl, rfl⟩ | ⟨rfl, rfl⟩ | ⟨rfl, rfl⟩
  · have taken := takeWhile_append numeral.isIntegerChar (delimited.head_not (by decide))
    rw [List.nil_append, taken.1]
    exact length_takeWhile_append_le (delimited.head_not (by decide))
  all_goals simp [isFloatChar, isIntegerChar, hexDigit?]

theorem IntegerText.digitsText_append {number : Int} (spelled : IntegerText number chars)
    (size : HasWordSize number chars) (delimited : Delimited rest) :
    digitsText (chars ++ rest) = some (String.ofList chars, rest) := by
  have read : ∀ low high, low ≤ number → number ≤ high →
      integerText low high (chars ++ rest) = some (String.ofList chars, rest) :=
    fun low high least most =>
      integerText_of_integer (spelled.integer_append least most delimited)
  cases spelled with
  | @intro negative sign mark marks base digits signed based numeral filled notUnderscore =>
      rw [digitsText, takeSign_integer signed based numeral filled notUnderscore]
      simp only [Nat.not_lt.mpr (floats_le_digits based numeral delimited), if_false]
      rcases eq_of_mem_signs signed with ⟨rfl, rfl⟩ | signed
      · have least : 0 ≤ Decimal.signed false (Nat.ofDigits base digits.reverse) := by
          simp [Decimal.signed]
        have most : Decimal.signed false (Nat.ofDigits base digits.reverse)
            ≤ 0xffffffffffffffff := by
          rcases size with ⟨-, most⟩ | ⟨most, -⟩ <;> omega
        have notSigned : ¬(mark ++ (marks ++ rest)).length
            < ([] ++ (mark ++ marks) ++ rest).length := by simp
        simp only [notSigned, if_false, read 0 _ least most]
      · have hasSign : sign.head? ∈ [some '+', some '-'] ∧ sign.length = 1 := by
          rcases signed with ⟨-, rfl⟩ | ⟨-, rfl⟩ <;> decide
        have isSigned : (mark ++ (marks ++ rest)).length
            < (sign ++ (mark ++ marks) ++ rest).length := by
          simp [hasSign.2]
        obtain ⟨least, most⟩ := size.resolve_right fun unsigned =>
          unsigned.2 (by rcases signed with ⟨-, rfl⟩ | ⟨-, rfl⟩ <;> simp)
        simp only [isSigned, if_true, read _ _ least most]

inductive NumberText : List Char → Prop where
  | integer {number : Int} {chars : List Char} :
      IntegerText number chars → HasWordSize number chars → NumberText chars
  | float {chars : List Char} : FloatText chars → NumberText chars
  | named {sign : Char} {word : String} :
      sign ∈ ['+', '-'] → word ∈ numberNames → NumberText (sign :: word.toList)

theorem isNameStart_of_isDigit {c : Char} (digit : c.isDigit = true) : isNameStart c = false := by
  have all : ∀ code < 58, 48 ≤ code → isNameStart (Char.ofNat code) = false := by decide
  simp only [Char.isDigit, Bool.and_eq_true, decide_eq_true_eq, UInt32.le_iff_toNat_le] at digit
  rw [← Char.ofNat_toNat c]
  exact all c.toNat (Nat.lt_succ_of_le digit.2) digit.1

theorem StartsNumber.signedName_append (starts : StartsNumber chars) :
    signedName (chars ++ rest) = none := by
  obtain ⟨negative, sign, c, front, signed, rfl, first⟩ := starts
  have nameless : isNameStart c = false := by
    rcases first with digit | rfl
    · exact isNameStart_of_isDigit digit
    · decide
  rcases eq_of_mem_signs signed with ⟨-, rfl⟩ | ⟨-, rfl⟩ | ⟨-, rfl⟩
  · simp [signedName, not_sign_of_starts first]
  · simp [signedName, name_eq_none nameless]
  · simp [signedName, name_eq_none nameless]

namespace NumberText

theorem exists_cons (spelled : NumberText chars) :
    ∃ c front, chars = c :: front ∧ (c.isDigit = true ∨ c ∈ ['.', '+', '-']) := by
  have ofStarts : StartsNumber chars →
      ∃ c front, chars = c :: front ∧ (c.isDigit = true ∨ c ∈ ['.', '+', '-']) := by
    rintro ⟨negative, sign, c, front, signed, rfl, first⟩
    rcases eq_of_mem_signs signed with ⟨-, rfl⟩ | ⟨-, rfl⟩ | ⟨-, rfl⟩
    · exact ⟨c, front, rfl, first.imp_right fun point => by simp [point]⟩
    · exact ⟨'+', _, rfl, by simp⟩
    · exact ⟨'-', _, rfl, by simp⟩
  cases spelled with
  | integer spelled _ => exact ofStarts spelled.startsNumber
  | float spelled => exact ofStarts spelled.startsNumber
  | @named sign word signed _ =>
      exact ⟨sign, word.toList, rfl, .inr (List.mem_cons_of_mem _ signed)⟩

theorem starts (spelled : NumberText chars) : Starts chars := by
  obtain ⟨c, front, rfl, digit | sign⟩ := spelled.exists_cons
  · exact ⟨c, front, rfl, not_mem_of_any (by decide) digit⟩
  · simp only [List.mem_cons, List.not_mem_nil, or_false] at sign
    rcases sign with rfl | rfl | rfl <;> exact ⟨_, front, rfl, by decide⟩

theorem reads (spelled : NumberText chars) (delimited : Delimited rest) :
    numberText (chars ++ rest) = some (String.ofList chars, rest) := by
  cases spelled with
  | integer spelled size =>
      simp [numberText, spelled.startsNumber.signedName_append,
        spelled.digitsText_append size delimited]
  | float spelled =>
      simp [numberText, spelled.startsNumber.signedName_append,
        spelled.digitsText_append delimited]
  | @named sign word signed known =>
      have spelled : NameText ⟨word, false⟩ word.toList := by
        simp only [numberNames, List.mem_cons, List.not_mem_nil, or_false] at known
        rcases known with rfl | rfl <;> exact .plain (by decide) (by decide)
      have sign : sign = '+' ∨ sign = '-' := by simpa using signed
      simp [numberText, signedName, sign, spelled.reads delimited, known]

end NumberText

end SensoryProse.Ron
