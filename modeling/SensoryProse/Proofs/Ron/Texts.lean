import Mathlib.Data.Nat.Digits.Defs
import SensoryProse.Proofs.Ron.Gaps

/-!
# Names and texts

How names, quoted texts and raw texts are spelled, and that each spelling is read back.  A text has
many spellings, because most characters may stand for themselves or be escaped.
-/

namespace SensoryProse.Ron

variable {chars rest : List Char}

/-! ## Names -/

inductive NameText : Name → List Char → Prop where
  | plain {c : Char} {chars : List Char} :
      isNameStart c = true → chars.all isNameRest = true →
      NameText ⟨String.ofList (c :: chars), false⟩ (c :: chars)
  | raw {chars : List Char} :
      chars ≠ [] → chars.all isRawName = true →
      NameText ⟨String.ofList chars, true⟩ ('r' :: '#' :: chars)

/-- A text that starts as no name does. -/
theorem name_eq_none {c : Char} (other : isNameStart c = false) : name (c :: rest) = none := by
  have notMarked : c ≠ 'r' := by
    rintro rfl
    exact absurd other (by decide)
  rw [name.eq_def]
  split
  · rfl
  · simp_all
  · simp_all
  · rfl

namespace NameText

variable {found : Name}

theorem starts (spelled : NameText found chars) : Starts chars := by
  cases spelled with
  | @plain c chars start _ =>
      exact ⟨c, chars, rfl, not_mem_of_any (by decide) start⟩
  | raw _ _ => exact ⟨'r', _, rfl, by decide⟩

theorem reads (spelled : NameText found chars) (delimited : Delimited rest) :
    name (chars ++ rest) = some (found, rest) := by
  cases spelled with
  | @plain c chars start all =>
      have inside := List.all_eq_true.mp all
      have taken := takeWhile_append inside (delimited.head_not (by decide))
      have notMarked : ∀ d, (chars ++ rest).head? = some d → d ≠ '"' ∧ d ≠ '#' := by
        intro d head
        cases chars with
        | nil =>
            have delimiter : d ∈ delimiters := delimited d head
            constructor <;> rintro rfl <;> exact absurd delimiter (by decide)
        | cons e chars =>
            obtain rfl : e = d := by simpa using head
            have letter := inside e List.mem_cons_self
            constructor <;> rintro rfl <;> exact absurd letter (by decide)
      rw [List.cons_append, name.eq_def]
      split
      case h_1 same =>
        obtain ⟨-, same⟩ := List.cons.inj same
        exact absurd rfl (notMarked _ (by rw [same]; rfl)).1
      case h_2 same =>
        obtain ⟨-, same⟩ := List.cons.inj same
        exact absurd rfl (notMarked _ (by rw [same]; rfl)).2
      case h_3 same =>
        obtain ⟨rfl, rfl⟩ := List.cons.inj same
        simp [start, taken]
      case h_4 same => cases same
  | @raw chars filled all =>
      have inside := List.all_eq_true.mp all
      have taken := takeWhile_append inside (delimited.head_not (by decide))
      simp [name, taken, filled]

/-- The word for a value that is present stands in front only of names that begin with it. -/
theorem not_someText (spelled : NameText found chars) (delimited : Delimited rest)
    (other : ¬"Some".toList <+: found.text.toList) : ¬"Some".toList <+: chars ++ rest := by
  intro front
  have free : ∀ c ∈ "Some".toList, c ∉ delimiters := by simp [delimiters]
  have within : "Some".toList <+: chars :=
    prefix_of_prefix_append (fun c head inside => free c inside (delimited c head)) front
  cases spelled with
  | plain _ _ => exact other (by simpa using within)
  | raw _ _ => exact absurd (List.cons_prefix_cons.mp within).1 (by decide)

end NameText

/-! ## Quoted texts -/

/-- The marks of hexadecimal digits. -/
def hexDigits : List (Char × Nat) :=
  "0123456789abcdef".toList.zipIdx ++ "ABCDEF".toList.zipIdx 10

/-- The marks that stand behind a backslash for one character. -/
def escapes : List (Char × Char) :=
  [('\'', '\''), ('"', '"'), ('\\', '\\'), ('n', '\n'), ('r', '\r'), ('t', '\t'),
    ('0', Char.ofNat 0)]

/-- A text in quotes, without its closing mark. -/
inductive Quotes (close : Char) : List Char → List Char → Prop where
  | nil : Quotes close [] []
  | char {c : Char} {content chars : List Char} :
      c ≠ close → c ≠ '\\' → Quotes close content chars →
      Quotes close (c :: content) (c :: chars)
  | escape {mark c : Char} {content chars : List Char} :
      (mark, c) ∈ escapes → Quotes close content chars →
      Quotes close (c :: content) ('\\' :: mark :: chars)
  | byte {first second : Char} {high low : Nat} {content chars : List Char} :
      (first, high) ∈ hexDigits → (second, low) ∈ hexDigits → Quotes close content chars →
      Quotes close (Char.ofNat (16 * high + low) :: content)
        ('\\' :: 'x' :: first :: second :: chars)
  | point {c : Char} {marks : List Char} {digits : List Nat} {content chars : List Char} :
      List.Forall₂ (fun mark digit => (mark, digit) ∈ hexDigits) marks digits →
      digits ≠ [] → digits.length ≤ 6 → c.toNat = Nat.ofDigits 16 digits.reverse →
      Quotes close content chars →
      Quotes close (c :: content) ('\\' :: 'u' :: '{' :: (marks ++ '}' :: chars))

theorem hexDigit?_eq_some {c : Char} {digit : Nat} (member : (c, digit) ∈ hexDigits) :
    hexDigit? c = some digit := by
  have all : ∀ entry ∈ hexDigits, hexDigit? entry.1 = some entry.2 := by decide
  exact all _ member

theorem ne_of_mem_hexDigits {c d : Char} {digit : Nat} (member : (c, digit) ∈ hexDigits)
    (digitless : hexDigit? d = none) : c ≠ d := by
  rintro rfl
  simp [hexDigit?_eq_some member] at digitless

theorem escape?_eq_some {mark c : Char} (member : (mark, c) ∈ escapes) :
    escape? mark = some c ∧ mark ≠ 'x' ∧ mark ≠ 'u' := by
  have all : ∀ entry ∈ escapes,
      escape? entry.1 = some entry.2 ∧ entry.1 ≠ 'x' ∧ entry.1 ≠ 'u' := by decide
  exact all _ member

theorem ofDigits_reverse (base : Nat) (digits : List Nat) :
    Nat.ofDigits base digits.reverse
      = digits.foldl (fun value digit => base * value + digit) 0 := by
  rw [Nat.ofDigits_eq_foldr, List.foldr_reverse]
  simp [Nat.add_comm]

/-- Inside a code point escape the digits come to a number, first digit first. -/
theorem quoted_point {close c : Char} {marks : List Char} {digits : List Nat} {code count : Nat}
    (spelled : List.Forall₂ (fun mark digit => (mark, digit) ∈ hexDigits) marks digits)
    (filled : 0 < count + digits.length) (few : count + digits.length ≤ 6)
    (total : c.toNat = digits.foldl (fun value digit => 16 * value + digit) code) :
    quoted close (some (code, count)) (marks ++ '}' :: rest)
      = prepend c (quoted close none rest) := by
  induction spelled generalizing code count with
  | nil =>
      obtain rfl : c.toNat = code := total
      have valid : c.toNat.isValidChar := c.valid
      have counted : count ≠ 0 := by simpa [Nat.pos_iff_ne_zero] using filled
      rw [List.nil_append, quoted.eq_def]
      simp [counted, valid, Char.ofNat_toNat]
  | @cons mark digit marks digits member _ ih =>
      have notClosed : mark ≠ '}' := ne_of_mem_hexDigits member (by decide)
      simp only [List.length_cons] at filled few
      rw [List.cons_append, quoted.eq_def]
      simp only [notClosed, if_false, hexDigit?_eq_some member]
      rw [if_pos (by omega)]
      exact ih (by omega) (by omega) total

theorem Quotes.reads {close : Char} {content : List Char} (other : close ≠ '\\')
    (spelled : Quotes close content chars) :
    quoted close none (chars ++ close :: rest) = some (content, rest) := by
  induction spelled with
  | nil => simp [quoted.eq_def]
  | char notClose notEscape _ ih =>
      rw [List.cons_append, quoted.eq_def]
      simp [notClose, notEscape, ih, prepend]
  | escape member _ ih =>
      obtain ⟨escaped, notByte, notPoint⟩ := escape?_eq_some member
      rw [List.cons_append, List.cons_append, quoted.eq_def]
      simp only [other.symm, if_false, if_true]
      split <;> simp_all [prepend]
  | byte high low _ ih =>
      rw [quoted.eq_def]
      simp [other.symm, hexDigit?_eq_some high, hexDigit?_eq_some low, ih, prepend]
  | point digits filled few total _ ih =>
      have counted := List.length_pos_iff.mpr filled
      rw [List.cons_append, List.cons_append, List.cons_append, List.append_assoc,
        List.cons_append, quoted.eq_def]
      simp only [other.symm, if_false, if_true]
      rw [quoted_point digits (by omega) (by omega) (total.trans (ofDigits_reverse 16 _)), ih]
      rfl

/-! ## Raw texts -/

/-- A text between quotation marks with the same number of hash marks outside.  No mark inside has
as many hash marks behind it. -/
inductive RawText : List Char → List Char → Prop where
  | intro {hashes : Nat} {content : List Char} :
      ¬('"' :: List.replicate hashes '#') <:+: content →
      RawText content ('r' :: (List.replicate hashes '#'
        ++ '"' :: (content ++ '"' :: List.replicate hashes '#')))

theorem rawQuoted_append {hashes : Nat} {content : List Char}
    (free : ¬('"' :: List.replicate hashes '#') <:+: content) :
    rawQuoted hashes (content ++ '"' :: (List.replicate hashes '#' ++ rest))
      = some (content, rest) := by
  induction content with
  | nil =>
      have closed : (List.replicate hashes '#').isPrefixOf
          (List.replicate hashes '#' ++ rest) = true := by
        simp [List.isPrefixOf_iff_prefix]
      simp [rawQuoted, closed]
  | cons c content ih =>
      rw [List.infix_cons_iff, not_or] at free
      have goesOn : ¬(c = '"' ∧ List.replicate hashes '#'
          <+: content ++ '"' :: (List.replicate hashes '#' ++ rest)) := by
        rintro ⟨rfl, front⟩
        have within := prefix_of_prefix_append (by simp) front
        exact free.1 (List.cons_prefix_cons.mpr ⟨rfl, within⟩)
      rw [List.cons_append, rawQuoted, if_neg (by simpa [List.isPrefixOf_iff_prefix] using goesOn),
        ih free.2]
      rfl

namespace RawText

variable {content : List Char}

/-- Behind the letter `r` stands no name. -/
theorem reads (spelled : RawText content chars) (rest : List Char) :
    ∃ behind, chars = 'r' :: behind ∧ name (chars ++ rest) = none ∧
      rawText (behind ++ rest) = some (content, rest) := by
  cases spelled with
  | @intro hashes _ free =>
      refine ⟨_, rfl, ?_, ?_⟩
      · rcases hashes with _ | _ | hashes <;>
          simp [name, List.replicate_succ, isRawName, isNameRest]
      · have marks : ∀ c ∈ List.replicate hashes '#', (c == '#') = true := by simp
        rw [rawText, List.append_assoc, List.dropWhile_append_of_pos marks,
          List.takeWhile_append_of_pos marks]
        simp [rawQuoted_append free]

end RawText

end SensoryProse.Ron
