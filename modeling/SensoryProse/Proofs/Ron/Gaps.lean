import SensoryProse.Ron.Token

/-!
# Gaps and what follows a token

A gap is spelled by white space, line comments and nested block comments in any number.  A reader
reads a spelling back if it finds the value behind every gap in front of it, whatever follows, and
leaves a text from which the next token is found.
-/

namespace SensoryProse.Ron

variable {α : Type} {chars rest tail : List Char}

/-! ## Gaps -/

/-- The rest of a block comment inside `depth` others, up to its last mark.  A character stands for
itself if no mark begins with it. -/
inductive IsBlock : Nat → List Char → Prop where
  | close : IsBlock 0 ['*', '/']
  | closeInner {depth : Nat} {chars : List Char} :
      IsBlock depth chars → IsBlock (depth + 1) ('*' :: '/' :: chars)
  | openInner {depth : Nat} {chars : List Char} :
      IsBlock (depth + 1) chars → IsBlock depth ('/' :: '*' :: chars)
  | char {depth : Nat} {c next : Char} {chars : List Char} :
      ¬(c = '/' ∧ next = '*') → ¬(c = '*' ∧ next = '/') →
      IsBlock depth (next :: chars) → IsBlock depth (c :: next :: chars)

/-- What may stand between two tokens. -/
inductive IsGap : List Char → Prop where
  | nil : IsGap []
  | space {c : Char} {chars : List Char} :
      c ∈ [' ', '\t', '\n', '\r'] → IsGap chars → IsGap (c :: chars)
  | line {comment chars : List Char} :
      '\n' ∉ comment → IsGap chars → IsGap ('/' :: '/' :: (comment ++ '\n' :: chars))
  | block {comment chars : List Char} :
      IsBlock 0 comment → IsGap chars → IsGap ('/' :: '*' :: (comment ++ chars))

/-- A gap at the end of a text, where a line comment may end without a new line. -/
inductive IsLastGap : List Char → Prop where
  | ended {chars : List Char} : IsGap chars → IsLastGap chars
  | line {chars comment : List Char} :
      IsGap chars → '\n' ∉ comment → IsLastGap (chars ++ '/' :: '/' :: comment)

theorem skip_line {comment : List Char} (inside : '\n' ∉ comment) :
    skip .line (comment ++ '\n' :: rest) = skip .space rest := by
  induction comment with
  | nil => simp [skip]
  | cons c comment ih =>
      obtain ⟨other, inside⟩ : '\n' ≠ c ∧ '\n' ∉ comment := by simpa using inside
      rw [List.cons_append, skip, ih inside]
      exact fun same => other same.symm

theorem skip_lastLine {comment : List Char} (inside : '\n' ∉ comment) :
    skip .line comment = some [] := by
  induction comment with
  | nil => rfl
  | cons c comment ih =>
      obtain ⟨other, inside⟩ : '\n' ≠ c ∧ '\n' ∉ comment := by simpa using inside
      rw [skip, ih inside]
      exact fun same => other same.symm

theorem IsBlock.skip {depth : Nat} (block : IsBlock depth chars) :
    skip (.block depth) (chars ++ rest) = skip .space rest := by
  induction block with
  | close => simp [Ron.skip]
  | closeInner _ ih => simpa [Ron.skip] using ih
  | openInner _ ih => simpa [Ron.skip] using ih
  | char noOpening noClosing _ ih =>
      rw [List.cons_append, List.cons_append, Ron.skip.eq_def]
      split <;> simp_all

theorem IsGap.gap_append (spelled : IsGap chars) : gap (chars ++ rest) = gap rest := by
  unfold gap
  induction spelled with
  | nil => rfl
  | space blank _ ih =>
      simp only [List.mem_cons, List.not_mem_nil, or_false] at blank
      rcases blank with rfl | rfl | rfl | rfl <;> simpa [skip, isSpace] using ih
  | line inside _ ih => simpa [skip, skip_line inside] using ih
  | block block _ ih => simpa [skip, block.skip] using ih

theorem IsLastGap.gap_eq (spelled : IsLastGap chars) : gap chars = some [] := by
  cases spelled with
  | ended spelled => simpa [gap, skip] using (spelled.gap_append : gap (chars ++ []) = gap [])
  | line spelled inside => rw [spelled.gap_append, gap, skip, skip_lastLine inside]

/-! ## Boundaries -/

/-- Where a name or a number ends. -/
def delimiters : List Char := [' ', '\t', '\n', '\r', '/', ',', ':', '(', ')', ']', '}']

/-- What ends the gap behind an item. -/
def stops : List Char := [',', ':', ')', ']', '}']

theorem stops_subset_delimiters : stops ⊆ delimiters := by simp [stops, delimiters]

/-- Whether a text begins with a delimiter, if it is not empty. -/
def Delimited (chars : List Char) : Prop := ∀ c ∈ chars.head?, c ∈ delimiters

theorem delimited_nil : Delimited [] := by simp [Delimited]

theorem delimited_cons {c : Char} (delimiter : c ∈ delimiters) : Delimited (c :: rest) := by
  simpa [Delimited] using delimiter

theorem IsGap.delimited (spelled : IsGap chars) (delimited : Delimited rest) :
    Delimited (chars ++ rest) := by
  cases spelled with
  | nil => exact delimited
  | space blank _ =>
      apply delimited_cons
      simp only [List.mem_cons, List.not_mem_nil, or_false] at blank
      rcases blank with rfl | rfl | rfl | rfl <;> decide
  | line _ _ => exact delimited_cons (by decide)
  | block _ _ => exact delimited_cons (by decide)

theorem not_mem_of_any {p : Char → Bool} {marks : List Char} (outside : marks.any p = false)
    {c : Char} (holds : p c = true) : c ∉ marks :=
  fun member => List.any_eq_false.mp outside c member holds

theorem Delimited.head_not {p : Char → Bool} (delimited : Delimited rest)
    (outside : delimiters.any p = false) : ∀ c ∈ rest.head?, p c = false := by
  intro c head
  rw [Bool.eq_false_iff]
  exact fun holds => not_mem_of_any outside holds (delimited c head)

/-- Reading on while `p` holds stops where it first fails. -/
theorem takeWhile_append {p : Char → Bool} (inside : ∀ c ∈ chars, p c = true)
    (stops : ∀ c ∈ rest.head?, p c = false) :
    (chars ++ rest).takeWhile p = chars ∧ (chars ++ rest).dropWhile p = rest := by
  have none : rest.takeWhile p = [] ∧ rest.dropWhile p = rest := by
    cases rest with
    | nil => simp
    | cons c rest => simp [stops c rfl]
  rw [List.takeWhile_append_of_pos inside, List.dropWhile_append_of_pos inside, none.1, none.2]
  simp

/-- What stands in front of a text and has not its first character in it ends before that text. -/
theorem prefix_of_prefix_append {word : List Char} (free : ∀ c ∈ rest.head?, c ∉ word)
    (front : word <+: chars ++ rest) : word <+: chars := by
  induction word generalizing chars with
  | nil => exact List.nil_prefix
  | cons c word ih =>
      cases chars with
      | nil =>
          obtain ⟨behind, rfl⟩ := front
          exact absurd List.mem_cons_self (free c rfl)
      | cons d chars =>
          rw [List.cons_append, List.cons_prefix_cons] at front
          obtain ⟨rfl, front⟩ := front
          have others : ∀ d ∈ rest.head?, d ∉ word := fun d member inside =>
            free d member (List.mem_cons_of_mem _ inside)
          exact List.cons_prefix_cons.mpr ⟨rfl, ih others front⟩

/-! ## Reading back -/

/-- What stands in front of tokens, between them or behind them. -/
def separators : List Char := [' ', '\t', '\n', '\r', '/', '#', ',', ':', ')', ']', '}']

/-- Whether a text begins with a token. -/
def Starts (chars : List Char) : Prop :=
  ∃ c rest, chars = c :: rest ∧ c ∉ separators

theorem Starts.gap_append (starts : Starts chars) : gap (chars ++ rest) = some (chars ++ rest) := by
  obtain ⟨c, front, rfl, other⟩ := starts
  simp only [separators, List.mem_cons, List.not_mem_nil, or_false, not_or] at other
  simp [gap, skip, isSpace, other]

/-- What follows an item: a gap, and then the end of the text, a separator or a closing bracket. -/
structure Follows (rest tail : List Char) : Prop where
  gap : gap rest = some tail
  stop : ∀ c ∈ tail.head?, c ∈ stops

namespace Follows

theorem ofGap (spelled : IsGap chars) {c : Char} (stop : c ∈ stops) :
    Follows (chars ++ c :: rest) (c :: rest) where
  gap := by
    rw [spelled.gap_append]
    simp only [stops, List.mem_cons, List.not_mem_nil, or_false] at stop
    rcases stop with rfl | rfl | rfl | rfl | rfl <;> simp [Ron.gap, skip, isSpace]
  stop := by simpa using stop

theorem ofLastGap (spelled : IsLastGap chars) : Follows chars [] where
  gap := spelled.gap_eq
  stop := by simp

theorem gap_tail (follows : Follows rest tail) : Ron.gap tail = some tail := by
  cases tail with
  | nil => rfl
  | cons c tail =>
      have stopped : Follows ([] ++ c :: tail) (c :: tail) := ofGap .nil (follows.stop c rfl)
      exact stopped.gap

theorem delimited (follows : Follows rest tail) : Delimited rest := by
  intro c member
  obtain ⟨front, rfl⟩ : ∃ front, rest = c :: front := by
    cases rest <;> simp_all
  refine Decidable.byContradiction fun other => other ?_
  have starts : Ron.gap (c :: front) = some (c :: front) := by
    simp only [delimiters, List.mem_cons, List.not_mem_nil, or_false, not_or] at other
    simp [Ron.gap, skip, isSpace, other]
  obtain rfl : c :: front = tail := by simpa [starts] using follows.gap
  exact stops_subset_delimiters (follows.stop c rfl)

end Follows

/-- The reader finds `value` where `chars` spells it, whatever follows.  It may pass over the gap
behind it. -/
structure ReadsBack (reader : Reader α) (value : α) (chars : List Char) : Prop where
  starts : Starts chars
  reads : ∀ {rest tail : List Char}, Follows rest tail →
    ∃ left, reader (chars ++ rest) = some (value, left) ∧ gap left = some tail

/-- A reader that stops right behind the spelling. -/
theorem ReadsBack.exact {reader : Reader α} {value : α} (starts : Starts chars)
    (reads : ∀ rest, Delimited rest → reader (chars ++ rest) = some (value, rest)) :
    ReadsBack reader value chars where
  starts := starts
  reads follows := ⟨_, reads _ follows.delimited, follows.gap⟩

end SensoryProse.Ron
