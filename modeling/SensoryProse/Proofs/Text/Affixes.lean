import Mathlib.Data.List.TakeWhile
import SensoryProse.Text.Case

/-!
# Small letters of a part of a text

Of all characters only the capital sigma looks at its surroundings when it is lower-cased.  So a
part of a text has the same small letters by itself as where it stands, unless the cut goes through
a word: a beginning may end in a sigma that is final by itself only, and an end may open with a
sigma that is final only where it stands.
-/

namespace SensoryProse.Text

/-- The small letters of a part of a text that stands between `before`, read backwards, and
`after`. -/
def lowerBetween (before after : List Char) : List Char → List Char
  | [] => []
  | c :: rest =>
      (if c = capitalSigma then [lowerSigma before (rest ++ after)] else lowerChar c)
        ++ lowerBetween (c :: before) after rest

/-- The first character that is not case-ignorable is a capital sigma, and what comes after it
passes `test`. -/
def sigmaFirst (test : List Char → Bool) (chars : List Char) : Bool :=
  match chars.dropWhile isCaseIgnorable with
  | [] => false
  | c :: after => c == capitalSigma && test after

/-- The text ends in a capital sigma that ends a word. -/
def endsInSigma (chars : List Char) : Bool := sigmaFirst startsCased chars.reverse

/-- The text opens with a capital sigma that ends the word that comes before it, if one does. -/
def opensWithSigma (chars : List Char) : Bool := sigmaFirst (fun after => !startsCased after) chars

section

variable {before after other behind chars : List Char}

theorem lowerAfter_append (before chars after : List Char) :
    lowerAfter before (chars ++ after) =
      lowerBetween before after chars ++ lowerAfter (chars.reverse ++ before) after := by
  induction chars generalizing before with
  | nil => rfl
  | cons c rest induction =>
      rw [List.cons_append, lowerAfter, lowerBetween, induction]
      split <;> simp

theorem lowerAfter_eq (before chars : List Char) :
    lowerAfter before chars = lowerBetween before [] chars := by
  have whole := lowerAfter_append before chars []
  rwa [List.append_nil, lowerAfter, List.append_nil] at whole

/-- Wherever a sigma stands, one small letter takes its place. -/
theorem lowerBetween_length (before after other behind chars : List Char) :
    (lowerBetween before after chars).length = (lowerBetween other behind chars).length := by
  induction chars generalizing before other with
  | nil => rfl
  | cons c rest induction =>
      rw [lowerBetween, lowerBetween, List.length_append, List.length_append,
        induction (c :: before) (c :: other)]
      split <;> rfl

/-- A part has the same small letters in two places if each of its sigmas has. -/
theorem lowerBetween_eq_iff :
    lowerBetween before after chars = lowerBetween other behind chars ↔
      ∀ front back, chars = front ++ capitalSigma :: back →
        lowerSigma (front.reverse ++ before) (back ++ after) =
          lowerSigma (front.reverse ++ other) (back ++ behind) := by
  induction chars generalizing before other with
  | nil => simp [lowerBetween]
  | cons c rest induction =>
      have lengths := lowerBetween_length (c :: before) after (c :: other) behind rest
      rw [lowerBetween, lowerBetween, List.append_eq_append_iff_of_size_eq_right lengths, induction]
      constructor
      · rintro ⟨here, later⟩ front back cut
        rcases List.cons_eq_append_iff.mp cut with ⟨rfl, first⟩ | ⟨tail, rfl, rfl⟩
        · obtain ⟨rfl, rfl⟩ := List.cons_eq_cons.mp first
          simpa using here
        · simpa using later tail back rfl
      · intro sigmas
        constructor
        · split
          · rename_i sigma
            rw [sigma] at sigmas
            have first := sigmas [] rest rfl
            rw [List.reverse_nil, List.nil_append, List.nil_append] at first
            rw [first]
          · rfl
        · rintro front back rfl
          simpa using sigmas (c :: front) back rfl

theorem startsCased_append_of_ignorable (ignorable : ∀ c ∈ chars, isCaseIgnorable c = true)
    (after : List Char) : startsCased (chars ++ after) = startsCased after := by
  rw [startsCased, List.dropWhile_append_of_pos ignorable, ← startsCased]

theorem startsCased_of_ignorable (ignorable : ∀ c ∈ chars, isCaseIgnorable c = true) :
    startsCased chars = false := by
  rw [← List.append_nil chars, startsCased_append_of_ignorable ignorable]
  rfl

/-- What follows is looked at only if there is nothing but case-ignorable characters before it. -/
theorem startsCased_append_ne_iff :
    startsCased (chars ++ after) ≠ startsCased chars ↔
      (∀ c ∈ chars, isCaseIgnorable c = true) ∧ startsCased after = true := by
  by_cases ignorable : ∀ c ∈ chars, isCaseIgnorable c = true
  · rw [startsCased_append_of_ignorable ignorable, startsCased_of_ignorable ignorable]
    simpa using fun _ => ignorable
  · have stopped : chars.dropWhile isCaseIgnorable ≠ [] := by
      rwa [ne_eq, List.dropWhile_eq_nil_iff]
    have nonempty : (chars.dropWhile isCaseIgnorable).isEmpty = false := by simpa using stopped
    have same : startsCased (chars ++ after) = startsCased chars := by
      unfold startsCased
      rw [List.dropWhile_append, nonempty, if_neg Bool.false_ne_true]
      cases found : chars.dropWhile isCaseIgnorable with
      | nil => exact absurd found stopped
      | cons c rest => rfl
    simp [same, ignorable]

theorem lowerSigma_ne_iff :
    lowerSigma before after ≠ lowerSigma other behind ↔
      (startsCased before && !startsCased after) ≠ (startsCased other && !startsCased behind) := by
  have different : finalSigma ≠ smallSigma := by decide
  unfold lowerSigma
  cases startsCased before && !startsCased after <;>
    cases startsCased other && !startsCased behind <;> simp [different, different.symm]

/-- What follows takes the end of a word away from a sigma. -/
theorem lowerSigma_append_after_ne_iff :
    lowerSigma before (chars ++ after) ≠ lowerSigma before chars ↔
      startsCased before = true ∧ (∀ c ∈ chars, isCaseIgnorable c = true) ∧
        startsCased after = true := by
  rw [lowerSigma_ne_iff, ← startsCased_append_ne_iff]
  cases startsCased before <;> simp

/-- What comes before gives a sigma the word that it ends. -/
theorem lowerSigma_append_before_ne_iff :
    lowerSigma (chars ++ before) after ≠ lowerSigma chars after ↔
      startsCased after = false ∧ (∀ c ∈ chars, isCaseIgnorable c = true) ∧
        startsCased before = true := by
  rw [lowerSigma_ne_iff, ← startsCased_append_ne_iff]
  cases startsCased after <;> simp

theorem sigmaFirst_iff {test : List Char → Bool} :
    sigmaFirst test chars = true ↔
      ∃ front back, chars = front ++ capitalSigma :: back ∧
        (∀ c ∈ front, isCaseIgnorable c = true) ∧ test back = true := by
  unfold sigmaFirst
  constructor
  · intro first
    split at first
    · contradiction
    · rename_i c after found
      obtain ⟨sigma, passes⟩ := Bool.and_eq_true_iff.mp first
      obtain rfl := beq_iff_eq.mp sigma
      refine ⟨chars.takeWhile isCaseIgnorable, after, ?_, ?_, passes⟩
      · rw [← found, List.takeWhile_append_dropWhile]
      · exact fun _ member => List.mem_takeWhile_imp member
  · rintro ⟨front, back, rfl, ignorable, passes⟩
    have stops : isCaseIgnorable capitalSigma = false := by decide +kernel
    rw [List.dropWhile_append_of_pos ignorable, List.dropWhile_cons, stops,
      if_neg Bool.false_ne_true]
    simpa using passes

theorem opensWithSigma_iff :
    opensWithSigma chars = true ↔
      ∃ front back, chars = front ++ capitalSigma :: back ∧
        (∀ c ∈ front, isCaseIgnorable c = true) ∧ startsCased back = false := by
  rw [opensWithSigma, sigmaFirst_iff]
  simp only [Bool.not_eq_true']

theorem endsInSigma_iff :
    endsInSigma chars = true ↔
      ∃ front back, chars = front ++ capitalSigma :: back ∧
        startsCased front.reverse = true ∧ ∀ c ∈ back, isCaseIgnorable c = true := by
  rw [endsInSigma, sigmaFirst_iff]
  constructor
  · rintro ⟨passed, before, turned, ignorable, cased⟩
    refine ⟨before.reverse, passed.reverse, ?_, ?_, ?_⟩
    · simpa using congrArg List.reverse turned
    · rwa [List.reverse_reverse]
    · simpa using ignorable
  · rintro ⟨front, back, rfl, cased, ignorable⟩
    refine ⟨back.reverse, front.reverse, ?_, ?_, cased⟩
    · simp
    · simpa using ignorable

end

/-- A beginning has by itself the small letters that it has in the text, unless it ends in a sigma
and the word goes on. -/
theorem lowerBetween_beginning_ne_iff {beginning rest : List Char} :
    lowerBetween [] rest beginning ≠ lowerBetween [] [] beginning ↔
      endsInSigma beginning = true ∧ startsCased rest = true := by
  rw [ne_eq, lowerBetween_eq_iff, endsInSigma_iff]
  simp only [not_forall, List.append_nil]
  constructor
  · rintro ⟨front, back, cut, differs⟩
    obtain ⟨cased, ignorable, goesOn⟩ := lowerSigma_append_after_ne_iff.mp differs
    exact ⟨⟨front, back, cut, cased, ignorable⟩, goesOn⟩
  · rintro ⟨⟨front, back, cut, cased, ignorable⟩, goesOn⟩
    exact ⟨front, back, cut, lowerSigma_append_after_ne_iff.mpr ⟨cased, ignorable, goesOn⟩⟩

/-- An end has by itself the small letters that it has in the text, unless it opens with a sigma and
a word comes before it. -/
theorem lowerBetween_ending_ne_iff {before ending : List Char} :
    lowerBetween before [] ending ≠ lowerBetween [] [] ending ↔
      opensWithSigma ending = true ∧ startsCased before = true := by
  rw [ne_eq, lowerBetween_eq_iff, opensWithSigma_iff]
  simp only [not_forall, List.append_nil]
  constructor
  · rintro ⟨front, back, cut, differs⟩
    obtain ⟨ends, ignorable, wordBefore⟩ := lowerSigma_append_before_ne_iff.mp differs
    exact ⟨⟨front, back, cut, by simpa using ignorable, ends⟩, wordBefore⟩
  · rintro ⟨⟨front, back, cut, ignorable, ends⟩, wordBefore⟩
    have turned : ∀ c ∈ front.reverse, isCaseIgnorable c = true := by simpa using ignorable
    exact ⟨front, back, cut, lowerSigma_append_before_ne_iff.mpr ⟨ends, turned, wordBefore⟩⟩

/-- A text begins, in small letters, as one of its beginnings does, unless the beginning ends in a
sigma and the word goes on. -/
theorem lowerChars_isPrefixOf_append (beginning rest : List Char) :
    (lowerChars beginning).isPrefixOf (lowerChars (beginning ++ rest)) =
      !(endsInSigma beginning && startsCased rest) := by
  have lengths := lowerBetween_length [] [] [] rest beginning
  have begins : (lowerChars beginning).isPrefixOf (lowerChars (beginning ++ rest)) = true ↔
      lowerBetween [] rest beginning = lowerBetween [] [] beginning := by
    rw [List.isPrefixOf_iff_prefix, lowerChars, lowerChars, lowerAfter_append, lowerAfter_eq]
    constructor
    · intro begins
      have within := List.prefix_of_prefix_length_le begins (List.prefix_append _ _) lengths.le
      exact (within.eq_of_length lengths).symm
    · intro same
      rw [same]
      exact List.prefix_append _ _
  rw [Bool.eq_iff_iff, begins, Bool.not_eq_true', Bool.eq_false_iff, ne_eq, Bool.and_eq_true,
    ← lowerBetween_beginning_ne_iff, not_not]

/-- A text ends, in small letters, as one of its ends does, unless the end opens with a sigma and a
word comes before it. -/
theorem lowerChars_isSuffixOf_append (front ending : List Char) :
    (lowerChars ending).isSuffixOf (lowerChars (front ++ ending)) =
      !(opensWithSigma ending && startsCased front.reverse) := by
  have lengths := lowerBetween_length [] [] front.reverse [] ending
  have ends : (lowerChars ending).isSuffixOf (lowerChars (front ++ ending)) = true ↔
      lowerBetween front.reverse [] ending = lowerBetween [] [] ending := by
    rw [List.isSuffixOf_iff_suffix, lowerChars, lowerChars, lowerAfter_append, List.append_nil,
      lowerAfter_eq, lowerAfter_eq]
    constructor
    · intro ends
      have within := List.suffix_of_suffix_length_le ends (List.suffix_append _ _) lengths.le
      exact (within.eq_of_length lengths).symm
    · intro same
      rw [same]
      exact List.suffix_append _ _
  rw [Bool.eq_iff_iff, ends, Bool.not_eq_true', Bool.eq_false_iff, ne_eq, Bool.and_eq_true,
    ← lowerBetween_ending_ne_iff, not_not]

end SensoryProse.Text
