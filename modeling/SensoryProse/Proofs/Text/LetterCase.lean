import SensoryProse.Text.Case

/-!
# Two ways to fold case

Texts are compared up to case in two ways: by their small letters, after Unicode, and by folding the
ASCII letters alone.  Unicode does not tell the two cases of an ASCII letter apart, not even where
it looks for the end of a word, so texts that are the same up to ASCII case have the same small
letters.  The converse holds of texts that are ASCII throughout.
-/

namespace SensoryProse.Text

theorem isEmpty_of_sameUpToAsciiCase {text word : String}
    (same : sameUpToAsciiCase text word = true) : text.isEmpty = word.isEmpty := by
  rw [Bool.eq_iff_iff, String.isEmpty_iff, String.isEmpty_iff, ← String.length_eq_zero_iff,
    length_eq_of_sameUpToAsciiCase same, String.length_eq_zero_iff]

/-- Folding changes the ASCII capitals only. -/
theorem toLower_eq_or (c : Char) : c.toLower = c ∨ ∃ place < 26, c = Char.ofNat (65 + place) := by
  unfold Char.toLower
  split
  · rename_i capital
    rw [ge_iff_le, UInt32.le_iff_toNat_le, UInt32.le_iff_toNat_le] at capital
    change 65 ≤ c.toNat ∧ c.toNat ≤ 90 at capital
    refine .inr ⟨c.toNat - 65, by omega, ?_⟩
    rw [Nat.add_sub_cancel' capital.1, Char.ofNat_toNat]
  · exact .inl rfl

/-- What is the same for both cases of the ASCII letters is left as it is by folding. -/
theorem apply_toLower {α : Type} (view : Char → α)
    (letters : ∀ place < 26,
      view (Char.ofNat (65 + place)).toLower = view (Char.ofNat (65 + place)))
    (c : Char) : view c.toLower = view c := by
  rcases toLower_eq_or c with small | ⟨place, bound, rfl⟩
  · rw [small]
  · exact letters place bound

theorem isCased_toLower (c : Char) : isCased c.toLower = isCased c :=
  apply_toLower isCased (by decide +kernel) c

theorem isCaseIgnorable_toLower (c : Char) : isCaseIgnorable c.toLower = isCaseIgnorable c :=
  apply_toLower isCaseIgnorable (by decide +kernel) c

theorem lowerChar_toLower (c : Char) : lowerChar c.toLower = lowerChar c :=
  apply_toLower lowerChar (by decide +kernel) c

theorem toLower_eq_capitalSigma (c : Char) : (c.toLower = capitalSigma) = (c = capitalSigma) := by
  have letters := apply_toLower (fun c => decide (c = capitalSigma)) (by decide +kernel) c
  rw [eq_iff_iff]
  exact decide_eq_decide.mp letters

theorem startsCased_map_toLower (chars : List Char) :
    startsCased (chars.map Char.toLower) = startsCased chars := by
  induction chars with
  | nil => rfl
  | cons c rest induction =>
      unfold startsCased at induction ⊢
      rw [List.map_cons, List.dropWhile_cons, List.dropWhile_cons, isCaseIgnorable_toLower]
      cases isCaseIgnorable c with
      | true => exact induction
      | false => exact isCased_toLower c

theorem lowerAfter_map_toLower (before chars : List Char) :
    lowerAfter (before.map Char.toLower) (chars.map Char.toLower) = lowerAfter before chars := by
  induction chars generalizing before with
  | nil => rfl
  | cons c rest induction =>
      have onward := induction (c :: before)
      rw [List.map_cons] at onward
      simp only [List.map_cons, lowerAfter, toLower_eq_capitalSigma, lowerSigma,
        startsCased_map_toLower, lowerChar_toLower, onward]

/-- The small letters of a text can be read off from its folded form. -/
theorem lowerChars_foldAscii (text : String) :
    lowerChars (foldAscii text) = lowerChars text.toList :=
  lowerAfter_map_toLower [] text.toList

theorem lower_eq_of_sameUpToAsciiCase {left right : String}
    (same : sameUpToAsciiCase left right = true) : lower left = lower right := by
  rw [lower, lower, ← lowerChars_foldAscii left, ← lowerChars_foldAscii right, beq_iff_eq.mp same]

theorem lowerChars_eq_of_lower_eq {left right : String} (same : lower left = lower right) :
    lowerChars left.toList = lowerChars right.toList :=
  String.ofList_injective same

theorem lowerAfter_of_ascii {chars : List Char} (ascii : ∀ c ∈ chars, isAscii c = true)
    (before : List Char) : lowerAfter before chars = chars.map Char.toLower := by
  induction chars generalizing before with
  | nil => rfl
  | cons c rest induction =>
      obtain ⟨here, others⟩ := List.forall_mem_cons.mp ascii
      have noSigma : c ≠ capitalSigma := by
        intro sigma
        rw [sigma] at here
        contradiction
      rw [lowerAfter, if_neg noSigma, lowerChar, if_pos here, induction others, List.map_cons]
      rfl

/-- On ASCII texts the two ways agree. -/
theorem sameUpToAsciiCase_of_ascii {left right : String}
    (leftAscii : ∀ c ∈ left.toList, isAscii c = true)
    (rightAscii : ∀ c ∈ right.toList, isAscii c = true) (same : lower left = lower right) :
    sameUpToAsciiCase left right = true := by
  have folded := lowerChars_eq_of_lower_eq same
  rw [lowerChars, lowerChars, lowerAfter_of_ascii leftAscii, lowerAfter_of_ascii rightAscii]
    at folded
  exact beq_iff_eq.mpr folded

end SensoryProse.Text
