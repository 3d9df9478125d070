import SensoryProse.Proofs.Language.Contracting
import SensoryProse.Prose.Listing

/-!
# Words glued to items

The only item of a list is written as one word, which has the words of the item in it with spaces
between them.  Read as a text, glued words are the words themselves, unless an item has none.  But
contracting goes by words: whatever is glued together, some contraction tells the two apart.
-/

namespace SensoryProse

namespace Listing

/-- The text of words that are written with a space in front of each. -/
def strung (words : List String) : List Char := words.flatMap fun word => ' ' :: word.toList

@[simp] theorem strung_nil : strung [] = [] := rfl

@[simp] theorem strung_cons (word : String) (words : List String) :
    strung (word :: words) = ' ' :: word.toList ++ strung words := rfl

@[simp] theorem strung_append (front back : List String) :
    strung (front ++ back) = strung front ++ strung back := List.flatMap_append

theorem strung_eq_nil_iff {words : List String} : strung words = [] ↔ words = [] := by
  cases words <;> simp

theorem cons_spaced {words : List String} (inhabited : words ≠ []) :
    ' ' :: (spaced words).toList = strung words := by
  induction words with
  | nil => contradiction
  | cons word words induction =>
      cases words with
      | nil => simp [spaced]
      | cons next others =>
          have behind := induction (List.cons_ne_nil next others)
          rw [strung_cons, ← behind, spaced, String.intercalate_cons_cons]
          simp [spaced]

theorem spaced_eq_iff {left right : List String} (leftInhabited : left ≠ [])
    (rightInhabited : right ≠ []) : spaced left = spaced right ↔ strung left = strung right := by
  rw [← cons_spaced leftInhabited, ← cons_spaced rightInhabited, List.cons_inj_right,
    String.toList_inj]

theorem spaced_eq_of_strung {left right : List String} (same : strung left = strung right) :
    spaced left = spaced right := by
  by_cases silent : left = []
  · rw [silent, strung_nil, eq_comm, strung_eq_nil_iff] at same
    rw [silent, same]
  · refine (spaced_eq_iff silent ?_).mpr same
    rintro rfl
    exact silent (strung_eq_nil_iff.mp same)

theorem spaced_of_single {words : List String} (single : words.length = 1) :
    [spaced words] = words := by
  obtain ⟨word, rfl⟩ := List.length_eq_one_iff.mp single
  exact congrArg ([·]) String.intercalate_singleton

/-- An item takes up the space of its words, or of a word if it has none. -/
theorem strung_spaced_length (words : List String) :
    (strung [spaced words]).length = (strung words).length + if words = [] then 1 else 0 := by
  by_cases silent : words = []
  · simp [silent, spaced]
  · rw [← cons_spaced silent]
    simp [silent]

/-- How words are glued where some of them are the words of items that fit.  The words of an item
may be glued in turn. -/
inductive Glued (fits : List String → List String → Prop) : List String → List String → Prop where
  | nil : Glued fits [] []
  | word (word : String) {fine coarse : List String} :
      Glued fits fine coarse →
      Glued fits (word :: fine) (word :: coarse)
  | item {part glued fine coarse : List String} :
      fits part glued →
      Glued fits part glued →
      Glued fits fine coarse →
      Glued fits (part ++ fine) (spaced glued :: coarse)

/-- Up to where nothing is glued, the words are the same, and there the next two are glued. -/
def FirstGlued (fine coarse : List String) : Prop :=
  ∃ front first second fineRest item coarseRest,
    fine = front ++ first :: second :: fineRest ∧ coarse = front ++ item :: coarseRest ∧
      first.length + second.length < item.length

theorem FirstGlued.cons {fine coarse : List String} (word : String)
    (firstGlued : FirstGlued fine coarse) : FirstGlued (word :: fine) (word :: coarse) := by
  obtain ⟨front, first, second, fineRest, item, coarseRest, rfl, rfl, longer⟩ := firstGlued
  exact ⟨word :: front, first, second, fineRest, item, coarseRest, rfl, rfl, longer⟩

theorem FirstGlued.two_le_length {fine coarse : List String}
    (firstGlued : FirstGlued fine coarse) : 2 ≤ fine.length := by
  obtain ⟨front, first, second, fineRest, _, _, rfl, _⟩ := firstGlued
  simp
  omega

namespace Glued

variable {fits : List String → List String → Prop} {fine coarse : List String}

theorem refl (words : List String) : Glued fits words words := by
  induction words with
  | nil => exact .nil
  | cons word words induction => exact .word word induction

theorem append {moreFine moreCoarse : List String} (glued : Glued fits fine coarse)
    (more : Glued fits moreFine moreCoarse) :
    Glued fits (fine ++ moreFine) (coarse ++ moreCoarse) := by
  induction glued with
  | nil => exact more
  | word word _ induction => exact .word word induction
  | item fit part _ _ induction =>
      rw [List.append_assoc]
      exact .item fit part induction

theorem flatMap {α : Type} {list : List α} {fine coarse : α → List String}
    (glued : ∀ entry ∈ list, Glued fits (fine entry) (coarse entry)) :
    Glued fits (list.flatMap fine) (list.flatMap coarse) := by
  induction list with
  | nil => exact .nil
  | cons entry list induction =>
      obtain ⟨here, others⟩ := List.forall_mem_cons.mp glued
      exact here.append (induction others)

/-- Gluing loses no character, and an item without words even leaves a space. -/
theorem strung_length_le (glued : Glued fits fine coarse) :
    (strung fine).length ≤ (strung coarse).length := by
  induction glued with
  | nil => exact Nat.le_refl _
  | word word _ induction => simpa using induction
  | @item part glued _ _ _ _ _ partLength induction =>
      rw [strung_append, ← List.singleton_append, strung_append, List.length_append,
        List.length_append, strung_spaced_length]
      omega

/-- An item takes as much space as the words glued to it only if there are any, and if nothing is
lost in them either. -/
theorem of_item_length {part glued : List String} (inPart : Glued fits part glued)
    (behind : Glued fits fine coarse)
    (same : (strung (part ++ fine)).length = (strung (spaced glued :: coarse)).length) :
    glued ≠ [] ∧ (strung part).length = (strung glued).length ∧
      (strung fine).length = (strung coarse).length := by
  have partLength := inPart.strung_length_le
  have behindLength := behind.strung_length_le
  rw [strung_append, ← List.singleton_append, strung_append, List.length_append,
    List.length_append, strung_spaced_length] at same
  split at same
  · omega
  · exact ⟨‹_›, by omega, by omega⟩

theorem strung_eq (glued : Glued fits fine coarse)
    (same : (strung fine).length = (strung coarse).length) : strung fine = strung coarse := by
  induction glued with
  | nil => rfl
  | word word _ induction =>
      rw [strung_cons, strung_cons, induction (by simpa using same)]
  | item _ inPart behind partEq behindEq =>
      obtain ⟨inhabited, partLength, behindLength⟩ := of_item_length inPart behind same
      rw [strung_append, strung_cons, cons_spaced inhabited, partEq partLength,
        behindEq behindLength]

/-- Where nothing is lost, either nothing is glued or there are first words that are. -/
theorem eq_or_firstGlued (glued : Glued fits fine coarse)
    (same : (strung fine).length = (strung coarse).length) :
    fine = coarse ∨ FirstGlued fine coarse := by
  induction glued with
  | nil => exact .inl rfl
  | word word _ induction =>
      exact (induction (by simpa using same)).imp (congrArg (word :: ·)) (FirstGlued.cons word)
  | @item part glued fine coarse _ inPart behind partCase behindCase =>
      obtain ⟨inhabited, partLength, behindLength⟩ := of_item_length inPart behind same
      match part with
      | [] =>
          have silent : strung glued = [] := List.length_eq_zero_iff.mp partLength.symm
          exact absurd (strung_eq_nil_iff.mp silent) inhabited
      | [only] =>
          have single : [only] = glued :=
            (partCase partLength).resolve_right fun firstGlued => by
              simpa using firstGlued.two_le_length
          have unglued : spaced glued = only := by
            rw [← single]
            exact String.intercalate_singleton
          rw [unglued]
          exact (behindCase behindLength).imp (congrArg (only :: ·)) (FirstGlued.cons only)
      | first :: second :: others =>
          refine .inr ⟨[], first, second, others ++ fine, spaced glued, coarse, rfl, rfl, ?_⟩
          have item := congrArg List.length (cons_spaced inhabited)
          rw [← partLength] at item
          simp only [strung_cons, List.length_append, List.length_cons, String.length_toList]
            at item
          omega

end Glued

end Listing

namespace Contraction

variable {rules : List Contraction}

theorem contract_cons (rules : List Contraction) (word : String) (words : List String) :
    contract rules (word :: words) = contractAfter rules word words := rfl

/-- Contracting goes on behind some words from the word that they have come to. -/
theorem contractAfter_append (rules : List Contraction) (last : String) (front : List String) :
    ∃ written state,
      (∀ back, contractAfter rules last (front ++ back) =
        written ++ contractAfter rules state back) ∧
      (state ∈ last :: front ∨ ∃ rule ∈ rules, state = rule.result) := by
  induction front generalizing last with
  | nil => exact ⟨[], last, fun _ => rfl, .inl List.mem_cons_self⟩
  | cons word front induction =>
      cases found : find? rules last word with
      | some rule =>
          obtain ⟨written, state, goesOn, origin⟩ := induction rule.result
          refine ⟨written, state, ?_, ?_⟩
          · intro back
            rw [List.cons_append, contractAfter, found, ← goesOn]
          · rcases origin with member | result
            · rcases List.mem_cons.mp member with rfl | later
              · exact .inr ⟨rule, List.mem_of_find?_eq_some found, rfl⟩
              · exact .inl (List.mem_cons_of_mem _ (List.mem_cons_of_mem _ later))
            · exact .inr result
      | none =>
          obtain ⟨written, state, goesOn, origin⟩ := induction word
          refine ⟨last :: written, state, ?_, origin.imp_left (List.mem_cons_of_mem _)⟩
          intro back
          rw [List.cons_append, contractAfter, found, List.cons_append, ← goesOn]

/-- The word is a side of no rule. -/
def Inert (rules : List Contraction) (word : String) : Prop :=
  ∀ rule ∈ rules, Text.foldAscii rule.first ≠ Text.foldAscii word ∧
    Text.foldAscii rule.second ≠ Text.foldAscii word

instance (word : String) : Decidable (Inert rules word) :=
  inferInstanceAs (Decidable (∀ _ ∈ rules, _))

namespace Inert

variable {word : String}

theorem find?_eq_none (inert : Inert rules word) (other : String) :
    find? rules word other = none ∧ find? rules other word = none := by
  rw [find?_eq_none_iff, find?_eq_none_iff]
  constructor
  · rintro rule member (⟨first, _⟩ | ⟨_, second⟩)
    · exact (inert rule member).1 first
    · exact (inert rule member).2 second
  · rintro rule member (⟨_, second⟩ | ⟨first, _⟩)
    · exact (inert rule member).2 second
    · exact (inert rule member).1 first

theorem contract_cons (inert : Inert rules word) (words : List String) :
    contract rules (word :: words) = word :: contract rules words := by
  cases words with
  | nil => rfl
  | cons next words =>
      rw [contract, contractAfter, (inert.find?_eq_none next).1]
      rfl

theorem contractAfter_cons (inert : Inert rules word) (last : String) (words : List String) :
    contractAfter rules last (word :: words) = last :: word :: contract rules words := by
  rw [contractAfter, (inert.find?_eq_none last).2]
  exact congrArg (last :: ·) (inert.contract_cons words)

end Inert

section

variable {part : List String}

theorem contract_append_inert (inert : ∀ word ∈ part, Inert rules word) (words : List String) :
    contract rules (part ++ words) = part ++ contract rules words := by
  induction part with
  | nil => rfl
  | cons word part induction =>
      obtain ⟨here, others⟩ := List.forall_mem_cons.mp inert
      rw [List.cons_append, here.contract_cons, induction others, List.cons_append]

theorem contractAfter_append_inert (inert : ∀ word ∈ part, Inert rules word)
    (inhabited : part ≠ []) (last : String) (words : List String) :
    contractAfter rules last (part ++ words) = last :: (part ++ contract rules words) := by
  obtain ⟨word, others, rfl⟩ := List.exists_cons_of_ne_nil inhabited
  obtain ⟨here, inOthers⟩ := List.forall_mem_cons.mp inert
  rw [List.cons_append, here.contractAfter_cons, contract_append_inert inOthers, List.cons_append]

end

/-- The word is longer than both sides of the rule. -/
structure Outgrows (rule : Contraction) (word : String) : Prop where
  first : rule.first.length < word.length
  second : rule.second.length < word.length

section

variable {rule : Contraction} {word : String}

/-- A word that outgrows the only rule is no side of it. -/
theorem Outgrows.inert (outgrows : rule.Outgrows word) : Inert [rule] word := by
  intro other member
  obtain rfl := List.mem_singleton.mp member
  have first := outgrows.first
  have second := outgrows.second
  constructor
  all_goals
    intro same
    have lengths := congrArg List.length same
    rw [Text.foldAscii_length, Text.foldAscii_length] at lengths
    omega

theorem contractAfter_sides (outgrows : rule.Outgrows rule.result) (words : List String) :
    contractAfter [rule] rule.first (rule.second :: words) =
      rule.result :: contract [rule] words := by
  have joined : find? [rule] rule.first rule.second = some rule := by
    simp [find?, joins, Text.sameUpToAsciiCase]
  rw [contractAfter, joined]
  exact outgrows.inert.contract_cons words

/-- Where the sides of a rule have been glued together, contracting parts ways: the result of the
rule is written in one case, and in the other the item or the word in front of it. -/
theorem contract_parts (item : rule.Outgrows word) (result : rule.Outgrows rule.result)
    (front coarseRest fineRest : List String) :
    ∃ written left leftRest rightRest,
      contract [rule] (front ++ word :: coarseRest) = written ++ left :: leftRest ∧
        contract [rule] (front ++ rule.first :: rule.second :: fineRest) =
          written ++ rule.result :: rightRest ∧
        left ∈ front ++ [word] := by
  cases front with
  | nil =>
      exact ⟨[], word, contract [rule] coarseRest, contract [rule] fineRest,
        item.inert.contract_cons coarseRest, contractAfter_sides result fineRest, by simp⟩
  | cons start front =>
      obtain ⟨written, state, goesOn, origin⟩ := contractAfter_append [rule] start front
      have coarse : contractAfter [rule] start (front ++ word :: coarseRest) =
          written ++ state :: word :: contract [rule] coarseRest := by
        rw [goesOn, item.inert.contractAfter_cons]
      cases found : find? [rule] state rule.first with
      | none =>
          refine ⟨written ++ [state], word, contract [rule] coarseRest, contract [rule] fineRest,
            ?_, ?_, by simp⟩
          · rw [List.cons_append, contract_cons, coarse, List.append_assoc]
            rfl
          · have fine := goesOn (rule.first :: rule.second :: fineRest)
            rw [contractAfter, found] at fine
            rw [List.cons_append, contract_cons, fine, contractAfter_sides result,
              List.append_assoc]
            rfl
      | some other =>
          obtain rfl : other = rule := by
            simpa using List.mem_of_find?_eq_some found
          refine ⟨written, state, word :: contract [other] coarseRest,
            contract [other] (other.second :: fineRest), coarse, ?_, ?_⟩
          · have fine := goesOn (other.first :: other.second :: fineRest)
            rw [contractAfter, found] at fine
            rw [List.cons_append, contract_cons, fine]
            exact congrArg (written ++ ·) (result.inert.contract_cons (other.second :: fineRest))
          · rcases origin with member | ⟨only, isOnly, isResult⟩
            · exact List.mem_append_left _ member
            · obtain rfl := List.mem_singleton.mp isOnly
              rw [isResult, (result.inert.find?_eq_none _).1] at found
              contradiction

end

end Contraction

namespace Listing

open Contraction

/-- An item that no rule has to do with, nor with its words. -/
structure InertItem (rules : List Contraction) (part glued : List String) : Prop where
  inhabited : glued ≠ []
  words : ∀ word ∈ part, Inert rules word
  item : Inert rules (spaced glued)

instance (rules : List Contraction) (part glued : List String) :
    Decidable (InertItem rules part glued) :=
  decidable_of_iff
    (glued ≠ [] ∧ (∀ word ∈ part, Inert rules word) ∧ Inert rules (spaced glued))
    ⟨fun ⟨inhabited, words, item⟩ => ⟨inhabited, words, item⟩,
      fun ⟨inhabited, words, item⟩ => ⟨inhabited, words, item⟩⟩

/-- Around inert items contracting does the same, whether they are glued or not. -/
theorem Glued.strung_contract_eq {rules : List Contraction} {fine coarse : List String}
    (glued : Glued (InertItem rules) fine coarse) :
    strung fine = strung coarse ∧
      strung (contract rules fine) = strung (contract rules coarse) ∧
      ∀ last,
        strung (contractAfter rules last fine) = strung (contractAfter rules last coarse) := by
  induction glued with
  | nil => exact ⟨rfl, rfl, fun _ => rfl⟩
  | @word word fine coarse _ induction =>
      obtain ⟨text, _, after⟩ := induction
      refine ⟨congrArg (' ' :: word.toList ++ ·) text, after word, ?_⟩
      intro last
      cases found : find? rules last word with
      | some rule =>
          rw [contractAfter, contractAfter, found]
          exact after rule.result
      | none =>
          rw [contractAfter, contractAfter, found]
          exact congrArg (' ' :: last.toList ++ ·) (after word)
  | @item part glued fine coarse inert _ _ inPart behind =>
      obtain ⟨partText, _, _⟩ := inPart
      obtain ⟨text, contracted, _⟩ := behind
      have item : ∀ words, strung (spaced glued :: words) = strung part ++ strung words := by
        intro words
        rw [partText, ← cons_spaced inert.inhabited, strung_cons]
      have partInhabited : part ≠ [] := by
        rintro rfl
        exact inert.inhabited (strung_eq_nil_iff.mp partText.symm)
      refine ⟨?_, ?_, ?_⟩
      · rw [strung_append, item, text]
      · rw [contract_append_inert inert.words, inert.item.contract_cons, strung_append, item,
          contracted]
      · intro last
        rw [contractAfter_append_inert inert.words partInhabited, inert.item.contractAfter_cons,
          strung_cons, strung_cons, strung_append, item, contracted]

/-- Behind the same words, a word without spaces is told from a shorter one. -/
theorem spaced_ne_of_longer {left right : String} (spaceless : ' ' ∉ right.toList)
    (longer : left.length < right.length) (front leftRest rightRest : List String) :
    spaced (front ++ left :: leftRest) ≠ spaced (front ++ right :: rightRest) := by
  rw [ne_eq, spaced_eq_iff (by simp) (by simp)]
  simp only [strung_append, strung_cons, List.append_cancel_left_eq, List.cons_append,
    List.cons_inj_right]
  intro same
  obtain ⟨more, isRight⟩ : left.toList <+: right.toList := by
    refine List.prefix_of_prefix_length_le (same ▸ List.prefix_append _ _)
      (List.prefix_append _ (strung rightRest)) ?_
    simp only [String.length_toList]
    omega
  rw [← isRight, List.append_assoc, List.append_cancel_left_eq] at same
  cases more with
  | nil =>
      have lengths := congrArg List.length isRight
      simp only [List.append_nil, String.length_toList] at lengths
      omega
  | cons char more =>
      cases leftRest with
      | nil => simp at same
      | cons next leftRest =>
          rw [strung_cons, List.cons_append, List.cons_append] at same
          apply spaceless
          rw [← isRight, ← List.head_eq_of_cons_eq same]
          simp

theorem length_lt_strung {word : String} {words : List String} (member : word ∈ words) :
    word.length < (strung words).length := by
  obtain ⟨front, back, rfl⟩ := List.append_of_mem member
  simp [String.length_toList]
  omega

/-- Two words that are glued are told from the item by a contraction that joins them. -/
theorem FirstGlued.exists_rules {fine coarse : List String} (firstGlued : FirstGlued fine coarse) :
    ∃ rules, spaced (contract rules coarse) ≠ spaced (contract rules fine) := by
  obtain ⟨front, first, second, fineRest, item, coarseRest, rfl, rfl, longer⟩ := firstGlued
  -- The result is longer than whatever it could be held against.
  let result := String.ofList (List.replicate (strung (front ++ item :: coarseRest)).length 'a')
  have known : ∀ word ∈ front ++ item :: coarseRest, word.length < result.length := by
    intro word member
    rw [← String.length_toList (s := result), String.toList_ofList, List.length_replicate]
    exact length_lt_strung member
  have spaceless : ' ' ∉ result.toList := by
    simp [result, String.toList_ofList]
  have itemKnown := known item (by simp)
  have itemOutgrows : Outgrows { first, second, result } item :=
    ⟨by dsimp only; omega, by dsimp only; omega⟩
  have resultOutgrows : Outgrows { first, second, result } result :=
    ⟨by dsimp only; omega, by dsimp only; omega⟩
  obtain ⟨written, left, leftRest, rightRest, coarse, fine, member⟩ :=
    contract_parts itemOutgrows resultOutgrows front coarseRest fineRest
  refine ⟨[{ first, second, result }], ?_⟩
  rw [coarse, fine]
  refine spaced_ne_of_longer spaceless (known left ?_) written leftRest rightRest
  rw [List.append_cons]
  exact List.mem_append_left _ member

/-- Words that take up no space are none, or are a single empty one. -/
theorem spaced_eq_empty_iff {words : List String} :
    spaced words = "" ↔ words = [] ∨ words = [""] := by
  by_cases silent : words = []
  · simp [silent, spaced]
  · rw [← String.toList_eq_nil_iff, ← List.cons_inj_right ' ', cons_spaced silent]
    obtain ⟨word, others, rfl⟩ := List.exists_cons_of_ne_nil silent
    simp [strung_eq_nil_iff]

namespace Glued

variable {fits : List String → List String → Prop} {fine coarse : List String}

/-- Glued words make up the text of the words themselves just if no item is without words, or if
nothing is written at all. -/
theorem spaced_eq_iff (glued : Glued fits fine coarse) :
    spaced coarse = spaced fine ↔
      (strung fine).length = (strung coarse).length ∨ fine = [] ∧ coarse = [""] := by
  by_cases silent : fine = []
  · subst silent
    change spaced coarse = "" ↔ _
    have none : ([] : List Char).length = (strung coarse).length ↔ coarse = [] := by
      rw [List.length_nil, eq_comm, List.length_eq_zero_iff, strung_eq_nil_iff]
    rw [spaced_eq_empty_iff, strung_nil, none]
    simp
  · have glues : coarse ≠ [] := by
      rintro rfl
      have length := glued.strung_length_le
      simp [strung_eq_nil_iff, silent] at length
    rw [Listing.spaced_eq_iff glues silent]
    simp only [silent, false_and, or_false]
    exact ⟨fun same => congrArg List.length same.symm, fun same => (glued.strung_eq same).symm⟩

/-- No contraction whatever tells glued words from the words themselves just if nothing is glued, or
if nothing is written at all. -/
theorem contracts_alike_iff (glued : Glued fits fine coarse) :
    (∀ rules, spaced (contract rules coarse) = spaced (contract rules fine)) ↔
      coarse = fine ∨ fine = [] ∧ coarse = [""] := by
  constructor
  · intro alike
    have plain := alike []
    rw [contract_of_no_rules, contract_of_no_rules, glued.spaced_eq_iff] at plain
    rcases plain with sameLength | silent
    · rcases glued.eq_or_firstGlued sameLength with same | firstGlued
      · exact .inl same.symm
      · obtain ⟨rules, different⟩ := firstGlued.exists_rules
        exact absurd (alike rules) different
    · exact .inr silent
  · rintro (rfl | ⟨rfl, rfl⟩) rules
    · rfl
    · simp [contract, contractAfter, spaced]

end Glued

end Listing

end SensoryProse
