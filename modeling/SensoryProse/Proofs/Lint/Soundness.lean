import SensoryProse.Proofs.Lint.Conditions

/-!
# Sound findings

A rule is found to change nothing if it sets nothing, to duplicate an earlier one if it equals it,
and never to win a property if an earlier rule with the same conditions sets another value.  In each
case it has no say, whatever the phrase, its sense and the other rules of the table.
-/

namespace SensoryProse

namespace Lint

/-- Two entries of a listing stand in this order if they are related so. -/
theorem pair_sublist_iff {α : Type} {ranks : α → α → Prop} {list : List α}
    (asymm : ∀ left right, ranks left right → ¬ranks right left) (ranked : list.Pairwise ranks)
    {left right : α} :
    [left, right].Sublist list ↔ left ∈ list ∧ right ∈ list ∧ ranks left right := by
  constructor
  · intro listed
    exact ⟨listed.subset (by simp), listed.subset (by simp),
      List.pairwise_pair.mp (ranked.sublist listed)⟩
  · rintro ⟨leftMember, rightMember, inOrder⟩
    induction ranked with
    | nil => contradiction
    | @cons first others below _ induction =>
        rcases List.mem_cons.mp leftMember with rfl | leftLater
        · rcases List.mem_cons.mp rightMember with rfl | rightLater
          · exact absurd inOrder (asymm _ _ inOrder)
          · exact List.Sublist.cons_cons _ (List.singleton_sublist.mpr rightLater)
        · rcases List.mem_cons.mp rightMember with rfl | rightLater
          · exact absurd inOrder (asymm _ _ (below _ leftLater))
          · exact (induction leftLater rightLater).cons _

theorem mem_tableFindings_iff {entries : List (Rule × Nat)} {finding : Finding} :
    finding ∈ tableFindings entries ↔
      ∃ earlier later, [earlier, later].Sublist entries ∧ finding ∈ pairFindings earlier later := by
  induction entries with
  | nil => simp [tableFindings]
  | cons entry entries induction =>
      rw [tableFindings, List.mem_append, List.mem_flatMap, induction]
      constructor
      · rintro (⟨later, member, reported⟩ | ⟨earlier, later, listed, reported⟩)
        · exact ⟨entry, later, (List.singleton_sublist.mpr member).cons_cons _, reported⟩
        · exact ⟨earlier, later, listed.cons _, reported⟩
      · rintro ⟨earlier, later, listed, reported⟩
        cases listed with
        | cons _ listed => exact .inr ⟨earlier, later, listed, reported⟩
        | cons_cons _ listed => exact .inl ⟨later, List.singleton_sublist.mp listed, reported⟩

theorem pair_sublist_zipIdx_iff {rules : List Rule} {earlier later : Rule × Nat} :
    [earlier, later].Sublist rules.zipIdx ↔
      rules[earlier.2]? = some earlier.1 ∧ rules[later.2]? = some later.1 ∧
        earlier.2 < later.2 := by
  rw [pair_sublist_iff (fun _ _ => Nat.lt_asymm) (zipIdx_pairwise rules),
    List.mem_zipIdx_iff_getElem?, List.mem_zipIdx_iff_getElem?]

theorem mem_conflicts_iff {left right : Rule} {property : Property} :
    property ∈ conflicts left right ↔
      property.isSet left = true ∧ property.isSet right = true ∧
        property.agrees left right = false := by
  simp [conflicts, Property.mem_all, and_assoc]

theorem conflicts_self (rule : Rule) : conflicts rule rule = [] := by
  apply List.eq_nil_iff_forall_not_mem.mpr
  intro property member
  have different := (mem_conflicts_iff.mp member).2.2
  cases property <;> simp [Property.agrees] at different

theorem mem_pairFindings_iff {earlier later : Rule × Nat} {finding : Finding} :
    finding ∈ pairFindings earlier later ↔
      (earlier.1 = later.1 ∧ finding = .duplicate later.2 earlier.2) ∨
        (conditionsOf earlier.1 = conditionsOf later.1 ∧
          ∃ property ∈ conflicts earlier.1 later.1,
            finding = .neverWins later.2 property earlier.2) := by
  unfold pairFindings
  split
  · rename_i same
    simp [same, conflicts_self]
  · rename_i different
    split
    · rename_i conditions
      simp [different, conditions, eq_comm]
    · rename_i conditions
      simp [different, conditions]

section

variable {language : Language}

theorem changesNothing_mem_iff {place : Nat} :
    .changesNothing place ∈ languageFindings language ↔
      ∃ rule, language.rules[place]? = some rule ∧ isIdle rule = true := by
  simp [languageFindings, ruleFindings, mem_tableFindings_iff, mem_pairFindings_iff,
    contractionFindings, List.mem_zipIdx_iff_getElem?]

theorem duplicate_mem_iff {place before : Nat} :
    .duplicate place before ∈ languageFindings language ↔
      ∃ rule, language.rules[before]? = some rule ∧ language.rules[place]? = some rule ∧
        before < place := by
  simp [languageFindings, ruleFindings, mem_tableFindings_iff, mem_pairFindings_iff,
    contractionFindings, pair_sublist_zipIdx_iff]

theorem neverWins_mem_iff {place before : Nat} {property : Property} :
    .neverWins place property before ∈ languageFindings language ↔
      ∃ earlier, language.rules[before]? = some earlier ∧
        ∃ rule, language.rules[place]? = some rule ∧ before < place ∧
          conditionsOf earlier = conditionsOf rule ∧ property ∈ conflicts earlier rule := by
  simp [languageFindings, ruleFindings, mem_tableFindings_iff, mem_pairFindings_iff,
    contractionFindings, pair_sublist_zipIdx_iff, and_assoc]

end

/-- A rule of the table may be deleted without a change in any shape. -/
structure Dispensable (language : Language) (place : Nat) : Prop where
  inTable : place < language.rules.length
  shapeOf : ∀ phrase sense,
    (language.withoutRule place).shapeOf phrase sense = language.shapeOf phrase sense

/-- A rule of the table sets a property and may leave it open without a change in any shape. -/
structure Powerless (language : Language) (place : Nat) (property : Property) : Prop where
  sets : ∃ rule, language.rules[place]? = some rule ∧ property.isSet rule = true
  shapeOf : ∀ phrase sense,
    (language.leavingOpen place property).shapeOf phrase sense = language.shapeOf phrase sense

/-- What the findings about the rules of a language promise. -/
structure FindingsSound (language : Language) : Prop where
  neverWins : ∀ place property earlier,
    .neverWins place property earlier ∈ languageFindings language →
      Powerless language place property
  duplicate : ∀ place earlier,
    .duplicate place earlier ∈ languageFindings language → Dispensable language place
  changesNothing : ∀ place,
    .changesNothing place ∈ languageFindings language → Dispensable language place

/-- A rule that is found to be without effect has none on any phrase. -/
theorem findings_sound (language : Language) : FindingsSound language where
  neverWins place property before reported := by
    obtain ⟨earlier, earlierFound, rule, found, less, conditions, conflict⟩ :=
      neverWins_mem_iff.mp reported
    obtain ⟨earlierSets, sets, _⟩ := mem_conflicts_iff.mp conflict
    have shadowed : language.Shadowed property rule place :=
      ⟨earlier, before, earlierFound, less, conditions, earlierSets⟩
    exact ⟨⟨rule, found, sets⟩, Language.shapeOf_leavingOpen_of_shadowed found shadowed⟩
  duplicate place before reported := by
    obtain ⟨rule, repeats, found, less⟩ := duplicate_mem_iff.mp reported
    exact ⟨(List.getElem?_eq_some_iff.mp found).1,
      Language.shapeOf_withoutRule_of_duplicate found repeats less⟩
  changesNothing place reported := by
    obtain ⟨rule, found, idle⟩ := changesNothing_mem_iff.mp reported
    exact ⟨(List.getElem?_eq_some_iff.mp found).1,
      Language.shapeOf_withoutRule_of_idle found idle⟩

/-- A table in which only the first rule and what the second appends have an effect. -/
def muddled : Language where
  name := "english"
  rules := [
    { wordClass := some .noun, article := some true },
    { wordClass := some .noun, article := some false, afterWord := some "s" },
    { wordClass := some .noun, article := some true },
    { wordClass := some .noun, plural := true }]

def lanterns : Phrase where
  role := .subject
  wordClass := .noun
  text := "lantern"
  context := { plural := true }

/-- All rules apply to the lanterns, and three of the four have findings. -/
theorem muddled_findings_sound :
    .neverWins 1 .article 0 ∈ languageFindings muddled ∧
      .duplicate 2 0 ∈ languageFindings muddled ∧
      .changesNothing 3 ∈ languageFindings muddled ∧
      muddled.shapeOf lanterns none = { afterWord := some "s", article := some true } ∧
      Powerless muddled 1 .article ∧ Dispensable muddled 2 ∧ Dispensable muddled 3 := by
  have neverWins : .neverWins 1 .article 0 ∈ languageFindings muddled := by decide
  have duplicate : .duplicate 2 0 ∈ languageFindings muddled := by decide
  have changesNothing : .changesNothing 3 ∈ languageFindings muddled := by decide
  have all : [(muddled.rules[3], 3), (muddled.rules[0], 0), (muddled.rules[1], 1),
      (muddled.rules[2], 2)].Perm (muddled.applying lanterns none) := by
    decide
  have shape := Language.shapeOf_of_ranked all (by decide)
  have sound := findings_sound muddled
  exact ⟨neverWins, duplicate, changesNothing, shape, sound.neverWins 1 .article 0 neverWins,
    sound.duplicate 2 0 duplicate, sound.changesNothing 3 changesNothing⟩

end Lint

end SensoryProse
