import SensoryProse.Lint.Basic
import SensoryProse.Proofs.Language.Deciding

/-!
# Rules without a say

Two rules with the same conditions apply to the same phrases and are equally specific, so the later
of them has no say in a property that the earlier one sets.  Such a value can be taken away, and a
rule that is left without values can be deleted, without a change in any shape.  That is what the
findings about rules promise.
-/

namespace SensoryProse

namespace Lint.Property

/-- The type of the values of a property. -/
def Value : Property → Type
  | .beforeWord | .afterWord => String
  | .article | .listable => Bool
  | .order => Int
  | .kind => ClauseKind

/-- A property as rules set it and as shapes hold it. -/
def inShapes : (property : Property) → Shape.Property property.Value
  | .beforeWord => .beforeWord
  | .afterWord => .afterWord
  | .article => .article
  | .order => .order
  | .kind => .kind
  | .listable => .listable

theorem mem_all (property : Property) : property ∈ all := by
  cases property <;> decide

theorem isSet_eq (property : Property) (rule : Rule) :
    property.isSet rule = (property.inShapes.ofRule rule).isSome := by
  cases property <;> rfl

theorem ofRule_cleared (property other : Property) (rule : Rule) :
    property.inShapes.ofRule (other.cleared rule) =
      if property = other then none else property.inShapes.ofRule rule := by
  cases property <;> cases other <;> rfl

theorem ofRule_conditionsOf (property : Property) (rule : Rule) :
    property.inShapes.ofRule (conditionsOf rule) = none := by
  cases property <;> rfl

theorem conditionsOf_cleared (property : Property) (rule : Rule) :
    conditionsOf (property.cleared rule) = conditionsOf rule := by
  cases property <;> rfl

end Lint.Property

theorem Shape.eq_of_properties {left right : Shape}
    (same : ∀ property : Lint.Property,
      property.inShapes.ofShape left = property.inShapes.ofShape right) : left = right := by
  cases left
  cases right
  rw [Shape.mk.injEq]
  exact ⟨same .beforeWord, same .afterWord, same .article, same .order, same .kind,
    same .listable⟩

namespace Lint

theorem isIdle_iff {rule : Rule} :
    isIdle rule = true ↔ ∀ property : Property, property.inShapes.ofRule rule = none := by
  simp only [isIdle, List.all_eq_true, Property.mem_all, forall_const, Property.isSet_eq,
    Bool.not_eq_true', Option.isSome_eq_false_iff, Option.isNone_iff_eq_none]

end Lint

theorem Shape.fill_of_idle {rule : Rule} (idle : Lint.isIdle rule = true) (shape : Shape) :
    shape.fill rule = shape := by
  apply Shape.eq_of_properties
  intro property
  rw [property.inShapes.ofShape_fill, Lint.isIdle_iff.mp idle property, Option.or_none]

namespace Lint

theorem applies_of_conditions {rule other : Rule} (same : conditionsOf rule = conditionsOf other)
    (phrase : Phrase) (sense : Option Sense) :
    rule.applies phrase sense = other.applies phrase sense := by
  change (conditionsOf rule).applies phrase sense = (conditionsOf other).applies phrase sense
  rw [same]

theorem specificity_of_conditions {rule other : Rule}
    (same : conditionsOf rule = conditionsOf other) : rule.specificity = other.specificity := by
  change (conditionsOf rule).specificity = (conditionsOf other).specificity
  rw [same]

end Lint

/-- In a listing by rank a view may change where a higher entry has a value anyway. -/
theorem findSome?_congr_of_outranked {α β : Type} {ranks : α → α → Prop}
    {first second : α → Option β} {list : List α}
    (asymm : ∀ left right, ranks left right → ¬ranks right left)
    (ranked : list.Pairwise ranks)
    (outranked : ∀ entry ∈ list, first entry = second entry ∨
      ∃ higher ∈ list, ranks higher entry ∧ first higher = second higher ∧
        (first higher).isSome = true) :
    list.findSome? first = list.findSome? second := by
  induction list with
  | nil => rfl
  | cons head rest induction =>
      obtain ⟨below, restRanked⟩ := List.pairwise_cons.mp ranked
      have here : first head = second head := by
        rcases outranked head List.mem_cons_self with same | ⟨higher, member, above, same, _⟩
        · exact same
        · rcases List.mem_cons.mp member with rfl | later
          · exact same
          · exact absurd (below higher later) (asymm _ _ above)
      rw [List.findSome?_cons, List.findSome?_cons, ← here]
      cases value : first head with
      | some _ => rfl
      | none =>
          apply induction restRanked
          intro entry member
          refine (outranked entry (List.mem_cons_of_mem _ member)).imp_right ?_
          rintro ⟨higher, higherMember, above, same, set⟩
          rcases List.mem_cons.mp higherMember with rfl | later
          · simp [value] at set
          · exact ⟨higher, later, above, same, set⟩

namespace Language

/-- The language with the rule at a place changed. -/
def revised (language : Language) (place : Nat) (change : Rule → Rule) : Language :=
  { language with rules := language.rules.modify place change }

/-- The language whose rule at a place leaves a property open. -/
def leavingOpen (language : Language) (place : Nat) (property : Lint.Property) : Language :=
  language.revised place fun rule => property.cleared rule

/-- The language without the rule at a place. -/
def withoutRule (language : Language) (place : Nat) : Language :=
  { language with rules := language.rules.eraseIdx place }

/-- An earlier rule with the same conditions sets the property. -/
def Shadowed (language : Language) (property : Lint.Property) (rule : Rule) (place : Nat) : Prop :=
  ∃ earlier before, language.rules[before]? = some earlier ∧ before < place ∧
    Lint.conditionsOf earlier = Lint.conditionsOf rule ∧ property.isSet earlier = true

/-- The rule of a table entry once the rule at a place is changed. -/
def revisedRule (place : Nat) (change : Rule → Rule) (entry : Rule × Nat) : Rule :=
  if place = entry.2 then change entry.1 else entry.1

section

variable {language : Language} {place : Nat} {change : Rule → Rule}

theorem zipIdx_revised :
    (language.revised place change).rules.zipIdx =
      language.rules.zipIdx.map fun entry => (revisedRule place change entry, entry.2) := by
  apply List.ext_getElem?
  intro index
  simp [revised, revisedRule, List.getElem?_modify, Option.map_map, Function.comp_def]

section

variable (kept : ∀ rule, Lint.conditionsOf (change rule) = Lint.conditionsOf rule)

include kept

theorem conditionsOf_revisedRule (entry : Rule × Nat) :
    Lint.conditionsOf (revisedRule place change entry) = Lint.conditionsOf entry.1 := by
  unfold revisedRule
  split
  · exact kept entry.1
  · rfl

/-- The same places are listed in the same order while conditions are kept. -/
theorem applicable_revised (phrase : Phrase) (sense : Option Sense) :
    (language.revised place change).applicable phrase sense =
      (language.applicable phrase sense).map fun entry =>
        (revisedRule place change entry, entry.2) := by
  have applies : ∀ entry : Rule × Nat,
      (revisedRule place change entry).applies phrase sense = entry.1.applies phrase sense :=
    fun entry => Lint.applies_of_conditions (conditionsOf_revisedRule kept entry) phrase sense
  have ranks : ∀ left right : Rule × Nat,
      precedes left right =
        precedes (revisedRule place change left, left.2)
          (revisedRule place change right, right.2) := by
    intro left right
    simp only [precedes, Lint.specificity_of_conditions (conditionsOf_revisedRule kept _)]
  rw [applicable, applicable, zipIdx_revised, List.filter_map,
    List.map_mergeSort fun left _ right _ => ranks left right]
  simp only [Function.comp_def, applies]

end

/-- Where a rule applies, the rule that shadows it is listed before it. -/
theorem Shadowed.outranked {property : Lint.Property} {entry : Rule × Nat} {phrase : Phrase}
    {sense : Option Sense} (shadowed : language.Shadowed property entry.1 entry.2)
    (applies : entry.1.applies phrase sense = true) :
    ∃ higher ∈ language.applicable phrase sense, higher.2 < entry.2 ∧ Outranks higher entry ∧
      (property.inShapes.ofRule higher.1).isSome = true := by
  obtain ⟨earlier, before, placed, less, conditions, sets⟩ := shadowed
  have earlierApplies : earlier.applies phrase sense = true := by
    rw [Lint.applies_of_conditions conditions, applies]
  have tied : entry.1.specificity = earlier.specificity :=
    (Lint.specificity_of_conditions conditions).symm
  rw [Lint.Property.isSet_eq] at sets
  exact ⟨(earlier, before), mem_applicable_iff.mpr ⟨placed, earlierApplies⟩, less,
    .inr ⟨tied, less⟩, sets⟩

/-- A rule may be given other values where earlier rules with its conditions have the say. -/
theorem shapeOf_revised
    (kept : ∀ rule, Lint.conditionsOf (change rule) = Lint.conditionsOf rule) {rule : Rule}
    (found : language.rules[place]? = some rule)
    (shadowed : ∀ property : Lint.Property,
      property.inShapes.ofRule (change rule) = property.inShapes.ofRule rule ∨
        language.Shadowed property rule place)
    (phrase : Phrase) (sense : Option Sense) :
    (language.revised place change).shapeOf phrase sense = language.shapeOf phrase sense := by
  apply Shape.eq_of_properties
  intro property
  rw [ofShape_shapeOf, ofShape_shapeOf, applicable_revised kept, List.findSome?_map]
  refine findSome?_congr_of_outranked (fun _ _ => Outranks.asymm)
    (language.applicable_pairwise phrase sense) ?_
  rintro ⟨listed, index⟩ member
  obtain ⟨placed, applies⟩ := mem_applicable_iff.mp member
  by_cases there : place = index
  · subst there
    cases Option.some.inj (placed.symm.trans found)
    rcases shadowed property with alike | shadowed
    · left
      simpa [revisedRule] using alike
    · obtain ⟨higher, higherMember, less, outranks, sets⟩ := shadowed.outranked applies
      have unchanged : revisedRule place change higher = higher.1 :=
        if_neg (Nat.ne_of_gt less)
      exact .inr ⟨higher, higherMember, outranks, by simp [unchanged], by simpa [unchanged]⟩
  · left
    simp [revisedRule, there]

end

/-- Rules that set nothing may be left out of account. -/
theorem shapeOf_eq_of_active {language other : Language}
    (active : language.rules.filter (!Lint.isIdle ·) = other.rules.filter (!Lint.isIdle ·))
    (phrase : Phrase) (sense : Option Sense) :
    language.shapeOf phrase sense = other.shapeOf phrase sense := by
  have skips : ∀ (rules : List Rule) (shape : Shape),
      rules.foldl .fill shape = (rules.filter (!Lint.isIdle ·)).foldl .fill shape := by
    intro rules shape
    rw [List.foldl_filter]
    congr 1
    funext shape rule
    cases idle : Lint.isIdle rule with
    | true => simp [Shape.fill_of_idle idle]
    | false => simp
  have sorted : ∀ language : Language,
      (language.applicableRules phrase sense).filter (!Lint.isIdle ·) =
        ((language.rules.filter (!Lint.isIdle ·)).filter (·.applies phrase sense)).mergeSort
          fun left right => -(left.specificity : Int) ≤ -(right.specificity : Int) := by
    intro language
    rw [applicableRules_eq_mergeSort, filter_mergeSort, List.filter_comm]
  rw [shapeOf, shapeOf, skips, skips (other.applicableRules phrase sense), sorted, sorted, active]

theorem shapeOf_withoutRule_of_idle {language : Language} {place : Nat} {rule : Rule}
    (found : language.rules[place]? = some rule) (idle : Lint.isIdle rule = true)
    (phrase : Phrase) (sense : Option Sense) :
    (language.withoutRule place).shapeOf phrase sense = language.shapeOf phrase sense := by
  apply shapeOf_eq_of_active
  obtain ⟨inside, here⟩ := List.getElem?_eq_some_iff.mp found
  have parts : language.rules =
      language.rules.take place ++ rule :: language.rules.drop (place + 1) := by
    rw [← here, List.getElem_cons_drop, List.take_append_drop]
  rw [withoutRule, List.eraseIdx_eq_take_drop_succ]
  conv => rhs; rw [parts]
  simp [idle]

theorem shapeOf_withoutRule_of_duplicate {language : Language} {place before : Nat} {rule : Rule}
    (found : language.rules[place]? = some rule)
    (repeats : language.rules[before]? = some rule) (less : before < place)
    (phrase : Phrase) (sense : Option Sense) :
    (language.withoutRule place).shapeOf phrase sense = language.shapeOf phrase sense := by
  -- The rule is first deprived of all its values and then deleted.
  let deprived := language.revised place Lint.conditionsOf
  have foundDeprived : deprived.rules[place]? = some (Lint.conditionsOf rule) := by
    simp [deprived, revised, found]
  have idle : Lint.isIdle (Lint.conditionsOf rule) = true :=
    Lint.isIdle_iff.mpr fun property => property.ofRule_conditionsOf rule
  have sameRest : deprived.withoutRule place = language.withoutRule place := by
    simp [deprived, revised, withoutRule, List.eraseIdx_modify_of_eq]
  have shadowed : ∀ property : Lint.Property,
      property.inShapes.ofRule (Lint.conditionsOf rule) = property.inShapes.ofRule rule ∨
        language.Shadowed property rule place := by
    intro property
    cases set : property.isSet rule with
    | true => exact .inr ⟨rule, before, repeats, less, rfl, set⟩
    | false =>
        left
        rw [property.ofRule_conditionsOf]
        rw [Lint.Property.isSet_eq, Option.isSome_eq_false_iff, Option.isNone_iff_eq_none] at set
        exact set.symm
  have kept : ∀ rule, Lint.conditionsOf (Lint.conditionsOf rule) = Lint.conditionsOf rule :=
    fun _ => rfl
  calc (language.withoutRule place).shapeOf phrase sense
      = (deprived.withoutRule place).shapeOf phrase sense := by rw [sameRest]
    _ = deprived.shapeOf phrase sense :=
        shapeOf_withoutRule_of_idle foundDeprived idle phrase sense
    _ = language.shapeOf phrase sense :=
        shapeOf_revised kept found shadowed phrase sense

theorem shapeOf_leavingOpen_of_shadowed {language : Language} {place : Nat} {rule : Rule}
    {property : Lint.Property} (found : language.rules[place]? = some rule)
    (shadowed : language.Shadowed property rule place) (phrase : Phrase) (sense : Option Sense) :
    (language.leavingOpen place property).shapeOf phrase sense = language.shapeOf phrase sense := by
  refine shapeOf_revised (property.conditionsOf_cleared ·) found ?_ phrase sense
  intro other
  rw [other.ofRule_cleared]
  split
  · rename_i same
    exact .inr (same ▸ shadowed)
  · exact .inl rfl

end Language

end SensoryProse
