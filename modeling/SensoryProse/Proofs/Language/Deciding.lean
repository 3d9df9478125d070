import SensoryProse.Language.English
import SensoryProse.Proofs.Sorting

/-!
# Which rule decides a property

Of two entries of a rule table the more specific one outranks the other, and of two equally specific
ones the one that stands first.  The rules that apply to a phrase are listed in this order, and a
shape keeps the first value that it is given; so each property is decided by the one entry that
outranks all others that set it.
-/

namespace SensoryProse

/-- A property as rules set it and as shapes hold it.  A shape keeps the first value it is given. -/
structure Shape.Property (α : Type) where
  ofRule : Rule → Option α
  ofShape : Shape → Option α
  ofShape_empty : ofShape {} = none := by rfl
  ofShape_fill : ∀ shape rule,
    ofShape (shape.fill rule) = (ofShape shape).or (ofRule rule) := by intros; rfl

namespace Shape.Property

def beforeWord : Property String where
  ofRule := Rule.beforeWord
  ofShape := Shape.beforeWord

def afterWord : Property String where
  ofRule := Rule.afterWord
  ofShape := Shape.afterWord

def article : Property Bool where
  ofRule := Rule.article
  ofShape := Shape.article

def order : Property Int where
  ofRule := Rule.order
  ofShape := Shape.order

def kind : Property ClauseKind where
  ofRule := Rule.kind
  ofShape := Shape.kind

def listable : Property Bool where
  ofRule := Rule.listable
  ofShape := Shape.listable

/-- What is set stays, and what is open is taken from the first rule that sets it. -/
theorem ofShape_foldl_fill {α : Type} (property : Property α) (rules : List Rule)
    (shape : Shape) :
    property.ofShape (rules.foldl .fill shape) =
      (property.ofShape shape).or (rules.findSome? property.ofRule) := by
  induction rules generalizing shape with
  | nil => simp
  | cons rule rules induction =>
      rw [List.foldl_cons, induction, property.ofShape_fill, List.findSome?_cons, Option.or_assoc]
      cases property.ofRule rule <;> rfl

end Shape.Property

namespace Language

/-- Whether the first of two table entries has the say over the second. -/
def Outranks (left right : Rule × Nat) : Prop :=
  right.1.specificity < left.1.specificity ∨
    right.1.specificity = left.1.specificity ∧ left.2 < right.2

instance (left right : Rule × Nat) : Decidable (Outranks left right) :=
  inferInstanceAs (Decidable (_ ∨ _ ∧ _))

theorem Outranks.asymm {left right : Rule × Nat} (outranks : Outranks left right) :
    ¬Outranks right left := by
  unfold Outranks at *
  omega

theorem precedes_trans (first second third : Rule × Nat)
    (left : precedes first second = true) (right : precedes second third = true) :
    precedes first third = true := by
  simp only [precedes, decide_eq_true_eq] at *
  omega

theorem precedes_total (left right : Rule × Nat) :
    (precedes left right || precedes right left) = true := by
  simp only [precedes, Bool.or_eq_true, decide_eq_true_eq]
  omega

section

variable (language : Language) (phrase : Phrase) (sense : Option Sense)

/-- The table entries whose rules apply to a phrase, in table order. -/
def applying : List (Rule × Nat) :=
  language.rules.zipIdx.filter fun entry => entry.1.applies phrase sense

theorem applying_pairwise :
    (language.applying phrase sense).Pairwise fun left right => left.2 < right.2 :=
  (zipIdx_pairwise language.rules).filter _

theorem applicable_perm :
    (language.applicable phrase sense).Perm (language.applying phrase sense) :=
  List.mergeSort_perm _ _

/-- Sorting leaves equally specific entries in table order. -/
theorem applicable_filter_specificity (score : Nat) :
    (language.applicable phrase sense).filter (·.1.specificity == score) =
      (language.applying phrase sense).filter (·.1.specificity == score) := by
  apply filter_mergeSort_of_tied precedes_trans precedes_total
  intro left right leftScore rightScore
  rw [beq_iff_eq] at leftScore rightScore
  simp [precedes, leftScore, rightScore]

/-- The entries whose rules apply to a phrase are listed in the order of their rank. -/
theorem applicable_pairwise : (language.applicable phrase sense).Pairwise Outranks := by
  rw [List.pairwise_iff_forall_sublist]
  intro left right listed
  have sorted := List.pairwise_mergeSort precedes_trans precedes_total
    (language.applying phrase sense)
  have atLeast : precedes left right = true :=
    List.pairwise_iff_forall_sublist.mp sorted listed
  simp only [precedes, decide_eq_true_eq] at atLeast
  rcases Nat.lt_or_eq_of_le atLeast with less | equal
  · exact .inl less
  · have both : [left, right].filter (·.1.specificity == left.1.specificity) = [left, right] := by
      simp [equal]
    have inTable : [left, right].Sublist (language.applying phrase sense) := by
      have inTie := listed.filter (·.1.specificity == left.1.specificity)
      rw [both, applicable_filter_specificity] at inTie
      exact inTie.trans List.filter_sublist
    exact .inr ⟨equal, List.pairwise_iff_forall_sublist.mp
      (language.applying_pairwise phrase sense) inTable⟩

/-- The entry that has the say over a property: it applies, sets the property and outranks every
other entry that does. -/
structure Decides {α : Type} (property : Rule → Option α) (entry : Rule × Nat) : Prop where
  applies : entry ∈ language.applying phrase sense
  sets : (property entry.1).isSome = true
  outranks : ∀ other ∈ language.applying phrase sense, (property other.1).isSome = true →
    other = entry ∨ Outranks entry other

/-- The value that a property has in the shape of a phrase, if rank alone decides it. -/
structure Decided {α : Type} (property : Rule → Option α) (value : Option α) : Prop where
  eq_some_iff : ∀ chosen, value = some chosen ↔
    ∃ entry, language.Decides phrase sense property entry ∧ property entry.1 = some chosen
  eq_none_iff : value = none ↔
    ∀ rule ∈ language.rules, rule.applies phrase sense = true → property rule = none

/-- Without their places, the rules that apply to a phrase are sorted by falling specificity. -/
theorem applicableRules_eq_mergeSort :
    language.applicableRules phrase sense =
      (language.rules.filter (·.applies phrase sense)).mergeSort fun left right =>
        -(left.specificity : Int) ≤ -(right.specificity : Int) := by
  have table : (language.rules.zipIdx.filter fun entry => entry.1.applies phrase sense).map
      Prod.fst = language.rules.filter (·.applies phrase sense) := by
    conv => rhs; rw [← List.zipIdx_map_fst 0 language.rules, List.filter_map]
    rfl
  rw [applicableRules, applicable, ← table]
  apply List.map_mergeSort
  intro left _ right _
  simp only [precedes, decide_eq_decide]
  omega

variable {language phrase sense}

theorem mem_applying_iff {entry : Rule × Nat} :
    entry ∈ language.applying phrase sense ↔
      language.rules[entry.2]? = some entry.1 ∧ entry.1.applies phrase sense = true := by
  rw [applying, List.mem_filter, List.mem_zipIdx_iff_getElem?]

theorem mem_applicable_iff {entry : Rule × Nat} :
    entry ∈ language.applicable phrase sense ↔
      language.rules[entry.2]? = some entry.1 ∧ entry.1.applies phrase sense = true := by
  rw [(language.applicable_perm phrase sense).mem_iff, mem_applying_iff]

/-- What applies to a phrase can be told from the listing. -/
theorem applies_of_applicable {other : Phrase} {otherSense : Option Sense}
    (same : language.applicable phrase sense = language.applicable other otherSense) {rule : Rule}
    (member : rule ∈ language.rules) :
    rule.applies phrase sense = rule.applies other otherSense := by
  obtain ⟨place, found⟩ := List.mem_iff_getElem?.mp member
  have listed := congrArg ((rule, place) ∈ ·) same
  simpa only [mem_applicable_iff, found, true_and, eq_iff_iff, ← Bool.eq_iff_iff] using listed

/-- What decides a property is at least as specific as whatever else sets it, and stands before all
that ties with it. -/
theorem decides_iff {α : Type} {property : Rule → Option α} {entry : Rule × Nat} :
    language.Decides phrase sense property entry ↔
      entry ∈ language.applying phrase sense ∧ (property entry.1).isSome = true ∧
        ∀ other ∈ language.applying phrase sense, (property other.1).isSome = true →
          other.1.specificity < entry.1.specificity ∨
            other.1.specificity = entry.1.specificity ∧ entry.2 ≤ other.2 := by
  constructor
  · intro decides
    refine ⟨decides.applies, decides.sets, ?_⟩
    intro other member otherSets
    rcases decides.outranks other member otherSets with same | less | ⟨tied, less⟩
    · rw [same]
      exact .inr ⟨rfl, Nat.le_refl _⟩
    · exact .inl less
    · exact .inr ⟨tied, Nat.le_of_lt less⟩
  · rintro ⟨applies, sets, first⟩
    refine ⟨applies, sets, ?_⟩
    intro other member otherSets
    rcases first other member otherSets with less | ⟨tied, atMost⟩
    · exact .inr (.inl less)
    · rcases Nat.lt_or_eq_of_le atMost with before | here
      · exact .inr (.inr ⟨tied, before⟩)
      · have placed := (mem_applying_iff.mp applies).1
        rw [here, (mem_applying_iff.mp member).1] at placed
        exact .inl (Prod.ext (Option.some.inj placed) here.symm)

theorem Decides.unique {α : Type} {property : Rule → Option α} {entry other : Rule × Nat}
    (decides : language.Decides phrase sense property entry)
    (otherDecides : language.Decides phrase sense property other) : entry = other := by
  rcases decides.outranks other otherDecides.applies otherDecides.sets with same | above
  · exact same.symm
  · rcases otherDecides.outranks entry decides.applies decides.sets with same | below
    · exact same
    · exact absurd below above.asymm

/-- The first rule of the listing that sets a property decides it. -/
theorem decides_of_findSome? {α : Type} {property : Rule → Option α} {chosen : α}
    (first : (language.applicable phrase sense).findSome? (fun entry => property entry.1) =
      some chosen) :
    ∃ entry, language.Decides phrase sense property entry ∧ property entry.1 = some chosen := by
  obtain ⟨before, entry, behind, listing, sets, unset⟩ := List.findSome?_eq_some_iff.mp first
  have members : ∀ other, other ∈ language.applying phrase sense ↔
      other ∈ before ++ entry :: behind := by
    intro other
    rw [← listing, (language.applicable_perm phrase sense).mem_iff]
  have ranked := language.applicable_pairwise phrase sense
  rw [listing, List.pairwise_append] at ranked
  refine ⟨entry, ⟨?_, by simp [sets], ?_⟩, sets⟩
  · rw [members]
    exact List.mem_append_right _ List.mem_cons_self
  · intro other member otherSets
    rw [members] at member
    rcases List.mem_append.mp member with earlier | later
    · simp [unset other earlier] at otherSets
    · rcases List.mem_cons.mp later with same | later
      · exact .inl same
      · exact .inr ((List.pairwise_cons.mp ranked.2.1).1 other later)

theorem findSome?_applicable_eq_none_iff {α : Type} {property : Rule → Option α} :
    (language.applicable phrase sense).findSome? (fun entry => property entry.1) = none ↔
      ∀ rule ∈ language.rules, rule.applies phrase sense = true → property rule = none := by
  rw [List.findSome?_eq_none_iff]
  constructor
  · intro unset rule member applies
    obtain ⟨place, entryMember⟩ : ∃ place, (rule, place) ∈ language.rules.zipIdx := by
      rw [← List.zipIdx_map_fst 0 language.rules] at member
      obtain ⟨entry, entryMember, rfl⟩ := List.mem_map.mp member
      exact ⟨entry.2, entryMember⟩
    apply unset (rule, place)
    rw [(language.applicable_perm phrase sense).mem_iff]
    exact List.mem_filter.mpr ⟨entryMember, applies⟩
  · intro unset entry member
    rw [(language.applicable_perm phrase sense).mem_iff] at member
    obtain ⟨entryMember, applies⟩ := List.mem_filter.mp member
    exact unset entry.1 (List.fst_mem_of_mem_zipIdx entryMember) applies

private theorem findSome?_filter_isSome {α β : Type} (view : α → Option β) (list : List α) :
    (list.filter fun entry => (view entry).isSome).findSome? view = list.findSome? view := by
  induction list with
  | nil => rfl
  | cons entry list induction =>
      cases found : view entry with
      | none => simp [found, induction]
      | some value => simp [found]

private theorem findSome?_filter {α β : Type} (test : α → Bool) (view : α → Option β)
    (list : List α) :
    (list.filter test).findSome? view =
      list.findSome? fun entry => if test entry then view entry else none := by
  induction list with
  | nil => rfl
  | cons entry list induction =>
      by_cases passed : test entry = true
      · simp [passed, List.findSome?_cons, induction]
      · simp [passed, induction]

theorem ofShape_shapeOf {α : Type} (property : Shape.Property α) :
    property.ofShape (language.shapeOf phrase sense) =
      (language.applicable phrase sense).findSome? fun entry => property.ofRule entry.1 := by
  rw [shapeOf, property.ofShape_foldl_fill, property.ofShape_empty, Option.none_or,
    applicableRules, List.findSome?_map]
  rfl

/-- There is one way to list entries by rank. -/
theorem eq_of_ranked {listing other : List (Rule × Nat)} (ranked : listing.Pairwise Outranks)
    (otherRanked : other.Pairwise Outranks) (perm : listing.Perm other) : listing = other :=
  perm.eq_of_pairwise (fun _ _ _ _ outranks below => absurd below outranks.asymm) ranked otherRanked

/-- A property is read off the entries that set it, once these are listed by rank. -/
theorem ofShape_shapeOf_of_ranked {α : Type} (property : Shape.Property α) {language : Language}
    {listing : List (Rule × Nat)}
    (all : listing.Perm
      (language.rules.zipIdx.filter fun entry => (property.ofRule entry.1).isSome))
    (ranked : listing.Pairwise Outranks) (phrase : Phrase) (sense : Option Sense) :
    property.ofShape (language.shapeOf phrase sense) =
      listing.findSome? fun entry =>
        if entry.1.applies phrase sense then property.ofRule entry.1 else none := by
  have setters : ((language.applicable phrase sense).filter fun entry =>
      (property.ofRule entry.1).isSome) =
      listing.filter fun entry => entry.1.applies phrase sense := by
    apply eq_of_ranked ((language.applicable_pairwise phrase sense).filter _) (ranked.filter _)
    refine ((language.applicable_perm phrase sense).filter _).trans ?_
    rw [applying, List.filter_comm]
    exact (all.filter _).symm
  rw [ofShape_shapeOf, ← findSome?_filter_isSome, setters, findSome?_filter]

/-- A shape is filled by the entries that apply, once these are listed by rank. -/
theorem shapeOf_of_ranked {language : Language} {phrase : Phrase} {sense : Option Sense}
    {listing : List (Rule × Nat)} (all : listing.Perm (language.applying phrase sense))
    (ranked : listing.Pairwise Outranks) :
    language.shapeOf phrase sense = (listing.map Prod.fst).foldl .fill {} := by
  have listed : language.applicable phrase sense = listing :=
    eq_of_ranked (language.applicable_pairwise phrase sense) ranked
      ((language.applicable_perm phrase sense).trans all.symm)
  rw [shapeOf, applicableRules, listed]

theorem decided_shapeOf {α : Type} (property : Shape.Property α) :
    language.Decided phrase sense property.ofRule
      (property.ofShape (language.shapeOf phrase sense)) := by
  rw [ofShape_shapeOf]
  constructor
  · intro chosen
    constructor
    · exact decides_of_findSome?
    · rintro ⟨entry, decides, sets⟩
      cases found : (language.applicable phrase sense).findSome?
          fun entry => property.ofRule entry.1 with
      | none =>
          obtain ⟨member, applies⟩ := List.mem_filter.mp decides.applies
          have unset := findSome?_applicable_eq_none_iff.mp found entry.1
            (List.fst_mem_of_mem_zipIdx member) applies
          rw [sets] at unset
          contradiction
      | some value =>
          obtain ⟨other, otherDecides, otherSets⟩ := decides_of_findSome? found
          rw [← sets, ← otherSets, decides.unique otherDecides]
  · exact findSome?_applicable_eq_none_iff

/-- Where a rule that applies sets a property, some entry decides it that is at least as
specific. -/
theorem exists_decides {α : Type} (property : Shape.Property α) {rule : Rule}
    (member : rule ∈ language.rules) (applies : rule.applies phrase sense = true)
    (sets : (property.ofRule rule).isSome = true) :
    ∃ entry, language.Decides phrase sense property.ofRule entry ∧
      property.ofShape (language.shapeOf phrase sense) = property.ofRule entry.1 ∧
      rule.specificity ≤ entry.1.specificity := by
  have decided : language.Decided phrase sense property.ofRule
      (property.ofShape (language.shapeOf phrase sense)) := decided_shapeOf property
  cases held : property.ofShape (language.shapeOf phrase sense) with
  | none =>
      rw [decided.eq_none_iff.mp held rule member applies] at sets
      contradiction
  | some chosen =>
      obtain ⟨entry, decides, chooses⟩ := (decided.eq_some_iff chosen).mp held
      obtain ⟨place, placed⟩ := List.getElem?_of_mem member
      have applying : (rule, place) ∈ language.applying phrase sense :=
        mem_applying_iff.mpr ⟨placed, applies⟩
      refine ⟨entry, decides, chooses.symm, ?_⟩
      rcases (decides_iff.mp decides).2.2 (rule, place) applying sets with less | ⟨tied, _⟩
      · exact Nat.le_of_lt less
      · exact Nat.le_of_eq tied

/-- Whatever a shape holds was set by a rule of the table. -/
theorem exists_rule_of_shapeOf {α : Type} {property : Shape.Property α} {value : α}
    (held : property.ofShape (language.shapeOf phrase sense) = some value) :
    ∃ rule ∈ language.rules, property.ofRule rule = some value := by
  obtain ⟨entry, decides, sets⟩ := ((decided_shapeOf property).eq_some_iff value).mp held
  exact ⟨entry.1, List.fst_mem_of_mem_zipIdx (List.mem_filter.mp decides.applies).1, sets⟩

end

/-- How a table shapes a phrase: its rules that apply are listed once each in the order of their
rank, and the rank decides every property. -/
structure ShapesByRank (language : Language) (phrase : Phrase) (sense : Option Sense) : Prop where
  listed : (language.applicable phrase sense).Perm (language.applying phrase sense)
  ranked : (language.applicable phrase sense).Pairwise Outranks
  beforeWord : language.Decided phrase sense Rule.beforeWord
    (language.shapeOf phrase sense).beforeWord
  afterWord : language.Decided phrase sense Rule.afterWord
    (language.shapeOf phrase sense).afterWord
  article : language.Decided phrase sense Rule.article (language.shapeOf phrase sense).article
  order : language.Decided phrase sense Rule.order (language.shapeOf phrase sense).order
  kind : language.Decided phrase sense Rule.kind (language.shapeOf phrase sense).kind
  listable : language.Decided phrase sense Rule.listable (language.shapeOf phrase sense).listable

/-- Every property of a shape is decided by the most specific rule that sets it, and among equals by
the one that stands first in the table. -/
theorem shapeOf_by_rank (language : Language) (phrase : Phrase) (sense : Option Sense) :
    language.ShapesByRank phrase sense where
  listed := language.applicable_perm phrase sense
  ranked := language.applicable_pairwise phrase sense
  beforeWord := decided_shapeOf .beforeWord
  afterWord := decided_shapeOf .afterWord
  article := decided_shapeOf .article
  order := decided_shapeOf .order
  kind := decided_shapeOf .kind
  listable := decided_shapeOf .listable

/-- The rule for *saw* outranks the one that appends *ed* to past verbs, though what it sets is
empty. -/
example :
    (english.shapeOf
        { role := .verb, wordClass := .verb, text := "saw", context := { tense := .past } }
        (some { name := "saw", wordClass := .verb })).afterWord = some "" := by
  cbv

end Language

end SensoryProse
