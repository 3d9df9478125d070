import SensoryProse.Proofs.Prose.Lists

/-!
# Maximal runs

Siblings are split into runs of neighbours that are listable and of one word class, each as long as
can be, and into siblings that are not listable, each by itself.  There is exactly one such split,
and joining writes its groups one after the other.
-/

namespace SensoryProse.Listing

/-- A group that is written as a unit. -/
inductive IsGroup : List Sibling → Prop
  | plain {sibling : Sibling} (unlistable : sibling.listable = false) : IsGroup [sibling]
  | run {wordClass : WordClass} {group : List Sibling} (inhabited : group ≠ [])
      (isRun : Run wordClass group) : IsGroup group

/-- Neighbouring groups that are one run together. -/
def Mergeable (left right : List Sibling) : Prop := ∃ wordClass, Run wordClass (left ++ right)

/-- A split into groups none of which could take in its neighbour. -/
structure MaximalRuns (siblings : List Sibling) (split : List (List Sibling)) : Prop where
  whole : split.flatten = siblings
  units : ∀ group ∈ split, IsGroup group
  maximal : split.IsChain fun left right => ¬ Mergeable left right

/-- What a group contributes to the words of its siblings. -/
inductive Contributes : List Sibling → List String → Prop
  | plain {sibling : Sibling} (unlistable : sibling.listable = false) :
      Contributes [sibling] sibling.words
  | lone {sibling : Sibling} (listable : sibling.listable = true) :
      Contributes [sibling] [item sibling]
  | listed {wordClass : WordClass} {front : List Sibling} {last : Sibling} (inhabited : front ≠ [])
      (isRun : Run wordClass (front ++ [last])) :
      Contributes (front ++ [last])
        [", ".intercalate (front.map item) ++ " and " ++ item last]

section

variable {group left right : List Sibling}

theorem isGroup_iff :
    IsGroup group ↔ group ≠ [] ∧ group.IsChain fun left right => listedTogether left right := by
  constructor
  · intro isGroup
    cases isGroup with
    | plain _ => exact ⟨List.cons_ne_nil _ _, .singleton _⟩
    | run inhabited isRun => exact ⟨inhabited, isRun.isChain⟩
  · intro ⟨inhabited, chained⟩
    rcases Nat.lt_or_ge group.length 2 with single | several
    · obtain ⟨sibling, member⟩ := List.exists_mem_of_ne_nil group inhabited
      obtain rfl := eq_singleton member single
      cases listable : sibling.listable with
      | false => exact .plain listable
      | true => exact .run inhabited (Run.singleton listable)
    · obtain ⟨_, isRun⟩ := run_of_isChain chained several
      exact .run inhabited isRun

/-- Whether groups are one run shows where they meet. -/
theorem mergeable_iff (leftGroup : IsGroup left) (rightGroup : IsGroup right) :
    Mergeable left right ↔
      ∀ last ∈ left.getLast?, ∀ first ∈ right.head?, listedTogether last first = true := by
  obtain ⟨leftInhabited, leftChained⟩ := isGroup_iff.mp leftGroup
  obtain ⟨rightInhabited, rightChained⟩ := isGroup_iff.mp rightGroup
  constructor
  · intro ⟨_, isRun⟩
    exact (List.isChain_append.mp isRun.isChain).2.2
  · intro meeting
    apply run_of_isChain
    · exact List.isChain_append.mpr ⟨leftChained, rightChained, meeting⟩
    · have := List.length_pos_iff.mpr leftInhabited
      have := List.length_pos_iff.mpr rightInhabited
      rw [List.length_append]
      omega

theorem not_mergeable_iff (leftGroup : IsGroup left) (rightGroup : IsGroup right) :
    ¬ Mergeable left right ↔
      ∃ leftInhabited rightInhabited,
        listedTogether (left.getLast leftInhabited) (right.head rightInhabited) = false := by
  have leftInhabited := (isGroup_iff.mp leftGroup).1
  have rightInhabited := (isGroup_iff.mp rightGroup).1
  rw [mergeable_iff leftGroup rightGroup, List.getLast?_eq_some_getLast leftInhabited,
    List.head?_eq_some_head rightInhabited]
  simp [leftInhabited, rightInhabited]

/-- There is one split into maximal runs. -/
theorem maximalRuns_iff {siblings : List Sibling} {split : List (List Sibling)} :
    MaximalRuns siblings split ↔ groups siblings = split := by
  rw [groups, List.splitBy_eq_iff]
  constructor
  · intro ⟨whole, units, maximal⟩
    refine ⟨whole.symm, ?_, ?_, ?_⟩
    · intro empty
      exact (isGroup_iff.mp (units [] empty)).1 rfl
    · intro group member
      exact (isGroup_iff.mp (units group member)).2
    · apply maximal.imp_of_mem_imp
      intro left right leftMember rightMember
      exact (not_mergeable_iff (units left leftMember) (units right rightMember)).mp
  · intro ⟨whole, inhabited, chained, apart⟩
    have units : ∀ group ∈ split, IsGroup group := by
      intro group member
      exact isGroup_iff.mpr ⟨ne_of_mem_of_not_mem member inhabited, chained group member⟩
    refine ⟨whole.symm, units, ?_⟩
    apply apart.imp_of_mem_imp
    intro left right leftMember rightMember
    exact (not_mergeable_iff (units left leftMember) (units right rightMember)).mpr

theorem Contributes.eq_written {words : List String} (contributes : Contributes group words) :
    words = written group := by
  cases contributes with
  | plain unlistable => simp [written, unlistable]
  | lone listable => exact (written_singleton listable).symm
  | @listed _ front last inhabited isRun =>
      obtain ⟨listable, _⟩ := isRun last List.mem_concat_self
      simp [listable, enumerated, inhabited]

theorem IsGroup.contributes (isGroup : IsGroup group) : Contributes group (written group) := by
  cases isGroup with
  | @plain sibling unlistable =>
      have plain : written [sibling] = sibling.words := by simp [written, unlistable]
      rw [plain]
      exact .plain unlistable
  | @run wordClass _ inhabited isRun =>
      rw [← List.dropLast_concat_getLast inhabited] at isRun ⊢
      generalize group.dropLast = front at isRun ⊢
      generalize group.getLast inhabited = last at isRun ⊢
      obtain ⟨listable, _⟩ := isRun last List.mem_concat_self
      by_cases alone : front = []
      · subst alone
        rw [List.nil_append, written_singleton listable]
        exact .lone listable
      · have listed := Contributes.listed alone isRun
        rwa [listed.eq_written] at listed

theorem forall₂_contributes_iff {split : List (List Sibling)} {parts : List (List String)}
    (units : ∀ group ∈ split, IsGroup group) :
    List.Forall₂ Contributes split parts ↔ parts = split.map written := by
  constructor
  · intro contributions
    induction contributions with
    | nil => rfl
    | cons contributes _ induction =>
        rw [List.map_cons, contributes.eq_written,
          induction (fun group member => units group (List.mem_cons_of_mem _ member))]
  · rintro rfl
    rw [List.forall₂_map_right_iff, List.forall₂_same]
    intro group member
    exact (units group member).contributes

end

/-- Joining siblings comes to what the groups of a split into maximal runs contribute, one after the
other. -/
theorem joins_maximal_runs (siblings : List Sibling) (words : List String) :
    join siblings = words ↔
      ∃ split parts, MaximalRuns siblings split ∧ List.Forall₂ Contributes split parts ∧
        parts.flatten = words := by
  have runs : MaximalRuns siblings (groups siblings) := maximalRuns_iff.mpr rfl
  rw [join_eq, List.flatMap_def]
  constructor
  · intro joined
    exact ⟨groups siblings, (groups siblings).map written, runs,
      (forall₂_contributes_iff runs.units).mpr rfl, joined⟩
  · intro ⟨split, parts, maximal, contributions, joined⟩
    obtain rfl := maximalRuns_iff.mp maximal
    rwa [(forall₂_contributes_iff runs.units).mp contributions] at joined

/-- A list ends where a sibling is of another class and where one is not listable, and the class of
an earlier list does not outlast it. -/
example :
    join [
      ⟨["old"], 0, true, .adjective⟩, ⟨["very", "dim"], 0, true, .adjective⟩,
      ⟨["lamp"], 0, true, .noun⟩, ⟨["by", "the"], 0, false, .preposition⟩,
      ⟨["door"], 0, true, .noun⟩] =
      ["old and very dim", "lamp", "by", "the", "door"] := by
  decide

end SensoryProse.Listing
