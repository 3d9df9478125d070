import Mathlib.Data.List.Basic

/-!
# Stable sorting

Sorting by a place brings entries into ascending order and leaves those of one place in the order in
which they were given.  There is one listing only that does both.
-/

namespace SensoryProse

theorem zipIdx_pairwise {α : Type} (list : List α) :
    list.zipIdx.Pairwise fun left right => left.2 < right.2 := by
  have places : (list.zipIdx.map Prod.snd).Pairwise (· < ·) := by
    rw [List.zipIdx_map_snd]
    exact List.pairwise_lt_range'
  exact List.pairwise_map.mp places

/-- Sorting leaves entries alone that tie with each other. -/
theorem filter_mergeSort_of_tied {α : Type} {precedes : α → α → Bool}
    (trans : ∀ first second third, precedes first second = true →
      precedes second third = true → precedes first third = true)
    (total : ∀ left right, (precedes left right || precedes right left) = true)
    {test : α → Bool}
    (tied : ∀ left right, test left = true → test right = true → precedes left right = true)
    (given : List α) :
    (given.mergeSort precedes).filter test = given.filter test := by
  -- A tie is sorted as it stands, so sorting keeps it as a sublist, and no other entry of the
  -- sorted list passes the test.
  let equals := given.filter test
  have inOrder : equals.Pairwise fun left right => precedes left right = true := by
    refine List.pairwise_of_forall_mem_list ?_
    intro left leftMember right rightMember
    exact tied left right (List.mem_filter.mp leftMember).2 (List.mem_filter.mp rightMember).2
  have kept : equals.Sublist (given.mergeSort precedes) :=
    List.sublist_mergeSort trans total inOrder List.filter_sublist
  have sublist : equals.Sublist ((given.mergeSort precedes).filter test) := by
    have tested : equals.filter test = equals := by simp [equals, List.filter_filter]
    rw [← tested]
    exact kept.filter test
  have sameLength := ((List.mergeSort_perm given precedes).filter test).length_eq
  exact (sublist.eq_of_length sameLength.symm).symm

/-- A listing in ascending order of places, in which ties are listed as they were given. -/
structure StablySorted {α : Type} (place : α → Int) (given sorted : List α) : Prop where
  perm : sorted.Perm given
  ascending : sorted.Pairwise fun left right => place left ≤ place right
  stable : ∀ value, sorted.filter (place · == value) = given.filter (place · == value)

theorem stablySorted_mergeSort {α : Type} (place : α → Int) (given : List α) :
    StablySorted place given (given.mergeSort fun left right => place left ≤ place right) := by
  have trans : ∀ first second third, decide (place first ≤ place second) = true →
      decide (place second ≤ place third) = true →
      decide (place first ≤ place third) = true := by
    simp only [decide_eq_true_eq]
    omega
  have total : ∀ left right,
      (decide (place left ≤ place right) || decide (place right ≤ place left)) = true := by
    simp only [Bool.or_eq_true, decide_eq_true_eq]
    omega
  refine ⟨List.mergeSort_perm _ _, ?_, ?_⟩
  · simpa using List.pairwise_mergeSort trans total given
  · intro value
    apply filter_mergeSort_of_tied trans total
    intro left right leftTied rightTied
    rw [beq_iff_eq] at leftTied rightTied
    simp [leftTied, rightTied]

section

variable {α : Type} {place : α → Int}

private theorem mem_of_ties {left right : List α}
    (ties : ∀ value, left.filter (place · == value) = right.filter (place · == value))
    {entry : α} (member : entry ∈ left) : entry ∈ right := by
  have tied : entry ∈ left.filter (place · == place entry) :=
    List.mem_filter.mpr ⟨member, beq_self_eq_true _⟩
  rw [ties] at tied
  exact (List.mem_filter.mp tied).1

private theorem head_le {first entry : α} {others : List α}
    (ascending : (first :: others).Pairwise fun left right => place left ≤ place right)
    (member : entry ∈ first :: others) : place first ≤ place entry := by
  rcases List.mem_cons.mp member with rfl | later
  · exact Int.le_refl _
  · exact List.rel_of_pairwise_cons ascending later

/-- An ascending listing is determined by its ties. -/
theorem eq_of_ties (place : α → Int) {left right : List α}
    (leftAscending : left.Pairwise fun first second => place first ≤ place second)
    (rightAscending : right.Pairwise fun first second => place first ≤ place second)
    (ties : ∀ value, left.filter (place · == value) = right.filter (place · == value)) :
    left = right := by
  induction left generalizing right with
  | nil =>
      cases right with
      | nil => rfl
      | cons second seconds =>
          have member := mem_of_ties (fun value => (ties value).symm) List.mem_cons_self
          exact absurd member List.not_mem_nil
  | cons first firsts induction =>
      cases right with
      | nil => exact absurd (mem_of_ties ties List.mem_cons_self) List.not_mem_nil
      | cons second seconds =>
          have atMost : place first ≤ place second :=
            head_le leftAscending (mem_of_ties (fun value => (ties value).symm) List.mem_cons_self)
          have atLeast : place second ≤ place first :=
            head_le rightAscending (mem_of_ties ties List.mem_cons_self)
          have tied : place second = place first := Int.le_antisymm atLeast atMost
          have same : first = second := by
            have heads := ties (place first)
            rw [List.filter_cons_of_pos (by simp), List.filter_cons_of_pos (by simp [tied])]
              at heads
            exact (List.cons.inj heads).1
          subst same
          rw [induction leftAscending.of_cons rightAscending.of_cons]
          intro value
          have whole := ties value
          rw [List.filter_cons, List.filter_cons] at whole
          split at whole
          · exact (List.cons.inj whole).2
          · exact whole

end

/-- A listing in any order in which ties are listed as they were given. -/
structure Rearranges {α : Type} (place : α → Int) (given other : List α) : Prop where
  perm : other.Perm given
  ties : ∀ value, other.filter (place · == value) = given.filter (place · == value)

namespace Rearranges

variable {α : Type} {place : α → Int} {given other : List α}

theorem refl (place : α → Int) (given : List α) : Rearranges place given given :=
  ⟨.refl _, fun _ => rfl⟩

/-- Neighbours of different places may be exchanged. -/
theorem swap {first second : α} (apart : place first ≠ place second) (rest : List α) :
    Rearranges place (first :: second :: rest) (second :: first :: rest) := by
  refine ⟨.swap _ _ _, ?_⟩
  intro value
  by_cases here : place first = value
  · have there : place second ≠ value := fun same => apart (here.trans same.symm)
    simp [here, there]
  · simp [List.filter_cons, here]

theorem filter (rearranges : Rearranges place given other) (test : α → Bool) :
    Rearranges place (given.filter test) (other.filter test) := by
  refine ⟨rearranges.perm.filter test, ?_⟩
  intro value
  rw [List.filter_comm, rearranges.ties, List.filter_comm]

theorem map {β : Type} {placed : β → Int} {view : α → β}
    (places : ∀ entry, placed (view entry) = place entry)
    (rearranges : Rearranges place given other) :
    Rearranges placed (given.map view) (other.map view) := by
  refine ⟨rearranges.perm.map view, ?_⟩
  intro value
  have tested : ((placed · == value) ∘ view) = (place · == value) := by
    funext entry
    rw [Function.comp_apply, places]
  rw [List.filter_map, List.filter_map, tested, rearranges.ties]

/-- Sorting undoes what does not touch the ties. -/
theorem mergeSort_eq (rearranges : Rearranges place given other) :
    (other.mergeSort fun left right => place left ≤ place right) =
      given.mergeSort fun left right => place left ≤ place right := by
  have sorted := stablySorted_mergeSort place given
  have otherSorted := stablySorted_mergeSort place other
  apply eq_of_ties place otherSorted.ascending sorted.ascending
  intro value
  rw [otherSorted.stable, rearranges.ties, sorted.stable]

end Rearranges

/-- Sorting what passes a test is the same as testing what was sorted. -/
theorem filter_mergeSort {α : Type} (place : α → Int) (test : α → Bool) (given : List α) :
    (given.mergeSort fun left right => place left ≤ place right).filter test =
      (given.filter test).mergeSort fun left right => place left ≤ place right := by
  have sorted := stablySorted_mergeSort place given
  have sortedTested := stablySorted_mergeSort place (given.filter test)
  apply eq_of_ties place (sorted.ascending.filter _) sortedTested.ascending
  intro value
  rw [List.filter_comm, sorted.stable, sortedTested.stable, List.filter_comm]

end SensoryProse
