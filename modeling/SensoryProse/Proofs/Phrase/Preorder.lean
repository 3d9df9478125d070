import SensoryProse.Proofs.Phrase.Chains

/-!
# The order of places

Paths are ordered like the words of a dictionary: a path comes before those that go on from it, and
of two that part, the one that takes the earlier modifier comes first.  In this order a tree is gone
through when every phrase is visited before its modifiers and these in order of attachment, which is
how `nodes` lists it.  So the first phrase of the list that shows something stands at the least path
at which something is shown.
-/

namespace SensoryProse.Phrase

section

variable {α : Type}

/-- What `view` shows of the phrase that a path leads to, if it leads to one. -/
def shownAt (view : Phrase → Option α) (tree : Phrase) (path : List Nat) : Option α :=
  (tree.at? path).bind view

variable {view : Phrase → Option α} {tree : Phrase} {value : α}

@[simp] theorem shownAt_nil : shownAt view tree [] = view tree := rfl

@[simp] theorem shownAt_cons {index : Nat} {path : List Nat} :
    shownAt view tree (index :: path) =
      tree.modifiers[index]?.bind fun modifier => shownAt view modifier path := by
  rw [shownAt, at?, Option.bind_assoc]
  rfl

/-- At `path`, and at no path before it, `value` is shown. -/
structure FirstShown (view : Phrase → Option α) (tree : Phrase) (value : α) (path : List Nat) :
    Prop where
  shown : shownAt view tree path = some value
  first : ∀ earlier < path, shownAt view tree earlier = none

theorem findSome?_nodes_eq (view : Phrase → Option α) (tree : Phrase) :
    tree.nodes.findSome? view =
      (view tree).or (tree.modifiers.findSome? fun modifier => modifier.nodes.findSome? view) := by
  have below : ∀ modifiers : List Phrase,
      (modifiers.flatMap nodes).findSome? view =
        modifiers.findSome? fun modifier => modifier.nodes.findSome? view := by
    intro modifiers
    induction modifiers with
    | nil => rfl
    | cons modifier modifiers induction =>
        rw [List.flatMap_cons, List.findSome?_append, induction, List.findSome?_cons]
        cases modifier.nodes.findSome? view <;> rfl
  rw [nodes_eq, List.findSome?_cons, below]
  cases view tree <;> rfl

theorem findSome?_nodes_eq_none_iff :
    tree.nodes.findSome? view = none ↔ ∀ path, shownAt view tree path = none := by
  induction tree using Phrase.induction with
  | step phrase induction =>
      rw [findSome?_nodes_eq, Option.or_eq_none_iff, List.findSome?_eq_none_iff]
      constructor
      · intro ⟨here, below⟩ path
        cases path with
        | nil => exact here
        | cons index path =>
            rw [shownAt_cons, Option.bind_eq_none_iff]
            intro modifier found
            have attached := List.mem_of_getElem? found
            exact (induction modifier attached).mp (below modifier attached) path
      · intro nowhere
        refine ⟨nowhere [], ?_⟩
        intro modifier attached
        obtain ⟨index, found⟩ := List.mem_iff_getElem?.mp attached
        apply (induction modifier attached).mpr
        intro path
        have nothing := nowhere (index :: path)
        rwa [shownAt_cons, found] at nothing

private theorem findSome?_eq_some_iff_index {β : Type} {view : β → Option α} {items : List β} :
    items.findSome? view = some value ↔
      ∃ index : Nat, items[index]?.bind view = some value ∧
        ∀ earlier < index, items[earlier]?.bind view = none := by
  rw [List.findSome?_eq_some_iff]
  constructor
  · intro ⟨front, item, back, split, shown, nothing⟩
    subst split
    refine ⟨front.length, ?_, ?_⟩
    · rw [List.getElem?_append_right (Nat.le_refl _), Nat.sub_self]
      exact shown
    · intro earlier before
      rw [List.getElem?_append_left before, Option.bind_eq_none_iff]
      intro other found
      exact nothing other (List.mem_of_getElem? found)
  · intro ⟨index, shownThere, first⟩
    obtain ⟨item, found, shown⟩ := Option.bind_eq_some_iff.mp shownThere
    obtain ⟨within, rfl⟩ := List.getElem?_eq_some_iff.mp found
    refine ⟨items.take index, items[index], items.drop (index + 1), ?_, shown, ?_⟩
    · rw [List.getElem_cons_drop, List.take_append_drop]
    · intro other member
      obtain ⟨earlier, before, rfl⟩ := List.mem_take_iff_getElem.mp member
      have nothing := first earlier (by omega)
      rwa [List.getElem?_eq_getElem, Option.bind_some] at nothing

theorem firstShown_nil_iff : FirstShown view tree value [] ↔ view tree = some value := by
  constructor
  · intro first
    exact first.shown
  · intro here
    exact ⟨here, fun earlier before => absurd before (List.not_lt_nil earlier)⟩

theorem firstShown_cons_iff {index : Nat} {path : List Nat} :
    FirstShown view tree value (index :: path) ↔
      view tree = none ∧ ∃ modifier, tree.modifiers[index]? = some modifier ∧
        FirstShown view modifier value path ∧
        ∀ earlier < index, ∀ sibling, tree.modifiers[earlier]? = some sibling →
          ∀ path, shownAt view sibling path = none := by
  constructor
  · intro ⟨shown, first⟩
    rw [shownAt_cons] at shown
    obtain ⟨modifier, found, shownBelow⟩ := Option.bind_eq_some_iff.mp shown
    refine ⟨first [] (List.nil_lt_cons _ _), modifier, found, ⟨shownBelow, ?_⟩, ?_⟩
    · intro earlier before
      have nothing := first (index :: earlier) (List.cons_lt_cons_iff.mpr (.inr ⟨rfl, before⟩))
      rwa [shownAt_cons, found] at nothing
    · intro earlier before sibling siblingFound other
      have nothing := first (earlier :: other) (List.cons_lt_cons_iff.mpr (.inl before))
      rwa [shownAt_cons, siblingFound] at nothing
  · intro ⟨nothingHere, modifier, found, ⟨shown, first⟩, nothingEarlier⟩
    constructor
    · rwa [shownAt_cons, found]
    · intro earlier before
      cases earlier with
      | nil => exact nothingHere
      | cons other earlier =>
          rw [shownAt_cons, Option.bind_eq_none_iff]
          intro sibling siblingFound
          rcases List.cons_lt_cons_iff.mp before with atEarlier | ⟨rfl, below⟩
          · exact nothingEarlier other atEarlier sibling siblingFound earlier
          · obtain rfl := Option.some.inj (siblingFound.symm.trans found)
            exact first earlier below

/-- What is shown first is shown at the root, or else in the first modifier that shows anything. -/
theorem exists_firstShown_iff :
    (∃ path, FirstShown view tree value path) ↔
      view tree = some value ∨ view tree = none ∧
        ∃ (index : Nat) (modifier : Phrase), tree.modifiers[index]? = some modifier ∧
          (∃ path, FirstShown view modifier value path) ∧
          ∀ earlier < index, ∀ sibling, tree.modifiers[earlier]? = some sibling →
            ∀ path, shownAt view sibling path = none := by
  constructor
  · intro ⟨path, first⟩
    cases path with
    | nil => exact .inl (firstShown_nil_iff.mp first)
    | cons index path =>
        obtain ⟨nothingHere, modifier, found, firstBelow, nothingEarlier⟩ :=
          firstShown_cons_iff.mp first
        exact .inr ⟨nothingHere, index, modifier, found, ⟨path, firstBelow⟩, nothingEarlier⟩
  · intro shown
    rcases shown with here |
      ⟨nothingHere, index, modifier, found, ⟨path, firstBelow⟩, nothingEarlier⟩
    · exact ⟨[], firstShown_nil_iff.mpr here⟩
    · exact ⟨index :: path,
        firstShown_cons_iff.mpr ⟨nothingHere, modifier, found, firstBelow, nothingEarlier⟩⟩

theorem findSome?_nodes_eq_some_iff :
    tree.nodes.findSome? view = some value ↔ ∃ path, FirstShown view tree value path := by
  induction tree using Phrase.induction with
  | step phrase induction =>
      rw [findSome?_nodes_eq, Option.or_eq_some_iff, exists_firstShown_iff,
        findSome?_eq_some_iff_index]
      apply or_congr_right
      apply and_congr_right
      intro _
      apply exists_congr
      intro index
      constructor
      · intro ⟨shown, nothingEarlier⟩
        obtain ⟨modifier, found, shownBelow⟩ := Option.bind_eq_some_iff.mp shown
        have attached := List.mem_of_getElem? found
        refine ⟨modifier, found, (induction modifier attached).mp shownBelow, ?_⟩
        intro earlier before sibling siblingFound
        exact findSome?_nodes_eq_none_iff.mp
          (Option.bind_eq_none_iff.mp (nothingEarlier earlier before) sibling siblingFound)
      · intro ⟨modifier, found, first, nothingEarlier⟩
        have attached := List.mem_of_getElem? found
        refine ⟨Option.bind_eq_some_iff.mpr
          ⟨modifier, found, (induction modifier attached).mpr first⟩, ?_⟩
        intro earlier before
        apply Option.bind_eq_none_iff.mpr
        intro sibling siblingFound
        exact findSome?_nodes_eq_none_iff.mpr (nothingEarlier earlier before sibling siblingFound)

end

end SensoryProse.Phrase
