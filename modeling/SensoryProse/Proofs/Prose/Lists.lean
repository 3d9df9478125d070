import Mathlib.Data.List.SplitBy
import SensoryProse.Prose.Listing

/-!
# Lists of siblings

Siblings fall into groups.  Neighbours that are listable and of one word class share a group, and
any other sibling is a group by itself.  Joining writes the groups one after the other: one that is
listable as a single word, whose items are enumerated, and any other as it stands.
-/

namespace SensoryProse.Listing

/-- What a sibling contributes to a list. -/
def item (sibling : Sibling) : String := spaced sibling.words

/-- Whether neighbours stand in one list. -/
def listedTogether (left right : Sibling) : Bool :=
  left.listable && right.listable && left.wordClass == right.wordClass

def groups (siblings : List Sibling) : List (List Sibling) := siblings.splitBy listedTogether

/-- The items `front`, which may be none, and then the last one. -/
def enumerated (front : List String) (last : String) : String :=
  if front = [] then last else ", ".intercalate front ++ " and " ++ last

/-- How a group is written. -/
def written (group : List Sibling) : List String :=
  match group.getLast? with
  | none => []
  | some last =>
      if last.listable then [enumerated (group.dropLast.map item) (item last)] else last.words

theorem close_reverse_concat (front : List String) (last : String) :
    close (front ++ [last]).reverse = [enumerated front last] := by
  rw [List.reverse_concat]
  cases reversed : front.reverse with
  | nil => simp [close, enumerated, List.reverse_eq_nil_iff.mp reversed]
  | cons next others =>
      have inhabited : front ≠ [] := by
        rintro rfl
        cases reversed
      have same : others.reverse ++ [next] = front := by
        simpa using (congrArg List.reverse reversed).symm
      simp [close, enumerated, inhabited, same]

@[simp]
theorem written_concat (front : List Sibling) (last : Sibling) :
    written (front ++ [last]) =
      if last.listable then [enumerated (front.map item) (item last)] else last.words := by
  simp [written]

theorem written_singleton {sibling : Sibling} (listable : sibling.listable = true) :
    written [sibling] = [item sibling] := by
  simp [written, listable, enumerated]

/-- All siblings are listable and of the given class. -/
def Run (wordClass : WordClass) (siblings : List Sibling) : Prop :=
  ∀ sibling ∈ siblings, sibling.listable = true ∧ sibling.wordClass = wordClass

theorem Run.nil (wordClass : WordClass) : Run wordClass [] := by simp [Run]

theorem Run.singleton {sibling : Sibling} (listable : sibling.listable = true) :
    Run sibling.wordClass [sibling] := by
  simp [Run, listable]

section

variable {wordClass : WordClass} {run : List Sibling}

theorem Run.isChain (isRun : Run wordClass run) :
    run.IsChain fun left right => listedTogether left right := by
  refine (List.pairwise_of_forall_mem_list ?_).isChain
  intro left leftMember right rightMember
  obtain ⟨leftListable, rfl⟩ := isRun left leftMember
  obtain ⟨rightListable, same⟩ := isRun right rightMember
  simp [listedTogether, leftListable, rightListable, same]

theorem groups_of_run (isRun : Run wordClass run) (inhabited : run ≠ []) : groups run = [run] :=
  List.splitBy_of_isChain inhabited isRun.isChain

theorem Run.concat (isRun : Run wordClass run) {sibling : Sibling}
    (listable : sibling.listable = true) (goesOn : run = [] ∨ wordClass = sibling.wordClass) :
    Run sibling.wordClass (run ++ [sibling]) := by
  intro other member
  rcases List.mem_append.mp member with earlier | last
  · obtain ⟨otherListable, rfl⟩ := isRun other earlier
    exact ⟨otherListable, goesOn.resolve_left (List.ne_nil_of_mem earlier)⟩
  · obtain rfl := List.mem_singleton.mp last
    exact ⟨listable, rfl⟩

/-- The items that are kept back of a run come to what the run is written as. -/
theorem close_run (isRun : Run wordClass run) :
    close (run.map item).reverse = (groups run).flatMap written := by
  induction run using List.reverseRecOn with
  | nil => rfl
  | append_singleton front last _ =>
      obtain ⟨listable, _⟩ := isRun last (List.mem_concat_self)
      rw [groups_of_run isRun (List.concat_ne_nil last front), List.map_append, List.map_singleton,
        close_reverse_concat]
      simp [listable]

theorem groups_append_cons {sibling : Sibling} (siblings : List Sibling)
    (apart : ∀ last ∈ run.getLast?, listedTogether last sibling = false) :
    groups (run ++ sibling :: siblings) = groups run ++ groups (sibling :: siblings) :=
  List.splitBy_append_cons siblings apart

theorem groups_cons_of_unlistable {sibling : Sibling} (unlistable : sibling.listable = false)
    (siblings : List Sibling) : groups (sibling :: siblings) = [sibling] :: groups siblings := by
  have apart : ∀ last ∈ [sibling].getLast?, ∀ next ∈ siblings.head?,
      listedTogether last next = false := by
    simp [listedTogether, unlistable]
  exact List.splitBy_append apart

/-- After a run, joining goes on as if the run had been joined together with the rest. -/
theorem joinAfter_eq (isRun : Run wordClass run) (siblings : List Sibling) :
    joinAfter (run.map item).reverse wordClass siblings =
      (groups (run ++ siblings)).flatMap written := by
  induction siblings generalizing run wordClass with
  | nil => rw [List.append_nil, joinAfter, close_run isRun]
  | cons sibling siblings induction =>
      cases listable : sibling.listable with
      | false =>
          have apart : ∀ last ∈ run.getLast?, listedTogether last sibling = false := by
            simp [listedTogether, listable]
          have plain : written [sibling] = sibling.words := by simp [written, listable]
          have behind : joinAfter [] sibling.wordClass siblings =
              (groups siblings).flatMap written :=
            induction (Run.nil sibling.wordClass)
          rw [groups_append_cons siblings apart, groups_cons_of_unlistable listable,
            List.flatMap_append, List.flatMap_cons, plain, ← behind, ← close_run isRun]
          simp [joinAfter, listable]
      | true =>
          by_cases goesOn : run = [] ∨ wordClass = sibling.wordClass
          · have behind := induction (isRun.concat listable goesOn)
            rw [List.append_cons, ← behind]
            simp [joinAfter, listable, goesOn, item]
          · have apart : ∀ last ∈ run.getLast?, listedTogether last sibling = false := by
              intro last isLast
              obtain ⟨_, rfl⟩ := isRun last (List.mem_of_mem_getLast? isLast)
              simp [listedTogether, (not_or.mp goesOn).2]
            have behind : joinAfter [item sibling] sibling.wordClass siblings =
                (groups (sibling :: siblings)).flatMap written :=
              induction (Run.singleton listable)
            rw [groups_append_cons siblings apart, List.flatMap_append, ← behind,
              ← close_run isRun]
            simp [joinAfter, listable, goesOn, item]

theorem join_eq (siblings : List Sibling) :
    join siblings = (groups siblings).flatMap written :=
  joinAfter_eq (Run.nil .none) siblings

end

section

variable {siblings group : List Sibling}

theorem mem_of_mem_groups (member : group ∈ groups siblings) {sibling : Sibling}
    (inGroup : sibling ∈ group) : sibling ∈ siblings := by
  rw [← List.flatten_splitBy listedTogether siblings]
  exact List.mem_flatten_of_mem member inGroup

theorem exists_mem_groups {sibling : Sibling} (member : sibling ∈ siblings) :
    ∃ group ∈ groups siblings, sibling ∈ group := by
  rw [← List.flatten_splitBy listedTogether siblings] at member
  exact List.mem_flatten.mp member

theorem ne_nil_of_mem_groups (member : group ∈ groups siblings) : group ≠ [] :=
  List.ne_nil_of_mem_splitBy member

theorem listedTogether_trans {left middle right : Sibling}
    (first : listedTogether left middle = true) (second : listedTogether middle right = true) :
    listedTogether left right = true := by
  simp only [listedTogether, Bool.and_eq_true, beq_iff_eq] at *
  exact ⟨⟨first.1.1, second.1.2⟩, first.2.trans second.2⟩

theorem run_of_isChain (chained : group.IsChain fun left right => listedTogether left right)
    (several : 2 ≤ group.length) : ∃ wordClass, Run wordClass group := by
  have : IsTrans Sibling fun left right => listedTogether left right = true :=
    ⟨fun _ _ _ => listedTogether_trans⟩
  rw [List.isChain_iff_pairwise] at chained
  match group, several with
  | first :: second :: others, _ =>
      have follows := (List.pairwise_cons.mp chained).1
      simp only [listedTogether, Bool.and_eq_true, beq_iff_eq] at follows
      refine ⟨first.wordClass, List.forall_mem_cons.mpr ⟨⟨?_, rfl⟩, ?_⟩⟩
      · exact (follows second List.mem_cons_self).1.1
      · intro sibling member
        obtain ⟨⟨_, listable⟩, same⟩ := follows sibling member
        exact ⟨listable, same.symm⟩

/-- Only siblings that are listable share a group. -/
theorem run_of_mem_groups (member : group ∈ groups siblings) (several : 2 ≤ group.length) :
    ∃ wordClass, Run wordClass group :=
  run_of_isChain (List.isChain_of_mem_splitBy member) several

theorem eq_singleton {sibling : Sibling} (member : sibling ∈ group) (single : group.length < 2) :
    group = [sibling] := by
  have inhabited := List.length_pos_of_mem member
  obtain ⟨only, rfl⟩ : ∃ only, group = [only] := List.length_eq_one_iff.mp (by omega)
  rw [List.mem_singleton.mp member]

/-- A group is listable as a whole or not at all. -/
theorem listable_eq_of_mem_groups (member : group ∈ groups siblings) {left right : Sibling}
    (leftMember : left ∈ group) (rightMember : right ∈ group) :
    left.listable = right.listable := by
  rcases Nat.lt_or_ge group.length 2 with single | several
  · obtain rfl := eq_singleton leftMember single
    rw [List.mem_singleton.mp rightMember]
  · obtain ⟨_, isRun⟩ := run_of_mem_groups member several
    rw [(isRun left leftMember).1, (isRun right rightMember).1]

theorem close_eq_nil_iff {items : List String} : close items = [] ↔ items = [] := by
  match items with
  | [] => simp [close]
  | [item] => simp [close]
  | last :: next :: others => simp [close]

/-- Joining leaves no words only where no sibling is listable or has words. -/
theorem join_eq_nil_iff :
    join siblings = [] ↔
      ∀ sibling ∈ siblings, sibling.listable = false ∧ sibling.words = [] := by
  have after : ∀ items wordClass, joinAfter items wordClass siblings = [] ↔
      items = [] ∧ ∀ sibling ∈ siblings, sibling.listable = false ∧ sibling.words = [] := by
    induction siblings with
    | nil => simp [joinAfter, close_eq_nil_iff]
    | cons sibling siblings induction =>
        intro items wordClass
        rw [joinAfter, List.forall_mem_cons]
        cases listable : sibling.listable with
        | true =>
            rw [if_pos rfl]
            split <;> simp [induction]
        | false => simp [induction, close_eq_nil_iff]
  simpa [join] using after [] .none

end

end SensoryProse.Listing
