/-!
# Semantic tags

A set of tags is held as a strictly ascending list, so that two sets with the same members are
equal and a set has one listing.
-/

namespace SensoryProse

structure Tags where
  toList : List String
  ascending : toList.Pairwise (· < ·)
  deriving DecidableEq, Repr

namespace Tags

def empty : Tags := ⟨[], .nil⟩

instance : Inhabited Tags := ⟨empty⟩

def contains (tags : Tags) (tag : String) : Bool := tags.toList.contains tag

instance : Membership String Tags := ⟨fun tags tag => tag ∈ tags.toList⟩

def insertAscending (tag : String) : List String → List String
  | [] => [tag]
  | first :: rest =>
      if tag < first then tag :: first :: rest
      else if tag = first then first :: rest
      else first :: insertAscending tag rest

theorem mem_insertAscending {tag other : String} {list : List String} :
    other ∈ insertAscending tag list ↔ other = tag ∨ other ∈ list := by
  induction list with
  | nil => simp [insertAscending]
  | cons first rest induction =>
      by_cases before : tag < first
      · simp [insertAscending, before]
      · by_cases same : tag = first
        · subst same
          rw [insertAscending, if_neg before, if_pos rfl]
          simp
        · simp only [insertAscending, before, same, if_false, List.mem_cons, induction]
          constructor <;> intro member <;> rcases member with member | member | member <;>
            simp [member]

theorem pairwise_insertAscending {tag : String} {list : List String}
    (ascending : list.Pairwise (· < ·)) : (insertAscending tag list).Pairwise (· < ·) := by
  induction list with
  | nil => simp [insertAscending]
  | cons first rest induction =>
      rw [List.pairwise_cons] at ascending
      by_cases before : tag < first
      · simp only [insertAscending, before, if_true, List.pairwise_cons]
        refine ⟨?_, ascending⟩
        intro other member
        rcases List.mem_cons.mp member with member | member
        · exact member ▸ before
        · exact String.lt_trans before (ascending.1 other member)
      · by_cases same : tag = first
        · subst same
          rw [insertAscending, if_neg before, if_pos rfl]
          exact List.pairwise_cons.mpr ascending
        · simp only [insertAscending, before, same, if_false, List.pairwise_cons]
          refine ⟨?_, induction ascending.2⟩
          intro other member
          rcases mem_insertAscending.mp member with member | member
          · subst member
            have atMost : first ≤ other := String.not_lt.mp before
            by_cases after : first < other
            · exact after
            · exact absurd (String.le_antisymm (String.not_lt.mp after) atMost) same
          · exact ascending.1 other member

def insert (tags : Tags) (tag : String) : Tags :=
  ⟨insertAscending tag tags.toList, pairwise_insertAscending tags.ascending⟩

@[simp] theorem mem_insert {tags : Tags} {tag other : String} :
    other ∈ tags.insert tag ↔ other = tag ∨ other ∈ tags :=
  mem_insertAscending

def singleton (tag : String) : Tags := empty.insert tag

def ofList (list : List String) : Tags := list.foldl insert empty

/-- Every tag of `tags` is a tag of `others`. -/
def subset (tags others : Tags) : Bool := tags.toList.all others.contains

end Tags

end SensoryProse
