import Mathlib.Data.List.Chain

/-!
# Spaces in texts

A text is well spaced if none of its spaces stands at an end or beside another.  Texts that are well
spaced can be put side by side, and those that are neat, which is to say not empty either, can be
joined by a separator that has spaces at its ends.
-/

namespace SensoryProse.Text

/-- No two spaces stand side by side. -/
def SpacesApart (text : String) : Prop :=
  text.toList.IsChain fun left right => left ≠ ' ' ∨ right ≠ ' '

instance (text : String) : Decidable (SpacesApart text) := by
  unfold SpacesApart
  infer_instance

/-- Spaces stand one by one inside the text. -/
structure WellSpaced (text : String) : Prop where
  leading : text.toList.head? ≠ some ' '
  trailing : text.toList.getLast? ≠ some ' '
  apart : SpacesApart text

structure Neat (text : String) : Prop extends WellSpaced text where
  inhabited : text ≠ ""

instance (text : String) : Decidable (WellSpaced text) :=
  decidable_of_iff
    (text.toList.head? ≠ some ' ' ∧ text.toList.getLast? ≠ some ' ' ∧ SpacesApart text)
    ⟨fun ⟨leading, trailing, apart⟩ => ⟨leading, trailing, apart⟩,
      fun ⟨leading, trailing, apart⟩ => ⟨leading, trailing, apart⟩⟩

instance (text : String) : Decidable (Neat text) :=
  decidable_of_iff (WellSpaced text ∧ text ≠ "")
    ⟨fun ⟨spaced, inhabited⟩ => ⟨spaced, inhabited⟩,
      fun ⟨spaced, inhabited⟩ => ⟨spaced, inhabited⟩⟩

theorem wellSpaced_empty : WellSpaced "" := by decide

theorem WellSpaced.of_spaceless {text : String} (spaceless : ' ' ∉ text.toList) :
    WellSpaced text where
  leading first := spaceless (List.mem_of_mem_head? first)
  trailing last := spaceless (List.mem_of_mem_getLast? last)
  apart := by
    refine (List.pairwise_of_forall_mem_list ?_).isChain
    rintro left member _ _
    refine .inl ?_
    rintro rfl
    exact spaceless member

theorem SpacesApart.append {left right : String} (leftApart : SpacesApart left)
    (rightApart : SpacesApart right)
    (meet : left.toList.getLast? ≠ some ' ' ∨ right.toList.head? ≠ some ' ') :
    SpacesApart (left ++ right) := by
  unfold SpacesApart at *
  rw [String.toList_append]
  refine leftApart.append rightApart ?_
  rintro last isLast first isFirst
  refine meet.imp ?_ ?_
  · rintro notLast rfl
    exact notLast isLast
  · rintro notFirst rfl
    exact notFirst isFirst

theorem WellSpaced.append {left right : String} (leftSpaced : WellSpaced left)
    (rightSpaced : WellSpaced right) : WellSpaced (left ++ right) where
  leading := by
    rw [String.toList_append, List.head?_append, ne_eq, Option.or_eq_some_iff]
    rintro (first | ⟨_, first⟩)
    · exact leftSpaced.leading first
    · exact rightSpaced.leading first
  trailing := by
    rw [String.toList_append, List.getLast?_append, ne_eq, Option.or_eq_some_iff]
    rintro (last | ⟨_, last⟩)
    · exact rightSpaced.trailing last
    · exact leftSpaced.trailing last
  apart := leftSpaced.apart.append rightSpaced.apart (.inl leftSpaced.trailing)

/-- Neat texts hold the spaces at the ends of a separator off from the ends of the whole. -/
theorem Neat.join {left right separator : String} (leftNeat : Neat left) (rightNeat : Neat right)
    (apart : SpacesApart separator) : Neat (left ++ separator ++ right) where
  leading := by
    have nonempty : left.toList ≠ [] := by simpa using leftNeat.inhabited
    rw [String.append_assoc, String.toList_append, List.head?_append_of_ne_nil _ nonempty]
    exact leftNeat.leading
  trailing := by
    have nonempty : right.toList ≠ [] := by simpa using rightNeat.inhabited
    rw [String.toList_append, List.getLast?_append_of_ne_nil _ nonempty]
    exact rightNeat.trailing
  apart :=
    (leftNeat.apart.append apart (.inl leftNeat.trailing)).append rightNeat.apart
      (.inr rightNeat.leading)
  inhabited := by simp [leftNeat.inhabited]

theorem Neat.intercalate {separator : String} (apart : SpacesApart separator)
    {texts : List String} (inhabited : texts ≠ []) (neat : ∀ text ∈ texts, Neat text) :
    Neat (separator.intercalate texts) := by
  induction texts with
  | nil => exact absurd rfl inhabited
  | cons text texts induction =>
      obtain ⟨first, others⟩ := List.forall_mem_cons.mp neat
      cases texts with
      | nil => rwa [String.intercalate_singleton]
      | cons next later =>
          rw [String.intercalate_cons_cons]
          exact first.join (induction (List.cons_ne_nil next later) others) apart

/-- A text stays neat between affixes that are well spaced. -/
theorem Neat.between {text before behind : String} (neat : Neat text)
    (beforeSpaced : WellSpaced before) (behindSpaced : WellSpaced behind) :
    Neat (before ++ text ++ behind) where
  toWellSpaced := (beforeSpaced.append neat.toWellSpaced).append behindSpaced
  inhabited := by simp [neat.inhabited]

end SensoryProse.Text
