import Mathlib.Data.List.Basic
import SensoryProse.Phrase.Attach

/-!
# Chains of subjects

The phrases of a tree that are told in clauses of their own are the root and whatever chains of
subjects lead to from it.  `chainedSubjects` lists them in the order in which they are told, each
with the number of subjects above it; parting every one of them from the subjects below it gives
the listing that `nestedSubjects` computes.
-/

namespace SensoryProse.Phrase

mutual

theorem induction {motive : Phrase → Prop}
    (step : ∀ phrase, (∀ modifier ∈ phrase.modifiers, motive modifier) → motive phrase) :
    ∀ phrase, motive phrase
  | ⟨_, _, _, modifiers, _⟩ => step _ (inductionList step modifiers)

theorem inductionList {motive : Phrase → Prop}
    (step : ∀ phrase, (∀ modifier ∈ phrase.modifiers, motive modifier) → motive phrase) :
    ∀ phrases : List Phrase, ∀ phrase ∈ phrases, motive phrase
  | [], _, member => by cases member
  | first :: phrases, phrase, member => by
      rcases List.mem_cons.mp member with same | member
      · exact same ▸ induction step first
      · exact inductionList step phrases phrase member

end

theorem self_mem_nodes (phrase : Phrase) : phrase ∈ phrase.nodes := by
  rw [nodes_eq]
  exact List.mem_cons_self

theorem mem_nodes_of_modifier {phrase modifier node : Phrase}
    (attached : modifier ∈ phrase.modifiers) (member : node ∈ modifier.nodes) :
    node ∈ phrase.nodes := by
  rw [nodes_eq]
  exact List.mem_cons_of_mem _ (List.mem_flatMap.mpr ⟨modifier, attached, member⟩)

mutual

/-- A phrase and the phrases below it that chains of subjects lead to, each with its depth: every
phrase before those below it, and siblings in order of attachment. -/
def chainedSubjects (depth : Nat) : Phrase → List (Nat × Phrase)
  | ⟨role, wordClass, text, modifiers, context⟩ =>
      (depth, ⟨role, wordClass, text, modifiers, context⟩)
        :: chainedSubjectsList (depth + 1) modifiers

def chainedSubjectsList (depth : Nat) : List Phrase → List (Nat × Phrase)
  | [] => []
  | phrase :: phrases =>
      (if phrase.isSubject then phrase.chainedSubjects depth else [])
        ++ chainedSubjectsList depth phrases

end

@[simp] theorem chainedSubjectsList_eq_flatMap (depth : Nat) (phrases : List Phrase) :
    chainedSubjectsList depth phrases =
      (phrases.filter isSubject).flatMap (chainedSubjects depth) := by
  induction phrases with
  | nil => rfl
  | cons phrase phrases induction =>
      by_cases subject : phrase.isSubject = true
      · simp [chainedSubjectsList, subject, induction]
      · simp [chainedSubjectsList, subject, induction]

theorem chainedSubjects_eq (depth : Nat) (phrase : Phrase) :
    phrase.chainedSubjects depth =
      (depth, phrase)
        :: (phrase.modifiers.filter isSubject).flatMap (chainedSubjects (depth + 1)) := by
  cases phrase
  simp [chainedSubjects]

@[simp] theorem nestedSubjectsList_eq_flatMap (phrases : List Phrase) :
    nestedSubjectsList phrases =
      (phrases.filter isSubject).flatMap fun phrase =>
        phrase.withoutSubjects :: phrase.nestedSubjects := by
  induction phrases with
  | nil => rfl
  | cons phrase phrases induction =>
      by_cases subject : phrase.isSubject = true
      · simp [nestedSubjectsList, subject, induction]
      · simp [nestedSubjectsList, subject, induction]

theorem nestedSubjects_eq (phrase : Phrase) :
    phrase.nestedSubjects =
      (phrase.modifiers.filter isSubject).flatMap fun subject =>
        subject.withoutSubjects :: subject.nestedSubjects := by
  cases phrase
  simp [nestedSubjects]

theorem chainedSubjects_map_withoutSubjects (depth : Nat) (phrase : Phrase) :
    (phrase.chainedSubjects depth).map (fun entry => entry.2.withoutSubjects) =
      phrase.withoutSubjects :: phrase.nestedSubjects := by
  induction phrase using Phrase.induction generalizing depth with
  | step phrase induction =>
      rw [chainedSubjects_eq, nestedSubjects_eq, List.map_cons, List.map_flatMap]
      congr 1
      apply List.flatMap_congr
      intro subject member
      exact induction subject (List.mem_filter.mp member).1 (depth + 1)

/-- Whatever a chain leads to is the phrase itself or a subject further below. -/
theorem mem_chainedSubjects {depth : Nat} {phrase : Phrase} {entry : Nat × Phrase}
    (member : entry ∈ phrase.chainedSubjects depth) :
    entry = (depth, phrase) ∨ depth < entry.1 ∧ entry.2.isSubject = true := by
  induction phrase using Phrase.induction generalizing depth with
  | step phrase induction =>
      rw [chainedSubjects_eq] at member
      rcases List.mem_cons.mp member with here | deeper
      · exact .inl here
      · obtain ⟨subject, subjectMember, entryMember⟩ := List.mem_flatMap.mp deeper
        obtain ⟨modifier, isSubject⟩ := List.mem_filter.mp subjectMember
        rcases induction subject modifier entryMember with rfl | ⟨below, entrySubject⟩
        · exact .inr ⟨Nat.lt_succ_self depth, isSubject⟩
        · exact .inr ⟨by omega, entrySubject⟩

theorem le_depth_of_mem_chainedSubjects {depth : Nat} {phrase : Phrase} {entry : Nat × Phrase}
    (member : entry ∈ phrase.chainedSubjects depth) : depth ≤ entry.1 := by
  rcases mem_chainedSubjects member with rfl | ⟨below, _⟩
  · exact Nat.le_refl depth
  · exact Nat.le_of_lt below

theorem mem_nodes_of_mem_chainedSubjects {depth : Nat} {phrase : Phrase} {entry : Nat × Phrase}
    (member : entry ∈ phrase.chainedSubjects depth) : entry.2 ∈ phrase.nodes := by
  induction phrase using Phrase.induction generalizing depth with
  | step phrase induction =>
      rw [chainedSubjects_eq] at member
      rcases List.mem_cons.mp member with rfl | deeper
      · exact self_mem_nodes phrase
      · obtain ⟨subject, subjectMember, entryMember⟩ := List.mem_flatMap.mp deeper
        have modifier : subject ∈ phrase.modifiers := List.mem_of_mem_filter subjectMember
        exact mem_nodes_of_modifier modifier (induction subject modifier entryMember)

@[simp] theorem withoutSubjects_modifiers (phrase : Phrase) :
    phrase.withoutSubjects.modifiers = phrase.modifiers.filter fun modifier =>
      !modifier.isSubject :=
  rfl

@[simp] theorem withoutSubjects_withoutSubjects (phrase : Phrase) :
    phrase.withoutSubjects.withoutSubjects = phrase.withoutSubjects := by
  simp [withoutSubjects, without]

theorem hasRole_subject_withoutSubjects (phrase : Phrase) :
    phrase.withoutSubjects.hasRole .subject = false := by
  simp [hasRole, isSubject]

/-- Nothing is nested in a phrase that has been parted from its subjects. -/
@[simp] theorem nestedSubjects_withoutSubjects (phrase : Phrase) :
    phrase.withoutSubjects.nestedSubjects = [] := by
  rw [nestedSubjects_eq, withoutSubjects_modifiers, List.filter_filter]
  simp

theorem nestedSubjects_isEmpty (phrase : Phrase) :
    phrase.nestedSubjects.isEmpty = !phrase.hasRole .subject := by
  rw [nestedSubjects_eq, Bool.eq_iff_iff]
  simp [hasRole, isSubject, List.isEmpty_iff]

end SensoryProse.Phrase
