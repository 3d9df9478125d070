import Mathlib.Data.List.Perm.Basic
import SensoryProse.Proofs.Phrase.Chains

/-!
# Labels

The label of a phrase is what it says by itself: its role, its word class and its text.  The labels
of a tree, counted with repetition, tell whether anything of the tree got lost or was doubled when
the tree was taken apart.
-/

namespace SensoryProse.Phrase

abbrev Label := Role × WordClass × String

def label (phrase : Phrase) : Label := (phrase.role, phrase.wordClass, phrase.text)

/-- The labels of all phrases of the tree. -/
def labels (phrase : Phrase) : List Label := phrase.nodes.map label

theorem labels_eq (phrase : Phrase) :
    phrase.labels = phrase.label :: phrase.modifiers.flatMap labels := by
  rw [labels, nodes_eq, List.map_cons, List.map_flatMap]
  rfl

/-- Parting every phrase from the subjects below it takes a tree apart without loss. -/
theorem labels_perm_chainedSubjects (depth : Nat) (phrase : Phrase) :
    phrase.labels.Perm
      ((phrase.chainedSubjects depth).flatMap fun entry => entry.2.withoutSubjects.labels) := by
  induction phrase using Phrase.induction generalizing depth with
  | step phrase induction =>
      have parted : (phrase.modifiers.flatMap labels).Perm
          (phrase.withoutSubjects.modifiers.flatMap labels ++
            (phrase.modifiers.filter isSubject).flatMap labels) := by
        rw [← List.flatMap_append]
        apply List.Perm.flatMap_right
        exact (List.filter_append_perm isSubject phrase.modifiers).symm.trans
          List.perm_append_comm
      have below : ((phrase.modifiers.filter isSubject).flatMap labels).Perm
          ((phrase.modifiers.filter isSubject).flatMap fun subject =>
            (subject.chainedSubjects (depth + 1)).flatMap fun entry =>
              entry.2.withoutSubjects.labels) := by
        apply List.Perm.flatMap_left
        intro subject member
        exact induction subject (List.mem_filter.mp member).1 (depth + 1)
      rw [labels_eq, chainedSubjects_eq, List.flatMap_cons, labels_eq phrase.withoutSubjects,
        List.cons_append, List.flatMap_assoc]
      exact (parted.trans (below.append_left _)).cons _

end SensoryProse.Phrase
