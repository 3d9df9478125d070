import SensoryProse.Proofs.Narrator.Telling
import SensoryProse.Proofs.Phrase.Labels

/-!
# What the clauses of an event keep

An event that can be made out and keeps its name is told without loss: the labels of its clauses
are those of its tree and one for every verb of being that was given.  The one exception is a root
that is itself the verb of being it would be given.  It refuses the copy of itself, and with it the
description that was moved under the copy.
-/

namespace SensoryProse

/-- The root is the bare verb that `sense` would be written as below it. -/
structure Phrase.Repeats (root : Phrase) (sense : Sense) : Prop where
  role : root.role = .verb
  wordClass : root.wordClass = .verb
  text : root.text = sense.name
  position : root.context.position = .none
  determinant : root.context.determinant = false
  possessive : root.context.possessive = false

namespace Narrator

variable {Words : Type} [Vocabulary Words]

/-- The label of the verb of being that is given to a phrase, if one is. -/
def givenLabel (narrator : Narrator Words) (voice : Option Context) (language : Language)
    (depth : Nat) (node : Phrase) : List Phrase.Label :=
  ((narrator.givenVerb? voice false language depth node).map fun sense =>
    (Role.verb, WordClass.verb, sense.name)).toList

/-- The labels of all verbs of being that are given to the root and to its subjects. -/
def givenLabels (narrator : Narrator Words) (voice : Option Context) (language : Language)
    (root : Phrase) : List Phrase.Label :=
  (root.chainedSubjects 0).flatMap fun entry =>
    narrator.givenLabel voice language entry.1 entry.2

theorem verbOfBeing_equivalent_iff {subject : Phrase} {sense : Sense} :
    (verbOfBeing subject sense).equivalent subject = true ↔ subject.Repeats sense := by
  rw [Phrase.equivalent_iff]
  simp only [Phrase.key, verbOfBeing, existentialContext, Phrase.Key.mk.injEq, true_and]
  constructor
  · rintro ⟨role, wordClass, text, position, determinant, possessive⟩
    exact ⟨role.symm, wordClass.symm, text.symm, position.symm, determinant.symm, possessive.symm⟩
  · rintro ⟨role, wordClass, text, position, determinant, possessive⟩
    exact ⟨role.symm, wordClass.symm, text.symm, position.symm, determinant.symm, possessive.symm⟩

section

variable {narrator : Narrator Words} {event : Event} {voice : Option Context} {language : Language}

theorem partedSubject_label (depth : Nat) (node : Phrase) :
    (narrator.partedSubject voice false language depth node).label = node.label := by
  match depth with
  | 0 => rfl
  | 1 => rfl
  | _ + 2 => rfl

theorem partedSubject_labels (depth : Nat) (node : Phrase) :
    (narrator.partedSubject voice false language depth node).labels =
      node.withoutSubjects.labels := by
  rw [Phrase.labels_eq, Phrase.labels_eq node.withoutSubjects, partedSubject_label,
    partedSubject_modifiers]
  rfl

/-- A verb of being takes over the whole description, if its parts are distinct. -/
theorem verbOfBeing_attachAll_modifiers {subject : Phrase} {sense : Sense}
    (noVerb : subject.hasRole .verb = false) (distinct : Phrase.Distinct subject.modifiers) :
    ((verbOfBeing subject sense).attachAll subject.modifiers).modifiers = subject.modifiers := by
  have different : ∀ modifier ∈ subject.modifiers,
      modifier.equivalent (verbOfBeing subject sense) = false := by
    intro modifier member
    rw [Bool.eq_false_iff, ne_eq, Phrase.equivalent_iff]
    intro same
    have verb : modifier.role = .verb := congrArg Phrase.Key.role same
    have present : subject.hasRole .verb = true :=
      List.any_eq_true.mpr ⟨modifier, member, by simp [verb]⟩
    rw [noVerb] at present
    contradiction
  rw [Phrase.attachAll_modifiers_of_distinct distinct different (by simp [verbOfBeing])]
  rfl

theorem verbOfBeing_attachAll_labels {subject : Phrase} {sense : Sense}
    (noVerb : subject.hasRole .verb = false) (distinct : Phrase.Distinct subject.modifiers) :
    ((verbOfBeing subject sense).attachAll subject.modifiers).labels =
      (Role.verb, WordClass.verb, sense.name) :: subject.modifiers.flatMap Phrase.labels := by
  have label : ((verbOfBeing subject sense).attachAll subject.modifiers).label =
      (Role.verb, WordClass.verb, sense.name) :=
    (congrArg Phrase.label (Phrase.attachAll_bare (verbOfBeing subject sense) _) :)
  rw [Phrase.labels_eq, label, verbOfBeing_attachAll_modifiers noVerb distinct]

theorem completed_labels {subject : Phrase} {sense : Sense}
    (chosen : narrator.existentialVerb? subject = some sense)
    (distinct : Phrase.Distinct subject.modifiers) :
    (narrator.completed subject).labels =
      subject.label ::
        if (verbOfBeing subject sense).equivalent subject then []
        else (Role.verb, WordClass.verb, sense.name) ::
          subject.modifiers.flatMap Phrase.labels := by
  obtain ⟨_, noVerb⟩ := hasRole_verb_of_existentialVerb? chosen
  have label : (narrator.completed subject).label = subject.label :=
    (congrArg Phrase.label (completed_bare narrator subject) :)
  rw [Phrase.labels_eq, label, completed_modifiers_of_some chosen]
  split
  · rfl
  · rw [List.flatMap_singleton, verbOfBeing_attachAll_labels noVerb distinct]

/-- The clause of a phrase keeps the labels of its part of the tree, unless the phrase repeats the
verb it is given. -/
theorem tell_labels_perm_iff (narrator : Narrator Words) (voice : Option Context)
    (language : Language) (depth : Nat) {node : Phrase}
    (clear : event.isSaturated = false) (distinct : Phrase.Distinct node.modifiers) :
    (narrator.tell event voice false language depth node).subject.labels.Perm
        (node.withoutSubjects.labels ++ narrator.givenLabel voice language depth node) ↔
      ∀ sense, narrator.givenVerb? voice false language depth node = some sense →
        ¬(narrator.partedSubject voice false language depth node).Repeats sense := by
  unfold givenLabel
  cases given : narrator.givenVerb? voice false language depth node with
  | none =>
      rw [tell_subject_of_none clear given, partedSubject_labels]
      simp
  | some sense =>
      obtain ⟨told, chosen⟩ := tell_subject_of_some clear given
      have partsDistinct : Phrase.Distinct
          (narrator.partedSubject voice false language depth node).modifiers := by
        rw [partedSubject_modifiers]
        exact distinct.sublist List.filter_sublist
      have parted : (narrator.partedSubject voice false language depth node).labels =
          node.withoutSubjects.labels := partedSubject_labels depth node
      rw [told, completed_labels chosen partsDistinct, ← parted,
        Phrase.labels_eq (narrator.partedSubject voice false language depth node)]
      by_cases repeated : (narrator.partedSubject voice false language depth node).Repeats sense
      · rw [if_pos (verbOfBeing_equivalent_iff.mpr repeated)]
        constructor
        · intro permutation
          have lengths := permutation.length_eq
          simp at lengths
        · intro never
          exact absurd repeated (never sense rfl)
      · rw [if_neg (mt verbOfBeing_equivalent_iff.mp repeated)]
        constructor
        · intro _ other same
          cases same
          exact repeated
        · intro _
          exact ((List.perm_append_singleton _ _).symm).cons _

theorem partedSubject_repeats_iff {root : Phrase} {sense : Sense} :
    (narrator.partedSubject voice false language 0 root).Repeats sense ↔ root.Repeats sense := by
  have position : (narrator.partedSubject voice false language 0 root).context.position =
      root.context.position := by
    cases voice <;> rfl
  have determinant : (narrator.partedSubject voice false language 0 root).context.determinant =
      root.context.determinant := by
    cases voice <;> rfl
  have possessive : (narrator.partedSubject voice false language 0 root).context.possessive =
      root.context.possessive := by
    cases voice <;> rfl
  constructor
  · intro repeated
    exact ⟨repeated.role, repeated.wordClass, repeated.text, position ▸ repeated.position,
      determinant ▸ repeated.determinant, possessive ▸ repeated.possessive⟩
  · intro repeated
    exact ⟨repeated.role, repeated.wordClass, repeated.text, position ▸ repeated.position,
      determinant ▸ repeated.determinant, possessive ▸ repeated.possessive⟩

/-- The labels of a tree and of the verbs given to it, phrase by phrase. -/
theorem labels_append_givenLabels_perm (narrator : Narrator Words) (voice : Option Context)
    (language : Language) (root : Phrase) :
    (root.labels ++ narrator.givenLabels voice language root).Perm
      ((root.chainedSubjects 0).flatMap fun entry =>
        entry.2.withoutSubjects.labels ++ narrator.givenLabel voice language entry.1 entry.2) :=
  ((Phrase.labels_perm_chainedSubjects 0 root).append_right _).trans
    (List.flatMap_append_perm _ _ _)

/-- A subject does not repeat the verb of being it is given. -/
theorem tell_labels_perm_of_isSubject {depth : Nat} {node : Phrase}
    (clear : event.isSaturated = false) (distinct : Phrase.Distinct node.modifiers)
    (isSubject : node.isSubject = true) :
    (narrator.tell event voice false language depth node).subject.labels.Perm
      (node.withoutSubjects.labels ++ narrator.givenLabel voice language depth node) := by
  rw [tell_labels_perm_iff narrator voice language depth clear distinct]
  intro sense _ repeated
  have role : node.role = .verb := (partedSubject_role depth node).symm.trans repeated.role
  simp [Phrase.isSubject, role] at isSubject

/-- Below the root nothing is lost. -/
theorem flatMap_tell_labels_perm (narrator : Narrator Words) (voice : Option Context)
    (language : Language) {root : Phrase} (clear : event.isSaturated = false)
    (distinct : root.DistinctThroughout) :
    let below := (root.modifiers.filter Phrase.isSubject).flatMap (Phrase.chainedSubjects 1)
    (below.flatMap fun entry =>
        (narrator.tell event voice false language entry.1 entry.2).subject.labels).Perm
      (below.flatMap fun entry =>
        entry.2.withoutSubjects.labels ++ narrator.givenLabel voice language entry.1 entry.2) := by
  intro below
  apply List.Perm.flatMap_left
  intro entry member
  obtain ⟨subject, subjectMember, entryMember⟩ := List.mem_flatMap.mp member
  have isSubject : entry.2.isSubject = true := by
    rcases Phrase.mem_chainedSubjects entryMember with rfl | ⟨_, deeper⟩
    · exact (List.mem_filter.mp subjectMember).2
    · exact deeper
  have chained : entry ∈ root.chainedSubjects 0 := by
    rw [Phrase.chainedSubjects_eq]
    exact List.mem_cons_of_mem _ member
  have partsDistinct := distinct entry.2 (Phrase.mem_nodes_of_mem_chainedSubjects chained)
  exact tell_labels_perm_of_isSubject clear partsDistinct isSubject

end

/-- A clear event that is told by name keeps all its labels and gains those of the verbs given,
exactly if the root does not repeat the verb of being it is given. -/
theorem clauses_keep_labels_iff {narrator : Narrator Words} {event : Event} {voice : Option Context}
    {told : List Clause} (named : event.phrase.text.isEmpty = false)
    (clear : event.isSaturated = false) (distinct : event.phrase.DistinctThroughout)
    (narrated : narrator.clauses event voice false = .ok told) :
    ∃ language,
      narrator.languageFor (voice.getD event.phrase.context).language = .ok language ∧
      ((told.flatMap fun clause => clause.subject.labels).Perm
          (event.phrase.labels ++ narrator.givenLabels voice language event.phrase) ↔
        ∀ sense, narrator.givenVerb? voice false language 0 event.phrase = some sense →
          ¬event.phrase.Repeats sense) := by
  obtain ⟨language, found, rfl⟩ := (clauses_eq_ok_iff named).mp narrated
  refine ⟨language, found, ?_⟩
  have rootDistinct : Phrase.Distinct event.phrase.modifiers := by
    apply distinct
    rw [Phrase.nodes_eq]
    exact List.mem_cons_self
  have rootKept := tell_labels_perm_iff narrator voice language 0 clear rootDistinct
  have belowKept := flatMap_tell_labels_perm narrator voice language clear distinct
  have wanted := labels_append_givenLabels_perm narrator voice language event.phrase
  simp only [partedSubject_repeats_iff] at rootKept
  rw [Phrase.chainedSubjects_eq, List.flatMap_cons] at wanted
  rw [List.flatMap_map, Phrase.chainedSubjects_eq, List.flatMap_cons, ← rootKept]
  constructor
  · intro permutation
    have cancelled := permutation.trans (wanted.trans (belowKept.symm.append_left _))
    exact (List.perm_append_right_iff _).mp cancelled
  · intro permutation
    exact (permutation.append belowKept).trans wanted.symm

theorem lantern_keeps_labels :
    lantern.phrase.text.isEmpty = false ∧ lantern.isSaturated = false ∧
      lantern.phrase.DistinctThroughout ∧ plain.clauses lantern none false = .ok lanternTold ∧
      (lanternTold.flatMap fun clause => clause.subject.labels).Perm
        (lantern.phrase.labels ++ [(.verb, .verb, "is")]) := by
  have distinct : lantern.phrase.DistinctThroughout := by decide
  obtain ⟨language, found, kept⟩ := clauses_keep_labels_iff rfl rfl distinct lantern_clauses
  have english : language = plainLanguage := by
    cases found
    rfl
  subst english
  have given : plain.givenLabels none plainLanguage lantern.phrase = [(.verb, .verb, "is")] := by
    simp only [givenLabels, givenLabel, givenVerb?, plain_existentialVerb?]
    rfl
  rw [given] at kept
  refine ⟨rfl, rfl, distinct, lantern_clauses, kept.mpr ?_⟩
  intro sense _ repeated
  cases repeated.role

/-- An event that is told with the verb of being itself. -/
def echo : Event where
  phrase :=
    { role := .verb, wordClass := .verb, text := "is"
      modifiers := [{ role := .descriptive, wordClass := .adjective, text := "dim" }] }
  strength := 0
  channel := .visible

/-- Of the echo only its name is told: neither *dim* nor a second verb is left. -/
theorem echo_loses_description :
    plain.clauses echo none false =
        .ok [clause echo .statement
          { role := .verb, wordClass := .verb, text := "is", context := .inLanguage "english" }] ∧
      ¬((clause echo .statement
          { role := .verb, wordClass := .verb, text := "is"
            context := .inLanguage "english" }).subject.labels).Perm
        (echo.phrase.labels ++ plain.givenLabels none plainLanguage echo.phrase) := by
  have told : plain.clauses echo none false =
      .ok [clause echo .statement
        { role := .verb, wordClass := .verb, text := "is", context := .inLanguage "english" }] := by
    rw [clauses_eq_ok_iff rfl]
    refine ⟨plainLanguage, rfl, ?_⟩
    change _ = [plain.tell echo none false plainLanguage 0 _]
    simp only [tell, mainClause, plain_completed]
    rfl
  have given : plain.givenLabels none plainLanguage echo.phrase = [(.verb, .verb, "is")] := by
    simp only [givenLabels, givenLabel, givenVerb?, plain_existentialVerb?]
    rfl
  refine ⟨told, ?_⟩
  rw [given]
  decide

end Narrator

end SensoryProse
