import Mathlib.Data.List.Flatten
import SensoryProse.Proofs.Narrator.Conservation
import SensoryProse.Proofs.Narrator.Strengths
import SensoryProse.Proofs.Phrase.Editing

/-!
# Buried subjects

Chains of subjects are told phrase by phrase, so no subject stands directly below the subject of a
clause.  A subject below a phrase of another role is not reached by a chain: it is buried in the
clause that its chain ends at, with whatever that clause retains of the description.
-/

namespace SensoryProse

namespace Phrase

/-- The phrases of subject role below the phrase, at whatever depth and below whatever role. -/
def buried (phrase : Phrase) : List Phrase := (phrase.modifiers.flatMap nodes).filter isSubject

/-- Below the phrase no subject stands below a phrase of another role. -/
def SubjectsChained (phrase : Phrase) : Prop :=
  ∀ node ∈ phrase.modifiers.flatMap nodes, node.isSubject = false → node.buried = []

instance (phrase : Phrase) : Decidable phrase.SubjectsChained :=
  inferInstanceAs (Decidable
    (∀ node ∈ phrase.modifiers.flatMap nodes, node.isSubject = false → node.buried = []))

theorem buried_eq (phrase : Phrase) :
    phrase.buried = phrase.modifiers.flatMap fun modifier =>
      (if modifier.isSubject then [modifier] else []) ++ modifier.buried := by
  rw [buried, List.filter_flatMap]
  apply List.flatMap_congr
  intro modifier _
  rw [nodes_eq, List.filter_cons]
  split <;> rfl

/-- Where no subject stands directly below, all are buried in the modifiers. -/
theorem buried_of_parted {phrase : Phrase} (parted : phrase.hasRole .subject = false) :
    phrase.buried = phrase.modifiers.flatMap buried := by
  rw [buried_eq]
  apply List.flatMap_congr
  intro modifier member
  have noSubject : modifier.isSubject = false := by
    have different := List.any_eq_false.mp parted modifier member
    simpa [isSubject] using different
  rw [noSubject]
  rfl

theorem withoutSubjects_buried (phrase : Phrase) :
    phrase.withoutSubjects.buried = phrase.withoutSubjects.modifiers.flatMap buried :=
  buried_of_parted (hasRole_subject_withoutSubjects phrase)

theorem withoutSubjects_buried_eq_nil_iff {phrase : Phrase} :
    phrase.withoutSubjects.buried = [] ↔
      ∀ modifier ∈ phrase.modifiers, modifier.isSubject = false → modifier.buried = [] := by
  simp [withoutSubjects_buried]

/-- What is buried below a modifier is buried below the phrase. -/
theorem buried_eq_nil_of_modifier {phrase modifier : Phrase} (member : modifier ∈ phrase.modifiers)
    (nothing : phrase.buried = []) : modifier.isSubject = false ∧ modifier.buried = [] := by
  rw [buried_eq, List.flatMap_eq_nil_iff] at nothing
  obtain ⟨here, below⟩ := List.append_eq_nil_iff.mp (nothing modifier member)
  exact ⟨by simpa using here, below⟩

theorem subjectsChained_iff {phrase : Phrase} :
    phrase.SubjectsChained ↔ ∀ modifier ∈ phrase.modifiers,
      (modifier.isSubject = false → modifier.buried = []) ∧ modifier.SubjectsChained := by
  constructor
  · intro chained modifier member
    constructor
    · exact chained modifier (List.mem_flatMap.mpr ⟨modifier, member, self_mem_nodes modifier⟩)
    · intro node below
      obtain ⟨deeper, deeperMember, nodeMember⟩ := List.mem_flatMap.mp below
      apply chained
      exact List.mem_flatMap.mpr
        ⟨modifier, member, mem_nodes_of_modifier deeperMember nodeMember⟩
  · intro everywhere node below
    obtain ⟨modifier, member, nodeMember⟩ := List.mem_flatMap.mp below
    obtain ⟨here, deeper⟩ := everywhere modifier member
    rw [nodes_eq] at nodeMember
    rcases List.mem_cons.mp nodeMember with rfl | further
    · exact here
    · exact deeper node further

theorem subjectsChained_of_buried_eq_nil {phrase : Phrase} (nothing : phrase.buried = []) :
    phrase.SubjectsChained := by
  induction phrase using Phrase.induction with
  | step phrase induction =>
      rw [subjectsChained_iff]
      intro modifier member
      obtain ⟨_, below⟩ := buried_eq_nil_of_modifier member nothing
      exact ⟨fun _ => below, induction modifier member below⟩

/-- The subjects of a tree are chained exactly if no phrase of a chain has a subject buried in its
description. -/
theorem subjectsChained_iff_chainedSubjects (depth : Nat) (phrase : Phrase) :
    phrase.SubjectsChained ↔
      ∀ entry ∈ phrase.chainedSubjects depth, entry.2.withoutSubjects.buried = [] := by
  induction phrase using Phrase.induction generalizing depth with
  | step phrase induction =>
      rw [subjectsChained_iff, chainedSubjects_eq, List.forall_mem_cons,
        withoutSubjects_buried_eq_nil_iff]
      constructor
      · intro everywhere
        refine ⟨fun modifier member => (everywhere modifier member).1, ?_⟩
        intro entry entryMember
        obtain ⟨subject, subjectMember, deeper⟩ := List.mem_flatMap.mp entryMember
        have member := List.mem_of_mem_filter subjectMember
        exact (induction subject member (depth + 1)).mp (everywhere subject member).2 entry deeper
      · rintro ⟨here, below⟩ modifier member
        refine ⟨here modifier member, ?_⟩
        cases subject : modifier.isSubject with
        | false => exact subjectsChained_of_buried_eq_nil (here modifier member subject)
        | true =>
            rw [induction modifier member (depth + 1)]
            intro entry entryMember
            apply below
            exact List.mem_flatMap.mpr
              ⟨modifier, List.mem_filter.mpr ⟨member, subject⟩, entryMember⟩

theorem newcomers_sublist (phrase : Phrase) (batch : List Phrase) :
    (phrase.newcomers batch).Sublist batch := by
  have kept : (phrase.newcomers batch).Sublist (batch.zipIdx.map Prod.fst) :=
    List.filter_sublist.map Prod.fst
  rwa [List.zipIdx_map_fst] at kept

/-- Nothing is buried in a glimpse. -/
theorem glimpsed_buried (subject : Phrase) (channel : Channel) (tooIntense : Bool) :
    (subject.glimpsed channel tooIntense).buried = [] := by
  cases channel <;> cases tooIntense <;> rfl

end Phrase

namespace Narrator

variable {Words : Type} [Vocabulary Words]

section

variable (narrator : Narrator Words) (event : Event) (voice : Option Context) (anonymize : Bool)
  (language : Language)

/-- The modifiers that the clause of a phrase with `depth` subjects above it takes over from it.  A
verb of being takes one modifier of each kind under it, none if the phrase repeats the verb, and a
glimpse takes none. -/
def retained (depth : Nat) (node : Phrase) : List Phrase :=
  let subject := narrator.partedSubject voice anonymize language depth node
  match narrator.givenVerb? voice anonymize language depth node with
  | some sense =>
      if (verbOfBeing subject sense).equivalent subject then []
      else (verbOfBeing subject sense).newcomers subject.modifiers
  | none =>
      if event.isSaturated ∧ Phrase.YieldsToGlimpse depth node ∧
          subject.hasRole .verb = false then []
      else subject.modifiers

theorem partedSubject_hasRole_subject (depth : Nat) (node : Phrase) :
    (narrator.partedSubject voice anonymize language depth node).hasRole .subject = false := by
  rw [Phrase.hasRole, partedSubject_modifiers]
  exact Phrase.hasRole_subject_withoutSubjects node

/-- A phrase is told outright, or by a glimpse where no verb came to it. -/
theorem tell_subject_cases (depth : Nat) (node : Phrase) :
    let subject := narrator.outright voice anonymize language depth node
    (narrator.tell event voice anonymize language depth node).subject = subject ∨
      subject.hasRole .verb = false ∧
        (narrator.tell event voice anonymize language depth node).subject =
          subject.glimpsed event.channel event.isTooIntense := by
  intro subject
  rw [tell_subject, dimmed]
  split
  · split
    · rename_i yields
      exact .inr ⟨yields.2, rfl⟩
    · exact .inl rfl
  · exact .inl rfl

theorem retained_sublist (depth : Nat) (node : Phrase) :
    (narrator.retained event voice anonymize language depth node).Sublist
      node.withoutSubjects.modifiers := by
  have parted : (narrator.partedSubject voice anonymize language depth node).modifiers =
      node.withoutSubjects.modifiers := partedSubject_modifiers depth node
  rw [← parted]
  unfold retained
  split
  · dsimp only
    split
    · exact List.nil_sublist _
    · exact Phrase.newcomers_sublist _ _
  · dsimp only
    split
    · exact List.nil_sublist _
    · exact List.Sublist.refl _

end

section

variable {narrator : Narrator Words} {event : Event} {voice : Option Context} {anonymize : Bool}
  {language : Language} {depth : Nat} {node : Phrase} {sense : Sense}

theorem outright_of_none
    (unneeded : narrator.givenVerb? voice anonymize language depth node = none) :
    narrator.outright voice anonymize language depth node =
      narrator.partedSubject voice anonymize language depth node := by
  unfold givenVerb? at unneeded
  split at unneeded
  · rename_i near
    rw [outright, if_pos near, completed_eq, unneeded]
  · rename_i below
    exact if_neg below

theorem retained_of_some
    (given : narrator.givenVerb? voice anonymize language depth node = some sense) :
    let subject := narrator.partedSubject voice anonymize language depth node
    narrator.retained event voice anonymize language depth node =
      if (verbOfBeing subject sense).equivalent subject then []
      else (verbOfBeing subject sense).newcomers subject.modifiers := by
  rw [retained, given]

/-- What is given a verb of being has that verb for its only modifier, or none if it repeats it. -/
theorem outright_modifiers_of_some
    (given : narrator.givenVerb? voice anonymize language depth node = some sense) :
    let subject := narrator.partedSubject voice anonymize language depth node
    (narrator.outright voice anonymize language depth node).modifiers =
      if (verbOfBeing subject sense).equivalent subject then []
      else [(verbOfBeing subject sense).attachAll subject.modifiers] := by
  unfold givenVerb? at given
  split at given
  · rename_i near
    intro subject
    rw [outright, if_pos near, completed_modifiers_of_some given]
  · contradiction

theorem verbOfBeing_attachAll_newcomers (subject : Phrase) (sense : Sense) :
    ((verbOfBeing subject sense).attachAll subject.modifiers).modifiers =
      (verbOfBeing subject sense).newcomers subject.modifiers := by
  rw [Phrase.attachAll_modifiers]
  rfl

/-- A verb of being has buried in it what is buried in the modifiers that it takes. -/
theorem verbOfBeing_attachAll_buried {subject : Phrase}
    (parted : subject.hasRole .subject = false) :
    ((verbOfBeing subject sense).attachAll subject.modifiers).buried =
      ((verbOfBeing subject sense).newcomers subject.modifiers).flatMap Phrase.buried := by
  rw [← verbOfBeing_attachAll_newcomers]
  apply Phrase.buried_of_parted
  rw [Phrase.hasRole, verbOfBeing_attachAll_newcomers, List.any_eq_false]
  rw [Phrase.hasRole, List.any_eq_false] at parted
  intro modifier member
  exact parted modifier ((Phrase.newcomers_sublist _ _).mem member)

theorem tell_buried_of_none
    (unneeded : narrator.givenVerb? voice anonymize language depth node = none) :
    (narrator.tell event voice anonymize language depth node).subject.buried =
      (narrator.retained event voice anonymize language depth node).flatMap Phrase.buried := by
  have parted := partedSubject_hasRole_subject narrator voice anonymize language depth node
  have outrightBuried := Phrase.buried_of_parted parted
  rw [tell_subject, outright_of_none unneeded, retained, unneeded]
  cases saturated : event.isSaturated with
  | false => simpa using outrightBuried
  | true =>
      by_cases glimpsed : Phrase.YieldsToGlimpse depth node ∧
          (narrator.partedSubject voice anonymize language depth node).hasRole .verb = false
      · simp [dimmed, glimpsed, Phrase.glimpsed_buried]
      · simp [dimmed, glimpsed, outrightBuried]

theorem tell_buried_of_some
    (given : narrator.givenVerb? voice anonymize language depth node = some sense) :
    (narrator.tell event voice anonymize language depth node).subject.buried =
      (narrator.retained event voice anonymize language depth node).flatMap Phrase.buried := by
  have parted := partedSubject_hasRole_subject narrator voice anonymize language depth node
  have modifiers := outright_modifiers_of_some given
  rw [retained_of_some given]
  by_cases repeated : (verbOfBeing (narrator.partedSubject voice anonymize language depth node)
      sense).equivalent (narrator.partedSubject voice anonymize language depth node) = true
  · simp only [repeated, if_true] at modifiers
    rw [if_pos repeated, List.flatMap_nil]
    rcases tell_subject_cases narrator event voice anonymize language depth node with
      told | ⟨_, told⟩
    · rw [told, Phrase.buried, modifiers]
      rfl
    · rw [told, Phrase.glimpsed_buried]
  · simp only [repeated, Bool.false_eq_true, if_false] at modifiers
    rw [if_neg repeated, ← verbOfBeing_attachAll_buried parted]
    rcases tell_subject_cases narrator event voice anonymize language depth node with
      told | ⟨verbless, _⟩
    · rw [told, Phrase.buried_eq, modifiers, List.flatMap_singleton]
      simp [Phrase.isSubject, verbOfBeing]
    · rw [Phrase.hasRole, modifiers] at verbless
      simp [verbOfBeing] at verbless

/-- What is buried in the subject of a clause is what is buried in the modifiers it retains. -/
theorem tell_buried (depth : Nat) (node : Phrase) :
    (narrator.tell event voice anonymize language depth node).subject.buried =
      (narrator.retained event voice anonymize language depth node).flatMap Phrase.buried := by
  cases given : narrator.givenVerb? voice anonymize language depth node with
  | none => exact tell_buried_of_none given
  | some sense => exact tell_buried_of_some given

/-- A clear event lets its clauses retain the whole description, if its parts are distinct. -/
theorem retained_of_clear (clear : event.isSaturated = false)
    (distinct : Phrase.Distinct node.modifiers) (noVerb : node.role ≠ .verb) :
    narrator.retained event voice anonymize language depth node =
      node.withoutSubjects.modifiers := by
  cases given : narrator.givenVerb? voice anonymize language depth node with
  | none => simp [retained, given, clear]
  | some sense =>
      have different : (verbOfBeing (narrator.partedSubject voice anonymize language depth node)
          sense).equivalent (narrator.partedSubject voice anonymize language depth node) =
            false := by
        rw [Bool.eq_false_iff, ne_eq, verbOfBeing_equivalent_iff]
        intro repeated
        exact noVerb ((partedSubject_role depth node).symm.trans repeated.role)
      have partsDistinct : Phrase.Distinct
          (narrator.partedSubject voice anonymize language depth node).modifiers := by
        rw [partedSubject_modifiers]
        exact distinct.sublist List.filter_sublist
      have chosen : narrator.existentialVerb?
          (narrator.partedSubject voice anonymize language depth node) = some sense := by
        unfold givenVerb? at given
        split at given
        · exact given
        · contradiction
      obtain ⟨_, verbless⟩ := hasRole_verb_of_existentialVerb? chosen
      rw [retained_of_some given]
      simp only [different, Bool.false_eq_true, if_false]
      rw [← verbOfBeing_attachAll_newcomers, verbOfBeing_attachAll_modifiers verbless partsDistinct,
        partedSubject_modifiers]

/-- What the clause of a phrase with `depth` subjects above it has buried in it. -/
structure TellsBuried (narrator : Narrator Words) (event : Event) (voice : Option Context)
    (anonymize : Bool) (language : Language) (depth : Nat) (node : Phrase) (clause : Clause) :
    Prop where
  parted : clause.subject.hasRole .subject = false
  buried : clause.subject.buried =
    (narrator.retained event voice anonymize language depth node).flatMap Phrase.buried
  retained : (narrator.retained event voice anonymize language depth node).Sublist
    node.withoutSubjects.modifiers

theorem tell_tellsBuried (narrator : Narrator Words) (event : Event) (voice : Option Context)
    (anonymize : Bool) (language : Language) (depth : Nat) (node : Phrase) :
    TellsBuried narrator event voice anonymize language depth node
      (narrator.tell event voice anonymize language depth node) where
  parted := (tell_tells narrator event voice anonymize language depth node).parted
  buried := tell_buried depth node
  retained := retained_sublist narrator event voice anonymize language depth node

/-- A clause has nothing buried in it that its own part of the tree has not. -/
theorem TellsBuried.sublist {clause : Clause}
    (tells : TellsBuried narrator event voice anonymize language depth node clause) :
    clause.subject.buried.Sublist node.withoutSubjects.buried := by
  rw [tells.buried, Phrase.withoutSubjects_buried]
  exact tells.retained.flatMap Phrase.buried

/-- A clear event has everything that is not told by itself buried in its clauses. -/
theorem tell_buried_of_mem_chainedSubjects {entry : Nat × Phrase}
    (clear : event.isSaturated = false) (distinct : event.phrase.DistinctThroughout)
    (noVerb : event.phrase.role ≠ .verb) (member : entry ∈ event.phrase.chainedSubjects 0) :
    (narrator.tell event voice anonymize language entry.1 entry.2).subject.buried =
      entry.2.withoutSubjects.buried := by
  have partsDistinct := distinct entry.2 (Phrase.mem_nodes_of_mem_chainedSubjects member)
  have entryNoVerb : entry.2.role ≠ .verb := by
    rcases Phrase.mem_chainedSubjects member with rfl | ⟨_, isSubject⟩
    · exact noVerb
    · have role : entry.2.role = .subject := by simpa [Phrase.isSubject] using isSubject
      simp [role]
  rw [tell_buried, retained_of_clear clear partsDistinct entryNoVerb,
    Phrase.withoutSubjects_buried]

/-- What the clauses of an event have buried in them. -/
structure TellAllBuried (narrator : Narrator Words) (event : Event) (voice : Option Context)
    (anonymize : Bool) (language : Language) (told : List Clause) : Prop where
  each : List.Forall₂
    (fun entry => TellsBuried narrator event voice anonymize language entry.1 entry.2)
    (event.phrase.chainedSubjects 0) told
  chained : event.phrase.SubjectsChained → ∀ clause ∈ told, clause.subject.buried = []
  onlyChained : event.isSaturated = false → event.phrase.DistinctThroughout →
    event.phrase.role ≠ .verb → (∀ clause ∈ told, clause.subject.buried = []) →
    event.phrase.SubjectsChained

end

/-- No subject stands directly below the subject of a clause.  What is buried further below is what
is buried in the modifiers that the clause retains, so that nothing is buried anywhere if all
subjects are chained, and in the clauses of a clear event only then. -/
theorem clauses_tell_buried {narrator : Narrator Words} {event : Event} {voice : Option Context}
    {anonymize : Bool} {told : List Clause} (named : event.phrase.text.isEmpty = false)
    (narrated : narrator.clauses event voice anonymize = .ok told) :
    ∃ language,
      narrator.languageFor (voice.getD event.phrase.context).language = .ok language ∧
      TellAllBuried narrator event voice anonymize language told := by
  obtain ⟨language, found, rfl⟩ := (clauses_eq_ok_iff named).mp narrated
  refine ⟨language, found, ?_, ?_, ?_⟩
  · rw [List.forall₂_map_right_iff, List.forall₂_same]
    intro entry _
    exact tell_tellsBuried narrator event voice anonymize language entry.1 entry.2
  · intro chained
    rw [Phrase.subjectsChained_iff_chainedSubjects 0] at chained
    rw [List.forall_mem_map]
    intro entry member
    have tells := tell_tellsBuried narrator event voice anonymize language entry.1 entry.2
    exact List.sublist_nil.mp (chained entry member ▸ tells.sublist)
  · intro clear distinct noVerb nothing
    rw [Phrase.subjectsChained_iff_chainedSubjects 0]
    intro entry member
    rw [List.forall_mem_map] at nothing
    have unburied := nothing entry member
    rwa [tell_buried_of_mem_chainedSubjects clear distinct noVerb member] at unburied

/-- In the clauses of the lantern nothing is buried: its moth and the wing of the moth are told by
themselves. -/
theorem lantern_buries_nothing :
    lantern.phrase.text.isEmpty = false ∧ plain.clauses lantern none false = .ok lanternTold ∧
      lantern.phrase.SubjectsChained ∧ ∀ clause ∈ lanternTold, clause.subject.buried = [] := by
  obtain ⟨_, _, tell⟩ := clauses_tell_buried rfl lantern_clauses
  have chained : lantern.phrase.SubjectsChained := by decide
  exact ⟨rfl, lantern_clauses, chained, tell.chained chained⟩

/-- A lantern that *attracts a moth*, where the moth is entered as a subject. -/
def attraction : Event where
  phrase :=
    { plainThing "lantern" with
      modifiers :=
        [{ role := .verb, wordClass := .verb, text := "attracts"
           modifiers := [plainThing "moth"] }] }
  strength := 0
  channel := .visible

/-- The moth is not told by itself: it is buried below the verb of the only clause. -/
theorem attraction_buries_moth :
    plain.clauses attraction none false =
        .ok [clause attraction .partialClause attraction.phrase] ∧
      attraction.phrase.buried = [plainThing "moth"] := by
  constructor
  · rw [clauses_eq_ok_iff rfl]
    refine ⟨plainLanguage, rfl, ?_⟩
    change _ = [plain.tell attraction none false plainLanguage 0 _]
    simp only [tell, mainClause, plain_completed]
    rfl
  · rfl

end Narrator

end SensoryProse
