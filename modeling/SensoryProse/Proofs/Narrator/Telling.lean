import Mathlib.Data.List.Forall2
import SensoryProse.Narrator.Basic
import SensoryProse.Proofs.Phrase.Attaching
import SensoryProse.Proofs.Phrase.Chains

/-!
# The clauses of an event

The clauses of an event are the phrases that chains of subjects lead to, each told by itself.  How
a phrase is told depends on its depth: the root is narrated in the voice and may be anonymized, a
subject of the root takes over its language, both are given a verb of being or replaced by a
glimpse, and a subject further below is told as it stands.
-/

namespace SensoryProse.Narrator

variable {Words : Type} [Vocabulary Words]

/-- The sense of the verb of being that a subject is given: one is chosen for a subject that has
modifiers, none of which is a verb. -/
def existentialVerb? (narrator : Narrator Words) (subject : Phrase) : Option Sense :=
  if subject.modifiers.isEmpty || subject.hasRole .verb then none
  else Vocabulary.choose narrator.lexicon (existentialContext subject.context) .verb

/-- The verb of being that stands below `subject`, before the description is moved under it. -/
def verbOfBeing (subject : Phrase) (sense : Sense) : Phrase where
  role := .verb
  wordClass := .verb
  text := sense.name
  context := existentialContext subject.context

theorem completed_eq (narrator : Narrator Words) (subject : Phrase) :
    narrator.completed subject =
      match narrator.existentialVerb? subject with
      | none => subject
      | some sense =>
          subject.bare.attach ((verbOfBeing subject sense).attachAll subject.modifiers) := by
  unfold completed existentialVerb?
  split
  · rfl
  · rfl

theorem hasRole_verb_of_existentialVerb? {narrator : Narrator Words} {subject : Phrase}
    {sense : Sense} (chosen : narrator.existentialVerb? subject = some sense) :
    subject.modifiers ≠ [] ∧ subject.hasRole .verb = false := by
  unfold existentialVerb? at chosen
  split at chosen
  · contradiction
  · rename_i incomplete
    simpa using incomplete

@[simp] theorem completed_bare (narrator : Narrator Words) (subject : Phrase) :
    (narrator.completed subject).bare = subject.bare := by
  cases chosen : narrator.existentialVerb? subject with
  | none => rw [completed_eq, chosen]
  | some sense =>
      rw [completed_eq, chosen]
      exact Phrase.attach_bare _ _

/-- The verb of being is the only modifier of a subject that was given one. -/
theorem completed_modifiers_of_some {narrator : Narrator Words} {subject : Phrase} {sense : Sense}
    (chosen : narrator.existentialVerb? subject = some sense) :
    (narrator.completed subject).modifiers =
      if (verbOfBeing subject sense).equivalent subject then []
      else [(verbOfBeing subject sense).attachAll subject.modifiers] := by
  rw [completed_eq, chosen, Phrase.attach_bare_modifiers]
  simp [Phrase.equivalent]

/-- The only modifier that a subject can gain is a verb. -/
theorem hasRole_completed {narrator : Narrator Words} {subject : Phrase} {role : Role}
    (absent : subject.hasRole role = false) (noVerb : role ≠ .verb) :
    (narrator.completed subject).hasRole role = false := by
  cases chosen : narrator.existentialVerb? subject with
  | none => rw [completed_eq, chosen, absent]
  | some sense =>
      rw [Phrase.hasRole, completed_modifiers_of_some chosen]
      split
      · rfl
      · simpa [verbOfBeing] using noVerb.symm

/-- A glimpse is a verb without verbs or subjects below it. -/
theorem glimpsed_hasRole (subject : Phrase) (channel : Channel) (tooIntense : Bool) (role : Role)
    (noObject : role ≠ .directObject) (noDescription : role ≠ .descriptive) :
    (subject.glimpsed channel tooIntense).hasRole role = false := by
  have object := noObject.symm
  have description := noDescription.symm
  cases channel <;> cases tooIntense <;>
    simp [Phrase.glimpsed, Glimpse.of, Phrase.hasRole, Phrase.attach, Phrase.equivalent,
      Phrase.key, object, description]

/-- The clause of a subject is told in one of three ways. -/
theorem mainClause_cases (narrator : Narrator Words) (event : Event) (hasNested : Bool)
    (subject : Phrase) :
    let whole := narrator.completed subject
    (whole.hasRole .verb = true ∧
        narrator.mainClause event hasNested subject = clause event .partialClause whole) ∨
      (whole.hasRole .verb = false ∧ event.isSaturated = true ∧ hasNested = false ∧
        narrator.mainClause event hasNested subject =
          clause event .statement (whole.glimpsed event.channel event.isTooIntense)) ∨
      (whole.hasRole .verb = false ∧ (event.isSaturated = false ∨ hasNested = true) ∧
        narrator.mainClause event hasNested subject = clause event .statement whole) := by
  intro whole
  cases verb : whole.hasRole .verb with
  | true => exact .inl ⟨rfl, by simp [mainClause, whole, verb]⟩
  | false =>
      cases saturated : event.isSaturated with
      | false => exact .inr (.inr ⟨rfl, .inl rfl, by simp [mainClause, whole, verb, saturated]⟩)
      | true =>
          cases hasNested with
          | false => exact .inr (.inl ⟨rfl, rfl, rfl, by simp [mainClause, whole, verb, saturated]⟩)
          | true => exact .inr (.inr ⟨rfl, .inr rfl, by simp [mainClause, whole, verb]⟩)

@[simp] theorem narratedRoot_modifiers (narrator : Narrator Words) (voice : Option Context)
    (anonymize : Bool) (language : Language) (root : Phrase) :
    (narrator.narratedRoot voice anonymize language root).modifiers = root.modifiers := by
  unfold narratedRoot
  split <;> rfl

@[simp] theorem narratedRoot_role (narrator : Narrator Words) (voice : Option Context)
    (anonymize : Bool) (language : Language) (root : Phrase) :
    (narrator.narratedRoot voice anonymize language root).role = root.role := by
  unfold narratedRoot
  split <;> rfl

/-- A phrase with `depth` subjects above it, in the context in which it is told and parted from the
subjects below it. -/
def partedSubject (narrator : Narrator Words) (voice : Option Context) (anonymize : Bool)
    (language : Language) : Nat → Phrase → Phrase
  | 0, root => (narrator.narratedRoot voice anonymize language root).withoutSubjects
  | 1, subject => (inLanguage language subject).withoutSubjects
  | _ + 2, subject => subject.withoutSubjects

/-- The clause that tells of a phrase with `depth` subjects above it. -/
def tell (narrator : Narrator Words) (event : Event) (voice : Option Context) (anonymize : Bool)
    (language : Language) (depth : Nat) (node : Phrase) : Clause :=
  let subject := narrator.partedSubject voice anonymize language depth node
  match depth with
  | 0 => narrator.mainClause event false subject
  | 1 => narrator.mainClause event (node.hasRole .subject) subject
  | _ + 2 => clause event .statement subject

/-- The verb of being that is given to a phrase with `depth` subjects above it. -/
def givenVerb? (narrator : Narrator Words) (voice : Option Context) (anonymize : Bool)
    (language : Language) (depth : Nat) (node : Phrase) : Option Sense :=
  if depth ≤ 1 then
    narrator.existentialVerb? (narrator.partedSubject voice anonymize language depth node)
  else none

section

variable {narrator : Narrator Words} {event : Event} {voice : Option Context} {anonymize : Bool}
  {language : Language}

@[simp] theorem partedSubject_modifiers (depth : Nat) (node : Phrase) :
    (narrator.partedSubject voice anonymize language depth node).modifiers =
      node.withoutSubjects.modifiers := by
  match depth with
  | 0 => simp [partedSubject]
  | 1 => rfl
  | _ + 2 => rfl

@[simp] theorem partedSubject_role (depth : Nat) (node : Phrase) :
    (narrator.partedSubject voice anonymize language depth node).role = node.role := by
  match depth with
  | 0 => exact narratedRoot_role narrator voice anonymize language node
  | 1 => rfl
  | _ + 2 => rfl

theorem tell_near (narrator : Narrator Words) (event : Event) (voice : Option Context)
    (anonymize : Bool) (language : Language) {depth : Nat} (near : depth ≤ 1) (node : Phrase) :
    ∃ hasNested, narrator.tell event voice anonymize language depth node =
      narrator.mainClause event hasNested
        (narrator.partedSubject voice anonymize language depth node) := by
  match depth, near with
  | 0, _ => exact ⟨false, rfl⟩
  | 1, _ => exact ⟨node.hasRole .subject, rfl⟩

theorem tell_below {depth : Nat} (below : 2 ≤ depth) (node : Phrase) :
    narrator.tell event voice anonymize language depth node =
      clause event .statement node.withoutSubjects := by
  obtain ⟨steps, rfl⟩ := Nat.exists_eq_add_of_le' below
  rfl

/-- Below the subjects of the root, a chain of subjects is told phrase by phrase. -/
private theorem map_tell_nested (subjects : List Phrase) :
    (subjects.flatMap (Phrase.chainedSubjects 2)).map
        (fun entry => narrator.tell event voice anonymize language entry.1 entry.2) =
      (subjects.flatMap fun subject => subject.withoutSubjects :: subject.nestedSubjects).map
        (clause event .statement) := by
  have asTheyStand : ∀ entry ∈ subjects.flatMap (Phrase.chainedSubjects 2),
      narrator.tell event voice anonymize language entry.1 entry.2 =
        clause event .statement entry.2.withoutSubjects := by
    intro entry member
    obtain ⟨subject, _, entryMember⟩ := List.mem_flatMap.mp member
    exact tell_below (Phrase.le_depth_of_mem_chainedSubjects entryMember) entry.2
  rw [List.map_congr_left asTheyStand, List.map_flatMap, List.map_flatMap]
  apply List.flatMap_congr
  intro subject _
  rw [← Phrase.chainedSubjects_map_withoutSubjects 2 subject, List.map_map]
  rfl

private theorem map_tell_subject (subject : Phrase) :
    (subject.chainedSubjects 1).map
        (fun entry => narrator.tell event voice anonymize language entry.1 entry.2) =
      narrator.clausesOf event (inLanguage language subject) := by
  have sameNested : (inLanguage language subject).nestedSubjects = subject.nestedSubjects := by
    rw [Phrase.nestedSubjects_eq, Phrase.nestedSubjects_eq subject]
    rfl
  rw [Phrase.chainedSubjects_eq, List.map_cons, map_tell_nested, ← Phrase.nestedSubjects_eq]
  simp [clausesOf, tell, partedSubject, sameNested, Phrase.nestedSubjects_isEmpty]

private theorem map_tell_root (root : Phrase) :
    (root.chainedSubjects 0).map
        (fun entry => narrator.tell event voice anonymize language entry.1 entry.2) =
      (subjectsOf language (narrator.narratedRoot voice anonymize language root)).flatMap
        (narrator.clausesOf event) := by
  rw [Phrase.chainedSubjects_eq, List.map_cons, List.map_flatMap, subjectsOf, List.flatMap_cons,
    narratedRoot_modifiers, List.flatMap_map]
  have told : narrator.clausesOf event
      (narrator.narratedRoot voice anonymize language root).withoutSubjects =
        [narrator.tell event voice anonymize language 0 root] := by
    simp [clausesOf, tell, partedSubject]
  rw [told, List.singleton_append]
  congr 1
  apply List.flatMap_congr
  intro subject _
  exact map_tell_subject subject

/-- The clauses of a named event are told along its chains of subjects, once a language is found
for the root. -/
theorem clauses_eq_map_tell (named : event.phrase.text.isEmpty = false) :
    narrator.clauses event voice anonymize =
      (narrator.languageFor (voice.getD event.phrase.context).language).map fun language =>
        (event.phrase.chainedSubjects 0).map fun entry =>
          narrator.tell event voice anonymize language entry.1 entry.2 := by
  unfold clauses
  rw [named]
  cases found : narrator.languageFor (voice.getD event.phrase.context).language with
  | error cause => simp [found, bind, Except.bind, Except.map]
  | ok language => simp [found, bind, Except.bind, pure, Except.pure, Except.map, map_tell_root]

theorem clauses_eq_ok_iff {told : List Clause} (named : event.phrase.text.isEmpty = false) :
    narrator.clauses event voice anonymize = .ok told ↔
      ∃ language, narrator.languageFor (voice.getD event.phrase.context).language = .ok language ∧
        told = (event.phrase.chainedSubjects 0).map fun entry =>
          narrator.tell event voice anonymize language entry.1 entry.2 := by
  rw [clauses_eq_map_tell named]
  cases narrator.languageFor (voice.getD event.phrase.context).language with
  | error cause => simp [Except.map]
  | ok language => simp [Except.map, eq_comm]

/-- What holds of every telling holds of all clauses of an event that could be narrated.  An event
without a name has none. -/
theorem forall₂_of_clauses {motive : Language → Nat × Phrase → Clause → Prop} {told : List Clause}
    (narrated : narrator.clauses event voice anonymize = .ok told)
    (tells : ∀ language,
      narrator.languageFor (voice.getD event.phrase.context).language = .ok language →
      ∀ entry : Nat × Phrase, motive language entry
        (narrator.tell event voice anonymize language entry.1 entry.2)) :
    (event.phrase.text.isEmpty = true ∧ told = []) ∨
      ∃ language,
        narrator.languageFor (voice.getD event.phrase.context).language = .ok language ∧
        List.Forall₂ (motive language) (event.phrase.chainedSubjects 0) told := by
  cases named : event.phrase.text.isEmpty with
  | true =>
      left
      simp only [clauses, named, if_true, Except.ok.injEq] at narrated
      exact ⟨rfl, narrated.symm⟩
  | false =>
      right
      obtain ⟨language, found, rfl⟩ := (clauses_eq_ok_iff named).mp narrated
      refine ⟨language, found, ?_⟩
      rw [List.forall₂_map_right_iff, List.forall₂_same]
      intro entry _
      exact tells language found entry

end

/-- What can be made out is told as it was completed. -/
theorem tell_subject_of_clear (narrator : Narrator Words) {event : Event} (voice : Option Context)
    (anonymize : Bool) (language : Language) (depth : Nat) (node : Phrase)
    (clear : event.isSaturated = false) :
    (narrator.tell event voice anonymize language depth node).subject =
      if depth ≤ 1 then
        narrator.completed (narrator.partedSubject voice anonymize language depth node)
      else narrator.partedSubject voice anonymize language depth node := by
  by_cases near : depth ≤ 1
  · obtain ⟨hasNested, equality⟩ :=
      tell_near narrator event voice anonymize language near node
    rw [equality, if_pos near]
    rcases mainClause_cases narrator event hasNested
        (narrator.partedSubject voice anonymize language depth node) with
      ⟨_, told⟩ | ⟨_, saturated, _, _⟩ | ⟨_, _, told⟩
    · rw [told]
      rfl
    · rw [clear] at saturated
      contradiction
    · rw [told]
      rfl
  · obtain ⟨steps, rfl⟩ := Nat.exists_eq_add_of_le' (Nat.lt_of_not_le near)
    rw [if_neg near]
    rfl

theorem tell_subject_of_none {narrator : Narrator Words} {event : Event} {voice : Option Context}
    {anonymize : Bool} {language : Language} {depth : Nat} {node : Phrase}
    (clear : event.isSaturated = false)
    (unneeded : narrator.givenVerb? voice anonymize language depth node = none) :
    (narrator.tell event voice anonymize language depth node).subject =
      narrator.partedSubject voice anonymize language depth node := by
  rw [tell_subject_of_clear _ _ _ _ _ _ clear]
  unfold givenVerb? at unneeded
  split at unneeded
  · rename_i near
    rw [if_pos near, completed_eq, unneeded]
  · rename_i below
    rw [if_neg below]

theorem tell_subject_of_some {narrator : Narrator Words} {event : Event} {voice : Option Context}
    {anonymize : Bool} {language : Language} {depth : Nat} {node : Phrase} {sense : Sense}
    (clear : event.isSaturated = false)
    (given : narrator.givenVerb? voice anonymize language depth node = some sense) :
    (narrator.tell event voice anonymize language depth node).subject =
        narrator.completed (narrator.partedSubject voice anonymize language depth node) ∧
      narrator.existentialVerb?
        (narrator.partedSubject voice anonymize language depth node) = some sense := by
  rw [tell_subject_of_clear _ _ _ _ _ _ clear]
  unfold givenVerb? at given
  split at given
  · rename_i near
    exact ⟨if_pos near, given⟩
  · contradiction

/-- The form that a phrase is called by in want of a pronoun. -/
def genderForm (context : Context) : String := (context.pronouns.getD .they).subject

/-- What a phrase of the given context is called by if its name is kept back. -/
def pronounOf (narrator : Narrator Words) (context : Context) : String :=
  ((Vocabulary.choose narrator.lexicon (pronounContext context) .pronoun).map (·.name)).getD
    (genderForm context)

theorem anonymized_eq (narrator : Narrator Words) (phrase : Phrase) :
    narrator.anonymized phrase =
      { phrase with
        text := narrator.pronounOf phrase.context
        wordClass := .pronoun
        context := pronounContext phrase.context } := by
  unfold anonymized pronounOf
  dsimp only
  cases Vocabulary.choose narrator.lexicon (pronounContext phrase.context) .pronoun <;> rfl

/-- The context in which the root of an event is told in `language`. -/
def spokenContext (voice : Option Context) (language : Language) (root : Phrase) : Context :=
  { voice.elim root.context root.context.inVoiceOf with language := some language.name }

/-- The context in which a phrase with `depth` subjects above it is told by its name. -/
def toldContext (voice : Option Context) (language : Language) : Nat → Phrase → Context
  | 0, root => spokenContext voice language root
  | 1, subject =>
      { subject.context with
        language := subject.context.language.or (some language.name) }
  | _ + 2, subject => subject.context

/-- What has become of the description of a subject.  It is attached as it was, or stands below a
verb of being, or is lost with a verb that is refused as a duplicate of the subject. -/
inductive CarriesDescription (narrator : Narrator Words) (subject : Phrase)
    (description : List Phrase) : Prop
  | asAttached
      (unneeded : narrator.existentialVerb? { subject with modifiers := description } = none)
      (attached : subject.modifiers = description)
  | underVerb {sense : Sense}
      (chosen : narrator.existentialVerb? { subject with modifiers := description } = some sense)
      (fresh : (verbOfBeing subject sense).equivalent subject = false)
      (attached : subject.modifiers = [(verbOfBeing subject sense).attachAll description])
  | lost {sense : Sense}
      (chosen : narrator.existentialVerb? { subject with modifiers := description } = some sense)
      (duplicate : (verbOfBeing subject sense).equivalent subject = true)
      (attached : subject.modifiers = [])

/-- How a phrase with `depth` subjects above it appears in full, parted from the subjects below it:
by its name or, at the root, by a pronoun. -/
inductive Appears (narrator : Narrator Words) (voice : Option Context) (anonymize : Bool)
    (language : Language) (depth : Nat) (node subject : Phrase) : Prop
  | byName (near : depth ≤ 1) (named : depth = 0 → anonymize = false)
      (role : subject.role = node.role) (wordClass : subject.wordClass = node.wordClass)
      (text : subject.text = node.text)
      (context : subject.context = toldContext voice language depth node)
      (description : narrator.CarriesDescription subject node.withoutSubjects.modifiers)
  | byPronoun (root : depth = 0) (anonymized : anonymize = true)
      (role : subject.role = node.role) (wordClass : subject.wordClass = .pronoun)
      (text : subject.text = narrator.pronounOf (toldContext voice language depth node))
      (context : subject.context = pronounContext (toldContext voice language depth node))
      (description : narrator.CarriesDescription subject node.withoutSubjects.modifiers)

/-- How a phrase with `depth` subjects above it shows in the subject of its clause.  A glimpse takes
the place of what is saturated and has no verb, except where subjects below it are told of. -/
inductive Shows (narrator : Narrator Words) (event : Event) (voice : Option Context)
    (anonymize : Bool) (language : Language) (depth : Nat) (node : Phrase) : Phrase → Prop
  | asItStands (below : 2 ≤ depth) :
      Shows narrator event voice anonymize language depth node node.withoutSubjects
  | inFull {subject : Phrase}
      (appears : narrator.Appears voice anonymize language depth node subject)
      (clear : subject.hasRole .verb = true ∨ event.isSaturated = false ∨
        (depth = 1 ∧ node.hasRole .subject = true)) :
      Shows narrator event voice anonymize language depth node subject
  | asGlimpse {whole : Phrase}
      (appears : narrator.Appears voice anonymize language depth node whole)
      (verbless : whole.hasRole .verb = false) (saturated : event.isSaturated = true)
      (alone : depth = 1 → node.hasRole .subject = false) :
      Shows narrator event voice anonymize language depth node
        (whole.glimpsed event.channel event.isTooIntense)

/-- What a clause has to be to tell of a phrase. -/
structure Tells (narrator : Narrator Words) (event : Event) (voice : Option Context)
    (anonymize : Bool) (language : Language) (depth : Nat) (node : Phrase) (clause : Clause) :
    Prop where
  channel : clause.channel = event.channel
  strength : clause.strength = event.strength
  shows : narrator.Shows event voice anonymize language depth node clause.subject
  parted : clause.subject.hasRole .subject = false
  kind : clause.kind =
    if depth ≤ 1 ∧ clause.subject.hasRole .verb = true then .partialClause else .statement

theorem completed_carriesDescription (narrator : Narrator Words) (subject : Phrase) :
    narrator.CarriesDescription (narrator.completed subject) subject.modifiers := by
  have bare := completed_bare narrator subject
  have restored : { narrator.completed subject with modifiers := subject.modifiers } = subject :=
    Phrase.eq_of_bare bare
  have sameVerb : ∀ sense, verbOfBeing (narrator.completed subject) sense =
      verbOfBeing subject sense := by
    intro sense
    exact (congrArg (verbOfBeing · sense) bare :)
  have sameKey : ∀ verb : Phrase, verb.equivalent (narrator.completed subject) =
      verb.equivalent subject := by
    intro verb
    exact (congrArg verb.equivalent bare :)
  cases chosen : narrator.existentialVerb? subject with
  | none =>
      apply CarriesDescription.asAttached
      · rw [restored, chosen]
      · rw [completed_eq, chosen]
  | some sense =>
      have attached := completed_modifiers_of_some chosen
      cases duplicate : (verbOfBeing subject sense).equivalent subject with
      | true =>
          rw [duplicate, if_pos rfl] at attached
          refine .lost (restored.symm ▸ chosen) ?_ attached
          rw [sameVerb, sameKey, duplicate]
      | false =>
          rw [duplicate, if_neg Bool.false_ne_true] at attached
          refine .underVerb (restored.symm ▸ chosen) ?_ ?_
          · rw [sameVerb, sameKey, duplicate]
          · rw [sameVerb, attached]

section

variable {narrator : Narrator Words} {event : Event} {voice : Option Context} {anonymize : Bool}
  {language : Language} {depth : Nat}

theorem narratedRoot_eq_anonymized (root : Phrase) :
    narrator.narratedRoot voice true language root =
      narrator.anonymized { root with context := spokenContext voice language root } := rfl

theorem appears_completed (near : depth ≤ 1) (node : Phrase) :
    narrator.Appears voice anonymize language depth node
      (narrator.completed (narrator.partedSubject voice anonymize language depth node)) := by
  have bare := completed_bare narrator
    (narrator.partedSubject voice anonymize language depth node)
  have role := (congrArg Phrase.role bare :).trans (partedSubject_role depth node)
  have wordClass := (congrArg Phrase.wordClass bare :)
  have text := (congrArg Phrase.text bare :)
  have context := (congrArg Phrase.context bare :)
  have description := narrator.completed_carriesDescription
    (narrator.partedSubject voice anonymize language depth node)
  rw [partedSubject_modifiers] at description
  rcases Nat.le_one_iff_eq_zero_or_eq_one.mp near with rfl | rfl
  · cases anonymize with
    | false => exact .byName near (fun _ => rfl) role wordClass text context description
    | true =>
        have called := congrArg Phrase.text
          (narrator.anonymized_eq { node with context := spokenContext voice language node })
        exact .byPronoun rfl rfl role wordClass (text.trans called) context description
  · exact .byName near (by simp) role wordClass text context description

theorem mainClause_tells (near : depth ≤ 1) {hasNested : Bool} (node : Phrase)
    (nested : hasNested = true ↔ depth = 1 ∧ node.hasRole .subject = true) :
    narrator.Tells event voice anonymize language depth node
      (narrator.mainClause event hasNested
        (narrator.partedSubject voice anonymize language depth node)) := by
  have appears : narrator.Appears voice anonymize language depth node
      (narrator.completed (narrator.partedSubject voice anonymize language depth node)) :=
    appears_completed near node
  have parted : (narrator.completed
      (narrator.partedSubject voice anonymize language depth node)).hasRole .subject = false := by
    apply hasRole_completed _ (by decide)
    rw [Phrase.hasRole, partedSubject_modifiers]
    exact Phrase.hasRole_subject_withoutSubjects node
  rcases mainClause_cases narrator event hasNested
      (narrator.partedSubject voice anonymize language depth node) with
    ⟨verb, equality⟩ | ⟨verbless, saturated, single, equality⟩ | ⟨verbless, clear, equality⟩
  · rw [equality]
    exact ⟨rfl, rfl, .inFull appears (.inl verb), parted, by simp [clause, near, verb]⟩
  · rw [equality]
    refine ⟨rfl, rfl, .asGlimpse appears verbless saturated ?_, ?_, ?_⟩
    · intro below
      rw [Bool.eq_false_iff]
      intro hasSubject
      rw [nested.mpr ⟨below, hasSubject⟩] at single
      contradiction
    · exact glimpsed_hasRole _ _ _ .subject (by decide) (by decide)
    · have noVerb := glimpsed_hasRole
        (narrator.completed (narrator.partedSubject voice anonymize language depth node))
        event.channel event.isTooIntense .verb (by decide) (by decide)
      simp [clause, noVerb]
  · rw [equality]
    have told := clear.imp id nested.mp
    exact ⟨rfl, rfl, .inFull appears (.inr told), parted, by simp [clause, verbless]⟩

theorem tell_tells (narrator : Narrator Words) (event : Event) (voice : Option Context)
    (anonymize : Bool) (language : Language) (depth : Nat) (node : Phrase) :
    narrator.Tells event voice anonymize language depth node
      (narrator.tell event voice anonymize language depth node) := by
  match depth with
  | 0 => exact mainClause_tells (Nat.zero_le 1) node (by simp)
  | 1 => exact mainClause_tells (Nat.le_refl 1) node (by simp)
  | steps + 2 =>
      have below : 2 ≤ steps + 2 := Nat.le_add_left 2 steps
      exact ⟨rfl, rfl, .asItStands below, Phrase.hasRole_subject_withoutSubjects node,
        by simp [tell, clause]⟩

/-- The clauses of a named event tell of the phrases that chains of subjects lead to, one clause
for each and in this order, in the language that is found for the root. -/
theorem clauses_tell_chainedSubjects {told : List Clause}
    (named : event.phrase.text.isEmpty = false)
    (narrated : narrator.clauses event voice anonymize = .ok told) :
    ∃ language, narrator.languageFor (voice.getD event.phrase.context).language = .ok language ∧
      List.Forall₂
        (fun entry clause =>
          narrator.Tells event voice anonymize language entry.1 entry.2 clause)
        (event.phrase.chainedSubjects 0) told := by
  obtain ⟨language, found, rfl⟩ := (clauses_eq_ok_iff named).mp narrated
  refine ⟨language, found, ?_⟩
  rw [List.forall₂_map_right_iff, List.forall₂_same]
  intro entry _
  exact tell_tells narrator event voice anonymize language entry.1 entry.2

end

/-- The verb of being that `plain` knows. -/
def being : Sense where
  name := "is"
  wordClass := .verb
  lexeme := "be"
  semantics := .singleton existential

/-- A language in which nouns take articles. -/
def plainLanguage : Language where
  name := "english"
  rules := [{ wordClass := some .noun, article := some true }]

/-- A narrator with one language and one verb of being. -/
def plain : Narrator where
  languages := .ofList [plainLanguage]
  lexicon := .ofSenses [being] 0

theorem plain_existentialVerb? (subject : Phrase) :
    plain.existentialVerb? subject =
      if subject.modifiers.isEmpty || subject.hasRole .verb then none else some being := by
  have only : plain.lexicon.candidates (existentialContext subject.context) .verb = [being] := rfl
  have tied : plain.lexicon.tied (existentialContext subject.context) .verb = [being] := by
    simp [Lexicon.tied, only]
  have first : (Drawing.seeded plain.lexicon.seed).index 1 = 0 :=
    Nat.lt_one_iff.mp (Drawing.index_lt _ Nat.one_pos)
  simp [existentialVerb?, Lexicon.choose, Lexicon.chooseBy, tied, first]

theorem plain_completed (subject : Phrase) :
    plain.completed subject =
      if subject.modifiers.isEmpty || subject.hasRole .verb then subject
      else subject.bare.attach ((verbOfBeing subject being).attachAll subject.modifiers) := by
  rw [completed_eq, plain_existentialVerb?]
  split <;> simp_all

/-- A dim lantern with a moth on it, and a wing on the moth. -/
def lantern : Event where
  phrase :=
    { role := .subject, wordClass := .noun, text := "lantern"
      modifiers :=
        [{ role := .descriptive, wordClass := .adjective, text := "dim" },
          { role := .subject, wordClass := .noun, text := "moth"
            modifiers := [{ role := .subject, wordClass := .noun, text := "wing" }] }] }
  strength := 0
  channel := .visible

/-- *The lantern is dim*, and then the moth and the wing. -/
def lanternTold : List Clause :=
  let english := Context.inLanguage plainLanguage.name
  let dim : Phrase := { role := .descriptive, wordClass := .adjective, text := "dim" }
  let verb : Phrase :=
    { role := .verb, wordClass := .verb, text := "is", modifiers := [dim]
      context := existentialContext english }
  [clause lantern .partialClause
      { role := .subject, wordClass := .noun, text := "lantern", modifiers := [verb]
        context := english },
    clause lantern .statement
      { role := .subject, wordClass := .noun, text := "moth", context := english },
    clause lantern .statement { role := .subject, wordClass := .noun, text := "wing" }]

theorem lantern_clauses : plain.clauses lantern none false = .ok lanternTold := by
  rw [clauses_eq_ok_iff rfl]
  refine ⟨plainLanguage, rfl, ?_⟩
  change lanternTold = [plain.tell lantern none false plainLanguage 0 _,
    plain.tell lantern none false plainLanguage 1 _,
    plain.tell lantern none false plainLanguage 2 _]
  simp only [tell, mainClause, plain_completed]
  rfl

theorem lantern_tells_chainedSubjects :
    lantern.phrase.text.isEmpty = false ∧ plain.clauses lantern none false = .ok lanternTold ∧
      List.Forall₂
        (fun entry clause =>
          plain.Tells lantern none false plainLanguage entry.1 entry.2 clause)
        (lantern.phrase.chainedSubjects 0) lanternTold := by
  obtain ⟨language, found, tells⟩ := clauses_tell_chainedSubjects rfl lantern_clauses
  cases found
  exact ⟨rfl, lantern_clauses, tells⟩

end SensoryProse.Narrator
