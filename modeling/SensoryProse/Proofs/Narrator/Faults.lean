import SensoryProse.Proofs.Narrator.Voices

/-!
# When narrating fails

Narrating knows one fault: the base language is missing and a phrase has to fall back on it.  With
the base language at hand nothing fails.  Without it an event fails to be described exactly if the
language that its root is to be told in, or that some other clause names, is not that of a
registered pack with rules.
-/

namespace SensoryProse

/-- The computation fails with `cause` exactly under `condition` and returns a value otherwise. -/
def FaultsWhen {ε α : Type} (cause : ε) (condition : Prop) (result : Except ε α) : Prop :=
  condition ∧ result = .error cause ∨ ¬condition ∧ ∃ value, result = .ok value

namespace FaultsWhen

variable {ε α β : Type} {cause : ε} {condition other : Prop} {result : Except ε α}

theorem eq_error_iff (faults : FaultsWhen cause condition result) :
    result = .error cause ↔ condition := by
  rcases faults with ⟨holds, failed⟩ | ⟨fails, value, returned⟩
  · exact iff_of_true failed holds
  · apply iff_of_false _ fails
    rw [returned]
    intro same
    cases same

theorem exists_ok_iff (faults : FaultsWhen cause condition result) :
    (∃ value, result = .ok value) ↔ ¬condition := by
  rcases faults with ⟨holds, failed⟩ | ⟨fails, returned⟩
  · apply iff_of_false _ (not_not_intro holds)
    rintro ⟨value, returned⟩
    rw [failed] at returned
    cases returned
  · exact iff_of_true returned fails

theorem congr (faults : FaultsWhen cause condition result) (same : condition ↔ other) :
    FaultsWhen cause other result := by
  rwa [FaultsWhen, ← same]

theorem map (faults : FaultsWhen cause condition result) (change : α → β) :
    FaultsWhen cause condition (change <$> result) := by
  rcases faults with ⟨holds, failed⟩ | ⟨fails, value, returned⟩
  · exact .inl ⟨holds, by rw [failed]; rfl⟩
  · exact .inr ⟨fails, change value, by rw [returned]; rfl⟩

theorem bind (faults : FaultsWhen cause condition result) {next : α → Except ε β}
    {conditions : α → Prop}
    (nextFaults : ∀ value, result = .ok value → FaultsWhen cause (conditions value) (next value)) :
    FaultsWhen cause (condition ∨ ∃ value, result = .ok value ∧ conditions value)
      (result >>= next) := by
  rcases faults with ⟨holds, failed⟩ | ⟨fails, value, returned⟩
  · exact .inl ⟨.inl holds, by rw [failed]; rfl⟩
  · have continued : (result >>= next) = next value := by
      rw [returned]
      rfl
    rw [continued]
    refine (nextFaults value returned).congr ?_
    constructor
    · intro later
      exact .inr ⟨value, returned, later⟩
    · rintro (earlier | ⟨same, sameReturned, later⟩)
      · exact absurd earlier fails
      · rw [returned] at sameReturned
        cases sameReturned
        exact later

theorem mapM {step : α → Except ε β} {conditions : α → Prop} {list : List α}
    (stepFaults : ∀ value ∈ list, FaultsWhen cause (conditions value) (step value)) :
    FaultsWhen cause (∃ value ∈ list, conditions value) (list.mapM step) := by
  induction list with
  | nil => exact .inr ⟨by simp, [], rfl⟩
  | cons first rest induction =>
      have restFaults := induction fun value member =>
        stepFaults value (List.mem_cons_of_mem first member)
      rw [List.mapM_cons]
      rcases stepFaults first List.mem_cons_self with ⟨holds, failed⟩ | ⟨fails, value, returned⟩
      · exact .inl ⟨⟨first, List.mem_cons_self, holds⟩, by rw [failed]; rfl⟩
      · rcases restFaults with ⟨⟨later, member, holds⟩, failed⟩ | ⟨restFails, values, restReturned⟩
        · exact .inl ⟨⟨later, List.mem_cons_of_mem first member, holds⟩,
            by rw [returned, failed]; rfl⟩
        · refine .inr ⟨?_, value :: values, by rw [returned, restReturned]; rfl⟩
          rintro ⟨some, member, holds⟩
          rcases List.mem_cons.mp member with rfl | later
          · exact fails holds
          · exact restFails ⟨some, later, holds⟩

end FaultsWhen

namespace Narrator

variable {Words : Type} (narrator : Narrator Words) (event : Event) (voice : Option Context)
  (anonymize : Bool)

def fault : NarrationError := .missingBaseLanguage narrator.config.baseLanguage

/-- There is a language for phrases that ask for `requested`. -/
def Serves (requested : Option String) : Prop :=
  ∃ language, narrator.languageFor requested = .ok language

theorem languageFor_faults (requested : Option String) :
    FaultsWhen narrator.fault (¬narrator.Serves requested) (narrator.languageFor requested) := by
  cases found : narrator.languageFor requested with
  | ok language =>
      exact .inr ⟨not_not_intro ⟨language, found⟩, language, rfl⟩
  | error cause =>
      left
      constructor
      · rintro ⟨language, served⟩
        rw [found] at served
        cases served
      · unfold languageFor at found
        split at found
        · cases found
        · cases found
          rfl

theorem serves_iff {narrator : Narrator Words} {packs : List Language}
    (built : narrator.languages = .ofList packs) {requested : Option String} :
    narrator.Serves requested ↔
      Languages.Spoken packs requested ∨
        Languages.Registered packs narrator.config.baseLanguage := by
  have selected : narrator.Serves requested ↔
      narrator.languages.select requested narrator.config.baseLanguage ≠ none := by
    simp only [Serves, languageFor_eq_ok_iff, Option.ne_none_iff_exists']
  rw [selected, built, ne_eq, Languages.select_ofList_eq_none_iff]
  tauto

variable [Vocabulary Words]

theorem write_faults (clause : Clause) :
    FaultsWhen narrator.fault (¬narrator.Serves clause.subject.context.language)
      (narrator.write clause) :=
  (narrator.languageFor_faults clause.subject.context.language).map fun language =>
    (Writer.of language narrator.lexicon).write clause.kind clause.subject

theorem clauses_faults :
    FaultsWhen narrator.fault
      (event.phrase.text.isEmpty = false ∧
        ¬narrator.Serves (voice.getD event.phrase.context).language)
      (narrator.clauses event voice anonymize) := by
  cases named : event.phrase.text.isEmpty with
  | true => exact .inr ⟨by simp, [], by simp [clauses, named]⟩
  | false =>
      rw [clauses_eq_map_tell named]
      refine ((narrator.languageFor_faults _).map _).congr ?_
      simp

/-- Something has to be written that there is no language for. -/
def Lacks : Prop :=
  event.phrase.text.isEmpty = false ∧ ¬narrator.Serves (voice.getD event.phrase.context).language ∨
    ∃ told, narrator.clauses event voice anonymize = .ok told ∧
      ∃ clause ∈ told, ¬narrator.Serves clause.subject.context.language

theorem writtenClauses_faults :
    FaultsWhen narrator.fault (narrator.Lacks event voice anonymize)
      (narrator.writtenClauses event voice anonymize) :=
  (narrator.clauses_faults event voice anonymize).bind fun _ _ =>
    FaultsWhen.mapM fun clause _ => narrator.write_faults clause

theorem texts_faults :
    FaultsWhen narrator.fault (narrator.Lacks event voice anonymize)
      (narrator.texts event voice anonymize) := by
  have faults := (narrator.writtenClauses_faults event voice anonymize).map fun written =>
    (written.filter fun clause => !clause.isEmpty).map (·.text)
  exact faults

theorem describe_faults :
    FaultsWhen narrator.fault (narrator.Lacks event voice anonymize)
      (narrator.describe event voice anonymize) :=
  (narrator.writtenClauses_faults event voice anonymize).map Prose.compose

variable {narrator event voice anonymize} {packs : List Language} {told : List Clause}

/-- The root of an event is told first, and in a language that it is found again by. -/
theorem clauses_root_served (named : event.phrase.text.isEmpty = false)
    (narrated : narrator.clauses event voice anonymize = .ok told) :
    ∃ root, told = root :: told.tail ∧ narrator.Serves root.subject.context.language := by
  obtain ⟨language, found, rfl⟩ := (clauses_eq_ok_iff named).mp narrated
  rw [Phrase.chainedSubjects_eq, List.map_cons]
  refine ⟨_, rfl, language, ?_⟩
  rw [tell_language]
  exact languageFor_name found

/-- Without the base language, what is lacking is a pack for the root or for a clause after it. -/
theorem lacks_iff (built : narrator.languages = .ofList packs)
    (missing : ¬Languages.Registered packs narrator.config.baseLanguage) :
    narrator.Lacks event voice anonymize ↔
      event.phrase.text.isEmpty = false ∧
        (¬Languages.Spoken packs (voice.getD event.phrase.context).language ∨
          ∃ told, narrator.clauses event voice anonymize = .ok told ∧
            ∃ clause ∈ told.tail, ¬Languages.Spoken packs clause.subject.context.language) := by
  have served : ∀ requested, narrator.Serves requested ↔ Languages.Spoken packs requested := by
    intro requested
    rw [serves_iff built]
    exact or_iff_left missing
  simp only [Lacks, served]
  constructor
  · rintro (⟨named, unspoken⟩ | ⟨told, narrated, clause, member, unspoken⟩)
    · exact ⟨named, .inl unspoken⟩
    · cases named : event.phrase.text.isEmpty with
      | true =>
          simp only [clauses, named, if_true, Except.ok.injEq] at narrated
          subst narrated
          cases member
      | false =>
          -- The root is told first, so the clause that lacks a language stands behind it.
          obtain ⟨root, first, rootServed⟩ := clauses_root_served named narrated
          rw [first] at member
          rcases List.mem_cons.mp member with rfl | later
          · exact absurd ((served _).mp rootServed) unspoken
          · exact ⟨rfl, .inr ⟨told, narrated, clause, later, unspoken⟩⟩
  · rintro ⟨named, unspoken | ⟨told, narrated, clause, later, unspoken⟩⟩
    · exact .inl ⟨named, unspoken⟩
    · exact .inr ⟨told, narrated, clause, List.mem_of_mem_tail later, unspoken⟩

/-- When a narrator with the given packs fails to describe an event. -/
structure FailsWithoutBase (narrator : Narrator Words) (packs : List Language) (event : Event)
    (voice : Option Context) (anonymize : Bool) : Prop where
  safe : Languages.Registered packs narrator.config.baseLanguage →
    ∃ told, narrator.clauses event voice anonymize = .ok told ∧
      (∀ clause ∈ told, ∃ written, narrator.write clause = .ok written) ∧
      (∃ lines, narrator.texts event voice anonymize = .ok lines) ∧
      ∃ prose, narrator.describe event voice anonymize = .ok prose
  fails_iff : ¬Languages.Registered packs narrator.config.baseLanguage →
    (narrator.describe event voice anonymize =
        .error (.missingBaseLanguage narrator.config.baseLanguage) ↔
      event.phrase.text.isEmpty = false ∧
        (¬Languages.Spoken packs (voice.getD event.phrase.context).language ∨
          ∃ told, narrator.clauses event voice anonymize = .ok told ∧
            ∃ clause ∈ told.tail, ¬Languages.Spoken packs clause.subject.context.language))
  otherwise : narrator.describe event voice anonymize ≠
      .error (.missingBaseLanguage narrator.config.baseLanguage) →
    ∃ prose, narrator.describe event voice anonymize = .ok prose

/-- With the base language registered nothing fails.  Without it an event fails to be described
exactly if the language of its root, or one that a later clause names, has no pack with rules. -/
theorem describe_fails_without_base (built : narrator.languages = .ofList packs)
    (event : Event) (voice : Option Context) (anonymize : Bool) :
    FailsWithoutBase narrator packs event voice anonymize where
  safe registered := by
    have served : ∀ requested, narrator.Serves requested :=
      fun requested => (serves_iff built).mpr (.inr registered)
    have lacksNothing : ¬narrator.Lacks event voice anonymize := by
      rintro (⟨_, unserved⟩ | ⟨_, _, clause, _, unserved⟩)
      · exact unserved (served _)
      · exact unserved (served _)
    obtain ⟨told, narrated⟩ :=
      (narrator.clauses_faults event voice anonymize).exists_ok_iff.mpr
        fun ⟨_, unserved⟩ => unserved (served _)
    refine ⟨told, narrated, ?_, ?_, ?_⟩
    · intro clause _
      exact (narrator.write_faults clause).exists_ok_iff.mpr (not_not_intro (served _))
    · exact (narrator.texts_faults event voice anonymize).exists_ok_iff.mpr lacksNothing
    · exact (narrator.describe_faults event voice anonymize).exists_ok_iff.mpr lacksNothing
  fails_iff missing := by
    rw [← lacks_iff built missing]
    exact (narrator.describe_faults event voice anonymize).eq_error_iff
  otherwise returned := by
    have faults := narrator.describe_faults event voice anonymize
    exact faults.exists_ok_iff.mpr (mt faults.eq_error_iff.mpr returned)

def stranded : Narrator where
  languages := .ofList [elvish]
  lexicon := {}

theorem stranded_clauses : stranded.clauses elvenLantern none false = .ok elvenLanternTold := by
  rw [clauses_eq_ok_iff rfl]
  exact ⟨elvish, rfl, rfl⟩

/-- The lantern and the moth could be told, but the wing cannot, and so nothing is.  With the base
language at hand all of it is told. -/
theorem stranded_fails_without_base :
    stranded.languages = .ofList [elvish] ∧
      ¬Languages.Registered [elvish] stranded.config.baseLanguage ∧
      Languages.Spoken [elvish] elvenLantern.phrase.context.language ∧
      stranded.clauses elvenLantern none false = .ok elvenLanternTold ∧
      stranded.describe elvenLantern none false = .error (.missingBaseLanguage "english") ∧
      bilingual.languages = .ofList [plainLanguage, elvish] ∧
      Languages.Registered [plainLanguage, elvish] bilingual.config.baseLanguage ∧
      ∃ prose, bilingual.describe elvenLantern none false = .ok prose := by
  have missing : ¬Languages.Registered [elvish] stranded.config.baseLanguage := by decide
  have registered : Languages.Registered [plainLanguage, elvish] bilingual.config.baseLanguage := by
    decide
  have strandedFails : FailsWithoutBase stranded [elvish] elvenLantern none false :=
    describe_fails_without_base rfl elvenLantern none false
  have bilingualFails :
      FailsWithoutBase bilingual [plainLanguage, elvish] elvenLantern none false :=
    describe_fails_without_base rfl elvenLantern none false
  refine ⟨rfl, missing, by decide, stranded_clauses, ?_, rfl, registered, ?_⟩
  · refine (strandedFails.fails_iff missing).mpr
      ⟨rfl, .inr ⟨elvenLanternTold, stranded_clauses, ?_⟩⟩
    exact ⟨clause elvenLantern .statement { role := .subject, wordClass := .noun, text := "wing" },
      List.mem_cons_of_mem _ List.mem_cons_self, by decide⟩
  · obtain ⟨_, _, _, _, described⟩ := bilingualFails.safe registered
    exact described

end Narrator

end SensoryProse
