import SensoryProse.Proofs.Narrator.Contexts

/-!
# How far a voice carries

A voice is adopted by the root of an event.  Of the fields that it overrides, only the language goes
further: subjects of the root that name no language are told in that of the root.  Subjects further
below are left to the base language, and all subjects keep the tense, perspective and tone that they
came with.
-/

namespace SensoryProse

/-- Contexts that agree in what a voice overrides besides the language. -/
structure Context.SameVoice (first second : Context) : Prop where
  tense : first.tense = second.tense
  perspective : first.perspective = second.perspective
  elegance : first.elegance = second.elegance
  severity : first.severity = second.severity
  quality : first.quality = second.quality

namespace Narrator

variable {Words : Type} [Vocabulary Words]

section

variable {narrator : Narrator Words} {event : Event} {voice : Option Context} {anonymize : Bool}
  {language : Language} {depth : Nat} {node : Phrase} {told : List Clause}

/-- The language that a clause is written in. -/
def languageOf (narrator : Narrator Words) (clause : Clause) : Except NarrationError Language :=
  narrator.languageFor clause.subject.context.language

theorem write_of_languageOf {clause : Clause} (found : narrator.languageOf clause = .ok language) :
    narrator.write clause =
      .ok ((Writer.of language narrator.lexicon).write clause.kind clause.subject) := by
  rw [languageOf] at found
  rw [write, found]
  rfl

/-- The phrases that are to be told in the language of the root: the root itself and whatever names
no language of its own. -/
def Inherits (depth : Nat) (node : Phrase) : Prop := depth = 0 ∨ node.context.language = none

instance (depth : Nat) (node : Phrase) : Decidable (Inherits depth node) :=
  inferInstanceAs (Decidable (depth = 0 ∨ node.context.language = none))

theorem askedLanguage_of_inherits (inherits : Inherits depth node) :
    askedLanguage language depth node = if depth ≤ 1 then some language.name else none := by
  match depth with
  | 0 => rfl
  | 1 | _ + 2 =>
      have unnamed : node.context.language = none := by simpa [Inherits] using inherits
      simp [askedLanguage, unnamed]

/-- How the language of the root reaches a phrase that inherits it: near the root the clause is
written in it, and further below in the base language, which may be another one. -/
structure TellsInherited (narrator : Narrator Words) (language : Language) (depth : Nat)
    (clause : Clause) : Prop where
  near : depth ≤ 1 → narrator.write clause =
    .ok ((Writer.of language narrator.lexicon).write clause.kind clause.subject)
  below : 2 ≤ depth → narrator.languageOf clause = narrator.languageFor none
  reached_iff : narrator.languageOf clause = .ok language ↔
    depth ≤ 1 ∨ narrator.languageFor none = .ok language

theorem tell_tellsInherited {requested : Option String}
    (found : narrator.languageFor requested = .ok language) (inherits : Inherits depth node) :
    TellsInherited narrator language depth
      (narrator.tell event voice anonymize language depth node) := by
  have spoken : narrator.languageOf (narrator.tell event voice anonymize language depth node) =
      narrator.languageFor (if depth ≤ 1 then some language.name else none) := by
    rw [languageOf, tell_language, askedLanguage_of_inherits inherits]
  by_cases near : depth ≤ 1
  · rw [if_pos near, languageFor_name found] at spoken
    exact ⟨fun _ => write_of_languageOf spoken, fun below => by omega,
      iff_of_true spoken (.inl near)⟩
  · -- Further below nothing has filled the language in, and the clause asks for none.
    rw [if_neg near] at spoken
    refine ⟨fun above => absurd above near, fun _ => spoken, ?_⟩
    simp [spoken, near]

/-- The language of the root reaches the root itself and its subjects.  A subject further below that
names no language is told in it exactly if it is the base language. -/
theorem clauses_tell_inherited (narrated : narrator.clauses event voice anonymize = .ok told) :
    (event.phrase.text.isEmpty = true ∧ told = []) ∨
      ∃ language,
        narrator.languageFor (voice.getD event.phrase.context).language = .ok language ∧
        List.Forall₂
          (fun entry clause => Inherits entry.1 entry.2 →
            TellsInherited narrator language entry.1 clause)
          (event.phrase.chainedSubjects 0) told := by
  apply forall₂_of_clauses narrated
  intro language found entry inherits
  exact tell_tellsInherited found inherits

def elvish : Language where
  name := "elvish"
  rules := [{ wordClass := some .noun, afterWord := some "iel" }]

/-- A narrator that falls back on the plain language and knows another one. -/
def bilingual : Narrator where
  languages := .ofList [plainLanguage, elvish]
  lexicon := {}

def unplacedMoth : Phrase where
  role := .subject
  wordClass := .noun
  text := "moth"
  modifiers := [{ role := .subject, wordClass := .noun, text := "wing" }]

/-- A lantern that is spoken of in the other language, with a moth on it that names none. -/
def elvenLantern : Event where
  phrase :=
    { role := .subject, wordClass := .noun, text := "lantern", modifiers := [unplacedMoth]
      context := .inLanguage elvish.name }
  strength := 0
  channel := .visible

/-- The moth takes over the language of the lantern, the wing does not. -/
def elvenLanternTold : List Clause :=
  let context := Context.inLanguage elvish.name
  [clause elvenLantern .statement
      { role := .subject, wordClass := .noun, text := "lantern", context },
    clause elvenLantern .statement
      { role := .subject, wordClass := .noun, text := "moth", context },
    clause elvenLantern .statement { role := .subject, wordClass := .noun, text := "wing" }]

theorem elvenLantern_clauses :
    bilingual.clauses elvenLantern none false = .ok elvenLanternTold := by
  rw [clauses_eq_ok_iff rfl]
  exact ⟨elvish, rfl, rfl⟩

theorem elvenLantern_inherits :
    ∀ entry ∈ elvenLantern.phrase.chainedSubjects 0, Inherits entry.1 entry.2 := by
  decide

theorem elvenLantern_tells_inherited :
    bilingual.clauses elvenLantern none false = .ok elvenLanternTold ∧
      (∀ entry ∈ elvenLantern.phrase.chainedSubjects 0, Inherits entry.1 entry.2) ∧
      List.Forall₂
        (fun entry clause => Inherits entry.1 entry.2 →
          TellsInherited bilingual elvish entry.1 clause)
        (elvenLantern.phrase.chainedSubjects 0) elvenLanternTold := by
  rcases clauses_tell_inherited elvenLantern_clauses with
    ⟨unnamed, _⟩ | ⟨language, found, told⟩
  · cases unnamed
  · cases found
    exact ⟨elvenLantern_clauses, elvenLantern_inherits, told⟩

/-- Every phrase is to be told in the language of the lantern, but the wing is not. -/
theorem wing_misses_language :
    bilingual.clauses elvenLantern none false = .ok elvenLanternTold ∧
      bilingual.languageFor elvenLantern.phrase.context.language = .ok elvish ∧
      (∀ entry ∈ elvenLantern.phrase.chainedSubjects 0, Inherits entry.1 entry.2) ∧
      ¬(∀ clause ∈ elvenLanternTold, bilingual.languageOf clause = .ok elvish) ∧
      bilingual.texts elvenLantern none false = .ok ["lanterniel", "mothiel", "wing"] := by
  exact ⟨elvenLantern_clauses, rfl, elvenLantern_inherits, by decide, by decide +kernel⟩

theorem partedSubject_sameVoice (narrator : Narrator Words) (voice : Context) (language : Language)
    (depth : Nat) (node : Phrase) :
    (narrator.partedSubject (some voice) false language depth node).context.SameVoice
      (if depth = 0 then voice else node.context) := by
  match depth with
  | 0 | 1 | _ + 2 => exact ⟨rfl, rfl, rfl, rfl, rfl⟩

/-- An event that can be made out and keeps its name is told in the voice at its root, and below the
root in the voice that each subject came with. -/
theorem clauses_adopt_voice {voice : Context} (clear : event.isSaturated = false)
    (narrated : narrator.clauses event (some voice) false = .ok told) :
    (event.phrase.text.isEmpty = true ∧ told = []) ∨
      List.Forall₂
        (fun entry clause =>
          clause.subject.context.SameVoice (if entry.1 = 0 then voice else entry.2.context))
        (event.phrase.chainedSubjects 0) told := by
  have adopted := forall₂_of_clauses
    (motive := fun _ entry clause =>
      clause.subject.context.SameVoice (if entry.1 = 0 then voice else entry.2.context))
    narrated fun language _ entry => by
      rw [tell_context_of_clear _ _ _ _ _ _ clear]
      exact partedSubject_sameVoice narrator voice language entry.1 entry.2
  rcases adopted with unnamed | ⟨_, _, told⟩
  · exact .inl unnamed
  · exact .inr told

def pastVoice : Context where
  tense := .past
  elegance := 5
  language := plainLanguage.name

/-- The lantern was dim, and then the moth and the wing, as they are. -/
def lanternRecalled : List Clause :=
  let dim : Phrase := { role := .descriptive, wordClass := .adjective, text := "dim" }
  let verb : Phrase :=
    { role := .verb, wordClass := .verb, text := "is", modifiers := [dim]
      context := existentialContext pastVoice }
  [clause lantern .partialClause
      { role := .subject, wordClass := .noun, text := "lantern", modifiers := [verb]
        context := pastVoice },
    clause lantern .statement
      { role := .subject, wordClass := .noun, text := "moth"
        context := .inLanguage plainLanguage.name },
    clause lantern .statement { role := .subject, wordClass := .noun, text := "wing" }]

theorem lantern_recalled : plain.clauses lantern (some pastVoice) false = .ok lanternRecalled := by
  rw [clauses_eq_ok_iff rfl]
  refine ⟨plainLanguage, rfl, ?_⟩
  change lanternRecalled = [plain.tell lantern (some pastVoice) false plainLanguage 0 _,
    plain.tell lantern (some pastVoice) false plainLanguage 1 _,
    plain.tell lantern (some pastVoice) false plainLanguage 2 _]
  simp only [tell, mainClause, plain_completed]
  rfl

theorem lantern_adopts_voice :
    lantern.isSaturated = false ∧
      plain.clauses lantern (some pastVoice) false = .ok lanternRecalled ∧
      List.Forall₂
        (fun entry clause =>
          clause.subject.context.SameVoice (if entry.1 = 0 then pastVoice else entry.2.context))
        (lantern.phrase.chainedSubjects 0) lanternRecalled := by
  refine ⟨rfl, lantern_recalled, ?_⟩
  rcases clauses_adopt_voice rfl lantern_recalled with ⟨unnamed, _⟩ | told
  · cases unnamed
  · exact told

/-- The moth is told in the present, whatever the voice says. -/
theorem moth_keeps_present :
    lantern.isSaturated = false ∧
      plain.clauses lantern (some pastVoice) false = .ok lanternRecalled ∧
      ¬(∀ clause ∈ lanternRecalled, clause.subject.context.SameVoice pastVoice) := by
  refine ⟨rfl, lantern_recalled, ?_⟩
  intro everywhere
  have moth := everywhere _ (List.mem_cons_of_mem _ List.mem_cons_self)
  exact absurd moth.tense (by decide)

end

end Narrator

end SensoryProse
