import SensoryProse.Proofs.Language.Collecting
import SensoryProse.Proofs.Narrator.Telling

/-!
# Contexts in which phrases are told

The subject of a clause has the context of the phrase that it tells of, as far as the phrase can be
made out, and asks for the same language in any case.  The root names the language it is told in,
a subject of the root names that language if it names no other, and a subject further below names
what it always did.
-/

namespace SensoryProse.Narrator

variable {Words : Type}

section

variable {narrator : Narrator Words} {requested : Option String} {language : Language}

theorem languageFor_eq_ok_iff :
    narrator.languageFor requested = .ok language ↔
      narrator.languages.select requested narrator.config.baseLanguage = some language := by
  unfold languageFor
  split
  · rename_i selected
    simp [selected]
  · rename_i missing
    simp [missing]

/-- Whoever asks for a language by its name is given what was given before. -/
theorem languageFor_name (found : narrator.languageFor requested = .ok language) :
    narrator.languageFor (some language.name) = .ok language := by
  rw [languageFor_eq_ok_iff] at *
  exact Languages.select_name found

end

variable [Vocabulary Words]

/-- The language that a phrase with `depth` subjects above it asks for when it is told. -/
def askedLanguage (language : Language) : Nat → Phrase → Option String
  | 0, _ => some language.name
  | 1, subject => subject.context.language.or (some language.name)
  | _ + 2, subject => subject.context.language

@[simp] theorem completed_context (narrator : Narrator Words) (subject : Phrase) :
    (narrator.completed subject).context = subject.context :=
  (congrArg Phrase.context (completed_bare narrator subject) :)

theorem glimpsed_language (subject : Phrase) (channel : Channel) (tooIntense : Bool) :
    (subject.glimpsed channel tooIntense).context.language = subject.context.language := by
  cases channel <;> cases tooIntense <;> rfl

theorem mainClause_language (narrator : Narrator Words) (event : Event) (hasNested : Bool)
    (subject : Phrase) :
    (narrator.mainClause event hasNested subject).subject.context.language =
      subject.context.language := by
  rcases mainClause_cases narrator event hasNested subject with
    ⟨_, told⟩ | ⟨_, _, _, told⟩ | ⟨_, _, told⟩
  · rw [told, clause, completed_context]
  · rw [told, clause, glimpsed_language, completed_context]
  · rw [told, clause, completed_context]

section

variable (narrator : Narrator Words) (voice : Option Context) (anonymize : Bool)
  (language : Language) (depth : Nat) (node : Phrase)

theorem partedSubject_language :
    (narrator.partedSubject voice anonymize language depth node).context.language =
      askedLanguage language depth node := by
  match depth with
  | 0 => cases anonymize <;> rfl
  | 1 => rfl
  | _ + 2 => rfl

theorem tell_language (event : Event) :
    (narrator.tell event voice anonymize language depth node).subject.context.language =
      askedLanguage language depth node := by
  rw [← narrator.partedSubject_language voice anonymize language depth node]
  match depth with
  | 0 => exact mainClause_language narrator event _ _
  | 1 => exact mainClause_language narrator event _ _
  | _ + 2 => rfl

/-- What can be made out is told in the context it was parted in. -/
theorem tell_context_of_clear {event : Event} (clear : event.isSaturated = false) :
    (narrator.tell event voice anonymize language depth node).subject.context =
      (narrator.partedSubject voice anonymize language depth node).context := by
  rw [tell_subject_of_clear _ _ _ _ _ _ clear]
  split
  · exact completed_context narrator _
  · rfl

end

end SensoryProse.Narrator
