import SensoryProse.Proofs.Narrator.Telling

/-!
# What a pronoun gives away

Telling an event without its name puts a pronoun in place of the text and word class of the root and
brings tense, perspective, position, determination and tags of its context to those of a pronoun.
The name is looked at before that, to see whether there is one and to find the language, and never
after it.  So two events that differ in no more than this are told alike, down to the fault if there
is one.
-/

namespace SensoryProse

/-- Contexts that agree in everything a pronoun keeps. -/
structure Context.AlikeSaveName (first second : Context) : Prop where
  plural : first.plural = second.plural
  possessive : first.possessive = second.possessive
  severity : first.severity = second.severity
  elegance : first.elegance = second.elegance
  quality : first.quality = second.quality
  language : first.language = second.language
  observer : first.observer = second.observer
  pronouns : first.pronouns = second.pronouns

/-- Phrases with names of their own that are otherwise described alike. -/
structure Phrase.AlikeSaveName (first second : Phrase) : Prop where
  role : first.role = second.role
  modifiers : first.modifiers = second.modifiers
  context : first.context.AlikeSaveName second.context

/-- Events of which the roots alone may differ, and these in their names only. -/
structure Event.AlikeSaveName (first second : Event) : Prop where
  channel : first.channel = second.channel
  strength : first.strength = second.strength
  phrase : first.phrase.AlikeSaveName second.phrase

namespace Narrator

variable {Words : Type} [Vocabulary Words]

section

variable {first second : Context} (alike : first.AlikeSaveName second)

include alike

theorem pronounContext_congr : pronounContext first = pronounContext second := by
  obtain ⟨plural, possessive, severity, elegance, quality, language, observer, pronouns⟩ := alike
  simp only [pronounContext, plural, possessive, severity, elegance, quality, language, observer,
    pronouns]

/-- A voice overrides the same fields on both sides. -/
theorem alikeSaveName_inVoiceOf (voice : Context) :
    (first.inVoiceOf voice).AlikeSaveName (second.inVoiceOf voice) where
  plural := alike.plural
  possessive := alike.possessive
  severity := rfl
  elegance := rfl
  quality := rfl
  language := rfl
  observer := alike.observer
  pronouns := alike.pronouns

theorem alikeSaveName_withLanguage (language : Option String) :
    { first with language }.AlikeSaveName { second with language } where
  plural := alike.plural
  possessive := alike.possessive
  severity := alike.severity
  elegance := alike.elegance
  quality := alike.quality
  language := rfl
  observer := alike.observer
  pronouns := alike.pronouns

end

variable {first second : Phrase} {firstEvent secondEvent : Event}

/-- The pronoun that stands for a phrase is chosen by what it keeps of the context. -/
theorem anonymized_congr (narrator : Narrator Words) (alike : first.AlikeSaveName second) :
    narrator.anonymized first = narrator.anonymized second := by
  simp only [anonymized, alike.role, alike.modifiers, pronounContext_congr alike.context,
    alike.context.pronouns]

theorem narratedRoot_congr (narrator : Narrator Words) (voice : Option Context)
    (language : Language) (alike : first.AlikeSaveName second) :
    narrator.narratedRoot voice true language first =
      narrator.narratedRoot voice true language second := by
  have voiced : (voice.elim first.context first.context.inVoiceOf).AlikeSaveName
      (voice.elim second.context second.context.inVoiceOf) := by
    cases voice with
    | none => exact alike.context
    | some voice => exact alikeSaveName_inVoiceOf alike.context voice
  apply anonymized_congr
  exact ⟨alike.role, alike.modifiers, alikeSaveName_withLanguage voiced (some language.name)⟩

/-- Of the event itself a clause takes the channel and the strength. -/
theorem clausesOf_congr (narrator : Narrator Words)
    (sameChannel : firstEvent.channel = secondEvent.channel)
    (sameStrength : firstEvent.strength = secondEvent.strength) (subject : Phrase) :
    narrator.clausesOf firstEvent subject = narrator.clausesOf secondEvent subject := by
  obtain ⟨_, _, _⟩ := firstEvent
  obtain ⟨_, _, _⟩ := secondEvent
  cases sameChannel
  cases sameStrength
  rfl

theorem requested_congr (voice : Option Context) (alike : first.AlikeSaveName second) :
    (voice.getD first.context).language = (voice.getD second.context).language := by
  cases voice with
  | none => exact alike.context.language
  | some voice => rfl

theorem clauses_congr (narrator : Narrator Words) (voice : Option Context)
    (firstNamed : firstEvent.phrase.text.isEmpty = false)
    (secondNamed : secondEvent.phrase.text.isEmpty = false)
    (alike : firstEvent.AlikeSaveName secondEvent) :
    narrator.clauses firstEvent voice true = narrator.clauses secondEvent voice true := by
  have sameClauses : narrator.clausesOf firstEvent = narrator.clausesOf secondEvent :=
    funext (narrator.clausesOf_congr alike.channel alike.strength)
  simp only [clauses, firstNamed, secondNamed, requested_congr voice alike.phrase,
    narrator.narratedRoot_congr voice _ alike.phrase, sameClauses]

/-- Two named events that differ in the names of their roots only are told alike without the names:
in the same clauses, and so in the same words, or with the same fault. -/
theorem narrated_alike_without_name (narrator : Narrator Words) (voice : Option Context)
    (firstNamed : firstEvent.phrase.text.isEmpty = false)
    (secondNamed : secondEvent.phrase.text.isEmpty = false)
    (alike : firstEvent.AlikeSaveName secondEvent) :
    narrator.clauses firstEvent voice true = narrator.clauses secondEvent voice true ∧
      narrator.writtenClauses firstEvent voice true =
        narrator.writtenClauses secondEvent voice true ∧
      narrator.texts firstEvent voice true = narrator.texts secondEvent voice true ∧
      narrator.describe firstEvent voice true = narrator.describe secondEvent voice true := by
  have sameClauses := narrator.clauses_congr voice firstNamed secondNamed alike
  have sameWritten : narrator.writtenClauses firstEvent voice true =
      narrator.writtenClauses secondEvent voice true := by
    rw [writtenClauses, writtenClauses, sameClauses]
  refine ⟨sameClauses, sameWritten, ?_, ?_⟩
  · rw [texts, texts, sameWritten]
  · rw [describe, describe, sameWritten]

/-- Someone waves. -/
def waving (wordClass : WordClass) (name : String) (context : Context) : Event where
  phrase :=
    { role := .subject, wordClass, text := name, context
      modifiers := [{ role := .verb, wordClass := .verb, text := "waves" }] }
  strength := 0
  channel := .visible

def knight : Event :=
  waving .properNoun "Aldric"
    { tense := .past, semantics := .singleton "noble", pronouns := some .he }

def stranger : Event :=
  waving .noun "stranger"
    { position := .near, perspective := .first, determinant := true, pronouns := some .he }

/-- Of the knight, who waved, and of a stranger, who waves, the same is told. -/
theorem knight_told_as_stranger :
    knight.phrase.text.isEmpty = false ∧ stranger.phrase.text.isEmpty = false ∧
      knight.AlikeSaveName stranger ∧
      plain.describe knight none true = .ok "He waves." ∧
      plain.describe knight none true = plain.describe stranger none true := by
  have alike : knight.AlikeSaveName stranger :=
    ⟨rfl, rfl, rfl, rfl, ⟨rfl, rfl, rfl, rfl, rfl, rfl, rfl, rfl⟩⟩
  have told := plain.narrated_alike_without_name none rfl rfl alike
  exact ⟨rfl, rfl, alike, by decide +kernel, told.2.2.2⟩

end Narrator

end SensoryProse
