import SensoryProse.Proofs.Narrator.Glimpses

/-!
# What the strength of an event decides

A phrase is told outright where the event can be made out, and so it is where the event cannot be
made out, unless it is one that a glimpse can stand for and no verb came to it.  So the strength of
an event and the channel it comes on decide neither how many clauses it is told in nor of which
kinds they are.  They show in the subjects only, and there only by whether the event can be made
out, and if not, by the channel and the side of the scale.
-/

namespace SensoryProse.Narrator

variable {Words : Type} [Vocabulary Words]

/-- What a phrase with `depth` subjects above it is told as where the event can be made out. -/
def outright (narrator : Narrator Words) (voice : Option Context) (anonymize : Bool)
    (language : Language) (depth : Nat) (node : Phrase) : Phrase :=
  let subject := narrator.partedSubject voice anonymize language depth node
  if depth ≤ 1 then narrator.completed subject else subject

/-- What is left of `subject`, which tells of the phrase of `entry`, where the event cannot be made
out. -/
def dimmed (event : Event) (entry : Nat × Phrase) (subject : Phrase) : Phrase :=
  if Phrase.YieldsToGlimpse entry.1 entry.2 ∧ subject.hasRole .verb = false then
    subject.glimpsed event.channel event.isTooIntense
  else subject

section

variable (narrator : Narrator Words) (event : Event) (voice : Option Context) (anonymize : Bool)
  (language : Language)

theorem mainClause_eq (hasNested : Bool) (subject : Phrase) :
    let whole := narrator.completed subject
    narrator.mainClause event hasNested subject =
      clause event (if whole.hasRole .verb then .partialClause else .statement)
        (if event.isSaturated ∧ hasNested = false ∧ whole.hasRole .verb = false then
          whole.glimpsed event.channel event.isTooIntense
        else whole) := by
  intro whole
  rcases mainClause_cases narrator event hasNested subject with
    ⟨verb, told⟩ | ⟨noVerb, saturated, alone, told⟩ | ⟨noVerb, reason, told⟩
  · rw [told]
    simp [whole, verb]
  · rw [told]
    simp [whole, noVerb, saturated, alone]
  · rw [told]
    rcases reason with clear | nested
    · simp [whole, noVerb, clear]
    · simp [whole, noVerb, nested]

/-- The kind of a clause is that of the phrase told outright. -/
theorem tell_kind (depth : Nat) (node : Phrase) :
    (narrator.tell event voice anonymize language depth node).kind =
      if depth ≤ 1 ∧ (narrator.outright voice anonymize language depth node).hasRole .verb = true
      then .partialClause else .statement := by
  match depth with
  | 0 => simp [tell, outright, mainClause_eq, clause]
  | 1 => simp [tell, outright, mainClause_eq, clause]
  | _ + 2 => simp [tell, clause]

theorem tell_subject (depth : Nat) (node : Phrase) :
    (narrator.tell event voice anonymize language depth node).subject =
      if event.isSaturated then
        dimmed event (depth, node) (narrator.outright voice anonymize language depth node)
      else narrator.outright voice anonymize language depth node := by
  cases saturated : event.isSaturated with
  | false =>
      rw [tell_subject_of_clear _ _ _ _ _ _ saturated]
      rfl
  | true =>
      match depth with
      | 0 =>
          simp [tell, outright, dimmed, mainClause_eq, clause, saturated, Phrase.YieldsToGlimpse]
      | 1 =>
          simp [tell, outright, dimmed, mainClause_eq, clause, saturated, Phrase.YieldsToGlimpse]
      | steps + 2 => simp [tell, outright, dimmed, clause, Phrase.YieldsToGlimpse]

/-- Whatever is looked at in the clauses of an event is looked at phrase by phrase. -/
theorem clauses_map {α : Type} (view : Clause → α) :
    (narrator.clauses event voice anonymize).map (List.map view) =
      if event.phrase.text.isEmpty then .ok []
      else (narrator.languageFor (voice.getD event.phrase.context).language).map fun language =>
        (event.phrase.chainedSubjects 0).map fun entry =>
          view (narrator.tell event voice anonymize language entry.1 entry.2) := by
  cases named : event.phrase.text.isEmpty with
  | true =>
      simp only [clauses, named, if_true]
      rfl
  | false =>
      rw [clauses_eq_map_tell named, if_neg Bool.false_ne_true]
      cases narrator.languageFor (voice.getD event.phrase.context).language with
      | error cause => rfl
      | ok language => simp [Except.map]

end

/-- The phrases of a tree as they are told where the event can be made out. -/
def outrights (narrator : Narrator Words) (voice : Option Context) (anonymize : Bool)
    (root : Phrase) : Except NarrationError (List Phrase) :=
  if root.text.isEmpty then .ok []
  else (narrator.languageFor (voice.getD root.context).language).map fun language =>
    (root.chainedSubjects 0).map fun entry =>
      narrator.outright voice anonymize language entry.1 entry.2

section

variable (narrator : Narrator Words) (voice : Option Context) (anonymize : Bool) {event : Event}

theorem subjects_of_clear (clear : event.isSaturated = false) :
    (narrator.clauses event voice anonymize).map (List.map Clause.subject) =
      narrator.outrights voice anonymize event.phrase := by
  simp only [clauses_map, tell_subject, clear, Bool.false_eq_true, if_false]
  rfl

theorem subjects_of_saturated (saturated : event.isSaturated = true) :
    (narrator.clauses event voice anonymize).map (List.map Clause.subject) =
      (narrator.outrights voice anonymize event.phrase).map
        (List.zipWith (dimmed event) (event.phrase.chainedSubjects 0)) := by
  simp only [clauses_map, tell_subject, saturated, if_true]
  unfold outrights
  split
  · simp [Except.map]
  · cases narrator.languageFor (voice.getD event.phrase.context).language with
    | error cause => rfl
    | ok language => simp [Except.map, List.zipWith_map_right, List.zipWith_self]

end

/-- How two events that carry the same phrase compare when they are told, however strongly and on
whatever channel each of them is received.  What is compared are whole runs, so that a fault of one
is the fault of the other.  Both tell as many clauses, so that none is left out where subjects are
paired with the phrases they tell of. -/
structure ToldByStrength (narrator : Narrator Words) (voice : Option Context) (anonymize : Bool)
    (first second : Event) : Prop where
  kinds : (narrator.clauses second voice anonymize).map (List.map Clause.kind) =
    (narrator.clauses first voice anonymize).map (List.map Clause.kind)
  clear : first.isSaturated = false → second.isSaturated = false →
    (narrator.clauses second voice anonymize).map (List.map Clause.subject) =
      (narrator.clauses first voice anonymize).map (List.map Clause.subject)
  saturated : first.isSaturated = true → second.isSaturated = true →
    first.isTooIntense = second.isTooIntense → first.channel = second.channel →
    (narrator.clauses second voice anonymize).map (List.map Clause.subject) =
      (narrator.clauses first voice anonymize).map (List.map Clause.subject)
  dimmed : first.isSaturated = false → second.isSaturated = true →
    (narrator.clauses second voice anonymize).map (List.map Clause.subject) =
      (narrator.clauses first voice anonymize).map fun told =>
        List.zipWith (dimmed second) (first.phrase.chainedSubjects 0) (told.map Clause.subject)

/-- The strength of an event matters by whether the event can be made out, and if not, by the side
of the scale. -/
theorem clauses_told_by_strength (narrator : Narrator Words) (voice : Option Context)
    (anonymize : Bool) {first second : Event} (samePhrase : first.phrase = second.phrase) :
    ToldByStrength narrator voice anonymize first second where
  kinds := by simp only [clauses_map, tell_kind, samePhrase]
  clear firstClear secondClear := by
    rw [subjects_of_clear _ _ _ firstClear, subjects_of_clear _ _ _ secondClear, samePhrase]
  saturated firstSaturated secondSaturated sameSide sameChannel := by
    have sameGlimpses : Narrator.dimmed second = Narrator.dimmed first := by
      funext entry subject
      rw [Narrator.dimmed, Narrator.dimmed, sameSide, sameChannel]
    rw [subjects_of_saturated _ _ _ firstSaturated, subjects_of_saturated _ _ _ secondSaturated,
      samePhrase, sameGlimpses]
  dimmed firstClear secondSaturated := by
    have outright := subjects_of_clear narrator voice anonymize firstClear
    rw [subjects_of_saturated _ _ _ secondSaturated, ← samePhrase, ← outright]
    cases narrator.clauses first voice anonymize <;> rfl

/-- A dim lantern with a moth on it. -/
def mothOnLantern : Phrase :=
  { plainThing "lantern" with
    modifiers :=
      [{ role := .descriptive, wordClass := .adjective, text := "dim" }, plainThing "moth"] }

/-- The lantern as it can just be made out. -/
def glimmer : Event where
  phrase := mothOnLantern
  strength := 99
  channel := .audible

/-- The lantern in the dark. -/
def gloom : Event where
  phrase := mothOnLantern
  strength := -100
  channel := .visible

/-- The lantern that *is dim*. -/
def litLantern : Phrase :=
  { plainThing "lantern" with
    modifiers :=
      [{ role := .verb, wordClass := .verb, text := "is"
         modifiers := [{ role := .descriptive, wordClass := .adjective, text := "dim" }]
         context := existentialContext (.inLanguage plainLanguage.name) }] }

theorem glimmer_clauses :
    plain.clauses glimmer none false =
      .ok [clause glimmer .partialClause litLantern,
        clause glimmer .statement (plainThing "moth")] := by
  rw [clauses_eq_ok_iff rfl]
  refine ⟨plainLanguage, rfl, ?_⟩
  change _ = [plain.tell glimmer none false plainLanguage 0 _,
    plain.tell glimmer none false plainLanguage 1 _]
  simp only [tell, mainClause, plain_completed]
  rfl

/-- In the dark the moth is lost, and the lantern, which has a verb, is not. -/
theorem gloom_told_as_glimmer :
    glimmer.phrase = gloom.phrase ∧ glimmer.isSaturated = false ∧ gloom.isSaturated = true ∧
      (plain.clauses gloom none false).map (List.map Clause.kind) =
        .ok [.partialClause, .statement] ∧
      (plain.clauses gloom none false).map (List.map Clause.subject) =
        .ok [litLantern, (plainThing "moth").glimpsed .visible false] := by
  have byStrength : ToldByStrength plain none false glimmer gloom :=
    clauses_told_by_strength plain none false rfl
  refine ⟨rfl, rfl, rfl, ?_, ?_⟩
  · rw [byStrength.kinds, glimmer_clauses]
    rfl
  · rw [byStrength.dimmed rfl rfl, glimmer_clauses]
    rfl

end SensoryProse.Narrator
