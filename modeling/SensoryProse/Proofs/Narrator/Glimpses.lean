import SensoryProse.Proofs.Narrator.Telling
import SensoryProse.Proofs.Phrase.Labels

/-!
# Where glimpses stand

An event that cannot be made out is told by glimpses, but not everywhere.  Of the phrases that carry
nothing but subjects, the root is replaced by a glimpse, and so is a subject of the root that has no
subjects of its own.  A subject of the root that has some, and every subject further below, is told
by its name.
-/

namespace SensoryProse

namespace Phrase

/-- Nothing describes the phrase: it carries subjects at most. -/
def Undescribed (phrase : Phrase) : Prop := ∀ modifier ∈ phrase.modifiers, modifier.isSubject = true

/-- The phrases that a glimpse can stand for, given the number of subjects above them. -/
def YieldsToGlimpse (depth : Nat) (node : Phrase) : Prop :=
  depth = 0 ∨ depth = 1 ∧ node.hasRole .subject = false

instance (phrase : Phrase) : Decidable phrase.Undescribed :=
  inferInstanceAs (Decidable (∀ modifier ∈ phrase.modifiers, modifier.isSubject = true))

instance (depth : Nat) (node : Phrase) : Decidable (YieldsToGlimpse depth node) :=
  inferInstanceAs (Decidable (depth = 0 ∨ depth = 1 ∧ node.hasRole .subject = false))

theorem Undescribed.withoutSubjects_modifiers {phrase : Phrase} (undescribed : phrase.Undescribed) :
    phrase.withoutSubjects.modifiers = [] := by
  rw [Phrase.withoutSubjects_modifiers, List.filter_eq_nil_iff]
  intro modifier member
  simp [undescribed modifier member]

theorem glimpsed_modifiers_ne_nil (subject : Phrase) (channel : Channel) (tooIntense : Bool) :
    (subject.glimpsed channel tooIntense).modifiers ≠ [] := by
  cases channel <;> cases tooIntense <;>
    simp [glimpsed, Glimpse.of, attach, equivalent, key]

/-- A glimpse says nothing of what it stands for. -/
theorem glimpsed_labels (first second : Phrase) (channel : Channel) (tooIntense : Bool) :
    (first.glimpsed channel tooIntense).labels = (second.glimpsed channel tooIntense).labels := by
  cases channel <;> cases tooIntense <;> rfl

end Phrase

namespace Narrator

variable {Words : Type} [Vocabulary Words] {narrator : Narrator Words} {event : Event}
  {voice : Option Context} {anonymize : Bool} {language : Language} {depth : Nat} {node : Phrase}

/-- A subject without modifiers is told by a glimpse, unless subjects were parted from it. -/
theorem mainClause_of_bare {hasNested : Bool} {subject : Phrase}
    (saturated : event.isSaturated = true) (bare : subject.modifiers = []) :
    narrator.mainClause event hasNested subject =
      clause event .statement
        (if hasNested then subject else subject.glimpsed event.channel event.isTooIntense) := by
  have whole : narrator.completed subject = subject := by
    rw [completed_eq, existentialVerb?, bare]
    rfl
  have noVerb : subject.hasRole .verb = false := by
    rw [Phrase.hasRole, bare]
    rfl
  cases hasNested <;> simp [mainClause, whole, noVerb, saturated]

theorem partedSubject_modifiers_of_undescribed (undescribed : node.Undescribed) :
    (narrator.partedSubject voice anonymize language depth node).modifiers = [] := by
  rw [partedSubject_modifiers, undescribed.withoutSubjects_modifiers]

theorem tell_of_undescribed (saturated : event.isSaturated = true)
    (undescribed : node.Undescribed) :
    narrator.tell event voice anonymize language depth node =
      clause event .statement
        (if Phrase.YieldsToGlimpse depth node then
          (narrator.partedSubject voice anonymize language depth node).glimpsed event.channel
            event.isTooIntense
        else narrator.partedSubject voice anonymize language depth node) := by
  have bare : (narrator.partedSubject voice anonymize language depth node).modifiers = [] :=
    partedSubject_modifiers_of_undescribed undescribed
  match depth with
  | 0 => exact mainClause_of_bare saturated bare
  | 1 =>
      rw [tell, mainClause_of_bare saturated bare]
      cases nested : node.hasRole .subject <;> simp [Phrase.YieldsToGlimpse, nested]
  | steps + 2 => simp [tell_below, Phrase.YieldsToGlimpse, partedSubject]

/-- A phrase below the root is told in its own words. -/
theorem partedSubject_label_of_below (below : depth ≠ 0) :
    (narrator.partedSubject voice anonymize language depth node).label = node.label := by
  match depth with
  | 0 => contradiction
  | 1 => rfl
  | _ + 2 => rfl

/-- How an undescribed phrase is told when the event cannot be made out, where `spoken` is the
phrase in its context: by a glimpse, which keeps the words of the phrase back, or else as it
stands. -/
structure TellsUndescribed (event : Event) (depth : Nat) (node spoken : Phrase) (clause : Clause) :
    Prop where
  kind : clause.kind = .statement
  glimpse_iff :
    (∃ whole : Phrase, clause.subject = whole.glimpsed event.channel event.isTooIntense) ↔
      Phrase.YieldsToGlimpse depth node
  glimpsed : Phrase.YieldsToGlimpse depth node →
    clause.subject = spoken.glimpsed event.channel event.isTooIntense
  hidden : Phrase.YieldsToGlimpse depth node → ∀ other : Phrase,
    clause.subject.labels = (other.glimpsed event.channel event.isTooIntense).labels
  shown : ¬Phrase.YieldsToGlimpse depth node →
    clause.subject = spoken ∧ clause.subject.labels = [node.label]

theorem tell_tellsUndescribed (narrator : Narrator Words) (voice : Option Context)
    (anonymize : Bool) (language : Language) (saturated : event.isSaturated = true)
    (undescribed : node.Undescribed) :
    TellsUndescribed event depth node
      (narrator.partedSubject voice anonymize language depth node)
      (narrator.tell event voice anonymize language depth node) := by
  rw [tell_of_undescribed saturated undescribed]
  have bare : (narrator.partedSubject voice anonymize language depth node).modifiers = [] :=
    partedSubject_modifiers_of_undescribed undescribed
  by_cases yields : Phrase.YieldsToGlimpse depth node
  · rw [if_pos yields]
    exact ⟨rfl, iff_of_true ⟨_, rfl⟩ yields, fun _ => rfl,
      fun _ other => Phrase.glimpsed_labels _ other _ _, fun stays => absurd yields stays⟩
  · rw [if_neg yields]
    have below : depth ≠ 0 := fun root => yields (.inl root)
    -- A glimpse has modifiers, and what is told as it stands has none left.
    have noGlimpse : ¬∃ whole : Phrase,
        narrator.partedSubject voice anonymize language depth node =
          whole.glimpsed event.channel event.isTooIntense := by
      rintro ⟨whole, same⟩
      exact whole.glimpsed_modifiers_ne_nil _ _ (same ▸ bare)
    have labels : (narrator.partedSubject voice anonymize language depth node).labels =
        [node.label] := by
      rw [Phrase.labels_eq, bare, partedSubject_label_of_below below]
      rfl
    exact ⟨rfl, iff_of_false noGlimpse yields, fun given => absurd given yields,
      fun given => absurd given yields, fun _ => ⟨rfl, labels⟩⟩

/-- When an event cannot be made out, of the phrases that carry nothing but subjects exactly the
root and the subjects of the root without subjects of their own are told by glimpses. -/
theorem clauses_tell_undescribed {told : List Clause}
    (named : event.phrase.text.isEmpty = false) (saturated : event.isSaturated = true)
    (narrated : narrator.clauses event voice anonymize = .ok told) :
    ∃ language,
      narrator.languageFor (voice.getD event.phrase.context).language = .ok language ∧
      List.Forall₂
        (fun entry clause => entry.2.Undescribed →
          TellsUndescribed event entry.1 entry.2
            (narrator.partedSubject voice anonymize language entry.1 entry.2) clause)
        (event.phrase.chainedSubjects 0) told := by
  obtain ⟨language, found, rfl⟩ := (clauses_eq_ok_iff named).mp narrated
  refine ⟨language, found, ?_⟩
  rw [List.forall₂_map_right_iff, List.forall₂_same]
  intro entry _ undescribed
  exact tell_tellsUndescribed narrator voice anonymize language saturated undescribed

/-- A thing that is spoken of in plain words. -/
def plainThing (name : String) : Phrase where
  role := .subject
  wordClass := .noun
  text := name
  context := .inLanguage plainLanguage.name

/-- A moth with a wing on it. -/
def wingedMoth : Phrase := { plainThing "moth" with modifiers := [plainThing "wing"] }

/-- A lantern that glares, with the moth on it. -/
def glare : Event where
  phrase := { plainThing "lantern" with modifiers := [wingedMoth] }
  strength := 100
  channel := .visible

/-- Blinding lights, and then the moth and the wing. -/
def glareTold : List Clause :=
  [clause glare .statement ((plainThing "lantern").glimpsed .visible true),
    clause glare .statement (plainThing "moth"), clause glare .statement (plainThing "wing")]

theorem glare_clauses : plain.clauses glare none false = .ok glareTold := by
  rw [clauses_eq_ok_iff rfl]
  exact ⟨plainLanguage, rfl, rfl⟩

theorem glare_undescribed :
    ∀ entry ∈ glare.phrase.chainedSubjects 0, entry.2.Undescribed := by
  decide

/-- The lantern is lost in the glare, the moth and the wing are not. -/
theorem glare_tells_undescribed :
    glare.phrase.text.isEmpty = false ∧ glare.isSaturated = true ∧
      plain.clauses glare none false = .ok glareTold ∧
      TellsUndescribed glare 0 glare.phrase (plainThing "lantern")
        (clause glare .statement ((plainThing "lantern").glimpsed .visible true)) ∧
      TellsUndescribed glare 1 wingedMoth (plainThing "moth")
        (clause glare .statement (plainThing "moth")) ∧
      TellsUndescribed glare 2 (plainThing "wing") (plainThing "wing")
        (clause glare .statement (plainThing "wing")) := by
  obtain ⟨language, found, told⟩ := clauses_tell_undescribed rfl rfl glare_clauses
  cases found
  obtain ⟨lantern, told⟩ := List.forall₂_cons.mp told
  obtain ⟨moth, told⟩ := List.forall₂_cons.mp told
  obtain ⟨wing, _⟩ := List.forall₂_cons.mp told
  exact ⟨rfl, rfl, glare_clauses, lantern (by decide), moth (by decide), wing (by decide)⟩

/-- Nothing in the glare is described, but no glimpse is told of the moth. -/
theorem moth_escapes_glimpse :
    glare.phrase.text.isEmpty = false ∧ glare.isSaturated = true ∧
      plain.clauses glare none false = .ok glareTold ∧
      (∀ entry ∈ glare.phrase.chainedSubjects 0, entry.2.Undescribed) ∧
      ¬List.Forall₂
        (fun _ clause =>
          ∃ whole : Phrase, clause.subject = whole.glimpsed glare.channel glare.isTooIntense)
        (glare.phrase.chainedSubjects 0) glareTold := by
  refine ⟨rfl, rfl, glare_clauses, glare_undescribed, ?_⟩
  intro told
  have below := (List.forall₂_cons.mp told).2
  obtain ⟨whole, same⟩ := (List.forall₂_cons.mp below).1
  have modifiers := congrArg Phrase.modifiers same
  exact whole.glimpsed_modifiers_ne_nil _ _ modifiers.symm

end Narrator

end SensoryProse
