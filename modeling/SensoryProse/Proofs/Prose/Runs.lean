import Mathlib.Data.List.SplitBy
import SensoryProse.Proofs.Narrator.Undetected

/-!
# Prose as a sequence of runs

A run goes from one clause to the first that is not partial.  Written as one sentence, a run has its
clauses joined by commas, starts with a capital and is closed by the mark of its last clause.  Prose
is the sentences of its runs side by side, and clauses without text leave no trace in it.
-/

namespace SensoryProse.Prose

/-- Cuts clauses behind each one that is not partial. -/
def runs (clauses : List WrittenClause) : List (List WrittenClause) :=
  clauses.splitBy fun clause _ => clause.kind == .partialClause

/-- The mark that closes a run whose last clause is of the given kind. -/
def stop : ClauseKind → String
  | .partialClause => "."
  | kind => kind.mark

/-- How a run is written.  `running` says that it goes on after a partial clause. -/
def told (running : Bool) : List WrittenClause → String
  | [] => ""
  | first :: others =>
      ", ".intercalate
          ((if running then first.text else Text.capitalize first.text) :: others.map (·.text))
        ++ stop (others.getLast?.getD first).kind

/-- A run as a sentence of its own. -/
def sentence (run : List WrittenClause) : String := told false run

theorem runs_of_partial {clause : WrittenClause} {clauses first : List WrittenClause}
    {others : List (List WrittenClause)} (runsOn : clause.kind = .partialClause)
    (cut : runs clauses = first :: others) :
    runs (clause :: clauses) = (clause :: first) :: others := by
  obtain ⟨whole, inhabited, chained, apart⟩ := List.splitBy_eq_iff.mp cut
  obtain ⟨firstInhabited, othersInhabited⟩ : first ≠ [] ∧ [] ∉ others := by
    simpa [eq_comm] using inhabited
  refine List.splitBy_eq_iff.mpr ⟨?_, ?_, ?_, ?_⟩
  · rw [whole]
    rfl
  · simpa using othersInhabited
  · obtain ⟨firstChained, othersChained⟩ := List.forall_mem_cons.mp chained
    refine List.forall_mem_cons.mpr ⟨?_, othersChained⟩
    exact List.isChain_cons.mpr ⟨fun _ _ => beq_iff_eq.mpr runsOn, firstChained⟩
  · obtain ⟨next, later⟩ := List.isChain_cons.mp apart
    refine List.isChain_cons.mpr ⟨?_, later⟩
    intro run member
    obtain ⟨inhabited, nextInhabited, closed⟩ := next run member
    refine ⟨List.cons_ne_nil clause first, nextInhabited, ?_⟩
    rwa [List.getLast_cons firstInhabited]

theorem runs_of_closed {clause : WrittenClause} (closed : clause.kind ≠ .partialClause)
    (clauses : List WrittenClause) : runs (clause :: clauses) = [clause] :: runs clauses := by
  have apart : ∀ last ∈ [clause].getLast?, ∀ next ∈ clauses.head?,
      (last.kind == .partialClause) = false := by
    intro last member _ _
    obtain rfl : clause = last := by simpa using member
    simpa using closed
  exact List.splitBy_append apart

theorem told_cons {running : Bool} (clause : WrittenClause) {run : List WrittenClause}
    (inhabited : run ≠ []) :
    told running (clause :: run) =
      (if running then clause.text else Text.capitalize clause.text) ++ ", " ++ told true run := by
  obtain ⟨next, later, rfl⟩ := List.exists_cons_of_ne_nil inhabited
  simp [told, List.getLast?_cons, String.append_assoc]

/-- Prose that is continued goes on with the run that it is in, and then with the others. -/
theorem continued_of_runs {running : Bool} {clauses first : List WrittenClause}
    {others : List (List WrittenClause)} (cut : runs clauses = first :: others) :
    continued running clauses = " ".intercalate (told running first :: others.map sentence) := by
  induction clauses generalizing running first others with
  | nil => cases cut
  | cons clause clauses induction =>
      cases clauses with
      | nil =>
          cases cut
          cases kind : clause.kind <;> simp [continued, closing, told, stop, kind]
      | cons next later =>
          obtain ⟨nextRun, laterRuns, nextCut⟩ :
              ∃ nextRun laterRuns, runs (next :: later) = nextRun :: laterRuns :=
            List.exists_cons_of_ne_nil (List.splitBy_ne_nil.mpr (List.cons_ne_nil next later))
          by_cases runsOn : clause.kind = .partialClause
          · rw [runs_of_partial runsOn nextCut] at cut
            cases cut
            have inhabited : nextRun ≠ [] := by
              apply List.ne_nil_of_mem_splitBy
              rw [← runs, nextCut]
              exact List.mem_cons_self
            have behind : continued true (next :: later) = _ := induction nextCut
            rw [told_cons clause inhabited, String.intercalate_cons_append, ← behind]
            simp [continued, closing, runsOn, String.append_assoc]
          · rw [runs_of_closed runsOn, nextCut] at cut
            cases cut
            have behind : continued false (next :: later) = _ := induction nextCut
            have resumed : (clause.kind == .partialClause) = false := by simpa using runsOn
            have mark : closing clause.kind false = stop clause.kind := by
              cases kind : clause.kind with
              | partialClause => exact absurd kind runsOn
              | statement => rfl
              | question => rfl
              | exclamation => rfl
            rw [List.map_cons, sentence, String.intercalate_cons_cons, ← behind]
            simp [continued, told, resumed, mark, String.append_assoc]

/-- The clauses that show in prose. -/
def visible (clauses : List WrittenClause) : List WrittenClause :=
  clauses.filter fun clause => !clause.isEmpty

theorem compose_eq_intercalate (clauses : List WrittenClause) :
    compose clauses = " ".intercalate ((runs (visible clauses)).map sentence) := by
  unfold compose
  rw [← visible]
  cases cut : runs (visible clauses) with
  | nil =>
      have unseen := List.splitBy_eq_nil.mp cut
      rw [unseen]
      rfl
  | cons first others => exact continued_of_runs cut

/-- The text ends in a mark that closes a sentence. -/
def Closed (text : String) : Prop := ∃ mark ∈ ['.', '?', '!'], text.toList.getLast? = some mark

theorem Closed.append {right : String} (closed : Closed right) (left : String) :
    Closed (left ++ right) := by
  obtain ⟨mark, isMark, last⟩ := closed
  refine ⟨mark, isMark, ?_⟩
  simp [String.toList_append, List.getLast?_append, last]

theorem closed_closing (kind : ClauseKind) : Closed (closing kind true) := by
  cases kind <;> simp [Closed, closing, ClauseKind.mark]

theorem closed_continued {running : Bool} {clauses : List WrittenClause}
    (inhabited : clauses ≠ []) :
    Closed (continued running clauses) := by
  induction clauses generalizing running with
  | nil => exact absurd rfl inhabited
  | cons clause clauses induction =>
      cases clauses with
      | nil =>
          have closed := (closed_closing clause.kind).append
            (if running then clause.text else Text.capitalize clause.text)
          simpa [continued] using closed
      | cons next later =>
          unfold continued
          exact (induction (List.cons_ne_nil next later)).append _

theorem Closed.ne_empty {text : String} (closed : Closed text) : text ≠ "" := by
  rintro rfl
  obtain ⟨mark, _, last⟩ := closed
  cases last

theorem visible_eq_nil_iff {clauses : List WrittenClause} :
    visible clauses = [] ↔ ∀ clause ∈ clauses, clause.text = "" := by
  rw [visible, List.filter_eq_nil_iff]
  simp [WrittenClause.isEmpty]

theorem compose_eq_empty_iff {clauses : List WrittenClause} :
    compose clauses = "" ↔ visible clauses = [] := by
  constructor
  · intro silent
    by_contra seen
    exact (closed_continued seen).ne_empty silent
  · intro unseen
    rw [compose, ← visible, unseen]
    rfl

theorem closed_compose {clauses : List WrittenClause} (spoken : compose clauses ≠ "") :
    Closed (compose clauses) :=
  closed_continued (mt compose_eq_empty_iff.mpr spoken)

/-- A text that an observer is told is prose, and there is some. -/
theorem closed_of_mem_observe {Words : Type} [Vocabulary Words] {narrator : Narrator Words}
    {entity : Entity} {senses : Senses} {light : Float} {voice : Option Context} {line : String}
    (member : line ∈ narrator.observe entity senses light voice) : Closed line := by
  obtain ⟨description, _, told⟩ := List.mem_filterMap.mp member
  dsimp only at told
  split at told
  · rename_i prose described
    split at told
    · cases told
    · rename_i nonempty
      cases told
      rw [Narrator.describe] at described
      cases written : narrator.writtenClauses
          (entity.observed (narrator.received description senses light)) voice
          narrator.config.anonymize with
      | error cause =>
          rw [written] at described
          cases described
      | ok clauses =>
          rw [written] at described
          cases described
          exact closed_compose (by simpa using nonempty)
  · cases told

theorem isChain_left_iff {α : Type} {holds : α → Prop} {list : List α} :
    list.IsChain (fun left _ => holds left) ↔ ∀ left ∈ list.dropLast, holds left := by
  induction list with
  | nil => simp
  | cons first rest induction =>
      cases rest with
      | nil => simp
      | cons second rest =>
          rw [List.isChain_cons_cons, induction, List.dropLast_cons_cons, List.forall_mem_cons]

/-- How prose is made up of its clauses.  Of these, the ones with text are cut into runs, each of
which ends at its first clause that is not partial or else at the end of all. -/
structure MadeOfRuns (clauses : List WrittenClause) : Prop where
  composed : compose clauses = " ".intercalate ((runs (visible clauses)).map sentence)
  whole : (runs (visible clauses)).flatten = visible clauses
  inhabited : [] ∉ runs (visible clauses)
  runsOn : ∀ run ∈ runs (visible clauses), ∀ clause ∈ run.dropLast, clause.kind = .partialClause
  ended : ∀ run ∈ (runs (visible clauses)).dropLast, ∀ last ∈ run.getLast?,
    last.kind ≠ .partialClause
  empty_iff : compose clauses = "" ↔ ∀ clause ∈ clauses, clause.text = ""
  closed : compose clauses ≠ "" → Closed (compose clauses)
  traceless : ∀ before behind (silent : WrittenClause), silent.text = "" →
    clauses = before ++ behind → compose (before ++ silent :: behind) = compose clauses

theorem madeOfRuns (clauses : List WrittenClause) : MadeOfRuns clauses where
  composed := compose_eq_intercalate clauses
  whole := List.flatten_splitBy _ _
  inhabited := List.nil_notMem_splitBy _ _
  runsOn run member := by
    have chained := List.isChain_of_mem_splitBy member
    simpa using isChain_left_iff.mp chained
  ended := by
    have apart : (runs (visible clauses)).IsChain fun run _ =>
        ∀ last ∈ run.getLast?, last.kind ≠ .partialClause := by
      refine (List.isChain_getLast_head_splitBy _ _).imp ?_
      intro run next apart last isLast
      obtain ⟨inhabited, _, closed⟩ := apart
      rw [List.getLast?_eq_some_getLast inhabited, Option.mem_some_iff] at isLast
      simpa [isLast] using closed
    exact isChain_left_iff.mp apart
  empty_iff := compose_eq_empty_iff.trans visible_eq_nil_iff
  closed := closed_compose
  traceless before behind silent textless split := by
    have unseen : silent.isEmpty = true := by simp [WrittenClause.isEmpty, textless]
    rw [split, compose, compose, List.filter_append, List.filter_append, List.filter_cons, unseen]
    rfl

/-- Prose is made of runs, and whatever an observer is told is closed by a mark. -/
theorem prose_made_of_runs :
    (∀ clauses, MadeOfRuns clauses) ∧
      ∀ {Words : Type} [Vocabulary Words] (narrator : Narrator Words) entity senses light voice,
        ∀ line ∈ narrator.observe entity senses light voice, Closed line := by
  refine ⟨madeOfRuns, ?_⟩
  intro Words _ narrator entity senses light voice line member
  exact closed_of_mem_observe member

def lampAndMoth : List WrittenClause := [
  ⟨"", .partialClause⟩, ⟨"the lamp is lit", .partialClause⟩, ⟨"", .statement⟩,
  ⟨"a moth circles", .question⟩, ⟨"dust", .partialClause⟩, ⟨"", .exclamation⟩,
  ⟨"ash", .partialClause⟩]

/-- Silent clauses neither close a run nor open one, and the last run is closed by a full stop. -/
theorem lampAndMoth_made_of_runs :
    compose lampAndMoth = "The lamp is lit, a moth circles? Dust, ash." ∧
      compose (⟨"", .statement⟩ :: lampAndMoth) = compose lampAndMoth ∧
      "See shadows." ∈ Narrator.plain.observe Narrator.moth Narrator.dimSighted 0
        (some Narrator.plainVoice) ∧
      Closed "See shadows." := by
  obtain ⟨made, closed⟩ := prose_made_of_runs
  have observed : "See shadows." ∈ Narrator.plain.observe Narrator.moth Narrator.dimSighted 0
      (some Narrator.plainVoice) := by
    decide +kernel
  refine ⟨?_, ?_, observed, closed _ _ _ _ _ _ observed⟩
  · rw [(made lampAndMoth).composed]
    decide
  · exact (made lampAndMoth).traceless [] lampAndMoth ⟨"", .statement⟩ rfl rfl

end SensoryProse.Prose
