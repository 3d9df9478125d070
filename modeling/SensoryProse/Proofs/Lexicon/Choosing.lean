import Mathlib.Data.List.Basic
import SensoryProse.Proofs.Lexicon.WordClasses

/-!
# What is chosen

A sense suits a context by its word class, its language and its tags.  What is chosen is a suitable
sense that no suitable sense fits better than, and nothing is chosen only where no sense suits.  The
draw has a say among senses that fit equally well and nowhere else, and senses that do not suit have
none.  All that is known of a draw is that it stays within what it is drawn from.
-/

namespace SensoryProse.Lexicon

/-- A sense of the class that can be used in the language of the context and has every tag that the
context asks for.  A language left open on either side goes with any other. -/
structure Suits (context : Context) (wordClass : WordClass) (sense : Sense) : Prop where
  wordClass : sense.wordClass = wordClass
  language : ∀ its ours, sense.language = some its → context.language = some ours → its = ours
  tags : ∀ tag ∈ context.semantics, tag ∈ sense.semantics

/-- A suitable sense that no suitable sense fits better than. -/
structure FitsBest (lexicon : Lexicon) (context : Context) (wordClass : WordClass)
    (sense : Sense) : Prop where
  held : sense ∈ lexicon.senses
  suits : Suits context wordClass sense
  greatest : ∀ other ∈ lexicon.senses, Suits context wordClass other →
    fitness other context ≤ fitness sense context

section

variable {lexicon : Lexicon} {drawing : Drawing} {context : Context} {wordClass : WordClass}
  {sense : Sense}

theorem languagesAgree_iff :
    languagesAgree sense context = true ↔
      ∀ its ours, sense.language = some its → context.language = some ours → its = ours := by
  unfold languagesAgree
  cases sense.language <;> cases context.language <;> simp

theorem usable_iff : usable context wordClass sense = true ↔ Suits context wordClass sense := by
  have tags : context.semantics.subset sense.semantics = true ↔
      ∀ tag ∈ context.semantics, tag ∈ sense.semantics := by
    simp only [Tags.subset, List.all_eq_true, Tags.contains, List.contains_iff_mem]
    rfl
  simp only [usable, Bool.and_eq_true, beq_iff_eq, languagesAgree_iff, tags]
  constructor
  · rintro ⟨⟨sameClass, agree⟩, tagged⟩
    exact ⟨sameClass, agree, tagged⟩
  · rintro ⟨sameClass, agree, tagged⟩
    exact ⟨⟨sameClass, agree⟩, tagged⟩

theorem mem_candidates :
    sense ∈ lexicon.candidates context wordClass ↔
      sense ∈ lexicon.senses ∧ Suits context wordClass sense := by
  rw [candidates, List.mem_filter, usable_iff]

theorem max?_fitness_eq_some_iff {found : List Sense} {best : Int} :
    (found.map (fitness · context)).max? = some best ↔
      (∃ sense ∈ found, fitness sense context = best) ∧
        ∀ sense ∈ found, fitness sense context ≤ best := by
  rw [List.max?_eq_some_iff]
  simp

theorem fitsBest_iff :
    lexicon.FitsBest context wordClass sense ↔
      sense ∈ lexicon.candidates context wordClass ∧
        ∀ other ∈ lexicon.candidates context wordClass,
          fitness other context ≤ fitness sense context := by
  simp only [mem_candidates, and_imp]
  constructor
  · rintro ⟨held, suits, greatest⟩
    exact ⟨⟨held, suits⟩, greatest⟩
  · rintro ⟨⟨held, suits⟩, greatest⟩
    exact ⟨held, suits, greatest⟩

theorem mem_tied :
    sense ∈ lexicon.tied context wordClass ↔ lexicon.FitsBest context wordClass sense := by
  rw [fitsBest_iff]
  unfold tied
  dsimp only
  split
  · rename_i none
    rw [List.max?_eq_none_iff, List.map_eq_nil_iff] at none
    simp [none]
  · rename_i best found
    obtain ⟨⟨fittest, member, reached⟩, bound⟩ := max?_fitness_eq_some_iff.mp found
    rw [List.mem_filter, beq_iff_eq]
    constructor
    · rintro ⟨candidate, rfl⟩
      exact ⟨candidate, bound⟩
    · rintro ⟨candidate, greatest⟩
      refine ⟨candidate, Int.le_antisymm (bound sense candidate) ?_⟩
      rw [← reached]
      exact greatest fittest member

/-- Among suitable senses there is one that fits best. -/
theorem exists_fitsBest (held : sense ∈ lexicon.senses) (suits : Suits context wordClass sense) :
    ∃ best, lexicon.FitsBest context wordClass best := by
  have candidate := mem_candidates.mpr ⟨held, suits⟩
  cases found : ((lexicon.candidates context wordClass).map (fitness · context)).max? with
  | none =>
      rw [List.max?_eq_none_iff, List.map_eq_nil_iff] at found
      rw [found] at candidate
      cases candidate
  | some best =>
      obtain ⟨⟨fittest, member, rfl⟩, bound⟩ := max?_fitness_eq_some_iff.mp found
      exact ⟨fittest, fitsBest_iff.mpr ⟨member, bound⟩⟩

theorem fitsBest_of_chooseBy (chosen : lexicon.chooseBy drawing context wordClass = some sense) :
    lexicon.FitsBest context wordClass sense :=
  mem_tied.mp (List.mem_of_getElem? chosen)

theorem chooseBy_eq_none_iff :
    lexicon.chooseBy drawing context wordClass = none ↔
      ∀ sense ∈ lexicon.senses, ¬Suits context wordClass sense := by
  constructor
  · intro nothing sense held suits
    obtain ⟨best, fits⟩ := exists_fitsBest held suits
    have inhabited := List.length_pos_of_mem (mem_tied.mpr fits)
    have within := drawing.index_lt inhabited
    exact absurd within (Nat.not_lt.mpr (List.getElem?_eq_none_iff.mp nothing))
  · intro unsuited
    cases chosen : lexicon.chooseBy drawing context wordClass with
    | none => rfl
    | some sense =>
        have fits := fitsBest_of_chooseBy chosen
        exact absurd fits.suits (unsuited sense fits.held)

/-- A suitable sense that fits better than all others is chosen. -/
theorem chooseBy_eq_some_of_unique (held : sense ∈ lexicon.senses)
    (suits : Suits context wordClass sense)
    (fittest : ∀ other ∈ lexicon.senses, Suits context wordClass other → other ≠ sense →
      fitness other context < fitness sense context) :
    lexicon.chooseBy drawing context wordClass = some sense := by
  cases chosen : lexicon.chooseBy drawing context wordClass with
  | none => exact absurd suits (chooseBy_eq_none_iff.mp chosen sense held)
  | some other =>
      have fits := fitsBest_of_chooseBy chosen
      by_contra different
      have worse := fittest other fits.held fits.suits (fun same => different (congrArg some same))
      exact absurd (fits.greatest sense held suits) (Int.not_le.mpr worse)

theorem insert_chooseBy (unsuited : ¬Suits context wordClass sense) :
    (lexicon.insert sense).chooseBy drawing context wordClass =
      lexicon.chooseBy drawing context wordClass := by
  have fails : usable context wordClass sense = false := by
    rw [Bool.eq_false_iff, ne_eq, usable_iff]
    exact unsuited
  exact chooseBy_congr (insert_senses_filter fails lexicon) drawing

theorem foldl_insert_chooseBy {senses : List Sense}
    (unsuited : ∀ sense ∈ senses, ¬Suits context wordClass sense) :
    (senses.foldl insert lexicon).chooseBy drawing context wordClass =
      lexicon.chooseBy drawing context wordClass := by
  induction senses generalizing lexicon with
  | nil => rfl
  | cons sense senses induction =>
      obtain ⟨first, others⟩ := List.forall_mem_cons.mp unsuited
      rw [List.foldl_cons, induction others, insert_chooseBy first]

end

theorem foldl_insert_seed (lexicon : Lexicon) (senses : List Sense) (seed : UInt64) :
    senses.foldl insert { lexicon with seed } = { senses.foldl insert lexicon with seed } := by
  induction senses generalizing lexicon with
  | nil => rfl
  | cons sense senses induction => exact induction (lexicon.insert sense)

/-- How a word is chosen for a context. -/
structure ChoosesBest (lexicon : Lexicon) (context : Context) (wordClass : WordClass) : Prop where
  none_iff : ∀ drawing, lexicon.chooseBy drawing context wordClass = none ↔
    ∀ sense ∈ lexicon.senses, ¬Suits context wordClass sense
  best : ∀ drawing sense, lexicon.chooseBy drawing context wordClass = some sense →
    lexicon.FitsBest context wordClass sense
  undrawn : ∀ sense ∈ lexicon.senses, Suits context wordClass sense →
    (∀ other ∈ lexicon.senses, Suits context wordClass other → other ≠ sense →
      fitness other context < fitness sense context) →
    ∀ drawing, lexicon.chooseBy drawing context wordClass = some sense
  undisturbed : ∀ drawing, ∀ senses : List Sense,
    (∀ sense ∈ senses, ¬Suits context wordClass sense) →
    (senses.foldl insert lexicon).chooseBy drawing context wordClass =
      lexicon.chooseBy drawing context wordClass
  seeded : ∀ seed, ∀ senses : List Sense,
    (senses.foldl insert { lexicon with seed }).choose context wordClass =
      (senses.foldl insert lexicon).chooseBy (.seeded seed) context wordClass

/-- A choice falls on a sense that fits best, whatever else the lexicon holds and, where one sense
fits better than all others, whatever is drawn.  The seed of a lexicon stands for a way of drawing
that no sense changes. -/
theorem chooses_best (lexicon : Lexicon) (context : Context) (wordClass : WordClass) :
    lexicon.ChoosesBest context wordClass where
  none_iff _ := chooseBy_eq_none_iff
  best _ _ := fitsBest_of_chooseBy
  undrawn _ held suits fittest _ := chooseBy_eq_some_of_unique held suits fittest
  undisturbed _ _ := foldl_insert_chooseBy
  seeded seed senses := by
    rw [foldl_insert_seed]
    rfl

def bright : Sense where
  name := "bright"
  wordClass := .adjective

def radiant : Sense where
  name := "radiant"
  wordClass := .adjective
  elegance := 5

def shines : Sense where
  name := "shines"
  wordClass := .verb
  elegance := 4

/-- In an elegant context *radiant* is chosen over *bright*, whatever is drawn and whatever the
seed, and a verb comes in without a trace. -/
theorem radiant_chosen_best :
    let lexicon := ofSenses [bright, radiant] 0
    let context : Context := { elegance := 4 }
    radiant ∈ lexicon.senses ∧ Suits context .adjective radiant ∧
      ¬Suits context .adjective shines ∧
      (∀ drawing, lexicon.chooseBy drawing context .adjective = some radiant) ∧
      (∀ drawing, ([shines].foldl insert lexicon).chooseBy drawing context .adjective =
        lexicon.chooseBy drawing context .adjective) ∧
      lexicon.FitsBest context .adjective radiant ∧
      ∀ seed, ([shines].foldl insert { lexicon with seed }).choose context .adjective =
        some radiant := by
  intro lexicon context
  have held : radiant ∈ lexicon.senses := by decide
  have suits : Suits context .adjective radiant := usable_iff.mp (by decide)
  have unsuited : ∀ sense ∈ [shines], ¬Suits context .adjective sense := by
    intro sense member
    rw [List.mem_singleton.mp member, ← usable_iff]
    decide
  have fittest : ∀ other ∈ lexicon.senses, Suits context .adjective other → other ≠ radiant →
      fitness other context < fitness radiant context := by
    intro other otherHeld _ different
    have either : other ∈ [bright, radiant] := otherHeld
    obtain rfl : other = bright := by simpa [different] using either
    decide
  have chooses := chooses_best lexicon context .adjective
  have chosen := chooses.undrawn radiant held suits fittest
  refine ⟨held, suits, unsuited shines List.mem_cons_self, chosen, ?_, ?_, ?_⟩
  · intro drawing
    exact chooses.undisturbed drawing [shines] unsuited
  · exact chooses.best (.seeded 0) radiant (chosen (.seeded 0))
  · intro seed
    rw [chooses.seeded seed, chooses.undisturbed (.seeded seed) [shines] unsuited, chosen]

end SensoryProse.Lexicon
