import Mathlib.Data.List.Perm.Basic
import SensoryProse.Proofs.Language.Contracting
import SensoryProse.Proofs.Language.Deciding
import SensoryProse.Proofs.Writer.Agreement

/-!
# The order of words

In a language that neither contracts words nor lists siblings, a phrase is written as a traversal of
its tree: its article, the modifiers in front of it, its own text and the modifiers behind it.  So
every phrase of the tree is written once, and what is written of it and of the phrases below it
stands together.
-/

namespace SensoryProse

/-- What stands together for every modifier of a phrase does so for every phrase below it. -/
theorem Phrase.infix_of_mem_nodes {α : Type} {view : Phrase → List α}
    (modifiers : ∀ phrase, ∀ modifier ∈ phrase.modifiers, view modifier <:+: view phrase)
    {tree node : Phrase} (member : node ∈ tree.nodes) : view node <:+: view tree := by
  induction tree using Phrase.induction with
  | step phrase induction =>
      rw [Phrase.nodes_eq] at member
      cases List.mem_cons.mp member with
      | inl same =>
          subst same
          exact List.infix_rfl
      | inr below =>
          obtain ⟨modifier, attached, under⟩ := List.mem_flatMap.mp below
          exact (induction modifier attached under).trans (modifiers phrase modifier attached)

private theorem infix_flatMap {α : Type} {view : Phrase → List α} {modifier : Phrase}
    {siblings : List Phrase} (member : modifier ∈ siblings) :
    view modifier <:+: siblings.flatMap view := by
  rw [List.flatMap_def]
  exact List.infix_of_mem_flatten (List.mem_map_of_mem member)

theorem Phrase.nodes_infix {tree node : Phrase} (member : node ∈ tree.nodes) :
    node.nodes <:+: tree.nodes := by
  refine Phrase.infix_of_mem_nodes ?_ member
  intro phrase modifier attached
  rw [Phrase.nodes_eq phrase]
  exact (infix_flatMap attached).trans (List.suffix_cons _ _).isInfix

/-- No rule of the language has siblings listed. -/
def Language.Unlisted (language : Language) : Prop :=
  ∀ rule ∈ language.rules, rule.listable ≠ some true

theorem Language.isListed_of_unlisted {language : Language} (unlisted : language.Unlisted)
    (phrase : Phrase) (sense : Option Sense) :
    (language.shapeOf phrase sense).isListed = false := by
  cases found : (language.shapeOf phrase sense).listable with
  | none => simp [Shape.isListed, found]
  | some value =>
      have held : Shape.Property.listable.ofShape (language.shapeOf phrase sense) = some value :=
        found
      obtain ⟨rule, member, sets⟩ := exists_rule_of_shapeOf held
      have different : value ≠ true := by
        rintro rfl
        exact unlisted rule member sets
      simpa [Shape.isListed, found] using different

theorem Listing.join_of_unlisted {siblings : List Sibling}
    (unlisted : ∀ sibling ∈ siblings, sibling.listable = false) :
    join siblings = siblings.flatMap (·.words) := by
  have joined : ∀ wordClass, joinAfter [] wordClass siblings = siblings.flatMap (·.words) := by
    induction siblings with
    | nil =>
        intro wordClass
        rfl
    | cons sibling siblings induction =>
        obtain ⟨here, others⟩ := List.forall_mem_cons.mp unlisted
        intro wordClass
        simp [joinAfter, here, close, induction others]
  exact joined .none

namespace Writer

variable {Words : Type} [Vocabulary Words]

/-- Where a modifier stands beside its head. -/
def place (writer : Writer Words) (head modifier : Phrase) : Int :=
  (writer.shapeOf modifier).order.getD (usualOrder modifier (some head.wordClass))

/-- The modifiers whose places pass a test, in ascending order. -/
def placed (writer : Writer Words) (test : Int → Bool) (head : Phrase) : List Phrase :=
  (head.modifiers.filter fun modifier => test (writer.place head modifier)).mergeSort
    fun left right => writer.place head left ≤ writer.place head right

/-- The modifiers in front of a phrase. -/
def before (writer : Writer Words) (phrase : Phrase) : List Phrase := writer.placed (· < 0) phrase

/-- The modifiers behind a phrase. -/
def behind (writer : Writer Words) (phrase : Phrase) : List Phrase := writer.placed (0 ≤ ·) phrase

/-- The text of a phrase, inflected, if it has one. -/
def inflected (writer : Writer Words) (phrase : Phrase) : List String :=
  if phrase.text.isEmpty then [] else [(writer.shapeOf phrase).inflect phrase.text]

/-- What is written of a phrase without its modifiers. -/
def own (writer : Writer Words) (phrase : Phrase) : List String :=
  writer.supplied phrase ++ writer.inflected phrase

private theorem not_neg_eq (place : Int) : (!(place < 0 : Bool)) = decide (0 ≤ place) := by
  simp only [← decide_not, Int.not_lt]

section

variable (writer : Writer Words)

theorem placed_stablySorted (test : Int → Bool) (phrase : Phrase) :
    StablySorted (writer.place phrase)
      (phrase.modifiers.filter fun modifier => test (writer.place phrase modifier))
      (writer.placed test phrase) :=
  stablySorted_mergeSort _ _

/-- Modifiers that are attached in ascending order stay as they are. -/
theorem placed_of_pairwise {test : Int → Bool} {head : Phrase}
    (ascending : (head.modifiers.filter fun modifier => test (writer.place head modifier)).Pairwise
      fun left right => writer.place head left ≤ writer.place head right) :
    writer.placed test head =
      head.modifiers.filter fun modifier => test (writer.place head modifier) :=
  List.mergeSort_of_pairwise (by simpa using ascending)

theorem before_append_behind_perm (phrase : Phrase) :
    (writer.before phrase ++ writer.behind phrase).Perm phrase.modifiers := by
  refine ((writer.placed_stablySorted (· < 0) phrase).perm.append
    (writer.placed_stablySorted (0 ≤ ·) phrase).perm).trans ?_
  simp only [← not_neg_eq]
  exact List.filter_append_perm _ _

theorem mem_modifiers_iff {phrase modifier : Phrase} :
    modifier ∈ phrase.modifiers ↔
      modifier ∈ writer.before phrase ∨ modifier ∈ writer.behind phrase := by
  rw [← (writer.before_append_behind_perm phrase).mem_iff, List.mem_append]

theorem spell_order (head modifier : Phrase) :
    (writer.spell (some head.wordClass) modifier).order = writer.place head modifier := by
  rw [spell_eq, place]

/-- Siblings are sorted as the phrases that they are written from. -/
theorem ordered_spell (test : Int → Bool) (phrase : Phrase) :
    ordered ((phrase.modifiers.map (writer.spell (some phrase.wordClass))).filter
      fun sibling => test sibling.order) =
      (writer.placed test phrase).map (writer.spell (some phrase.wordClass)) := by
  simp only [List.filter_map, Function.comp_def, spell_order]
  refine (List.map_mergeSort ?_).symm
  intro left _ right _
  rw [spell_order, spell_order]

/-- The class of the head decides where a phrase stands, not how it is written. -/
theorem spell_words (head other : Option WordClass) (phrase : Phrase) :
    (writer.spell head phrase).words = (writer.spell other phrase).words := by
  rw [spell_eq, spell_eq]

theorem spell_words_eq (head : Option WordClass) (phrase : Phrase) :
    (writer.spell head phrase).words =
      writer.supplied phrase
        ++ Listing.join ((writer.before phrase).map (writer.spell (some phrase.wordClass)))
        ++ writer.inflected phrase
        ++ Listing.join ((writer.behind phrase).map (writer.spell (some phrase.wordClass))) := by
  rw [spell_eq]
  simp only [arrange_eq, not_neg_eq]
  rw [writer.ordered_spell (· < 0), writer.ordered_spell (0 ≤ ·)]
  rfl

end

section

variable {writer : Writer Words} (uncontracted : writer.language.contractions = [])
  (unlisted : writer.language.Unlisted)

include uncontracted

theorem words_eq_spell (head : Option WordClass) (phrase : Phrase) :
    writer.words phrase = (writer.spell head phrase).words := by
  rw [words, Language.contract, uncontracted, Contraction.contract_of_no_rules]
  exact writer.spell_words none head phrase

include unlisted

theorem join_spell (head : Option WordClass) (phrases : List Phrase) :
    Listing.join (phrases.map (writer.spell head)) = phrases.flatMap writer.words := by
  rw [Listing.join_of_unlisted, List.flatMap_map]
  · apply List.flatMap_congr
    intro phrase _
    exact (words_eq_spell uncontracted head phrase).symm
  · intro sibling member
    obtain ⟨phrase, _, rfl⟩ := List.mem_map.mp member
    rw [spell_eq]
    exact Language.isListed_of_unlisted unlisted _ _

theorem words_eq (phrase : Phrase) :
    writer.words phrase =
      writer.supplied phrase ++ (writer.before phrase).flatMap writer.words
        ++ writer.inflected phrase ++ (writer.behind phrase).flatMap writer.words := by
  rw [words_eq_spell uncontracted none, spell_words_eq, join_spell uncontracted unlisted,
    join_spell uncontracted unlisted]

/-- Every phrase of the tree is written once. -/
theorem words_perm_own (tree : Phrase) :
    (writer.words tree).Perm (tree.nodes.flatMap writer.own) := by
  induction tree using Phrase.induction with
  | step phrase induction =>
      have apart : (writer.words phrase).Perm
          (writer.own phrase ++
            (writer.before phrase ++ writer.behind phrase).flatMap writer.words) := by
        rw [words_eq uncontracted unlisted, own, List.flatMap_append, List.append_assoc,
          List.append_assoc, List.append_assoc]
        exact (List.perm_append_comm_assoc _ _ _).append_left _
      have modifiers : ((writer.before phrase ++ writer.behind phrase).flatMap writer.words).Perm
          (phrase.modifiers.flatMap fun modifier => modifier.nodes.flatMap writer.own) :=
        ((writer.before_append_behind_perm phrase).flatMap_right _).trans
          (List.Perm.flatMap_left _ induction)
      rw [Phrase.nodes_eq, List.flatMap_cons, List.flatMap_assoc]
      exact apart.trans (modifiers.append_left _)

theorem words_infix_of_modifier {phrase modifier : Phrase} (member : modifier ∈ phrase.modifiers) :
    writer.words modifier <:+: writer.words phrase := by
  rw [words_eq uncontracted unlisted phrase]
  cases writer.mem_modifiers_iff.mp member with
  | inl before =>
      exact ((infix_flatMap before).trans (List.infix_append _ _ _)).trans
        (List.prefix_append _ _).isInfix
  | inr behind => exact (infix_flatMap behind).trans (List.suffix_append _ _).isInfix

/-- What is written of a phrase and of those below it stands together, and what is written beside it
is written of the other phrases of the tree. -/
theorem words_contiguous {tree node : Phrase} (member : node ∈ tree.nodes) :
    ∃ front back others,
      writer.words tree = front ++ writer.words node ++ back ∧
        tree.nodes.Perm (node.nodes ++ others) ∧
        (front ++ back).Perm (others.flatMap writer.own) := by
  obtain ⟨front, back, written⟩ := Phrase.infix_of_mem_nodes
    (fun _ _ => words_infix_of_modifier uncontracted unlisted) member
  obtain ⟨earlier, later, listed⟩ := Phrase.nodes_infix member
  have apart : ∀ {α : Type} (left middle right : List α),
      (left ++ middle ++ right).Perm (middle ++ (left ++ right)) := by
    intro α left middle right
    rw [List.append_assoc]
    exact List.perm_append_comm_assoc _ _ _
  have nodes : tree.nodes.Perm (node.nodes ++ (earlier ++ later)) := listed ▸ apart _ _ _
  refine ⟨front, back, earlier ++ later, written.symm, nodes, ?_⟩
  -- The words of the node are taken away from those of the whole tree.
  have whole : (front ++ writer.words node ++ back).Perm (tree.nodes.flatMap writer.own) :=
    written ▸ words_perm_own uncontracted unlisted tree
  have part := words_perm_own uncontracted unlisted node
  have parts : (tree.nodes.flatMap writer.own).Perm
      (writer.words node ++ (earlier ++ later).flatMap writer.own) := by
    refine (nodes.flatMap_right writer.own).trans ?_
    rw [List.flatMap_append]
    exact part.symm.append_right _
  exact (List.perm_append_left_iff _).mp ((apart _ _ _).symm.trans (whole.trans parts))

end

/-- How a phrase tree is written as a traversal: what is written of each phrase and in which order
its modifiers follow on either side, and that no phrase is left out, written twice or torn apart. -/
structure WrittenInOrder (writer : Writer Words) : Prop where
  text : ∀ kind tree, (writer.write kind tree).text = Listing.spaced (writer.words tree)
  words : ∀ phrase,
    writer.words phrase =
      writer.supplied phrase ++ (writer.before phrase).flatMap writer.words
        ++ writer.inflected phrase ++ (writer.behind phrase).flatMap writer.words
  before : ∀ phrase,
    StablySorted (writer.place phrase)
      (phrase.modifiers.filter fun modifier => writer.place phrase modifier < 0)
      (writer.before phrase)
  behind : ∀ phrase,
    StablySorted (writer.place phrase)
      (phrase.modifiers.filter fun modifier => 0 ≤ writer.place phrase modifier)
      (writer.behind phrase)
  once : ∀ tree, (writer.words tree).Perm (tree.nodes.flatMap writer.own)
  contiguous : ∀ tree, ∀ node ∈ tree.nodes, ∃ front back others,
    writer.words tree = front ++ writer.words node ++ back ∧
      tree.nodes.Perm (node.nodes ++ others) ∧
      (front ++ back).Perm (others.flatMap writer.own)

/-- A clause is the traversal of its tree, where nothing is contracted or listed. -/
theorem written_in_order {language : Language} (uncontracted : language.contractions = [])
    (unlisted : language.Unlisted) (lexicon : Words) :
    WrittenInOrder (Writer.of language lexicon) where
  text _ _ := rfl
  words := words_eq uncontracted unlisted
  before := placed_stablySorted _ (· < 0)
  behind := placed_stablySorted _ (0 ≤ ·)
  once := words_perm_own uncontracted unlisted
  contiguous _ _ := words_contiguous uncontracted unlisted

/-- A language that has subjects in front of their verb, with an article. -/
def subjectsFirst : Language where
  name := "english"
  rules := [
    { role := some .subject, article := some true, order := some (-1) },
    { wordClass := some .verb, afterWord := some "s" }]

/-- What an old lantern does, with the lantern behind the verb. -/
def lanternLighting : Phrase where
  role := .verb
  wordClass := .verb
  text := "light"
  modifiers := [
    { role := .directObject, wordClass := .noun, text := "paths"
      modifiers := [{ role := .descriptive, wordClass := .adjective, text := "narrow" }] },
    { role := .subject, wordClass := .noun, text := "lantern"
      modifiers := [{ role := .descriptive, wordClass := .adjective, text := "old" }]
      context := { determinant := true } }]

theorem lanternLighting_in_order :
    subjectsFirst.contractions = [] ∧ subjectsFirst.Unlisted ∧
      WrittenInOrder (Writer.of subjectsFirst (Lexicon.ofSenses [] 0)) ∧
      ((Writer.of subjectsFirst (Lexicon.ofSenses [] 0)).write .statement lanternLighting).text =
        "the old lantern lights narrow paths" := by
  have unlisted : subjectsFirst.Unlisted := by
    unfold Language.Unlisted
    decide
  exact ⟨rfl, unlisted, written_in_order rfl unlisted _, by decide +kernel⟩

end Writer

end SensoryProse
