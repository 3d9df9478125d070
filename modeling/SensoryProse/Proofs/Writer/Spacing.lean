import SensoryProse.Proofs.Language.Contracting
import SensoryProse.Proofs.Lexicon.Choosing
import SensoryProse.Proofs.Prose.Lists
import SensoryProse.Proofs.Text.Spaces
import SensoryProse.Proofs.Writer.Traversal

/-!
# Spaces between words

Words come to stand side by side in three places: as the items of a list, as the words of an item
and as the words of the clause.  They are neat in all three, unless a phrase that its head lists is
written without words.  Such a phrase is an empty item, while one that is not listed leaves no
trace.
-/

namespace SensoryProse

open Text

namespace Listing

theorem neat_item {sibling : Sibling} (neat : ∀ word ∈ sibling.words, Neat word)
    (inhabited : sibling.words ≠ []) : Neat (item sibling) :=
  Neat.intercalate (by decide) inhabited neat

theorem neat_enumerated {front : List String} {last : String}
    (frontNeat : ∀ item ∈ front, Neat item) (lastNeat : Neat last) :
    Neat (enumerated front last) := by
  unfold enumerated
  split
  · exact lastNeat
  · rename_i inhabited
    exact (Neat.intercalate (by decide) inhabited frontNeat).join lastNeat (by decide)

theorem neat_join {siblings : List Sibling}
    (neat : ∀ sibling ∈ siblings, ∀ word ∈ sibling.words, Neat word)
    (inhabited : ∀ sibling ∈ siblings, sibling.listable = true → sibling.words ≠ []) :
    ∀ word ∈ join siblings, Neat word := by
  intro word member
  rw [join_eq] at member
  obtain ⟨group, isGroup, inWritten⟩ := List.mem_flatMap.mp member
  obtain ⟨front, last, rfl⟩ :=
    (List.eq_nil_or_concat' group).resolve_left (ne_nil_of_mem_groups isGroup)
  have lastMember : last ∈ front ++ [last] := List.mem_concat_self
  rw [written_concat] at inWritten
  split at inWritten
  · rename_i listable
    have items : ∀ sibling ∈ front ++ [last], Neat (item sibling) := by
      intro sibling inGroup
      have isSibling := mem_of_mem_groups isGroup inGroup
      have alike := listable_eq_of_mem_groups isGroup inGroup lastMember
      exact neat_item (neat sibling isSibling) (inhabited sibling isSibling (alike.trans listable))
    rw [List.mem_singleton.mp inWritten]
    refine neat_enumerated ?_ (items last lastMember)
    intro text inFront
    obtain ⟨sibling, earlier, rfl⟩ := List.mem_map.mp inFront
    exact items sibling (List.mem_append_left _ earlier)
  · exact neat last (mem_of_mem_groups isGroup lastMember) word inWritten

end Listing

namespace Lexicon

/-- A lexicon whose articles are neat has only neat articles to choose from. -/
theorem neat_of_choose_article {lexicon : Lexicon}
    (neat : ∀ sense ∈ lexicon.senses, sense.wordClass = .article → Neat sense.name)
    {context : Context} {sense : Sense} (chosen : lexicon.choose context .article = some sense) :
    Neat sense.name := by
  have fits := fitsBest_of_chooseBy chosen
  exact neat sense fits.held fits.suits.wordClass

end Lexicon

namespace Writer

variable {Words : Type} [Vocabulary Words]

/-- The words of a phrase before any of them contract. -/
def spelled (writer : Writer Words) (phrase : Phrase) : List String :=
  (writer.spell none phrase).words

/-- The groups of the modifiers that stand on one side of a phrase. -/
def grouped (writer : Writer Words) (head : Phrase) (side : List Phrase) : List (List Sibling) :=
  Listing.groups (side.map (writer.spell (some head.wordClass)))

def sides (writer : Writer Words) (phrase : Phrase) : List (List Phrase) :=
  [writer.before phrase, writer.behind phrase]

def groups (writer : Writer Words) (phrase : Phrase) : List (List Sibling) :=
  (writer.sides phrase).flatMap (writer.grouped phrase)

/-- The groups that are written with separators. -/
def lists (writer : Writer Words) (phrase : Phrase) : List (List Sibling) :=
  (writer.groups phrase).filter fun group => 2 ≤ group.length

/-- Whatever a writer adds to the texts of phrases is neat. -/
structure AddsNeatly (writer : Writer Words) : Prop where
  beforeWord : ∀ rule ∈ writer.language.rules, ∀ affix, rule.beforeWord = some affix →
    ' ' ∉ affix.toList
  afterWord : ∀ rule ∈ writer.language.rules, ∀ affix, rule.afterWord = some affix →
    ' ' ∉ affix.toList
  contraction : ∀ rule ∈ writer.language.contractions, Neat rule.result
  article : ∀ context sense, Vocabulary.choose writer.lexicon context .article = some sense →
    Neat sense.name

/-- Every phrase that its head lists has words. -/
def ListsWords (writer : Writer Words) (tree : Phrase) : Prop :=
  ∀ node ∈ tree.nodes, ∀ modifier ∈ node.modifiers,
    (writer.shapeOf modifier).isListed = true → writer.spelled modifier ≠ []

section

variable {writer : Writer Words} {phrase : Phrase}

theorem spelled_eq (phrase : Phrase) :
    writer.spelled phrase =
      writer.supplied phrase
        ++ (writer.grouped phrase (writer.before phrase)).flatMap Listing.written
        ++ writer.inflected phrase
        ++ (writer.grouped phrase (writer.behind phrase)).flatMap Listing.written := by
  rw [spelled, spell_words_eq, Listing.join_eq, Listing.join_eq]
  rfl

theorem mem_spelled_of_written {group : List Sibling} (isGroup : group ∈ writer.groups phrase)
    {word : String} (inWritten : word ∈ Listing.written group) : word ∈ writer.spelled phrase := by
  obtain ⟨side, isSide, inSide⟩ := List.mem_flatMap.mp isGroup
  have onSide : word ∈ (writer.grouped phrase side).flatMap Listing.written :=
    List.mem_flatMap.mpr ⟨group, inSide, inWritten⟩
  have either : side = writer.before phrase ∨ side = writer.behind phrase := by
    simpa [sides] using isSide
  rw [spelled_eq]
  rcases either with rfl | rfl <;> simp [onSide]

theorem neat_definiteArticle (neat : writer.AddsNeatly) (phrase : Phrase) :
    Neat (writer.definiteArticle phrase) := by
  unfold definiteArticle
  dsimp only
  generalize ({ phrase.context with semantics := .singleton "definite" } : Context) = context
  cases chosen : Vocabulary.choose writer.lexicon context .article with
  | none =>
      change Neat usualArticle
      decide
  | some sense => exact neat.article context sense chosen

theorem wellSpaced_affix (property : Shape.Property String)
    (spaceless : ∀ rule ∈ writer.language.rules, ∀ affix, property.ofRule rule = some affix →
      ' ' ∉ affix.toList) (phrase : Phrase) :
    WellSpaced ((property.ofShape (writer.shapeOf phrase)).getD "") := by
  cases held : property.ofShape (writer.shapeOf phrase) with
  | none => exact wellSpaced_empty
  | some affix =>
      obtain ⟨rule, member, sets⟩ := Language.exists_rule_of_shapeOf held
      exact .of_spaceless (spaceless rule member affix sets)

theorem neat_inflect (neat : writer.AddsNeatly) (phrase : Phrase) {text : String}
    (textNeat : Neat text) : Neat ((writer.shapeOf phrase).inflect text) :=
  textNeat.between (wellSpaced_affix .beforeWord neat.beforeWord phrase)
    (wellSpaced_affix .afterWord neat.afterWord phrase)

theorem neat_own (neat : writer.AddsNeatly) (spaced : WellSpaced phrase.text) :
    ∀ word ∈ writer.own phrase, Neat word := by
  intro word member
  rcases List.mem_append.mp member with isSupplied | isInflected
  · unfold supplied at isSupplied
    split at isSupplied
    · rw [List.mem_singleton.mp isSupplied]
      exact neat_definiteArticle neat phrase
    · cases isSupplied
  · unfold inflected at isInflected
    split at isInflected
    · cases isInflected
    · rename_i inhabited
      rw [List.mem_singleton.mp isInflected]
      exact neat_inflect neat phrase ⟨spaced, by simpa using inhabited⟩

theorem spell_listable (head : Option WordClass) (phrase : Phrase) :
    (writer.spell head phrase).listable = (writer.shapeOf phrase).isListed := by
  rw [spell_eq]

theorem spell_words_eq_spelled (head : Option WordClass) (phrase : Phrase) :
    (writer.spell head phrase).words = writer.spelled phrase :=
  writer.spell_words head none phrase

theorem exists_side_iff {modifier : Phrase} :
    (∃ side ∈ writer.sides phrase, modifier ∈ side) ↔ modifier ∈ phrase.modifiers := by
  rw [writer.mem_modifiers_iff]
  simp [sides]

theorem exists_modifier_of_mem_groups {group : List Sibling}
    (isGroup : group ∈ writer.groups phrase) {sibling : Sibling} (inGroup : sibling ∈ group) :
    ∃ modifier ∈ phrase.modifiers, writer.spell (some phrase.wordClass) modifier = sibling := by
  obtain ⟨side, isSide, onSide⟩ := List.mem_flatMap.mp isGroup
  obtain ⟨modifier, inSide, same⟩ := List.mem_map.mp (Listing.mem_of_mem_groups onSide inGroup)
  exact ⟨modifier, exists_side_iff.mp ⟨side, isSide, inSide⟩, same⟩

theorem exists_group_of_mem_modifiers {modifier : Phrase} (attached : modifier ∈ phrase.modifiers) :
    ∃ group ∈ writer.groups phrase, writer.spell (some phrase.wordClass) modifier ∈ group := by
  obtain ⟨side, isSide, inSide⟩ : ∃ side ∈ writer.sides phrase, modifier ∈ side :=
    exists_side_iff.mpr attached
  obtain ⟨group, isGroup, inGroup⟩ := Listing.exists_mem_groups (List.mem_map_of_mem inSide)
  exact ⟨group, List.mem_flatMap.mpr ⟨side, isSide, isGroup⟩, inGroup⟩

theorem listable_of_mem_lists {group : List Sibling} (isList : group ∈ writer.lists phrase)
    {sibling : Sibling} (inGroup : sibling ∈ group) : sibling.listable = true := by
  obtain ⟨isGroup, several⟩ := List.mem_filter.mp isList
  obtain ⟨_, _, onSide⟩ := List.mem_flatMap.mp isGroup
  obtain ⟨_, isRun⟩ := Listing.run_of_mem_groups onSide (by simpa using several)
  exact (isRun sibling inGroup).1

/-- What is written without words: no article, no text and no modifier that is listed or has words
of its own. -/
theorem spelled_eq_nil_iff :
    writer.spelled phrase = [] ↔
      writer.supplied phrase = [] ∧ phrase.text = "" ∧ ∀ modifier ∈ phrase.modifiers,
        (writer.shapeOf modifier).isListed = false ∧ writer.spelled modifier = [] := by
  have silent : writer.inflected phrase = [] ↔ phrase.text = "" := by simp [inflected]
  rw [spelled, spell_words_eq]
  simp only [List.append_eq_nil_iff, Listing.join_eq_nil_iff, List.forall_mem_map, spell_listable,
    spell_words_eq_spelled, silent]
  constructor
  · rintro ⟨⟨⟨articleless, before⟩, textless⟩, behind⟩
    refine ⟨articleless, textless, ?_⟩
    intro modifier attached
    exact (writer.mem_modifiers_iff.mp attached).elim (before modifier) (behind modifier)
  · rintro ⟨articleless, textless, modifiers⟩
    refine ⟨⟨⟨articleless, ?_⟩, textless⟩, ?_⟩
    · exact fun modifier member => modifiers modifier (writer.mem_modifiers_iff.mpr (.inl member))
    · exact fun modifier member => modifiers modifier (writer.mem_modifiers_iff.mpr (.inr member))

theorem ListsWords.of_modifier {modifier : Phrase} (lists : writer.ListsWords phrase)
    (attached : modifier ∈ phrase.modifiers) : writer.ListsWords modifier := by
  intro node member
  exact lists node (Phrase.mem_nodes_of_modifier attached member)

theorem neat_spelled (neat : writer.AddsNeatly) {tree : Phrase}
    (texts : ∀ node ∈ tree.nodes, WellSpaced node.text) (lists : writer.ListsWords tree) :
    ∀ word ∈ writer.spelled tree, Neat word := by
  induction tree using Phrase.induction with
  | step phrase induction =>
      have modifiers : ∀ modifier ∈ phrase.modifiers, ∀ word ∈ writer.spelled modifier,
          Neat word := by
        intro modifier attached
        refine induction modifier attached ?_ (lists.of_modifier attached)
        intro node member
        exact texts node (Phrase.mem_nodes_of_modifier attached member)
      have joined : ∀ side : List Phrase, (∀ modifier ∈ side, modifier ∈ phrase.modifiers) →
          ∀ word ∈ Listing.join (side.map (writer.spell (some phrase.wordClass))), Neat word := by
        intro side attached
        apply Listing.neat_join
        · simp only [List.forall_mem_map, spell_words_eq_spelled]
          exact fun modifier member => modifiers modifier (attached modifier member)
        · simp only [List.forall_mem_map, spell_words_eq_spelled, spell_listable]
          exact fun modifier member =>
            lists phrase phrase.self_mem_nodes modifier (attached modifier member)
      have own : ∀ word ∈ writer.own phrase, Neat word :=
        neat_own neat (texts phrase phrase.self_mem_nodes)
      intro word member
      rw [spelled, spell_words_eq] at member
      simp only [List.mem_append] at member
      rcases member with ((isSupplied | isBefore) | isInflected) | isBehind
      · exact own word (List.mem_append_left _ isSupplied)
      · exact joined _ (fun _ member => writer.mem_modifiers_iff.mpr (.inl member)) word isBefore
      · exact own word (List.mem_append_right _ isInflected)
      · exact joined _ (fun _ member => writer.mem_modifiers_iff.mpr (.inr member)) word isBehind

theorem wellSpaced_textOf (neat : writer.AddsNeatly) {tree : Phrase}
    (spelledNeat : ∀ word ∈ writer.spelled tree, Neat word) :
    WellSpaced (writer.textOf tree) := by
  have words : ∀ word ∈ writer.words tree, Neat word := by
    intro word member
    rcases Contraction.mem_contract member with kept | ⟨rule, inTable, rfl⟩
    · exact spelledNeat word kept
    · exact neat.contraction rule inTable
  rw [textOf, Listing.spaced]
  by_cases silent : writer.words tree = []
  · rw [silent, String.intercalate_nil]
    exact wellSpaced_empty
  · exact (Neat.intercalate (by decide) silent words).toWellSpaced

end

/-- How a clause is spaced whose words can be told apart: its text, the words of every phrase and
the items that the separators of every list stand between.  The text alone would not do, since an
empty item in front of others leaves a comma and no space out of place. -/
structure SpacedCleanly (writer : Writer Words) (tree : Phrase) : Prop where
  text : ∀ kind, WellSpaced (writer.write kind tree).text
  words : ∀ node ∈ tree.nodes, ∀ word ∈ writer.spelled node, Neat word
  items : ∀ node ∈ tree.nodes, ∀ group ∈ writer.lists node, ∀ sibling ∈ group,
    Neat (Listing.item sibling)

section

variable {writer : Writer Words} {tree : Phrase}

theorem ListsWords.spacedCleanly (lists : writer.ListsWords tree) (neat : writer.AddsNeatly)
    (texts : ∀ node ∈ tree.nodes, WellSpaced node.text) : writer.SpacedCleanly tree := by
  have words : ∀ node ∈ tree.nodes, ∀ word ∈ writer.spelled node, Neat word := by
    intro node member
    have below := (Phrase.nodes_infix member).subset
    exact neat_spelled neat (fun other under => texts other (below under))
      (fun other under => lists other (below under))
  refine ⟨?_, words, ?_⟩
  · intro kind
    exact wellSpaced_textOf neat (words tree tree.self_mem_nodes)
  · intro node member group isList sibling inGroup
    obtain ⟨modifier, attached, rfl⟩ :=
      exists_modifier_of_mem_groups (List.mem_of_mem_filter isList) inGroup
    have listed := listable_of_mem_lists isList inGroup
    rw [spell_listable] at listed
    have inTree : modifier ∈ tree.nodes := (Phrase.nodes_infix member).subset
      (Phrase.mem_nodes_of_modifier attached modifier.self_mem_nodes)
    apply Listing.neat_item
    · rw [spell_words_eq_spelled]
      exact words modifier inTree
    · rw [spell_words_eq_spelled]
      exact lists node member modifier attached listed

/-- An empty item is seen either in a list or, where it stands alone, among the words. -/
theorem SpacedCleanly.listsWords (clean : writer.SpacedCleanly tree) : writer.ListsWords tree := by
  intro node member modifier attached listed silent
  have listable : (writer.spell (some node.wordClass) modifier).listable = true := by
    rw [spell_listable, listed]
  have empty : Listing.item (writer.spell (some node.wordClass) modifier) = "" := by
    rw [Listing.item, spell_words_eq_spelled, silent]
    rfl
  obtain ⟨group, isGroup, inGroup⟩ : ∃ group ∈ writer.groups node,
      writer.spell (some node.wordClass) modifier ∈ group := exists_group_of_mem_modifiers attached
  by_cases several : 2 ≤ group.length
  · have isList : group ∈ writer.lists node := List.mem_filter.mpr ⟨isGroup, by simpa using several⟩
    exact (clean.items node member group isList _ inGroup).inhabited empty
  · obtain rfl := Listing.eq_singleton inGroup (Nat.lt_of_not_le several)
    have written : "" ∈ writer.spelled node := by
      refine mem_spelled_of_written isGroup ?_
      rw [Listing.written_singleton listable, empty]
      exact List.mem_singleton_self ""
    exact (clean.words node member "" written).inhabited rfl

end

/-- How the words of a tree come to be side by side, which phrases add none, and what it takes for
the spaces between them to be clean. -/
structure SpacesWords (writer : Writer Words) (tree : Phrase) : Prop where
  text : ∀ kind, (writer.write kind tree).text =
    Listing.spaced (writer.language.contract (writer.spelled tree))
  spelled : ∀ phrase,
    writer.spelled phrase =
      writer.supplied phrase
        ++ (writer.grouped phrase (writer.before phrase)).flatMap Listing.written
        ++ writer.inflected phrase
        ++ (writer.grouped phrase (writer.behind phrase)).flatMap Listing.written
  silent_iff : ∀ phrase, writer.spelled phrase = [] ↔
    writer.supplied phrase = [] ∧ phrase.text = "" ∧ ∀ modifier ∈ phrase.modifiers,
      (writer.shapeOf modifier).isListed = false ∧ writer.spelled modifier = []
  clean_iff : writer.SpacedCleanly tree ↔ writer.ListsWords tree

/-- Where all that words are made of is neat, a clause is spaced cleanly just if no phrase that is
listed goes without words. -/
theorem clause_spaced {writer : Writer Words} {tree : Phrase} (neat : writer.AddsNeatly)
    (texts : ∀ node ∈ tree.nodes, WellSpaced node.text) : writer.SpacesWords tree where
  text _ := rfl
  spelled := spelled_eq
  silent_iff _ := spelled_eq_nil_iff
  clean_iff := ⟨SpacedCleanly.listsWords, fun lists => lists.spacedCleanly neat texts⟩

/-- A writer that lists adjectives, gives nouns an article and contracts *are not*. -/
def enumerating : Writer := .of
  { name := "english"
    rules := [
      { wordClass := some .adjective, listable := some true },
      { wordClass := some .noun, article := some true, afterWord := some "s" }]
    contractions := [⟨"are", "not", "aren't"⟩] }
  (Lexicon.ofSenses
    [{ name := "those", wordClass := .article, semantics := .singleton "definite" }] 0)

theorem enumerating_addsNeatly : enumerating.AddsNeatly where
  beforeWord := by decide
  afterWord := by decide
  contraction := by decide
  article _ _ := Lexicon.neat_of_choose_article (by decide)

/-- Lanterns with their adjectives, which are not lit.  The phrase below *not* is empty. -/
def lanternsWith (adjectives : List String) : Phrase where
  role := .subject
  wordClass := .noun
  text := "lantern"
  context := { determinant := true }
  modifiers :=
    adjectives.map (fun text => { role := .descriptive, wordClass := .adjective, text }) ++ [
      { role := .verb, wordClass := .verb, text := "are"
        modifiers := [
          { role := .descriptive, wordClass := .adverb, text := "not"
            modifiers := [{ role := .descriptive, wordClass := .adverb, text := "" }] }] }]

theorem lanterns_spaced :
    enumerating.AddsNeatly ∧
      (∀ node ∈ (lanternsWith ["dim", "old", "red"]).nodes, WellSpaced node.text) ∧
      enumerating.SpacedCleanly (lanternsWith ["dim", "old", "red"]) ∧
      (enumerating.write .statement (lanternsWith ["dim", "old", "red"])).text =
        "those dim, old and red lanterns aren't" := by
  have texts : ∀ node ∈ (lanternsWith ["dim", "old", "red"]).nodes, WellSpaced node.text := by
    decide +kernel
  have lists : enumerating.ListsWords (lanternsWith ["dim", "old", "red"]) := by
    unfold ListsWords
    decide +kernel
  have spaced := clause_spaced enumerating_addsNeatly texts
  refine ⟨enumerating_addsNeatly, texts, spaced.clean_iff.mpr lists, ?_⟩
  have article : enumerating.supplied (lanternsWith ["dim", "old", "red"]) = ["those"] := by
    decide +kernel
  rw [spaced.text, spaced.spelled, article, before, behind,
    placed_of_pairwise _ (by decide +kernel), placed_of_pairwise _ (by decide +kernel)]
  decide +kernel

/-- An adjective without text leaves two spaces where it would have stood. -/
theorem silentAdjective_spaces_twice :
    ¬∀ (writer : Writer) (tree : Phrase), writer.AddsNeatly →
      (∀ node ∈ tree.nodes, WellSpaced node.text) →
      ∀ kind, WellSpaced (writer.write kind tree).text := by
  intro spaced
  have texts : ∀ node ∈ (lanternsWith [""]).nodes, WellSpaced node.text := by decide +kernel
  have written : (enumerating.write .statement (lanternsWith [""])).text =
      "those  lanterns aren't" := by
    decide +kernel
  have clean := spaced enumerating (lanternsWith [""]) enumerating_addsNeatly texts .statement
  rw [written] at clean
  exact absurd clean (by decide)

end Writer

end SensoryProse
