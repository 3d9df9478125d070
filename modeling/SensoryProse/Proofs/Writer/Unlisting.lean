import Mathlib.Algebra.BigOperators.Group.List.Basic
import Mathlib.Algebra.GroupWithZero.Nat
import Mathlib.Algebra.Order.BigOperators.Group.List
import Mathlib.Algebra.Order.Group.Nat
import SensoryProse.Proofs.Prose.Gluing
import SensoryProse.Proofs.Writer.Spacing

/-!
# Phrases that are listed alone

A phrase that no neighbour is listed with makes a list of one item, and that is written as a single
word.  In a language that lists nothing the same phrase would be written word by word.  The two come
to the same text if every phrase that is listed alone is a single word, or if the contractions have
nothing to do with its words.  For any phrase of several words a contraction can be given that takes
place in one of the texts and not in the other.
-/

namespace SensoryProse

namespace Language

/-- The language without lists. -/
def unlisting (language : Language) : Language :=
  { language with rules := language.rules.map fun rule => { rule with listable := none } }

/-- The language with other contractions. -/
def contracting (language : Language) (contractions : List Contraction) : Language :=
  { language with contractions }

theorem foldl_fill_unlisting (rules : List Rule) (shape : Shape) :
    (rules.map fun rule => { rule with listable := none }).foldl .fill
        { shape with listable := none } =
      { rules.foldl .fill shape with listable := none } := by
  induction rules generalizing shape with
  | nil => rfl
  | cons rule rules induction => exact induction (shape.fill rule)

/-- Whether siblings are listed is all that a shape loses. -/
theorem shapeOf_unlisting (language : Language) (phrase : Phrase) (sense : Option Sense) :
    language.unlisting.shapeOf phrase sense =
      { language.shapeOf phrase sense with listable := none } := by
  have sameRules : language.unlisting.applicableRules phrase sense =
      (language.applicableRules phrase sense).map fun rule => { rule with listable := none } := by
    rw [applicableRules_eq_mergeSort, applicableRules_eq_mergeSort, unlisting, List.filter_map]
    symm
    exact List.map_mergeSort fun _ _ _ _ => rfl
  rw [shapeOf, sameRules, foldl_fill_unlisting _ {}]
  rfl

end Language

namespace Listing

/-- Siblings of which no two neighbours are listed together are written one by one. -/
theorem join_of_apart {siblings : List Sibling}
    (apart : siblings.IsChain fun left right => listedTogether left right = false) :
    join siblings = siblings.flatMap fun sibling =>
      if sibling.listable then [item sibling] else sibling.words := by
  have alone : groups siblings = siblings.map fun sibling => [sibling] := by
    induction siblings with
    | nil => rfl
    | cons sibling siblings induction =>
        have split : ∀ last ∈ [sibling].getLast?, ∀ next ∈ siblings.head?,
            listedTogether last next = false := by
          simpa using (List.isChain_cons.mp apart).1
        exact (List.splitBy_append split).trans
          (congrArg ([sibling] :: ·) (induction apart.of_cons))
  rw [join_eq, alone, List.flatMap_map]
  apply List.flatMap_congr
  intro sibling _
  cases listable : sibling.listable with
  | true => simp [written_singleton listable]
  | false => simp [written, listable]

end Listing

namespace Phrase

/-- A count of modifiers, summed over the tree. -/
def tally (count : Phrase → Nat) (tree : Phrase) : Nat :=
  ((tree.nodes.flatMap modifiers).map count).sum

theorem tally_eq (count : Phrase → Nat) (tree : Phrase) :
    tree.tally count =
      (tree.modifiers.map fun modifier => count modifier + modifier.tally count).sum := by
  rw [tally, nodes_eq, List.flatMap_cons, List.flatMap_assoc, List.map_append, List.sum_append,
    List.map_flatMap, List.flatMap_def, List.sum_flatten, List.map_map, List.sum_map_add]
  rfl

theorem tally_eq_zero_iff {count : Phrase → Nat} {tree : Phrase} :
    tree.tally count = 0 ↔
      ∀ node ∈ tree.nodes, ∀ modifier ∈ node.modifiers, count modifier = 0 := by
  simp only [tally, List.sum_eq_zero_iff, List.forall_mem_map, List.mem_flatMap]
  exact ⟨fun zero node member modifier attached => zero modifier ⟨node, member, attached⟩,
    fun zero modifier ⟨node, member, attached⟩ => zero node member modifier attached⟩

end Phrase

namespace Writer

variable {Words : Type}

/-- The writer without lists. -/
def unlisting (writer : Writer Words) : Writer Words :=
  { writer with language := writer.language.unlisting }

theorem of_unlisting (language : Language) (lexicon : Words) :
    Writer.of language.unlisting lexicon = (Writer.of language lexicon).unlisting := by
  have sameBound : (fun rule : Rule => ({ rule with listable := none } : Rule).isBound) =
      fun rule => rule.isBound := rfl
  simp [Writer.of, unlisting, Language.unlisting, Function.comp_def, sameBound]

variable [Vocabulary Words]

/-- No two neighbours on one side of a phrase of the tree are listed together. -/
def ListsApart (writer : Writer Words) (tree : Phrase) : Prop :=
  ∀ node ∈ tree.nodes, ∀ side ∈ writer.sides node, side.IsChain fun left right =>
    ¬((writer.shapeOf left).isListed = true ∧ (writer.shapeOf right).isListed = true ∧
      left.wordClass = right.wordClass)

/-- What a modifier adds to the words of its head where it is not listed with others. -/
def part (writer : Writer Words) (modifier : Phrase) : List String :=
  if (writer.shapeOf modifier).isListed then [Listing.spaced (writer.spelled modifier)]
  else writer.spelled modifier

section

variable {writer : Writer Words} {tree : Phrase}

theorem ListsApart.of_modifier {modifier : Phrase} (apart : writer.ListsApart tree)
    (attached : modifier ∈ tree.modifiers) : writer.ListsApart modifier := by
  intro node member
  exact apart node (Phrase.mem_nodes_of_modifier attached member)

theorem ListsApart.join_side {side : List Phrase} (apart : writer.ListsApart tree)
    (isSide : side ∈ writer.sides tree) :
    Listing.join (side.map (writer.spell (some tree.wordClass))) = side.flatMap writer.part := by
  have chain := apart tree tree.self_mem_nodes side isSide
  rw [Listing.join_of_apart, List.flatMap_map]
  · apply List.flatMap_congr
    intro modifier _
    rw [part, spell_listable, Listing.item, spell_words_eq_spelled]
  · rw [List.isChain_map]
    refine chain.imp ?_
    intro left right
    simp only [Listing.listedTogether, spell_eq]
    simp

/-- A phrase is written with its modifiers one by one. -/
theorem ListsApart.spelled_eq (apart : writer.ListsApart tree) :
    writer.spelled tree =
      writer.supplied tree ++ (writer.before tree).flatMap writer.part
        ++ writer.inflected tree ++ (writer.behind tree).flatMap writer.part := by
  rw [spelled, spell_words_eq, apart.join_side (by simp [sides]), apart.join_side (by simp [sides])]

end

section

variable (writer : Writer Words) (phrase : Phrase)

theorem unlisting_shapeOf :
    writer.unlisting.shapeOf phrase = { writer.shapeOf phrase with listable := none } :=
  writer.language.shapeOf_unlisting phrase _

theorem unlisting_isListed : (writer.unlisting.shapeOf phrase).isListed = false := by
  rw [unlisting_shapeOf]
  rfl

theorem unlisting_listsApart : writer.unlisting.ListsApart phrase := by
  intro _ _ side _
  refine (List.pairwise_of_forall_mem_list ?_).isChain
  rintro left _ _ _ ⟨listed, _⟩
  rw [unlisting_isListed] at listed
  cases listed

theorem unlisting_part : writer.unlisting.part phrase = writer.unlisting.spelled phrase := by
  rw [part, unlisting_isListed]
  rfl

theorem unlisting_placed (test : Int → Bool) :
    writer.unlisting.placed test phrase = writer.placed test phrase := by
  have place : writer.unlisting.place phrase = writer.place phrase := by
    funext modifier
    rw [Writer.place, unlisting_shapeOf]
    rfl
  rw [placed, placed, place]

theorem unlisting_own : writer.unlisting.supplied phrase = writer.supplied phrase ∧
    writer.unlisting.inflected phrase = writer.inflected phrase := by
  constructor
  · rw [supplied, unlisting_shapeOf]
    rfl
  · rw [inflected, unlisting_shapeOf]
    rfl

/-- Without lists a phrase is written word by word. -/
theorem unlisting_spelled_eq :
    writer.unlisting.spelled phrase =
      writer.supplied phrase ++ (writer.before phrase).flatMap writer.unlisting.spelled
        ++ writer.inflected phrase ++ (writer.behind phrase).flatMap writer.unlisting.spelled := by
  have parts : writer.unlisting.part = writer.unlisting.spelled := by
    funext modifier
    exact writer.unlisting_part modifier
  obtain ⟨supplied, inflected⟩ := writer.unlisting_own phrase
  rw [(writer.unlisting_listsApart phrase).spelled_eq, parts, supplied, inflected, before, behind,
    unlisting_placed, unlisting_placed]
  rfl

end

section

variable {writer : Writer Words} {tree : Phrase}

/-- Listing glues the words of a phrase together, wherever it has phrases that are listed. -/
theorem ListsApart.glued (apart : writer.ListsApart tree)
    {fits : List String → List String → Prop}
    (fit : ∀ node ∈ tree.nodes, ∀ modifier ∈ node.modifiers,
      (writer.shapeOf modifier).isListed = true →
        (writer.spelled modifier).length = 1 ∨
          fits (writer.unlisting.spelled modifier) (writer.spelled modifier)) :
    Listing.Glued fits (writer.unlisting.spelled tree) (writer.spelled tree) := by
  induction tree using Phrase.induction with
  | step phrase induction =>
      have parts : ∀ modifier ∈ phrase.modifiers,
          Listing.Glued fits (writer.unlisting.spelled modifier) (writer.part modifier) := by
        intro modifier attached
        have below := induction modifier attached (apart.of_modifier attached) fun node member =>
          fit node (Phrase.mem_nodes_of_modifier attached member)
        unfold part
        split
        · rename_i listed
          rcases fit phrase phrase.self_mem_nodes modifier attached listed with single | fits
          · rwa [Listing.spaced_of_single single]
          · simpa using Listing.Glued.item fits below .nil
        · exact below
      have before : Listing.Glued fits ((writer.before phrase).flatMap writer.unlisting.spelled)
          ((writer.before phrase).flatMap writer.part) :=
        .flatMap fun modifier member => parts modifier (writer.mem_modifiers_iff.mpr (.inl member))
      have behind : Listing.Glued fits ((writer.behind phrase).flatMap writer.unlisting.spelled)
          ((writer.behind phrase).flatMap writer.part) :=
        .flatMap fun modifier member => parts modifier (writer.mem_modifiers_iff.mpr (.inr member))
      rw [unlisting_spelled_eq, apart.spelled_eq]
      exact (((Listing.Glued.refl _).append before).append (.refl _)).append behind

/-- What is counted of words is counted of the words of a phrase modifier by modifier. -/
private theorem size_around {size : List String → Nat}
    (append : ∀ front back, size (front ++ back) = size front + size back)
    (view : Phrase → List String) :
    size (writer.supplied tree ++ (writer.before tree).flatMap view ++ writer.inflected tree
        ++ (writer.behind tree).flatMap view) =
      size (writer.supplied tree) + size (writer.inflected tree)
        + (tree.modifiers.map fun modifier => size (view modifier)).sum := by
  have nothing : size [] = 0 := by
    have twice := append [] []
    rw [List.append_nil] at twice
    omega
  have flat : ∀ side : List Phrase, size (side.flatMap view) =
      (side.map fun modifier => size (view modifier)).sum := by
    intro side
    induction side with
    | nil => exact nothing
    | cons modifier side induction =>
        rw [List.flatMap_cons, append, induction, List.map_cons, List.sum_cons]
  have sides := ((writer.before_append_behind_perm tree).map
    fun modifier => size (view modifier)).sum_eq
  rw [List.map_append, List.sum_append] at sides
  rw [append, append, append, flat, flat, ← sides]
  omega

/-- Where gluing takes `excess` off the size of a modifier and adds `lack` to it, the sizes with and
without lists differ by what this comes to over the tree. -/
theorem ListsApart.size_eq (apart : writer.ListsApart tree) (size : List String → Nat)
    (append : ∀ front back, size (front ++ back) = size front + size back)
    (excess lack : Phrase → Nat)
    (parts : ∀ modifier, size (writer.part modifier) + excess modifier =
      size (writer.spelled modifier) + lack modifier) :
    size (writer.spelled tree) + tree.tally excess =
      size (writer.unlisting.spelled tree) + tree.tally lack := by
  induction tree using Phrase.induction with
  | step phrase induction =>
      have each : (phrase.modifiers.map fun modifier =>
            size (writer.part modifier) + (excess modifier + modifier.tally excess)) =
          phrase.modifiers.map fun modifier =>
            size (writer.unlisting.spelled modifier) + (lack modifier + modifier.tally lack) := by
        apply List.map_congr_left
        intro modifier attached
        have here := parts modifier
        have below := induction modifier attached (apart.of_modifier attached)
        omega
      have sums := congrArg List.sum each
      rw [apart.spelled_eq, unlisting_spelled_eq, size_around append, size_around append,
        Phrase.tally_eq, Phrase.tally_eq]
      simp only [List.sum_map_add] at sums ⊢
      omega

end

/-- Every phrase that its head lists is a single word. -/
def ListsSingleWords (writer : Writer Words) (tree : Phrase) : Prop :=
  ∀ node ∈ tree.nodes, ∀ modifier ∈ node.modifiers,
    (writer.shapeOf modifier).isListed = true → (writer.spelled modifier).length = 1

/-- Every phrase that its head lists is a single word, or else no contraction of the language has to
do with its words or with the item that they make. -/
def ListsInertWords (writer : Writer Words) (tree : Phrase) : Prop :=
  ∀ node ∈ tree.nodes, ∀ modifier ∈ node.modifiers, (writer.shapeOf modifier).isListed = true →
    (writer.spelled modifier).length = 1 ∨
      Listing.InertItem writer.language.contractions (writer.unlisting.spelled modifier)
        (writer.spelled modifier)

/-- The words that an item is short of, which are one if it has none. -/
def lacking (writer : Writer Words) (modifier : Phrase) : Nat :=
  if (writer.shapeOf modifier).isListed ∧ writer.spelled modifier = [] then 1 else 0

/-- The words of an item but one. -/
def surplus (writer : Writer Words) (modifier : Phrase) : Nat :=
  if (writer.shapeOf modifier).isListed then (writer.spelled modifier).length - 1 else 0

section

variable {writer : Writer Words} {tree : Phrase}

theorem listsWords_iff : writer.ListsWords tree ↔ tree.tally writer.lacking = 0 := by
  simp [Phrase.tally_eq_zero_iff, lacking, ListsWords]

theorem part_strung_length (modifier : Phrase) :
    (Listing.strung (writer.part modifier)).length =
      (Listing.strung (writer.spelled modifier)).length + writer.lacking modifier := by
  unfold part lacking
  split
  · rename_i listed
    rw [Listing.strung_spaced_length]
    simp [listed]
  · rename_i unlisted
    simp [unlisted]

theorem part_length (modifier : Phrase) :
    (writer.part modifier).length + writer.surplus modifier =
      (writer.spelled modifier).length + writer.lacking modifier := by
  unfold part surplus lacking
  split
  · rename_i listed
    cases writer.spelled modifier with
    | nil => simp [listed]
    | cons word words => simp [Nat.add_comm]
  · rename_i unlisted
    simp [unlisted]

/-- The words with and without lists take up the same space just if all that is listed has words. -/
theorem ListsApart.strung_length_iff (apart : writer.ListsApart tree) :
    (Listing.strung (writer.unlisting.spelled tree)).length =
        (Listing.strung (writer.spelled tree)).length ↔ writer.ListsWords tree := by
  have lengths := apart.size_eq (fun words => (Listing.strung words).length) (by simp)
    (fun _ => 0) writer.lacking fun modifier => part_strung_length modifier
  have nothing : tree.tally (fun _ => 0) = 0 := by simp [Phrase.tally_eq_zero_iff]
  rw [listsWords_iff]
  omega

theorem spelled_of_single (apart : writer.ListsApart tree) (single : writer.ListsSingleWords tree) :
    writer.spelled tree = writer.unlisting.spelled tree := by
  induction tree using Phrase.induction with
  | step phrase induction =>
      have parts : ∀ modifier ∈ phrase.modifiers,
          writer.part modifier = writer.unlisting.spelled modifier := by
        intro modifier attached
        have below := induction modifier attached (apart.of_modifier attached) fun node member =>
          single node (Phrase.mem_nodes_of_modifier attached member)
        rw [part, ← below]
        split
        · rename_i listed
          exact Listing.spaced_of_single
            (single phrase phrase.self_mem_nodes modifier attached listed)
        · rfl
      rw [apart.spelled_eq, unlisting_spelled_eq]
      congr 1
      · congr 2
        exact List.flatMap_congr fun modifier member =>
          parts modifier (writer.mem_modifiers_iff.mpr (.inl member))
      · exact List.flatMap_congr fun modifier member =>
          parts modifier (writer.mem_modifiers_iff.mpr (.inr member))

/-- The words are the same with and without lists just if all that is listed is single words. -/
theorem ListsApart.spelled_eq_iff (apart : writer.ListsApart tree) :
    writer.spelled tree = writer.unlisting.spelled tree ↔ writer.ListsSingleWords tree := by
  refine ⟨?_, spelled_of_single apart⟩
  intro same
  have lists : writer.ListsWords tree := apart.strung_length_iff.mp (by rw [same])
  have none := listsWords_iff.mp lists
  have lengths := apart.size_eq List.length (fun _ _ => List.length_append) writer.surplus
    writer.lacking part_length
  rw [same, none] at lengths
  have single : tree.tally writer.surplus = 0 := by omega
  rw [Phrase.tally_eq_zero_iff] at single
  intro node member modifier attached listed
  have few := single node member modifier attached
  have some := List.length_pos_of_ne_nil (lists node member modifier attached listed)
  simp only [surplus, listed, if_true] at few
  omega

end

section

variable (language : Language) (lexicon : Words) (tree : Phrase)

theorem contracting_spelled (contractions : List Contraction) :
    (Writer.of (language.contracting contractions) lexicon).spelled tree =
      (Writer.of language lexicon).spelled tree := by
  have agree : ∀ node ∈ tree.nodes,
      AgreeAt (Writer.of language lexicon) (Writer.of (language.contracting contractions) lexicon)
        id node :=
    fun node _ => agreeAt_id rfl rfl
  exact congrArg Sibling.words (spell_agree agree none)

theorem contracting_text (contractions : List Contraction) (kind : ClauseKind) :
    ((Writer.of (language.contracting contractions) lexicon).write kind tree).text =
      Listing.spaced
        (Contraction.contract contractions ((Writer.of language lexicon).spelled tree)) := by
  rw [← contracting_spelled language lexicon tree contractions]
  rfl

/-- A text is the same with and without lists just if its words come to the same. -/
theorem contracting_text_eq_iff (contractions : List Contraction) (kind : ClauseKind) :
    ((Writer.of (language.contracting contractions).unlisting lexicon).write kind tree).text =
        ((Writer.of (language.contracting contractions) lexicon).write kind tree).text ↔
      Listing.spaced
          (Contraction.contract contractions ((Writer.of language lexicon).spelled tree)) =
        Listing.spaced
          (Contraction.contract contractions
            ((Writer.of language.unlisting lexicon).spelled tree)) := by
  rw [contracting_text, ← contracting_text language.unlisting lexicon tree contractions kind,
    eq_comm]
  rfl

theorem unlisting_kind (kind : ClauseKind) :
    ((Writer.of language.unlisting lexicon).write kind tree).kind =
      ((Writer.of language lexicon).write kind tree).kind := by
  have kinds : ∀ phrase, ((Writer.of language.unlisting lexicon).shapeOf phrase).kind =
      ((Writer.of language lexicon).shapeOf phrase).kind := by
    intro phrase
    rw [of_unlisting, unlisting_shapeOf]
  simp only [write, askedKind_eq_findSome?, kinds]

end

/-- Nothing is written of the tree but one empty word, and without lists not even that. -/
def Blank (writer : Writer Words) (tree : Phrase) : Prop :=
  writer.unlisting.spelled tree = [] ∧ writer.spelled tree = [""]

/-- How a clause is written in which phrases are listed alone, if at all.  It is the clause without
lists if the contractions leave alone what is listed, or if they do nothing at all and nothing that
is listed goes without words.  With the contractions left open only single words will do. -/
structure WrittenAlone (language : Language) (lexicon : Words) (tree : Phrase) : Prop where
  kind : ∀ kind, ((Writer.of language.unlisting lexicon).write kind tree).kind =
    ((Writer.of language lexicon).write kind tree).kind
  glued : Listing.Glued (fun _ _ => True) ((Writer.of language.unlisting lexicon).spelled tree)
    ((Writer.of language lexicon).spelled tree)
  inert : (Writer.of language lexicon).ListsInertWords tree → ∀ kind,
    (Writer.of language.unlisting lexicon).write kind tree =
      (Writer.of language lexicon).write kind tree
  settled : (Writer.of language lexicon).ListsWords tree →
    Contraction.Settled language.contractions
      ((Writer.of language.unlisting lexicon).spelled tree) →
    Contraction.Settled language.contractions ((Writer.of language lexicon).spelled tree) →
    ∀ kind, (Writer.of language.unlisting lexicon).write kind tree =
      (Writer.of language lexicon).write kind tree
  uncontracted_iff :
    (∀ kind, ((Writer.of (language.contracting []).unlisting lexicon).write kind tree).text =
        ((Writer.of (language.contracting []) lexicon).write kind tree).text) ↔
      (Writer.of language lexicon).ListsWords tree ∨ (Writer.of language lexicon).Blank tree
  contracted_iff :
    (∀ contractions kind,
        ((Writer.of (language.contracting contractions).unlisting lexicon).write kind tree).text =
          ((Writer.of (language.contracting contractions) lexicon).write kind tree).text) ↔
      (Writer.of language lexicon).ListsSingleWords tree ∨ (Writer.of language lexicon).Blank tree

section

variable {language : Language} {lexicon : Words} {tree : Phrase}

/-- Clauses of one kind whose words come to one text are the same. -/
theorem write_eq_of_words
    (same : Listing.spaced (Contraction.contract language.contractions
        ((Writer.of language.unlisting lexicon).spelled tree)) =
      Listing.spaced (Contraction.contract language.contractions
        ((Writer.of language lexicon).spelled tree))) (kind : ClauseKind) :
    (Writer.of language.unlisting lexicon).write kind tree =
      (Writer.of language lexicon).write kind tree := by
  have sameText : ((Writer.of language.unlisting lexicon).write kind tree).text =
      ((Writer.of language lexicon).write kind tree).text := same
  have sameKind := unlisting_kind language lexicon tree kind
  cases unlisted : (Writer.of language.unlisting lexicon).write kind tree
  cases listed : (Writer.of language lexicon).write kind tree
  rw [unlisted, listed] at sameText sameKind
  dsimp only at sameText sameKind
  rw [sameText, sameKind]

theorem written_alone (apart : (Writer.of language lexicon).ListsApart tree) :
    WrittenAlone language lexicon tree := by
  have glued : Listing.Glued (fun _ _ => True) _ _ :=
    apart.glued fun _ _ _ _ _ => .inr trivial
  have listsWords := apart.strung_length_iff
  have listsSingleWords := apart.spelled_eq_iff
  rw [← of_unlisting] at glued listsWords listsSingleWords
  refine
    { kind := unlisting_kind language lexicon tree
      glued
      inert := ?inert
      settled := ?settled
      uncontracted_iff := ?uncontracted
      contracted_iff := ?contracted }
  case inert =>
    intro inert
    apply write_eq_of_words
    have inertly := apart.glued inert
    rw [← of_unlisting] at inertly
    exact Listing.spaced_eq_of_strung inertly.strung_contract_eq.2.1
  case settled =>
    intro words unlistedSettled listedSettled
    apply write_eq_of_words
    rw [Contraction.contract_eq_self_iff.mpr unlistedSettled,
      Contraction.contract_eq_self_iff.mpr listedSettled]
    exact (glued.spaced_eq_iff.mpr (.inl (listsWords.mpr words))).symm
  case uncontracted =>
    have alike := glued.spaced_eq_iff
    rw [listsWords] at alike
    simp only [contracting_text_eq_iff, Contraction.contract_of_no_rules, Blank, ← of_unlisting,
      alike]
    exact ⟨fun same => same .statement, fun same _ => same⟩
  case contracted =>
    have alike := glued.contracts_alike_iff
    rw [listsSingleWords] at alike
    simp only [contracting_text_eq_iff, Blank, ← of_unlisting, ← alike]
    exact ⟨fun same contractions => same contractions .statement,
      fun same contractions _ => same contractions⟩

end

/-- A language that lists objects and contracts *it is*. -/
def gathering : Language where
  name := "english"
  rules := [{ wordClass := some .noun, role := some .directObject, listable := some true }]
  contractions := [{ first := "it", second := "is", result := "it's" }]

/-- A dim lantern, which is shown. -/
def itIsDimLantern : Phrase where
  role := .subject
  wordClass := .pronoun
  text := "it"
  modifiers := [
    { role := .verb, wordClass := .verb, text := "is"
      modifiers := [
        { role := .directObject, wordClass := .noun, text := "lantern"
          modifiers := [{ role := .descriptive, wordClass := .adjective, text := "dim" }] }] }]

theorem dimLantern_written_alone :
    (Writer.of gathering ({} : Lexicon)).ListsApart itIsDimLantern ∧
      (Writer.of gathering ({} : Lexicon)).ListsInertWords itIsDimLantern ∧
      ((Writer.of gathering ({} : Lexicon)).write .statement itIsDimLantern).text =
        "it's dim lantern" ∧
      (Writer.of gathering.unlisting ({} : Lexicon)).write .statement itIsDimLantern =
        (Writer.of gathering ({} : Lexicon)).write .statement itIsDimLantern := by
  have apart : (Writer.of gathering ({} : Lexicon)).ListsApart itIsDimLantern := by
    unfold ListsApart
    decide +kernel
  have inert : (Writer.of gathering ({} : Lexicon)).ListsInertWords itIsDimLantern := by
    unfold ListsInertWords
    decide +kernel
  exact ⟨apart, inert, by decide +kernel, (written_alone apart).inert inert .statement⟩

/-- Someone sees that it is.  The object goes with a verb of its own. -/
def seeItIs : Phrase where
  role := .verb
  wordClass := .verb
  text := "see"
  modifiers := [
    { role := .directObject, wordClass := .noun, text := "it"
      modifiers := [{ role := .verb, wordClass := .verb, text := "is" }] }]

/-- The words of a phrase that is listed alone are kept from contracting. -/
theorem seeItIs_contracts_unlisted :
    ¬∀ (language : Language) (lexicon : Lexicon) (tree : Phrase),
      (Writer.of language lexicon).ListsApart tree →
      ∀ kind, ((Writer.of language.unlisting lexicon).write kind tree).text =
        ((Writer.of language lexicon).write kind tree).text := by
  intro alike
  have apart : (Writer.of gathering ({} : Lexicon)).ListsApart seeItIs := by
    unfold ListsApart
    decide +kernel
  have listed : ((Writer.of gathering ({} : Lexicon)).write .statement seeItIs).text =
      "see it is" := by
    decide +kernel
  have unlisted : ((Writer.of gathering.unlisting ({} : Lexicon)).write .statement seeItIs).text =
      "see it's" := by
    decide +kernel
  have same := alike gathering {} seeItIs apart .statement
  rw [listed, unlisted] at same
  exact absurd same (by decide)

end Writer

end SensoryProse
