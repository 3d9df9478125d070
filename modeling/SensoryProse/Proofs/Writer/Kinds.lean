import SensoryProse.Proofs.Phrase.Preorder
import SensoryProse.Proofs.Writer.Agreement

/-!
# The kind of a clause

The first phrase of a tree whose shape names a kind decides the kind of the clause, and where no
shape does the clause keeps the kind that it was given.  The phrases come in the order of their
places, whatever the order in which they are written.
-/

namespace SensoryProse.Writer

variable {Words : Type} [Vocabulary Words]

/-- Where the kind of a written clause comes from, for a clause that was given the kind `given`. -/
inductive KindFrom (writer : Writer Words) (given : ClauseKind) (tree : Phrase) : ClauseKind → Prop
  | asked {path : List Nat} {node : Phrase} {kind : ClauseKind}
      (stands : tree.at? path = some node) (asks : (writer.shapeOf node).kind = some kind)
      (first : ∀ earlier < path, ∀ other, tree.at? earlier = some other →
        (writer.shapeOf other).kind = none) :
      KindFrom writer given tree kind
  | unasked
      (nowhere : ∀ path node, tree.at? path = some node → (writer.shapeOf node).kind = none) :
      KindFrom writer given tree given

section

variable {writer : Writer Words} {given kind : ClauseKind} {tree : Phrase}

theorem write_kind_eq :
    (writer.write given tree).kind =
      (tree.nodes.findSome? fun node => (writer.shapeOf node).kind).getD given := by
  rw [write, askedKind_eq_findSome?, Option.none_or]

theorem kindFrom_of_write (written : (writer.write given tree).kind = kind) :
    KindFrom writer given tree kind := by
  rw [write_kind_eq] at written
  cases found : tree.nodes.findSome? fun node => (writer.shapeOf node).kind with
  | none =>
      rw [found, Option.getD_none] at written
      subst written
      apply KindFrom.unasked
      intro path
      exact Option.bind_eq_none_iff.mp (Phrase.findSome?_nodes_eq_none_iff.mp found path)
  | some asked =>
      rw [found, Option.getD_some] at written
      subst written
      obtain ⟨path, shown, first⟩ := Phrase.findSome?_nodes_eq_some_iff.mp found
      obtain ⟨node, stands, asks⟩ := Option.bind_eq_some_iff.mp shown
      apply KindFrom.asked stands asks
      intro earlier before
      exact Option.bind_eq_none_iff.mp (first earlier before)

theorem KindFrom.write (comes : KindFrom writer given tree kind) :
    (writer.write given tree).kind = kind := by
  rw [write_kind_eq]
  cases comes with
  | @asked path node _ stands asks first =>
      have found : tree.nodes.findSome? (fun node => (writer.shapeOf node).kind) = some kind := by
        apply Phrase.findSome?_nodes_eq_some_iff.mpr
        refine ⟨path, Option.bind_eq_some_iff.mpr ⟨node, stands, asks⟩, ?_⟩
        intro earlier before
        exact Option.bind_eq_none_iff.mpr (first earlier before)
      rw [found, Option.getD_some]
  | unasked nowhere =>
      have found : tree.nodes.findSome? (fun node => (writer.shapeOf node).kind) = none := by
        apply Phrase.findSome?_nodes_eq_none_iff.mpr
        intro path
        exact Option.bind_eq_none_iff.mpr (nowhere path)
      rw [found, Option.getD_none]

end

/-- A clause is of the kind that the first phrase to name one asks for, and otherwise of the kind
that it was given. -/
theorem kind_from_first (language : Language) (lexicon : Words) (given kind : ClauseKind)
    (tree : Phrase) :
    ((Writer.of language lexicon).write given tree).kind = kind ↔
      KindFrom (.of language lexicon) given tree kind :=
  ⟨kindFrom_of_write, KindFrom.write⟩

/-- A word that is attached first decides, although it is written last. -/
example :
    (Writer.of
      { name := "english"
        rules := [
          { word := some "whether", kind := some .question },
          { word := some "oh", order := some (-1), kind := some .exclamation }] }
      (Lexicon.ofSenses [] 0)).write .statement
        { role := .verb, wordClass := .verb, text := "wonder"
          modifiers := [
            { role := .descriptive, wordClass := .conjunction, text := "whether" },
            { role := .interjection, wordClass := .interjection, text := "oh" }] } =
      { text := "oh wonder whether", kind := .question } := by
  decide +kernel

end SensoryProse.Writer
