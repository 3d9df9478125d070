import SensoryProse.Proofs.Phrase.Chains
import SensoryProse.Proofs.Writer.Shapes

/-!
# Trees that are written alike

Writing looks at each phrase of a tree by itself: at its text, role and word class, at its shape and
at the article that is supplied to it.  Where two writers agree on all of these, phrase by phrase,
they write the two trees alike.
-/

namespace SensoryProse.Writer

variable {Words : Type} [Vocabulary Words]

/-- The article that is supplied to a phrase, if one is. -/
def supplied (writer : Writer Words) (phrase : Phrase) : List String :=
  if suppliesArticle phrase (writer.shapeOf phrase) then [writer.definiteArticle phrase] else []

theorem arrange_eq (writer : Writer Words) (phrase : Phrase) (siblings : List Sibling) :
    writer.arrange phrase siblings =
      writer.supplied phrase
        ++ Listing.join (ordered (siblings.filter fun sibling => sibling.order < 0))
        ++ (if phrase.text.isEmpty then [] else [(writer.shapeOf phrase).inflect phrase.text])
        ++ Listing.join (ordered (siblings.filter fun sibling => !(sibling.order < 0))) :=
  rfl

theorem spell_eq (writer : Writer Words) (head : Option WordClass) (phrase : Phrase) :
    writer.spell head phrase =
      { words := writer.arrange phrase (phrase.modifiers.map (writer.spell (some phrase.wordClass)))
        order := (writer.shapeOf phrase).order.getD (usualOrder phrase head)
        listable := (writer.shapeOf phrase).isListed
        wordClass := phrase.wordClass } := by
  cases phrase
  simp [spell]

theorem askedKindList_eq_foldl (writer : Writer Words) (asked : Option ClauseKind)
    (phrases : List Phrase) :
    writer.askedKindList asked phrases = phrases.foldl writer.askedKind asked := by
  induction phrases generalizing asked with
  | nil => rfl
  | cons phrase phrases induction => simp [askedKindList, induction]

theorem askedKind_eq_foldl (writer : Writer Words) (asked : Option ClauseKind) (phrase : Phrase) :
    writer.askedKind asked phrase =
      phrase.modifiers.foldl writer.askedKind (asked.or (writer.shapeOf phrase).kind) := by
  cases phrase
  simp [askedKind, askedKindList_eq_foldl]

/-- The first phrase of the tree whose shape names a kind decides, unless a kind was asked for
before. -/
theorem askedKind_eq_findSome? (writer : Writer Words) (asked : Option ClauseKind)
    (phrase : Phrase) :
    writer.askedKind asked phrase =
      asked.or (phrase.nodes.findSome? fun node => (writer.shapeOf node).kind) := by
  induction phrase using Phrase.induction generalizing asked with
  | step phrase induction =>
      have below : ∀ (modifiers : List Phrase) (asked : Option ClauseKind),
          (∀ modifier ∈ modifiers, modifier ∈ phrase.modifiers) →
          modifiers.foldl writer.askedKind asked =
            asked.or ((modifiers.flatMap Phrase.nodes).findSome? fun node =>
              (writer.shapeOf node).kind) := by
        intro modifiers
        induction modifiers with
        | nil => simp
        | cons modifier modifiers rest =>
            intro asked members
            rw [List.foldl_cons, induction modifier (members modifier List.mem_cons_self),
              rest _ fun other member => members other (List.mem_cons_of_mem modifier member),
              List.flatMap_cons, List.findSome?_append, Option.or_assoc]
      rw [askedKind_eq_foldl, below phrase.modifiers _ (fun _ member => member), Phrase.nodes_eq,
        List.findSome?_cons, Option.or_assoc]
      cases (writer.shapeOf phrase).kind <;> rfl

variable {Others : Type} [Vocabulary Others]

/-- What two writers have to agree on at one phrase. -/
structure AgreeAt (writer : Writer Words) (other : Writer Others) (change : Phrase → Phrase)
    (node : Phrase) : Prop where
  role : (change node).role = node.role
  wordClass : (change node).wordClass = node.wordClass
  text : (change node).text = node.text
  modifiers : (change node).modifiers = node.modifiers.map change
  shape : other.shapeOf (change node) = writer.shapeOf node
  supplied : other.supplied (change node) = writer.supplied node

/-- Writers agree on a phrase as it stands if they give it one shape and one article. -/
theorem agreeAt_id {writer : Writer Words} {other : Writer Others} {node : Phrase}
    (shape : other.shapeOf node = writer.shapeOf node)
    (article : other.definiteArticle node = writer.definiteArticle node) :
    AgreeAt writer other id node := by
  refine ⟨rfl, rfl, rfl, (List.map_id _).symm, shape, ?_⟩
  rw [id, supplied, supplied, shape, article]

section

variable {writer : Writer Words} {other : Writer Others} {change : Phrase → Phrase}

private theorem agree_modifier {phrase modifier : Phrase}
    (agree : ∀ node ∈ phrase.nodes, AgreeAt writer other change node)
    (attached : modifier ∈ phrase.modifiers) :
    ∀ node ∈ modifier.nodes, AgreeAt writer other change node := by
  intro node member
  exact agree node (Phrase.mem_nodes_of_modifier attached member)

theorem arrange_agree {node : Phrase} (agree : AgreeAt writer other change node)
    (siblings : List Sibling) :
    other.arrange (change node) siblings = writer.arrange node siblings := by
  rw [arrange_eq, arrange_eq, agree.supplied, agree.shape, agree.text]

theorem spell_agree {phrase : Phrase}
    (agree : ∀ node ∈ phrase.nodes, AgreeAt writer other change node)
    (head : Option WordClass) :
    other.spell head (change phrase) = writer.spell head phrase := by
  induction phrase using Phrase.induction generalizing head with
  | step phrase induction =>
      have here := agree phrase phrase.self_mem_nodes
      have below : (change phrase).modifiers.map (other.spell (some phrase.wordClass)) =
          phrase.modifiers.map (writer.spell (some phrase.wordClass)) := by
        rw [here.modifiers, List.map_map]
        apply List.map_congr_left
        intro modifier member
        exact induction modifier member (agree_modifier agree member) _
      have order : usualOrder (change phrase) head = usualOrder phrase head := by
        simp only [usualOrder, here.role, here.wordClass]
      rw [spell_eq, spell_eq, here.wordClass, below, arrange_agree here, here.shape, order]

theorem nodes_agree {phrase : Phrase}
    (agree : ∀ node ∈ phrase.nodes, AgreeAt writer other change node) :
    (change phrase).nodes = phrase.nodes.map change := by
  induction phrase using Phrase.induction with
  | step phrase induction =>
      have here := agree phrase phrase.self_mem_nodes
      rw [Phrase.nodes_eq, Phrase.nodes_eq phrase, here.modifiers, List.map_cons,
        List.flatMap_map, List.map_flatMap]
      congr 1
      apply List.flatMap_congr
      intro modifier member
      exact induction modifier member (agree_modifier agree member)

theorem askedKind_agree {phrase : Phrase}
    (agree : ∀ node ∈ phrase.nodes, AgreeAt writer other change node)
    (asked : Option ClauseKind) :
    other.askedKind asked (change phrase) = writer.askedKind asked phrase := by
  have kinds : ((change phrase).nodes.map fun node => (other.shapeOf node).kind) =
      phrase.nodes.map fun node => (writer.shapeOf node).kind := by
    rw [nodes_agree agree, List.map_map]
    apply List.map_congr_left
    intro node member
    rw [Function.comp_apply, (agree node member).shape]
  have first := congrArg (List.findSome? id) kinds
  rw [List.findSome?_map, List.findSome?_map] at first
  rw [askedKind_eq_findSome?, askedKind_eq_findSome?]
  exact congrArg asked.or first

/-- Writers with one table of contractions write alike what they agree on. -/
theorem write_agree {phrase : Phrase}
    (contractions : other.language.contractions = writer.language.contractions)
    (agree : ∀ node ∈ phrase.nodes, AgreeAt writer other change node) (kind : ClauseKind) :
    other.write kind (change phrase) = writer.write kind phrase := by
  rw [write, write, askedKind_agree agree, textOf, textOf, words, words, spell_agree agree,
    Language.contract, Language.contract, contractions]

end

end SensoryProse.Writer
