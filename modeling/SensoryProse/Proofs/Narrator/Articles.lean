import SensoryProse.Proofs.Narrator.Telling

/-!
# Articles of subjects

A subject that comes with an article of its own keeps it as long as it is told as it stands.  A verb
of being takes over the article along with the description; the subject is then written as if it had
come without one, and a determinate noun is supplied with a second article.
-/

namespace SensoryProse

/-- The articles that a phrase comes with. -/
def Phrase.articles (phrase : Phrase) : List Phrase :=
  phrase.withoutSubjects.modifiers.filter (·.wordClass == .article)

theorem Phrase.mem_articles {phrase article : Phrase} :
    article ∈ phrase.articles ↔
      article ∈ phrase.withoutSubjects.modifiers ∧ article.wordClass = .article := by
  rw [articles, List.mem_filter, beq_iff_eq]

namespace Narrator

variable {Words : Type} [Vocabulary Words] {narrator : Narrator Words} {event : Event}
  {voice : Option Context} {anonymize : Bool} {language : Language} {depth : Nat} {node : Phrase}

theorem wordClass_of_mem_completed {subject modifier : Phrase} {sense : Sense}
    (chosen : narrator.existentialVerb? subject = some sense)
    (member : modifier ∈ (narrator.completed subject).modifiers) :
    modifier.wordClass = .verb := by
  rw [completed_modifiers_of_some chosen] at member
  split at member
  · cases member
  · rw [List.mem_singleton] at member
    rw [member]
    exact (congrArg Phrase.wordClass (Phrase.attachAll_bare (verbOfBeing subject sense) _) :)

theorem mem_tell_modifiers_iff {article : Phrase} (clear : event.isSaturated = false)
    (own : article ∈ node.articles) :
    article ∈ (narrator.tell event voice anonymize language depth node).subject.modifiers ↔
      narrator.givenVerb? voice anonymize language depth node = none := by
  obtain ⟨modifier, isArticle⟩ := Phrase.mem_articles.mp own
  cases given : narrator.givenVerb? voice anonymize language depth node with
  | none =>
      rw [tell_subject_of_none clear given, partedSubject_modifiers]
      exact ⟨fun _ => rfl, fun _ => modifier⟩
  | some sense =>
      obtain ⟨told, chosen⟩ := tell_subject_of_some clear given
      rw [told]
      constructor
      · intro kept
        have verb := wordClass_of_mem_completed chosen kept
        rw [isArticle] at verb
        contradiction
      · intro ungiven
        contradiction

theorem suppliesArticle_tell_iff (clear : event.isSaturated = false)
    (own : node.articles ≠ []) (shape : Shape) :
    Writer.suppliesArticle (narrator.tell event voice anonymize language depth node).subject
        shape = true ↔
      narrator.givenVerb? voice anonymize language depth node ≠ none ∧
        shape.takesArticle = true ∧
        (narrator.tell event voice anonymize language depth node).subject.context.determinant =
          true := by
  obtain ⟨article, member⟩ := List.exists_mem_of_ne_nil _ own
  cases given : narrator.givenVerb? voice anonymize language depth node with
  | none =>
      have kept := (mem_tell_modifiers_iff clear member).mpr given
      have present : (narrator.tell event voice anonymize language depth
          node).subject.modifiers.any (·.wordClass == .article) = true :=
        List.any_eq_true.mpr ⟨article, kept, by simp [(Phrase.mem_articles.mp member).2]⟩
      simp [Writer.suppliesArticle, present]
  | some sense =>
      obtain ⟨told, chosen⟩ := tell_subject_of_some clear given
      have absent : (narrator.tell event voice anonymize language depth
          node).subject.modifiers.any (·.wordClass == .article) = false := by
        rw [told, List.any_eq_false]
        intro modifier kept
        simp [wordClass_of_mem_completed chosen kept]
      simp [Writer.suppliesArticle, absent]

/-- What becomes of the articles a phrase comes with when it is told in `clause`, given a verb of
being or none. -/
structure TellsArticles (given : Option Sense) (node : Phrase) (clause : Clause) : Prop where
  kept : ∀ article ∈ node.articles, article ∈ clause.subject.modifiers ↔ given = none
  supplied : node.articles ≠ [] → ∀ shape : Shape,
    Writer.suppliesArticle clause.subject shape = true ↔
      given ≠ none ∧ shape.takesArticle = true ∧ clause.subject.context.determinant = true

/-- A subject loses the articles it comes with exactly if it is given a verb of being, and exactly
then it is open to a second article. -/
theorem clauses_tell_articles {told : List Clause} (clear : event.isSaturated = false)
    (narrated : narrator.clauses event voice anonymize = .ok told) :
    (event.phrase.text.isEmpty = true ∧ told = []) ∨
      ∃ language,
        narrator.languageFor (voice.getD event.phrase.context).language = .ok language ∧
        List.Forall₂
          (fun entry clause =>
            TellsArticles (narrator.givenVerb? voice anonymize language entry.1 entry.2) entry.2
              clause)
          (event.phrase.chainedSubjects 0) told := by
  cases named : event.phrase.text.isEmpty with
  | true =>
      left
      simp only [clauses, named, if_true, Except.ok.injEq] at narrated
      exact ⟨rfl, narrated.symm⟩
  | false =>
      right
      obtain ⟨language, found, rfl⟩ := (clauses_eq_ok_iff named).mp narrated
      refine ⟨language, found, ?_⟩
      rw [List.forall₂_map_right_iff, List.forall₂_same]
      intro entry _
      constructor
      · intro article own
        exact mem_tell_modifiers_iff clear own
      · intro own shape
        exact suppliesArticle_tell_iff clear own shape

/-- A dim lantern that comes with an article. -/
def someLantern : Event where
  phrase :=
    { role := .subject, wordClass := .noun, text := "lantern"
      modifiers :=
        [{ role := .none, wordClass := .article, text := "a" },
          { role := .descriptive, wordClass := .adjective, text := "dim" }]
      context := { determinant := true } }
  strength := 0
  channel := .visible

/-- The article stands below the verb, beside *dim*. -/
def someLanternTold : Clause :=
  let context : Context := { determinant := true, language := some plainLanguage.name }
  clause someLantern .partialClause
    { role := .subject, wordClass := .noun, text := "lantern", context
      modifiers :=
        [{ role := .verb, wordClass := .verb, text := "is", context := existentialContext context
           modifiers := someLantern.phrase.modifiers }] }

theorem someLantern_clauses : plain.clauses someLantern none false = .ok [someLanternTold] := by
  rw [clauses_eq_ok_iff rfl]
  refine ⟨plainLanguage, rfl, ?_⟩
  change _ = [plain.tell someLantern none false plainLanguage 0 _]
  simp only [tell, mainClause, plain_completed]
  rfl

theorem someLantern_tells_articles :
    someLantern.isSaturated = false ∧
      plain.clauses someLantern none false = .ok [someLanternTold] ∧
      TellsArticles (some being) someLantern.phrase someLanternTold := by
  refine ⟨rfl, someLantern_clauses, ?_⟩
  rcases clauses_tell_articles rfl someLantern_clauses with
    ⟨unnamed, _⟩ | ⟨language, found, told⟩
  · cases unnamed
  · cases found
    have given : plain.givenVerb? none false plainLanguage 0 someLantern.phrase = some being := by
      simp only [givenVerb?, plain_existentialVerb?]
      rfl
    rw [← given]
    exact (List.forall₂_cons.mp told).1

/-- The article is gone from the lantern, and a determinate noun takes another one. -/
theorem someLantern_loses_article :
    plain.clauses someLantern none false = .ok [someLanternTold] ∧
      someLantern.phrase.articles ≠ [] ∧
      (∀ article ∈ someLantern.phrase.articles,
        article ∉ someLanternTold.subject.modifiers) ∧
      Writer.suppliesArticle someLanternTold.subject { article := some true } = true := by
  refine ⟨someLantern_clauses, by decide, ?_, rfl⟩
  intro article own member
  have verb : article.wordClass = .verb := by
    rw [List.mem_singleton.mp member]
  rw [(Phrase.mem_articles.mp own).2] at verb
  contradiction

end Narrator

end SensoryProse
