import SensoryProse.Proofs.Lexicon.WordClasses
import SensoryProse.Proofs.Text.LetterCase
import SensoryProse.Proofs.Writer.Agreement

/-!
# What writing takes from a lexicon

A writer looks up the sense of a phrase only for rules that are bound to a word, and whatever sense
it finds spells the phrase itself.  The one other thing it asks for is the article that it supplies.
So vocabularies that choose the same articles write every phrase alike.  Lexicons do so that hold
the same articles and have the same seed, and words of other classes may be learned without a trace
in what is written.
-/

namespace SensoryProse

/-- What a rule demands of a phrase besides its word.  A rule bound to a word leaves role and word
class out of account. -/
def Rule.besidesWord (rule : Rule) : Rule :=
  { rule with word := none, role := none, wordClass := none }

theorem Rule.applies_of_boundWord? {rule : Rule} {word : String}
    (bound : rule.boundWord? = some word) (phrase : Phrase) (sense : Option Sense) :
    rule.applies phrase sense =
      (rule.besidesWord.applies phrase none && sense.any (·.spells word)) := by
  have unbound : rule.besidesWord.boundWord? = none := rfl
  unfold applies
  rw [bound, unbound]
  simp [besidesWord, admits]

theorem Vocabulary.ownSense_any_spells_iff {phrase : Phrase} {word : String} :
    (ownSense phrase).any (·.spells word) = true ↔
      phrase.text.isEmpty = false ∧ Text.sameUpToAsciiCase phrase.text word = true := by
  unfold ownSense
  cases phrase.text.isEmpty <;> simp [Sense.spells, Sense.ofPhrase]

/-- A rule bound to a word applies to whatever is that word and fits besides.  No text is the word
if it is empty, since a rule is bound to no empty word. -/
theorem Rule.applies_ownSense_of_bound {rule : Rule} {word : String}
    (bound : rule.boundWord? = some word) (phrase : Phrase) :
    rule.applies phrase (Vocabulary.ownSense phrase) =
      (Text.sameUpToAsciiCase phrase.text word && rule.besidesWord.applies phrase none) := by
  have written : word.isEmpty = false := by
    have passed := (Option.filter_eq_some_iff.mp bound).2
    simpa using passed
  have spells : (Vocabulary.ownSense phrase).any (·.spells word) =
      Text.sameUpToAsciiCase phrase.text word := by
    rw [Bool.eq_iff_iff, Vocabulary.ownSense_any_spells_iff]
    constructor
    · exact And.right
    · intro same
      exact ⟨(Text.isEmpty_of_sameUpToAsciiCase same).trans written, same⟩
  rw [applies_of_boundWord? bound, spells, Bool.and_comm]

namespace Writer

section

variable {Words : Type} [Vocabulary Words]

theorem senseOf_of_bound {language : Language} {rule : Rule} {word : String}
    (member : rule ∈ language.rules) (bound : rule.boundWord? = some word) (lexicon : Words)
    (phrase : Phrase) :
    (Writer.of language lexicon).senseOf phrase = Vocabulary.senseOf lexicon phrase := by
  have resolves : (Writer.of language lexicon).resolves = true :=
    List.any_eq_true.mpr ⟨rule, member, by simp [Rule.isBound, bound]⟩
  rw [senseOf, resolves]
  rfl

variable [LawfulVocabulary Words]

/-- A rule bound to a word applies to the phrases of that spelling, whatever words are known. -/
theorem applies_senseOf_iff {language : Language} {rule : Rule} {word : String}
    (member : rule ∈ language.rules) (bound : rule.boundWord? = some word) (lexicon : Words)
    (phrase : Phrase) :
    rule.applies phrase ((Writer.of language lexicon).senseOf phrase) = true ↔
      phrase.text.isEmpty = false ∧ Text.sameUpToAsciiCase phrase.text word = true ∧
        rule.besidesWord.applies phrase none = true := by
  rw [senseOf_of_bound member bound, Rule.applies_senseOf, Rule.applies_of_boundWord? bound,
    Bool.and_eq_true, Vocabulary.ownSense_any_spells_iff]
  tauto

variable {Others : Type} [Vocabulary Others] [LawfulVocabulary Others] {lexicon : Words}
  {other : Others}
  (sameArticles : ∀ context,
    Vocabulary.choose lexicon context .article = Vocabulary.choose other context .article)

include sameArticles

theorem agreeAt_of_articles (language : Language) (node : Phrase) :
    AgreeAt (Writer.of language other) (Writer.of language lexicon) id node := by
  have sameShape : (Writer.of language lexicon).shapeOf node =
      (Writer.of language other).shapeOf node := by
    rw [shapeOf_eq_ownSense, shapeOf_eq_ownSense]
  have sameArticle : (Writer.of language lexicon).definiteArticle node =
      (Writer.of language other).definiteArticle node := by
    simp only [definiteArticle, Writer.of, sameArticles]
  exact agreeAt_id sameShape sameArticle

theorem write_of_articles (language : Language) (kind : ClauseKind) (phrase : Phrase) :
    (Writer.of language lexicon).write kind phrase =
      (Writer.of language other).write kind phrase := by
  have agree : ∀ node ∈ phrase.nodes,
      AgreeAt (Writer.of language other) (Writer.of language lexicon) id node :=
    fun node _ => agreeAt_of_articles sameArticles language node
  exact write_agree (by rfl) agree kind

end

/-- What it means that a language is written by the articles of vocabularies alone. -/
structure WritesByArticles (language : Language) : Prop where
  vocabularies : ∀ {Words Others : Type} [Vocabulary Words] [LawfulVocabulary Words]
    [Vocabulary Others] [LawfulVocabulary Others] (lexicon : Words) (other : Others),
    (∀ context,
      Vocabulary.choose lexicon context .article = Vocabulary.choose other context .article) →
    ∀ kind phrase,
      (Writer.of language lexicon).write kind phrase = (Writer.of language other).write kind phrase
  lexicons : ∀ {first second : Lexicon}, first.seed = second.seed →
    first.ofClass .article = second.ofClass .article → ∀ kind phrase,
      (Writer.of language first).write kind phrase = (Writer.of language second).write kind phrase
  bound : ∀ {Words : Type} [Vocabulary Words] [LawfulVocabulary Words] (lexicon : Words),
    ∀ rule ∈ language.rules, ∀ word, rule.boundWord? = some word →
    ∀ phrase, rule.applies phrase ((Writer.of language lexicon).senseOf phrase) = true ↔
      phrase.text.isEmpty = false ∧ Text.sameUpToAsciiCase phrase.text word = true ∧
        rule.besidesWord.applies phrase none = true
  inserted : ∀ (lexicon : Lexicon) (sense : Sense), sense.wordClass ≠ .article → ∀ kind phrase,
    (Writer.of language (lexicon.insert sense)).write kind phrase =
      (Writer.of language lexicon).write kind phrase
  learned : ∀ (lexicon : Lexicon) (word : Phrase), word.wordClass ≠ .article → ∀ kind phrase,
    (Writer.of language (lexicon.learn word)).write kind phrase =
      (Writer.of language lexicon).write kind phrase

/-- Vocabularies that choose the same articles write alike, and so do lexicons with the same
articles and the same seed.  A rule bound to a word goes by the spelling of the phrase, and words
that are no articles make no difference. -/
theorem write_depends_on_articles (language : Language) : WritesByArticles language where
  vocabularies _ _ sameArticles := write_of_articles sameArticles language
  lexicons sameSeed sameArticles :=
    write_of_articles (Lexicon.choose_congr sameSeed sameArticles) language
  bound lexicon _ member _ bound := applies_senseOf_iff member bound lexicon
  inserted lexicon sense different := by
    have sameSeed : (lexicon.insert sense).seed = lexicon.seed := rfl
    have sameArticles := Lexicon.insert_ofClass different lexicon
    exact write_of_articles (Lexicon.choose_congr sameSeed sameArticles) language
  learned lexicon word different := by
    have sameArticles := Lexicon.learn_ofClass different lexicon
    exact write_of_articles (Lexicon.choose_congr (lexicon.learn_seed word) sameArticles) language

/-- Moths come in swarms. -/
def swarm : Rule := { word := some "moth", afterWord := some "s" }

/-- A language in which nouns take articles. -/
def swarming : Language where
  name := "english"
  rules := [{ wordClass := some .noun, article := some true }, swarm]

def yonder : Sense where
  name := "yon"
  wordClass := .article
  semantics := .singleton "definite"

/-- A lexicon that knows nothing but one article. -/
def terse : Lexicon := .ofSenses [yonder] 7

/-- A lexicon that knows two kinds of moth besides. -/
def versed : Lexicon :=
  .ofSenses [{ name := "MOTH", wordClass := .verb }, yonder, { name := "Moth", wordClass := .noun }]
    7

def moth : Phrase where
  role := .subject
  wordClass := .noun
  text := "moth"
  context := { determinant := true }

/-- The lexicons find different senses for the moth, to which the rule applies with either, and they
write it alike.  Learning the moth changes nothing in the writing. -/
theorem moth_written_alike :
    terse.seed = versed.seed ∧ terse.ofClass .article = versed.ofClass .article ∧
      terse.senseOf moth ≠ versed.senseOf moth ∧
      (Writer.of swarming terse).write .statement moth =
        (Writer.of swarming versed).write .statement moth ∧
      swarm.applies moth ((Writer.of swarming versed).senseOf moth) = true ∧
      (terse.learn moth).senses ≠ terse.senses ∧
      (Writer.of swarming (terse.learn moth)).write .statement moth =
        (Writer.of swarming terse).write .statement moth := by
  have sameArticles : terse.ofClass .article = versed.ofClass .article := by decide
  have alike := write_depends_on_articles swarming
  refine ⟨rfl, sameArticles, by decide, ?_, ?_, by decide, ?_⟩
  · exact alike.lexicons rfl sameArticles .statement moth
  · have member : swarm ∈ swarming.rules := List.mem_cons_of_mem _ List.mem_cons_self
    exact (alike.bound versed swarm member "moth" rfl moth).mpr (by decide)
  · exact alike.learned terse moth (by decide) .statement moth

end Writer

end SensoryProse
