import SensoryProse.Named

/-!
# Roles and word classes

A phrase has a role in its clause and a word class.  Nouns, proper nouns and pronouns are nominal:
adjectives below a nominal head stand in front of it.
-/

namespace SensoryProse

inductive Role where
  | subject
  | verb
  | directObject
  | indirectObject
  | descriptive
  | conjunctiveAdverb
  | interjection
  | none
  deriving DecidableEq, Repr, Inhabited

instance : Named Role where
  all := [.subject, .verb, .directObject, .indirectObject, .descriptive, .conjunctiveAdverb,
    .interjection, .none]
  name
    | .subject => "Subject"
    | .verb => "Verb"
    | .directObject => "DirectObject"
    | .indirectObject => "IndirectObject"
    | .descriptive => "Descriptive"
    | .conjunctiveAdverb => "ConjunctiveAdverb"
    | .interjection => "Interjection"
    | .none => "None"

inductive WordClass where
  | noun
  | properNoun
  | pronoun
  | verb
  | adjective
  | adverb
  | article
  | conjunction
  | preposition
  | interjection
  | none
  deriving DecidableEq, Repr, Inhabited

instance : Named WordClass where
  all := [.noun, .properNoun, .pronoun, .verb, .adjective, .adverb, .article, .conjunction,
    .preposition, .interjection, .none]
  name
    | .noun => "Noun"
    | .properNoun => "ProperNoun"
    | .pronoun => "Pronoun"
    | .verb => "Verb"
    | .adjective => "Adjective"
    | .adverb => "Adverb"
    | .article => "Article"
    | .conjunction => "Conjunction"
    | .preposition => "Preposition"
    | .interjection => "Interjection"
    | .none => "None"

def WordClass.isNominal : WordClass → Bool
  | .noun | .properNoun | .pronoun => true
  | _ => false

end SensoryProse
