import SensoryProse.Perception.Event
import SensoryProse.Phrase.Attach

/-!
# Glimpses

A subject that cannot be made out loses its description and is written as a glimpse: a short verb
phrase such as *see shadows* or *hear loud sounds*, which depends on the channel and on whether the
event is too faint or too intense.
-/

namespace SensoryProse

structure Glimpse where
  verb : String
  noun : String
  nounElegance : Int := 0
  adjective : Option String := none
  adjectiveElegance : Int := 0
  /-- The adjective qualifies the verb instead of the noun. -/
  adjectiveOnVerb : Bool := false
  deriving DecidableEq, Repr

namespace Glimpse

/-- The elegance of the coarser phrasings. -/
def coarse : Int := -5

def of (channel : Channel) (tooIntense : Bool) : Glimpse :=
  match channel, tooIntense with
  | .audible, false => { verb := "hear", noun := "sounds", adjective := "soft" }
  | .audible, true => { verb := "hear", noun := "sounds", adjective := "loud" }
  | .olfactory, false => { verb := "smell", noun := "something", adjective := "subtle" }
  | .olfactory, true => { verb := "smell", noun := "something", adjective := "pungent" }
  | .psychic, false => { verb := "sense", noun := "presence", adjective := "vague" }
  | .psychic, true => { verb := "sense", noun := "presence", adjective := "disturbing" }
  | .tactile, false =>
      { verb := "brushes", noun := "skin", adjective := "lightly", adjectiveOnVerb := true }
  | .tactile, true => { verb := "rubs", noun := "you", nounElegance := coarse }
  | .taste, false => { verb := "taste", noun := "something", adjective := "subtle" }
  | .taste, true =>
      { verb := "taste", noun := "something", adjective := "offensive",
        adjectiveElegance := coarse }
  | .visible, false => { verb := "see", noun := "shadows" }
  | .visible, true => { verb := "see", noun := "lights", adjective := "blinding" }

end Glimpse

namespace Context

/-- What of a context outlasts obscuring: language, observer, pronouns and tone. -/
def blurred (context : Context) : Context where
  language := context.language
  observer := context.observer
  pronouns := context.pronouns
  elegance := context.elegance
  severity := context.severity
  quality := context.quality

def moreElegant (context : Context) (amount : Int) : Context :=
  { context with elegance := context.elegance + amount }

end Context

namespace Phrase

/-- A glimpse in place of `subject`, of which only the obscured context is left. -/
def glimpsed (subject : Phrase) (channel : Channel) (tooIntense : Bool) : Phrase :=
  let glimpse := Glimpse.of channel tooIntense
  let context := subject.context.blurred
  let verb : Phrase := { role := .verb, wordClass := .verb, text := glimpse.verb, context }
  let noun : Phrase :=
    { role := .directObject, wordClass := .noun, text := glimpse.noun
      context := context.moreElegant glimpse.nounElegance }
  match glimpse.adjective with
  | none => verb.attach noun
  | some word =>
      let adjective : Phrase :=
        { role := .descriptive, wordClass := .adjective, text := word
          context := context.moreElegant glimpse.adjectiveElegance }
      if glimpse.adjectiveOnVerb then (verb.attach noun).attach adjective
      else verb.attach (noun.attach adjective)

end Phrase

end SensoryProse
