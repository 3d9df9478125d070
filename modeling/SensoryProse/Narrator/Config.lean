/-!
# Settings

What a narrator falls back on: the language of phrases that name none, the emission of every
channel but sight, and whether names are kept back.
-/

namespace SensoryProse

structure Config where
  baseLanguage : String := "english"
  baselineEmission : Float := 30
  anonymize : Bool := false
  deriving Repr, Inhabited

end SensoryProse
