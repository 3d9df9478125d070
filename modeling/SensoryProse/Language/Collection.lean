import SensoryProse.Language.Basic

/-!
# Language collections

A collection holds one language for each name.  Registering a language whose name is taken merges
it into the one that is there.  A language without word rules counts as missing when a phrase asks
for it, and the base language takes its place.
-/

namespace SensoryProse

structure Languages where
  toList : List Language := []
  deriving DecidableEq, Repr, Inhabited

namespace Languages

def find? (languages : Languages) (name : String) : Option Language :=
  languages.toList.find? (·.name == name)

def addTo (language : Language) : List Language → List Language
  | [] => [language]
  | first :: others =>
      if first.name = language.name then first.append language :: others
      else first :: addTo language others

def add (languages : Languages) (language : Language) : Languages :=
  ⟨addTo language languages.toList⟩

def ofList (languages : List Language) : Languages := languages.foldl add {}

def size (languages : Languages) : Nat := languages.toList.length

/-- The names in ascending order. -/
def names (languages : Languages) : List String :=
  (languages.toList.map (·.name)).mergeSort

def select (languages : Languages) (requested : Option String) (base : String) :
    Option Language :=
  match (requested.bind languages.find?).filter (·.hasRules) with
  | some language => some language
  | none => languages.find? base

end Languages

end SensoryProse
