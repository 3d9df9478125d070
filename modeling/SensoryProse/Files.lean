import SensoryProse.Text.Split

/-!
# Files

A view of files says what stands at a path: a file with its text, a folder with the names in it, or
nothing.  A view can be built from a listing of paths below one folder, in which a path that ends
in a slash names an empty folder.
-/

namespace SensoryProse

inductive Node where
  | file (text : String)
  | folder (names : List String)
  deriving DecidableEq, Repr

abbrev Files := String → Option Node

namespace Files

def inFolder (folder name : String) : String := folder ++ "/" ++ name

/-- Files below one folder, by the names on the way to each.  An entry without text is a folder. -/
structure Listing where
  entries : List (List String × Option String) := []

namespace Listing

def entry (path text : String) : List String × Option String :=
  let names := (Text.splitAt '/' path).filter fun name => !name.isEmpty
  if path.endsWith "/" then (names, none) else (names, some text)

def ofList (paths : List (String × String)) : Listing :=
  ⟨paths.map fun found => entry found.1 found.2⟩

/-- The name that comes right after `place` on the way to an entry. -/
def nameBelow? (place names : List String) : Option String :=
  if place.isPrefixOf names then names[place.length]? else none

/-- The names in a folder, in ascending order. -/
def namesIn (listing : Listing) (place : List String) : List String :=
  (listing.entries.filterMap fun entry => nameBelow? place entry.1).eraseDups.mergeSort

def nodeAt? (listing : Listing) (place : List String) : Option Node :=
  match listing.entries.find? (·.1 == place) with
  | some (_, some text) => some (.file text)
  | some (_, none) => some (.folder (listing.namesIn place))
  | none =>
      let names := listing.namesIn place
      if place.isEmpty || !names.isEmpty then some (.folder names) else none

/-- Follows the pieces of a path from a place.  Only a folder leads on. -/
def follow (listing : Listing) (place : List String) : List String → Option Node
  | [] => listing.nodeAt? place
  | piece :: pieces =>
      match listing.nodeAt? place with
      | some (.folder _) =>
          if piece = "" || piece = "." then listing.follow place pieces
          else if piece = ".." then
            if place.isEmpty then none else listing.follow place.dropLast pieces
          else listing.follow (place ++ [piece]) pieces
      | _ => none

def files (listing : Listing) : Files := fun path =>
  if path.isEmpty || path.startsWith "/" then none
  else listing.follow [] (Text.splitAt '/' path)

end Listing

end Files

end SensoryProse
