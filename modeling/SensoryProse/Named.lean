/-!
# Named values

The values of a small closed type are written by name in language packs and word lists.  Reading a
name looks through the values in their listed order.
-/

namespace SensoryProse

class Named (α : Type) where
  all : List α
  name : α → String

namespace Named

def ofName? {α : Type} [Named α] (text : String) : Option α :=
  (all : List α).find? fun value => name value == text

end Named

end SensoryProse
