import SensoryProse.Language.Rule

/-!
# Shapes

The shape of a phrase is what the rules that apply to it say together.  Taking rules one after
the other, a shape keeps the first value that it is given for each property.
-/

namespace SensoryProse

structure Shape where
  beforeWord : Option String := none
  afterWord : Option String := none
  article : Option Bool := none
  order : Option Int := none
  kind : Option ClauseKind := none
  listable : Option Bool := none
  deriving DecidableEq, Repr, Inhabited

namespace Shape

/-- Takes each property of `rule` that is still open. -/
def fill (shape : Shape) (rule : Rule) : Shape where
  beforeWord := shape.beforeWord.or rule.beforeWord
  afterWord := shape.afterWord.or rule.afterWord
  article := shape.article.or rule.article
  order := shape.order.or rule.order
  kind := shape.kind.or rule.kind
  listable := shape.listable.or rule.listable

def inflect (shape : Shape) (text : String) : String :=
  shape.beforeWord.getD "" ++ text ++ shape.afterWord.getD ""

def takesArticle (shape : Shape) : Bool := shape.article.getD false

def isListed (shape : Shape) : Bool := shape.listable.getD false

end Shape

end SensoryProse
