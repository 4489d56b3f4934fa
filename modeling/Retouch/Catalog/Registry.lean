import Retouch.Catalog.ArrowBraces
import Retouch.Catalog.Concatenation
import Retouch.Catalog.FlipIfElse
import Retouch.Catalog.NegateExpression
import Retouch.Catalog.TemplateLiteral

/-!
# The built-in refactorings

In the order in which a service registers them.
-/

set_option autoImplicit false

namespace Retouch

def builtIn : List (Refactoring Unit) :=
  [flipIfElse, addBraces, removeBraces, convertToTemplateLiteral, negateExpression,
    convertConcatenation]

end Retouch
