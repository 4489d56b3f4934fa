import Retouch.Workspace.Path

/-!
# Languages

The languages whose trees the refactorings understand.  A language is known by
several names, among them the extensions of its files.
-/

set_option autoImplicit false

namespace Retouch

inductive Language where
  | javaScript
  | typeScript
  | tsx
deriving DecidableEq

namespace Language

/-- The name that stands for a language. -/
def id : Language → String
  | javaScript => "javascript"
  | typeScript => "typescript"
  | tsx => "typescriptreact"

/-- The language of a name or of a file extension. -/
def ofId? (name : String) : Option Language :=
  if ["javascript", "js", "javascriptreact", "jsx", "mjs", "cjs"].contains name then
    some javaScript
  else if ["typescript", "ts", "mts", "cts"].contains name then some typeScript
  else if ["typescriptreact", "tsx"].contains name then some tsx
  else none

/-- The language of a file. -/
def ofPath? (path : Path) : Option Language := path.extension? >>= ofId?

end Language
end Retouch
