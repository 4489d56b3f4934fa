import Retouch.Toml.Statement

/-!
# Documents of TOML

A document is read into its statements, and the statements are put together into one
table: an entry goes into the table of the last header before it.
-/

set_option autoImplicit false

namespace Retouch
namespace Toml

/-- The tables through which the last header leads, and the table read so far. -/
structure Assembly where
  header : List String
  table : Table

def Assembly.step (assembly : Assembly) : Statement → Option Assembly
  | .table path name => do
    return ⟨path ++ [name], ← assembly.table.openTable path name⟩
  | .series path name => do
    return ⟨path ++ [name], ← assembly.table.openNext path name⟩
  | .entry path name value => do
    return ⟨assembly.header, ← assembly.table.enterAt assembly.header path name value⟩

/-- A text without the mark that may stand before it to show its encoding. -/
def withoutEncodingMark (text : Text) : Text :=
  if text.head? = some '\ufeff' then text.tail else text

/-- The table that a document describes. -/
def parse? (text : Text) : Option Value := do
  let text := plainNewlines (withoutEncodingMark text)
  let all ← statements? (text.length + 1) text
  let assembly ← all.foldlM Assembly.step ⟨[], .empty⟩
  return assembly.table.toValue

end Toml
end Retouch
