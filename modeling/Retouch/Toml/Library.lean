import Retouch.Toml.Document

/-!
# The library for documents

Values are kept in documents by a library that is given.  It writes the document of a
value and reads the value that a document describes.  There is one at hand, the plain
library.  It reads all of TOML but writes only tables of strings and arrays of strings: a
line for each entry, and in an array of more than one string a line for each of them.
-/

set_option autoImplicit false

namespace Retouch
namespace Toml

/-- A library that keeps values in documents. -/
structure Library where
  /-- The document of a value, if it can be written. -/
  write : Value → Option Text
  /-- The value that a document describes, if it is well-formed. -/
  read : Text → Option Value
  /-- What counts as a value without content. -/
  isEmpty : Value → Bool

/-! ## Writing plainly -/

/-- Writes an array of strings: on one line up to one element, else on a line each. -/
def writeArray (values : List String) : Text :=
  let written := values.map fun value => writeString value.toList
  match written with
  | [] => "[]".toList
  | [single] => '[' :: single ++ [']']
  | _ =>
    "[\n".toList ++ written.flatMap (fun value => "    ".toList ++ value ++ ",\n".toList) ++ [']']

/-- Writes a string or an array of strings. -/
def writeValue? : Value → Option Text
  | .text value => some (writeString value.toList)
  | .array values => (values.mapM Value.asText?).map writeArray
  | _ => none

/-- Writes the line of a key. -/
def writeLine (key : String) (value : Text) : Text :=
  key.toList ++ " = ".toList ++ value ++ ['\n']

/-- Whether a key needs no marks. -/
def isBareKey (key : String) : Bool := !key.toList.isEmpty && key.toList.all isBare

/-- Writes the line of an entry. -/
def writeEntry? (entry : String × Value) : Option Text :=
  if isBareKey entry.1 then (writeValue? entry.2).map (writeLine entry.1) else none

/-- Writes a table. -/
def write? : Value → Option Text
  | .table entries => (entries.mapM writeEntry?).map List.flatten
  | _ => none

/-! ## The plain library -/

/-- Empty arrays and tables are without content. -/
def isEmptyValue : Value → Bool
  | .array [] => true
  | .table [] => true
  | _ => false

def Library.plain : Library := ⟨write?, parse?, isEmptyValue⟩

end Toml
end Retouch
