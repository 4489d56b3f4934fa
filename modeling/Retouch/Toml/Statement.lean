import Retouch.Toml.Number
import Retouch.Toml.Quoted
import Retouch.Toml.Table

/-!
# Statements of TOML

A document is a list of statements: headers, which say to which table the following
lines belong, and entries, which give a key its value.  Values and keys may be nested
only to a fixed depth.
-/

set_option autoImplicit false

namespace Retouch
namespace Toml

/-- How deep values may be nested, and how many parts a key may have. -/
def greatestDepth : Nat := 79

/-! ## Keys -/

def isBare (character : Char) : Bool := character.isAlphanum || character = '_' || character = '-'

/-- Reads a part of a key. -/
def keyPart? (text : Text) : Option (String × Text) :=
  let bare := text.takeWhile isBare
  if bare.isEmpty then (readLine text).map fun (part, rest) => (String.ofList part, rest)
  else some (String.ofList bare, text.dropWhile isBare)

/-- Reads the parts of a key that are separated by dots, as many as there may be. -/
def keyParts? : Nat → Reader (List String)
  | 0, _ => none
  | parts + 1, text => do
    let (part, rest) ← keyPart? (skipSpace text)
    match skipSpace rest with
    | '.' :: rest =>
      let (others, rest) ← keyParts? parts rest
      return (part :: others, rest)
    | rest => return ([part], rest)

/-- Reads a key: the tables it leads through, and the name in the last of them. -/
def key? (text : Text) : Option ((List String × String) × Text) := do
  let (parts, rest) ← keyParts? greatestDepth text
  return ((parts.dropLast, ← parts.getLast?), rest)

/-! ## Values -/

/-- Reads the rest of an array, of not more than so many elements. -/
def elements (element : Reader Value) : Nat → Reader (List Value)
  | 0, _ => none
  | count + 1, text => do
    let text ← skipBlank false text
    match text with
    | ']' :: rest => return ([], rest)
    | _ =>
      let (first, rest) ← element text
      match ← skipBlank false rest with
      | ',' :: rest =>
        let (others, rest) ← elements element count rest
        return (first :: others, rest)
      | ']' :: rest => return ([first], rest)
      | _ => none

/-- Reads the rest of a table in braces, of not more than so many entries, behind
its first entries. -/
def members (element : Reader Value) : Nat → Table → Reader Table
  | 0, _, _ => none
  | count + 1, entries, text => do
    let ((path, name), rest) ← key? text
    let rest ← expect? '=' rest
    let (value, rest) ← element (skipSpace rest)
    let entries ← entries.enter path name value
    match skipSpace rest with
    | ',' :: rest => members element count entries rest
    | '\x7d' :: rest => return (entries, rest)
    | _ => none

/-- Reads a table in braces behind the opening one. -/
def braced (element : Reader Value) (text : Text) : Option (Value × Text) := do
  match skipSpace text with
  | '\x7d' :: rest => return (.table [], rest)
  | text =>
    let (entries, rest) ← members element text.length .empty text
    return (entries.toValue, rest)

/-- Reads a value that is not nested. -/
def scalarValue? : Reader Value
  | 't' :: 'r' :: 'u' :: 'e' :: rest => some (.boolean true, rest)
  | 'f' :: 'a' :: 'l' :: 's' :: 'e' :: rest => some (.boolean false, rest)
  | text =>
    if text.head?.any (fun first => first = quotationMark || first = apostrophe) then
      (readString text).map fun (content, rest) => (.text (String.ofList content), rest)
    else moment? text <|> number? text

/-- Reads a value that is nested to not more than a depth. -/
def value? : Nat → Reader Value
  | 0, text => scalarValue? text
  | depth + 1, text =>
    match text with
    | '[' :: rest => (elements (value? depth) text.length rest).map fun (values, rest) =>
      (.array values, rest)
    | '\x7b' :: rest => braced (value? depth) rest
    | _ => scalarValue? text

/-! ## Statements -/

inductive Statement where
  | table (path : List String) (name : String)
  | series (path : List String) (name : String)
  | entry (path : List String) (name : String) (value : Value)

/-- Reads a statement, without the end of its line. -/
def statement? : Reader Statement
  | '[' :: '[' :: rest => do
    let ((path, name), rest) ← key? rest
    let rest ← expect? ']' rest
    let rest ← expect? ']' rest
    return (.series path name, rest)
  | '[' :: rest => do
    let ((path, name), rest) ← key? rest
    let rest ← expect? ']' rest
    return (.table path name, rest)
  | text => do
    let ((path, name), rest) ← key? text
    let rest ← expect? '=' rest
    let (value, rest) ← value? greatestDepth (skipSpace rest)
    return (.entry path name value, rest)

/-- Reads not more than so many statements, up to the end of the document. -/
def statements? : Nat → Text → Option (List Statement)
  | 0, _ => none
  | count + 1, text => do
    match ← skipBlank false text with
    | [] => return []
    | text =>
      let (first, rest) ← statement? text
      return first :: (← statements? count (← endLine rest))

end Toml
end Retouch
