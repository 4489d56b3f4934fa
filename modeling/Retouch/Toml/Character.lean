import Retouch.Text.Lines

/-!
# Characters and blanks of TOML

A document is read from the left to the right: a reader takes a value off the front
of a text and gives back the rest.  Line ends are written with or without a carriage
return; since a carriage return may stand nowhere else, those before newlines are
taken out first and any other is refused like all control characters.
-/

set_option autoImplicit false

namespace Retouch
namespace Toml

/-- Takes a value off the front of a text, or refuses the text. -/
abbrev Reader (α : Type) := Text → Option (α × Text)

/-- Writes every line end as a single newline. -/
def plainNewlines : Text → Text
  | [] => []
  | first :: rest =>
    if first = '\r' && rest.head? = some '\n' then plainNewlines rest
    else first :: plainNewlines rest

/-- Control characters, with the exception of the tab. -/
def isControl (character : Char) : Bool :=
  character ≠ '\t' && (character.toNat < 0x20 || character.toNat = 0x7f)

def isSpace (character : Char) : Bool := character = ' ' || character = '\t'

/-- Leaves out spaces and tabs. -/
def skipSpace (text : Text) : Text := text.dropWhile isSpace

/-- Leaves out a comment up to the end of its line. -/
def skipComment : Text → Option Text
  | [] => some []
  | first :: rest =>
    if first = '\n' then some (first :: rest)
    else if isControl first then none
    else skipComment rest

/-- Leaves out what may stand at the end of a line, and the line end. -/
def endLine (text : Text) : Option Text :=
  match skipSpace text with
  | [] => some []
  | '\n' :: rest => some rest
  | '#' :: rest => (skipComment rest).map (List.drop 1)
  | _ => none

/-- Leaves out spaces, line ends and comments; the flag tells whether a comment is
under way. -/
def skipBlank (inComment : Bool) : Text → Option Text
  | [] => some []
  | first :: rest =>
    if first = '\n' then skipBlank false rest
    else if inComment then if isControl first then none else skipBlank true rest
    else if isSpace first then skipBlank false rest
    else if first = '#' then skipBlank true rest
    else some (first :: rest)

end Toml
end Retouch
