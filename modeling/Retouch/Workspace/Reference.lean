import Retouch.Selection
import Retouch.Text.Alphanumeric
import Retouch.Text.Lines
import Retouch.Workspace.Path

/-!
# References

The places that refer to a word are found by its text: every occurrence in a line
that is not part of a longer word, with overlapping occurrences each counted.
-/

set_option autoImplicit false

namespace Retouch

/-- A range of a file. -/
structure Reference where
  path : Path
  selection : Selection
deriving DecidableEq

/-- Whether a character can belong to a word: a letter, a number, an underscore or a
dollar sign. -/
def isWordCharacter (character : Char) : Bool :=
  Alphanumeric.contains character || character = '_' || character = '$'

namespace Reference

/-- Whether an end of a word can be beside a character, or beside the end of a line. -/
def isBoundary (beside : Option Char) : Bool := !beside.any isWordCharacter

/-- The columns of a line at which a word begins, given the character before the
line. -/
def columns (word : Text) (before : Option Char) (column : Nat) (line : Text) : List Nat :=
  let here :=
    if word.isPrefixOf line && isBoundary before && isBoundary (line.drop word.length).head?
    then [column] else []
  match line with
  | [] => here
  | first :: rest => here ++ columns word (some first) (column + 1) rest

/-- The range of a word of a given length on a line. -/
def range (line column length : Nat) : Selection :=
  .between ⟨UInt32.ofNat line, UInt32.ofNat column⟩
    ⟨UInt32.ofNat line, UInt32.ofNat (column + length)⟩

/-- The ranges of a word in lines, of which the first has a given number. -/
def rangesIn (word : Text) (number : Nat) : List Text → List Selection
  | [] => []
  | line :: rest =>
    (columns word none 0 line).map (range number · word.length) ++ rangesIn word (number + 1) rest

/-- The references to a word in the text of a file. -/
def inFile (path : Path) (text word : Text) : List Reference :=
  (rangesIn word 0 (Text.lines text)).map (⟨path, ·⟩)

end Reference
end Retouch
