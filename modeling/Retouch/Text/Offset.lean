import Retouch.Position
import Retouch.Text.Lines

/-!
# Byte offsets

A parser counts bytes of the UTF-8 form of a text, a buffer counts lines and
characters.  Here is the way from the one to the other: an offset is a place of a
text only if it stands between two characters, and a point, which is a row and a
byte column, becomes a position by counting the characters of the line before it.
-/

set_option autoImplicit false

namespace Retouch
namespace Text

/-- The size of the UTF-8 form of a text. -/
def byteLength : Text → Nat
  | [] => 0
  | first :: rest => first.utf8Size + byteLength rest

/-- The text before and the text after a byte offset, when the offset stands
between two characters. -/
def splitAtByte? : Nat → Text → Option (Text × Text)
  | 0, text => some ([], text)
  | _ + 1, [] => none
  | offset + 1, first :: rest =>
    if first.utf8Size ≤ offset + 1 then
      (splitAtByte? (offset + 1 - first.utf8Size) rest).map fun (before, after) =>
        (first :: before, after)
    else none

/-- The text between two byte offsets. -/
def slice? (text : Text) (start stop : Nat) : Option Text := do
  let (before, _) ← splitAtByte? stop text
  let (_, between) ← splitAtByte? start before
  return between

/-- The characters after the last newline. -/
def lastLine (text : Text) : Text := (text.reverse.takeWhile (· ≠ '\n')).reverse

end Text

/-- A row, and a column counted in bytes. -/
structure Point where
  row : Nat
  column : Nat
deriving DecidableEq

namespace Text

/-- The point at a byte offset. -/
def pointAt (text : Text) (offset : Nat) : Point :=
  let before := ((splitAtByte? offset text).map Prod.fst).getD text
  ⟨before.count '\n', byteLength (lastLine before)⟩

/-- The position of a point that stands at a byte offset.  Where the offset and the
column do not span whole characters of the text, the column is taken as it is. -/
def positionAt (source : Text) (offset : Nat) (point : Point) : Position :=
  let character := match slice? source (offset - point.column) offset with
    | some before => before.length
    | none => point.column
  ⟨UInt32.ofNat point.row, UInt32.ofNat character⟩

end Text
end Retouch
