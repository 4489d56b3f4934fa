import Retouch.Text.Lines

/-!
# Blank characters

A character is blank when Unicode gives it the property White_Space.  The leading
blanks of a line are its indentation; for this purpose a carriage return before a
newline belongs to the end of the line.
-/

set_option autoImplicit false

namespace Retouch

/-- The ranges of blank characters, in increasing order and with both ends. -/
def blankRanges : List (Nat × Nat) :=
  [(0x9, 0xd), (0x20, 0x20), (0x85, 0x85), (0xa0, 0xa0), (0x1680, 0x1680), (0x2000, 0x200a),
    (0x2028, 0x2029), (0x202f, 0x202f), (0x205f, 0x205f), (0x3000, 0x3000)]

def isBlank (character : Char) : Bool :=
  blankRanges.any fun (first, last) => first ≤ character.toNat && character.toNat ≤ last

namespace Text

/-- A line without the carriage return at its end. -/
def withoutReturn (line : Text) : Text :=
  if line.getLast? = some '\r' then line.dropLast else line

/-- The leading blanks of a line, counted from zero. -/
def indentation (text : Text) (line : Nat) : Text :=
  let all := lines text
  match all[line]? with
  | some found =>
    (if line + 1 < all.length then withoutReturn found else found).takeWhile isBlank
  | none => []

end Text
end Retouch
