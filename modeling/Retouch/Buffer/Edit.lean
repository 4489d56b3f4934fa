import Retouch.Selection
import Retouch.Text.Lines

/-!
# Edits and their refusals

An edit replaces a range of a buffer by a text.  Edits of one batch all speak of
the buffer before any of them is made.  A batch is refused when an end of a range
is not a place of the buffer, or when two ranges overlap.
-/

set_option autoImplicit false

namespace Retouch

/-- A text to put in place of a range. -/
structure Edit where
  code : Text
  selection : Selection
deriving DecidableEq

namespace Edit

def insertAt (position : Position) (code : Text) : Edit := ⟨code, .cursorAt position⟩

def delete (selection : Selection) : Edit := ⟨[], selection⟩

/-- Document order: the earlier start first, on one start the earlier stop. -/
def comesBefore (first second : Edit) : Bool :=
  first.selection.start < second.selection.start ||
    (first.selection.start == second.selection.start &&
      first.selection.stop ≤ second.selection.stop)

end Edit

/-- Why a buffer refuses to be read or edited. -/
inductive BufferError where
  | outOfBounds (position : Position)
  | overlap (first second : Selection)
deriving DecidableEq

namespace BufferError

def message : BufferError → String
  | outOfBounds position => "Position " ++ position.text ++ " is outside the buffer"
  | overlap first second => "Modifications overlap: " ++ first.text ++ " and " ++ second.text

end BufferError
end Retouch
