import Retouch.Position

/-!
# Selections

A selection is a closed range of positions.  Its start is never after its stop,
which the type carries; a selection whose ends coincide is a cursor.  Selections
behave as closed intervals of the document order: they contain both of their ends,
and two selections that touch have their common end as intersection.
-/

set_option autoImplicit false

namespace Retouch

/-- A range of a text, from `start` to `stop`, both included. -/
structure Selection where
  start : Position
  stop : Position
  ordered : start ≤ stop
deriving DecidableEq

namespace Selection

/-- The selection between two positions, given in either order. -/
def between (first second : Position) : Selection :=
  if ordered : first ≤ second then ⟨first, second, ordered⟩
  else ⟨second, first, Position.le_of_not_le ordered⟩

/-- The empty selection at a position. -/
def cursorAt (position : Position) : Selection :=
  ⟨position, position, Position.le_refl position⟩

instance : Inhabited Selection := ⟨cursorAt .zero⟩

/-- The two ends, with a hyphen between them. -/
def text (selection : Selection) : String := selection.start.text ++ "-" ++ selection.stop.text

@[simp] theorem between_of_le {first second : Position} (ordered : first ≤ second) :
    between first second = ⟨first, second, ordered⟩ := by
  simp [between, ordered]

@[simp] theorem between_start_stop (selection : Selection) :
    between selection.start selection.stop = selection := by
  simp [between, selection.ordered]

/-! ## Extent -/

/-- A cursor. -/
def isEmpty (selection : Selection) : Bool := selection.start == selection.stop

def isOneLine (selection : Selection) : Bool := selection.start.line == selection.stop.line

def isMultiLine (selection : Selection) : Bool := !selection.isOneLine

/-- How many lines the stop is below the start. -/
def height (selection : Selection) : UInt32 := selection.stop.line - selection.start.line

/-! ## Comparison -/

def startsBefore (selection other : Selection) : Bool := selection.start < other.start

/-- Both ends belong to a selection. -/
def contains (selection : Selection) (position : Position) : Bool :=
  selection.start ≤ position && position ≤ selection.stop

/-- Whether both ends lie in the other selection. -/
def isInside (selection other : Selection) : Bool :=
  other.contains selection.start && other.contains selection.stop

/-- The positions common to two selections. -/
def intersection? (selection other : Selection) : Option Selection :=
  let start := max selection.start other.start
  let stop := min selection.stop other.stop
  if ordered : start ≤ stop then some ⟨start, stop, ordered⟩ else none

/-- Whether two selections have a position in common. -/
def intersects (selection other : Selection) : Bool := (selection.intersection? other).isSome

/-- The least selection around two selections. -/
def union (selection other : Selection) : Selection :=
  between (min selection.start other.start) (max selection.stop other.stop)

/-! ## Moving the ends -/

/-- Puts the start at a position.  If the stop is before it, the two change roles. -/
def extendStartTo (selection : Selection) (position : Position) : Selection :=
  between position selection.stop

/-- Puts the stop at a position.  If the start is after it, the two change roles. -/
def extendStopTo (selection : Selection) (position : Position) : Selection :=
  between selection.start position

def extendStartToStopOf (selection other : Selection) : Selection :=
  selection.extendStartTo other.stop

def extendStopToStartOf (selection other : Selection) : Selection :=
  selection.extendStopTo other.start

def extendToStartOfLine (selection : Selection) : Selection :=
  between selection.start.atStartOfLine selection.stop

def extendToStartOfNextLine (selection : Selection) : Selection :=
  between selection.start selection.stop.atNextLine.atStartOfLine

end Selection
end Retouch
