import Retouch.Buffer.Edit

/-!
# The grid of a buffer

A buffer keeps its text as a grid of rows of characters.  A batch of edits is
committed from the last to the first, so that an edit never moves a place that an
edit still to come speaks of.  While the batch is under way a replacement of
several rows keeps the first of them and marks the others as absorbed, so that no
row changes its number, and a row may hold newlines.  At the end the grid is laid
out afresh from its text.

Either the whole batch is committed or the buffer stays as it is.
-/

set_option autoImplicit false

namespace Retouch

/-- A row of a grid: its characters, or nothing when a row above took it in. -/
inductive Row where
  | characters (characters : Text)
  | absorbed
deriving DecidableEq

/-- The characters of a row that still stands. -/
def Row.text? : Row → Option Text
  | .characters text => some text
  | .absorbed => none

/-- The rows of a buffer, from the top. -/
structure Grid where
  rows : List Row
deriving DecidableEq

namespace Grid

def ofText (text : Text) : Grid := ⟨(Text.lines text).map .characters⟩

/-- The rows that stand. -/
def lines (grid : Grid) : List Text := grid.rows.filterMap Row.text?

def text (grid : Grid) : Text := Text.unlines grid.lines

@[simp] theorem lines_ofText (text : Text) : (ofText text).lines = Text.lines text := by
  simp only [ofText, lines, List.filterMap_map]
  exact List.filterMap_some

@[simp] theorem text_ofText (text : Text) : (ofText text).text = text := by
  simp [Grid.text]

/-! ## Places of a grid -/

def lineCount (grid : Grid) : Nat := grid.rows.length

/-- The characters of a line. -/
def line? (grid : Grid) (line : UInt32) : Option Text :=
  grid.rows[line.toNat]? >>= Row.text?

def lineLength? (grid : Grid) (line : UInt32) : Option Nat :=
  (grid.line? line).map List.length

/-- The position after the last character. -/
def stop (grid : Grid) : Position :=
  let last := UInt32.ofNat (grid.lineCount - 1)
  ⟨last, UInt32.ofNat ((grid.lineLength? last).getD 0)⟩

/-- The last place of the grid that is not after a position. -/
def clamp (grid : Grid) (position : Position) : Position :=
  if grid.stop < position then grid.stop
  else
    let length := UInt32.ofNat ((grid.lineLength? position.line).getD 0)
    position.atCharacter (min position.character length)

/-- The whole buffer. -/
def fullSelection (grid : Grid) : Selection := .between .zero grid.stop

/-- The line on which a position is a place of the grid. -/
def lineAt (grid : Grid) (position : Position) : Except BufferError Text :=
  match grid.line? position.line with
  | some characters =>
    if position.character.toNat ≤ characters.length then .ok characters
    else .error (.outOfBounds position)
  | none => .error (.outOfBounds position)

/-! ## Reading -/

/-- The text between the ends of a selection. -/
def read (grid : Grid) (selection : Selection) : Except BufferError Text := do
  let start := selection.start
  let stop := selection.stop
  let first ← grid.lineAt start
  let last ← grid.lineAt stop
  if selection.isOneLine then
    return (first.take stop.character.toNat).drop start.character.toNat
  let between := List.range' (start.line.toNat + 1) (stop.line.toNat - start.line.toNat - 1)
  let middle ← between.mapM fun line => grid.lineAt ⟨UInt32.ofNat line, 0⟩
  return Text.unlines
    (first.drop start.character.toNat :: middle ++ [last.take stop.character.toNat])

/-! ## Editing -/

/-- Puts new characters on a line and marks the lines below it, up to another, as
absorbed. -/
def replaceRows (grid : Grid) (first last : UInt32) (characters : Text) : Grid :=
  ⟨grid.rows.mapIdx fun index row =>
    if index = first.toNat then .characters characters
    else if first.toNat < index ∧ index ≤ last.toNat then .absorbed
    else row⟩

/-- Makes one edit in place, without laying the rows out afresh. -/
def splice (grid : Grid) (edit : Edit) : Except BufferError Grid := do
  let start := edit.selection.start
  let stop := edit.selection.stop
  let last ← grid.lineAt stop
  let first ← grid.lineAt start
  return grid.replaceRows start.line stop.line
    (first.take start.character.toNat ++ edit.code ++ last.drop stop.character.toNat)

/-- Whether both ends of an edit are places of the grid. -/
def checkEnds (grid : Grid) (edit : Edit) : Except BufferError Unit := do
  discard <| grid.lineAt edit.selection.start
  discard <| grid.lineAt edit.selection.stop

/-- The first two neighbours of a list in document order of which the earlier
reaches past the start of the later. -/
def firstOverlap? : List Edit → Option (Selection × Selection)
  | first :: second :: rest =>
    if second.selection.start < first.selection.stop then
      some (first.selection, second.selection)
    else firstOverlap? (second :: rest)
  | _ => none

/-- Makes edits in place, one after another, up to the first that is refused.  Tells
whether all were made, with the grid as it then is. -/
def spliceAll (grid : Grid) : List Edit → Except BufferError Unit × Grid
  | [] => (.ok (), grid)
  | edit :: rest =>
    match grid.splice edit with
    | .error refused => (.error refused, grid)
    | .ok edited => edited.spliceAll rest

/-- Commits a batch of edits in place, all given in the places of this grid, in any
order.  Insertions at one place keep the order in which they are given.  Tells
whether the batch was accepted, with the grid as it then is. -/
def apply (grid : Grid) (edits : List Edit) : Except BufferError Unit × Grid :=
  match edits.forM grid.checkEnds with
  | .error refused => (.error refused, grid)
  | .ok () =>
    let ordered := edits.mergeSort Edit.comesBefore
    match firstOverlap? ordered with
    | some (first, second) => (.error (.overlap first second), grid)
    | none =>
      match grid.spliceAll ordered.reverse with
      | (.error refused, edited) => (.error refused, edited)
      | (.ok (), edited) => (.ok (), ofText edited.text)

end Grid
end Retouch
