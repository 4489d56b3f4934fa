import Mathlib.Data.List.Basic
import Retouch.Proofs.Buffer.Batch
import Retouch.Proofs.Text.Bytes

/-!
# Grids that are laid out

A grid is laid out when it has a row, all its rows stand, and none of them holds a newline
(`IsLaidOut`).  Such a grid is that of its text (`IsLaidOut.ofText_text`) and has one row
more than its text has newlines (`IsLaidOut.lineCount_eq`).

While a batch is under way its grid is not laid out: rows are absorbed, and a row may hold
the newlines of a replacement.  What a batch leaves is laid out again, whether it was
accepted or refused, and the grids of a buffer are exactly those that are laid out
(`reachable_iff_isLaidOut`).  So **a buffer is its text**: each grid that batches lead to is
the one that its text is laid out to, and two of them are equal exactly when their texts
are (`reachable_represents`).
-/

set_option autoImplicit false

namespace Retouch
namespace Grid

open Text

/-- **The form of a buffer** between two batches. -/
structure IsLaidOut (grid : Grid) : Prop where
  nonempty : grid.rows ≠ []
  stands : .absorbed ∉ grid.rows
  whole : ∀ characters, .characters characters ∈ grid.rows → '\n' ∉ characters

theorem isLaidOut_ofText (text : Text) : (ofText text).IsLaidOut where
  nonempty := by simp [ofText, lines_ne_nil]
  stands := by simp [ofText]
  whole characters member := by
    obtain ⟨line, inside, same⟩ := List.mem_map.1 member
    cases same
    exact notMem_of_mem_lines inside

/-- Rows that all stand are the rows of their characters. -/
theorem map_characters_filterMap {rows : List Row} (stands : .absorbed ∉ rows) :
    (rows.filterMap Row.text?).map .characters = rows := by
  induction rows with
  | nil => rfl
  | cons row rest ih =>
    simp only [List.mem_cons, not_or] at stands
    cases row with
    | characters text => rw [List.filterMap_cons, Row.text?, List.map_cons, ih stands.2]
    | absorbed => exact absurd rfl stands.1

namespace IsLaidOut

variable {grid : Grid} (laidOut : grid.IsLaidOut)

include laidOut

theorem rows_eq : grid.rows = grid.lines.map .characters :=
  (map_characters_filterMap laidOut.stands).symm

/-- The lines are found again in the text that they are joined to. -/
theorem lines_text : Text.lines grid.text = grid.lines := by
  refine lines_unlines ?_ ?_
  · intro none
    have rows := laidOut.rows_eq
    rw [none] at rows
    exact laidOut.nonempty rows
  · intro line member
    refine laidOut.whole line ?_
    rw [laidOut.rows_eq]
    exact List.mem_map_of_mem member

/-- **A grid that is laid out is that of its text.** -/
theorem ofText_text : ofText grid.text = grid := by
  rw [ofText, laidOut.lines_text, ← laidOut.rows_eq]

/-- There is one row more than there are newlines. -/
theorem lineCount_eq : grid.lineCount = grid.text.count '\n' + 1 := by
  obtain ⟨above, same, newlines⟩ := exists_lines_eq_concat grid.text
  rw [lineCount, laidOut.rows_eq, List.length_map, ← laidOut.lines_text, same, newlines,
    List.length_append, List.length_singleton]

end IsLaidOut

/-- The grids of a buffer are those that are laid out. -/
theorem reachable_iff_isLaidOut {grid : Grid} : Reachable grid ↔ grid.IsLaidOut := by
  constructor
  · intro reachable
    obtain ⟨text, rfl⟩ := reachable.eq_ofText
    exact isLaidOut_ofText text
  · intro laidOut
    rw [← laidOut.ofText_text]
    exact .ofText grid.text

/-- **A buffer is its text.**  After any batches, accepted or refused, a buffer has a row, no
row of it is absorbed or holds a newline, and there is one row more than there are newlines.
So laying out the text of a buffer gives the buffer, as the text that is laid out is the
text of its grid, and buffers differ exactly when their texts do. -/
theorem reachable_represents {grid : Grid} (reachable : Reachable grid) :
    grid.IsLaidOut ∧ grid.lineCount = grid.text.count '\n' + 1 ∧ ofText grid.text = grid ∧
      (∀ text, (ofText text).text = text) ∧
      ∀ other, Reachable other → (grid = other ↔ grid.text = other.text) := by
  have laidOut := reachable_iff_isLaidOut.1 reachable
  refine ⟨laidOut, laidOut.lineCount_eq, laidOut.ofText_text, text_ofText, ?_⟩
  intro other reachable'
  refine ⟨congrArg Grid.text, fun same => ?_⟩
  rw [← laidOut.ofText_text, same, (reachable_iff_isLaidOut.1 reachable').ofText_text]

/-- A replacement that absorbs a row and puts in a newline. -/
def rejoined : Edit := ⟨"1\n".toList, .between ⟨0, 2⟩ ⟨1, 1⟩⟩

/-- A buffer after a batch that is accepted and one that is refused. -/
def afterBatches : Grid :=
  (((ofText "one\ntwo".toList).apply [rejoined]).2.apply reaching).2

theorem reachable_represents_afterBatches :
    Reachable afterBatches ∧ Reachable (ofText "on1\nwo".toList) ∧ afterBatches.IsLaidOut ∧
      afterBatches.lineCount = afterBatches.text.count '\n' + 1 ∧
      ofText afterBatches.text = afterBatches ∧ afterBatches = ofText "on1\nwo".toList := by
  have reachable : Reachable afterBatches := .apply (.apply (.ofText _) _) _
  have reachable' : Reachable (ofText "on1\nwo".toList) := .ofText _
  have text : afterBatches.text = (ofText "on1\nwo".toList).text := by
    have admits : (ofText "one\ntwo".toList).text.Admits [rejoined] := by decide
    have accepted : ((ofText "one\ntwo".toList).apply [rejoined]).2 = ofText "on1\nwo".toList := by
      rw [(Reachable.ofText _).apply_of_admits admits, List.mergeSort_singleton]
      rfl
    have overlapping : ¬ Edit.Apart reaching := by decide
    obtain ⟨error, refused⟩ := reachable'.apply_of_not_admits fun admits => overlapping admits.2
    rw [afterBatches, accepted, refused]
  obtain ⟨laidOut, counted, again, -, same⟩ := reachable_represents reachable
  exact ⟨reachable, reachable', laidOut, counted, again, (same _ reachable').2 text⟩

end Grid
end Retouch
