import Retouch.Proofs.Buffer.Clamp
import Retouch.Workspace.Editor

/-!
# Keeping a selection in a changed text

After a change of the text both ends of the selection are clamped, and nothing puts them in
order again but the rule that a selection is ordered however its ends are given.  That rule
would exchange ends that clamping had swapped.  It never has to: clamping rounds each
position down to a place of the buffer, so it keeps their order
(`Grid.clamp_rounds_down`).
-/

set_option autoImplicit false

namespace Retouch

/-- Ends in document order are not exchanged. -/
theorem Selection.between_ends {first second : Position} (ordered : first ≤ second) :
    (between first second).start = first ∧ (between first second).stop = second := by
  rw [between_of_le ordered]
  exact ⟨rfl, rfl⟩

namespace Grid

/-- **Clamping rounds down to the places of a buffer.**  A position is brought to the last
place that is not after it, whether it lies behind the end of its line or behind the whole
text.  So places stay where they are, clamping twice is clamping once, and positions keep
their order.  The ends of a selection are never exchanged, and an editor that is given no
cursor keeps its selection from the one clamped end to the other. -/
theorem clamp_rounds_down {grid : Grid} (reachable : grid.Reachable) (fits : grid.text.Fits) :
    (∀ position, IsGreatest { place | grid.holds place = true ∧ place ≤ position }
        (grid.clamp position)) ∧
      (∀ place, grid.holds place = true → grid.clamp place = place) ∧
      (∀ position, grid.clamp (grid.clamp position) = grid.clamp position) ∧
      Monotone grid.clamp ∧
      (∀ selection : Selection,
        let clamped := Selection.between (grid.clamp selection.start) (grid.clamp selection.stop)
        clamped.start = grid.clamp selection.start ∧ clamped.stop = grid.clamp selection.stop) ∧
      ∀ editor : Editor, editor.grid = grid →
        (editor.placeCursor none).selection.start = grid.clamp editor.selection.start ∧
          (editor.placeCursor none).selection.stop = grid.clamp editor.selection.stop := by
  obtain ⟨text, rfl⟩ := reachable.eq_ofText
  rw [text_ofText] at fits
  simp only [holds_ofText_iff]
  have keepsOrder := monotone_clamp fits
  refine ⟨isGreatest_clamp fits, fun place => clamp_of_hasPlace fits, clamp_clamp fits, keepsOrder,
    fun selection => Selection.between_ends (keepsOrder selection.ordered), ?_⟩
  intro editor same
  rw [← same] at keepsOrder ⊢
  exact Selection.between_ends (keepsOrder editor.selection.ordered)

/-- A text with an empty line in it and another at its end. -/
def withEmptyLines : Text := "ab\n\ncde\n".toList

/-- A selection from behind a line to behind the text. -/
def overreaching : Selection := .between ⟨2, 4294967295⟩ ⟨7, 0⟩

/-- A position behind a line, one on an empty line, and the selection above; the end of the
text is a place already. -/
theorem clamp_rounds_down_withEmptyLines :
    (ofText withEmptyLines).Reachable ∧ (ofText withEmptyLines).text.Fits ∧
      IsGreatest { place | (ofText withEmptyLines).holds place = true ∧ place ≤ ⟨0, 9⟩ } ⟨0, 2⟩ ∧
      IsGreatest { place | (ofText withEmptyLines).holds place = true ∧ place ≤ ⟨1, 4⟩ } ⟨1, 0⟩ ∧
      (ofText withEmptyLines).clamp ⟨3, 0⟩ = ⟨3, 0⟩ ∧
      (ofText withEmptyLines).clamp ⟨2, 4294967295⟩ ≤ (ofText withEmptyLines).clamp ⟨7, 0⟩ ∧
      ((Editor.ofCode withEmptyLines overreaching).placeCursor none).selection.start = ⟨2, 3⟩ ∧
      ((Editor.ofCode withEmptyLines overreaching).placeCursor none).selection.stop = ⟨3, 0⟩ := by
  have reachable : (ofText withEmptyLines).Reachable := .ofText _
  have fits : (ofText withEmptyLines).text.Fits := by
    rw [text_ofText]
    decide
  obtain ⟨greatest, fixed, -, keepsOrder, -, placed⟩ := clamp_rounds_down reachable fits
  obtain ⟨start, stop⟩ := placed (.ofCode withEmptyLines overreaching) rfl
  exact ⟨reachable, fits, greatest ⟨0, 9⟩, greatest ⟨1, 4⟩, fixed ⟨3, 0⟩ (by decide),
    keepsOrder (by decide), start.trans (by decide), stop.trans (by decide)⟩

end Grid
end Retouch
