import Retouch.Proofs.Buffer.Batch

/-!
# Reading a buffer

Reading the range between two places of a text gives what stands between them
(`read_ofText`), on one line or across lines.  A range with an end that is no place is
refused (`read_of_outside`).
-/

set_option autoImplicit false

namespace Retouch
namespace Grid

open Text

theorem lineAt_ofText {text : Text} {position : Position} {above below : List Text} {line : Text}
    (around : Around text position above line below) :
    (ofText text).lineAt position = .ok line := by
  have rows : (ofText text).rows =
      above.map .characters ++ .characters line :: below.map .characters := by
    rw [ofText, around.lines_eq, List.map_append, List.map_cons]
  exact lineAt_of_line? (line?_of_rows rows ((List.length_map _).trans around.row)) around.column

/-- The lines from a number on, read one after another. -/
theorem mapM_lineAt_ofText {text : Text} {above middle below : List Text}
    (lines_eq : Text.lines text = above ++ middle ++ below)
    (bound : (above ++ middle).length ≤ 2 ^ 32) :
    (List.range' above.length middle.length).mapM
        (fun line => (ofText text).lineAt ⟨UInt32.ofNat line, 0⟩) = .ok middle := by
  induction middle generalizing above with
  | nil => rfl
  | cons line middle ih =>
    have rest := @ih (above ++ [line]) (by simp [lines_eq]) (by simpa using bound)
    have here : (ofText text).lineAt ⟨UInt32.ofNat above.length, 0⟩ = .ok line := by
      have row : above.length = (UInt32.ofNat above.length).toNat := by
        rw [List.length_append, List.length_cons] at bound
        rw [UInt32.toNat_ofNat', Nat.mod_eq_of_lt (by omega)]
      have around : Around text ⟨UInt32.ofNat above.length, 0⟩ above line (middle ++ below) :=
        ⟨by simp [lines_eq], row, Nat.zero_le _⟩
      exact lineAt_ofText around
    rw [List.length_append, List.length_singleton] at rest
    rw [List.length_cons, List.range'_succ, List.mapM_cons, here, rest]
    rfl

/-- **Reading gives what stands between two places.** -/
theorem read_ofText {text : Text} {selection : Selection}
    (start : text.HasPlace selection.start) (stop : text.HasPlace selection.stop) :
    (ofText text).read selection = .ok (text.between selection.start selection.stop) := by
  obtain ⟨above, line, below, around⟩ := start.around
  obtain ⟨above', line', below', around'⟩ := stop.around
  rw [read, lineAt_ofText around, lineAt_ofText around']
  rcases Nat.lt_or_eq_of_le (Position.line_le_of_le selection.ordered) with later | same
  · obtain ⟨middle, rfl, rfl⟩ := around.of_line_lt around' later
    have severalLines : selection.isOneLine = false :=
      beq_eq_false_iff_ne.2 fun same => Nat.ne_of_lt later (congrArg UInt32.toNat same)
    have rows := around'.row
    rw [List.length_append, List.length_cons, around.row] at rows
    have read := @mapM_lineAt_ofText text (above ++ [line]) middle (line' :: below')
      (by rw [around.lines_eq]; simp)
      (by have bound := selection.stop.line.toNat_lt; simp [around.row]; omega)
    rw [List.length_append, List.length_singleton, around.row,
      show middle.length = selection.stop.line.toNat - selection.start.line.toNat - 1 by omega]
      at read
    rw [around.between_of_line_lt around']
    simp only [severalLines, bind, Except.bind, read]
    rfl
  · obtain ⟨rfl, rfl, rfl⟩ := around.of_same_line around' (UInt32.toNat_inj.1 same)
    have oneLine : selection.isOneLine = true := beq_iff_eq.2 (UInt32.toNat_inj.1 same)
    rw [around.between_of_same_line around' (Position.character_le_of_le selection.ordered same)]
    simp only [oneLine, bind, Except.bind, if_pos]
    rfl

/-- **Reading refuses an end that is no place.** -/
theorem read_of_outside {text : Text} {selection : Selection}
    (outside : ¬ (text.HasPlace selection.start ∧ text.HasPlace selection.stop)) :
    ∃ position, (ofText text).read selection = .error (.outOfBounds position) := by
  cases start : (ofText text).holds selection.start with
  | false =>
    refine ⟨selection.start, ?_⟩
    rw [read, lineAt_of_not_holds start]
    rfl
  | true =>
    obtain ⟨first, atStart⟩ := lineAt_of_holds start
    have stop : (ofText text).holds selection.stop = false := by
      rw [← Bool.not_eq_true, holds_ofText_iff]
      exact fun place => outside ⟨holds_ofText_iff.1 start, place⟩
    refine ⟨selection.stop, ?_⟩
    rw [read, atStart, lineAt_of_not_holds stop]
    rfl

end Grid
end Retouch
