/-!
# Lines of a text

A text is a list of Unicode scalar values.  Only the newline character ends a
line, so a text has one line more than it has newlines and an empty text has one
empty line.  Splitting a text into lines loses nothing: joining them gives the
text back (`unlines_lines`), and lines that hold no newline are found again
(`lines_unlines`).
-/

set_option autoImplicit false

namespace Retouch

abbrev Text := List Char

namespace Text

/-- Puts a character in front of the first line. -/
def pushFirst (character : Char) : List Text → List Text
  | [] => [[character]]
  | first :: rest => (character :: first) :: rest

/-- The lines of a text, without the newlines between them. -/
def lines : Text → List Text
  | [] => [[]]
  | character :: rest =>
    if character = '\n' then [] :: lines rest else pushFirst character (lines rest)

/-- Joins lines with a newline between each two. -/
def unlines (rows : List Text) : Text := List.intercalate ['\n'] rows

/-! ## Splitting and joining -/

theorem lines_ne_nil (text : Text) : lines text ≠ [] := by
  cases text with
  | nil => simp [lines]
  | cons character rest =>
    rw [lines]
    split
    · simp
    · unfold pushFirst
      split <;> simp

@[simp] theorem unlines_singleton (row : Text) : unlines [row] = row := by
  simp [unlines, List.intercalate]

theorem unlines_cons (row : Text) {rows : List Text} (more : rows ≠ []) :
    unlines (row :: rows) = row ++ '\n' :: unlines rows := by
  cases rows with
  | nil => exact absurd rfl more
  | cons next rest => simp [unlines, List.intercalate]

theorem unlines_pushFirst (character : Char) {rows : List Text} (more : rows ≠ []) :
    unlines (pushFirst character rows) = character :: unlines rows := by
  cases rows with
  | nil => exact absurd rfl more
  | cons first rest =>
    cases rest with
    | nil => simp [pushFirst]
    | cons next rest => simp [pushFirst, unlines_cons]

/-- Joining the lines of a text gives the text. -/
@[simp] theorem unlines_lines (text : Text) : unlines (lines text) = text := by
  induction text with
  | nil => simp [lines]
  | cons character rest ih =>
    rw [lines]
    split
    · rename_i newline
      rw [unlines_cons [] (lines_ne_nil rest), ih, newline]
      rfl
    · rw [unlines_pushFirst character (lines_ne_nil rest), ih]

theorem lines_of_notMem {row : Text} (whole : '\n' ∉ row) : lines row = [row] := by
  induction row with
  | nil => rfl
  | cons character rest ih =>
    simp only [List.mem_cons, not_or] at whole
    rw [lines, if_neg (Ne.symm whole.1), ih whole.2]
    rfl

theorem lines_append_newline {row : Text} (whole : '\n' ∉ row) (rest : Text) :
    lines (row ++ '\n' :: rest) = row :: lines rest := by
  induction row with
  | nil => simp [lines]
  | cons character row ih =>
    simp only [List.mem_cons, not_or] at whole
    rw [List.cons_append, lines, if_neg (Ne.symm whole.1), ih whole.2]
    rfl

/-- Lines without a newline are the lines of the text they join to. -/
theorem lines_unlines {rows : List Text} (nonempty : rows ≠ [])
    (whole : ∀ row ∈ rows, '\n' ∉ row) : lines (unlines rows) = rows := by
  induction rows with
  | nil => exact absurd rfl nonempty
  | cons row rest ih =>
    by_cases last : rest = []
    · subst last
      simp [lines_of_notMem (whole row (by simp))]
    · rw [unlines_cons row last, lines_append_newline (whole row (by simp)),
        ih last fun other member => whole other (by simp [member])]

theorem notMem_of_mem_lines {text row : Text} (member : row ∈ lines text) : '\n' ∉ row := by
  induction text generalizing row with
  | nil => simp_all [lines]
  | cons character rest ih =>
    rw [lines] at member
    split at member
    · rcases List.mem_cons.1 member with rfl | member
      · simp
      · exact ih member
    · rename_i other
      cases split : lines rest with
      | nil => exact absurd split (lines_ne_nil rest)
      | cons first more =>
        rw [split, pushFirst] at member
        rcases List.mem_cons.1 member with rfl | member
        · rw [List.mem_cons, not_or]
          exact ⟨Ne.symm other, ih (by simp [split])⟩
        · exact ih (by simp [split, member])

end Text
end Retouch
