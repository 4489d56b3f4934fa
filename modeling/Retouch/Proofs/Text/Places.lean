import Mathlib.Algebra.Order.Ring.Nat
import Retouch.Position
import Retouch.Text.Lines

/-!
# Places of a text

A position is a place of a text when its line exists and reaches that far.  Every
place has an *offset*, the number of characters before it with the newlines counted,
and so cuts the text in two.

Cutting is described by the lines around the place: the lines above it, its own line
and the lines below it (`Around`).  What stands before the place is the lines above
with the beginning of its line (`Around.take_offsetOf`), what stands after it is the
rest of the line with the lines below (`Around.drop_offsetOf`).  Document order of
places is the order of their offsets (`HasPlace.le_iff_offsetOf_le`), and what stands
between two places is again described by lines (`Around.between_of_same_line`,
`Around.between_of_line_lt`).
-/

set_option autoImplicit false

namespace Retouch
namespace Text

/-! ## Joining lines in parts -/

theorem unlines_cons_append (left right : Text) (below : List Text) :
    unlines ((left ++ right) :: below) = left ++ unlines (right :: below) := by
  cases below with
  | nil => simp
  | cons next rest => simp [unlines_cons]

/-- Joined lines can be cut within a line. -/
theorem unlines_append_cons (above : List Text) (left right : Text) (below : List Text) :
    unlines (above ++ (left ++ right) :: below) =
      unlines (above ++ [left]) ++ unlines (right :: below) := by
  induction above with
  | nil => simpa using unlines_cons_append left right below
  | cons first above ih =>
    rw [List.cons_append, List.cons_append, unlines_cons first (by simp), ih,
      unlines_cons first (by simp), List.append_assoc, List.cons_append]

theorem length_unlines_concat (above : List Text) (last : Text) :
    (unlines (above ++ [last])).length =
      (above.map fun line => line.length + 1).sum + last.length := by
  induction above with
  | nil => simp
  | cons first above ih =>
    rw [List.cons_append, unlines_cons first (by simp), List.length_append, List.length_cons, ih,
      List.map_cons, List.sum_cons]
    omega

/-- The lines above and below one of them. -/
theorem exists_append_of_getElem? {rows : List Text} {number : Nat} {line : Text}
    (found : rows[number]? = some line) :
    ∃ above below, rows = above ++ line :: below ∧ above.length = number := by
  obtain ⟨inside, same⟩ := List.getElem?_eq_some_iff.1 found
  refine ⟨rows.take number, rows.drop (number + 1), ?_, ?_⟩
  · rw [← same, ← List.drop_eq_getElem_cons inside, List.take_append_drop]
  · rw [List.length_take, Nat.min_eq_left (Nat.le_of_lt inside)]

/-- The beginning of a line in two parts. -/
theorem take_append_drop_take (line : Text) {column column' : Nat} (ordered : column ≤ column') :
    line.take column ++ (line.take column').drop column = line.take column' := by
  have parted := List.take_append_drop column (line.take column')
  rwa [List.take_take, Nat.min_eq_left ordered] at parted

/-! ## Places and their offsets -/

/-- Whether a line exists and reaches as far as a position on it. -/
def HasPlace (text : Text) (position : Position) : Prop :=
  ∃ line, (lines text)[position.line.toNat]? = some line ∧
    position.character.toNat ≤ line.length

/-- How many characters stand before a position. -/
def offsetOf (text : Text) (position : Position) : Nat :=
  (((lines text).take position.line.toNat).map fun line => line.length + 1).sum +
    position.character.toNat

/-- What stands between two positions. -/
def between (text : Text) (start stop : Position) : Text :=
  (text.take (text.offsetOf stop)).drop (text.offsetOf start)

/-- The lines around a place: those above it, its own, and those below it. -/
structure Around (text : Text) (position : Position) (above : List Text) (line : Text)
    (below : List Text) : Prop where
  lines_eq : lines text = above ++ line :: below
  row : above.length = position.line.toNat
  column : position.character.toNat ≤ line.length

theorem HasPlace.around {text : Text} {position : Position} (place : text.HasPlace position) :
    ∃ above line below, Around text position above line below := by
  obtain ⟨line, found, column⟩ := place
  obtain ⟨above, below, parts, row⟩ := exists_append_of_getElem? found
  exact ⟨above, line, below, parts, row, column⟩

namespace Around

variable {text : Text} {position : Position} {above below : List Text} {line : Text}

theorem hasPlace (around : Around text position above line below) : text.HasPlace position :=
  ⟨line, by simp [around.lines_eq, ← around.row], around.column⟩

theorem offsetOf_eq (around : Around text position above line below) :
    text.offsetOf position =
      (unlines (above ++ [line.take position.character.toNat])).length := by
  rw [length_unlines_concat, offsetOf, around.lines_eq, ← around.row, List.take_left,
    List.length_take, Nat.min_eq_left around.column]

/-- A text falls apart at each of its places. -/
theorem append_eq (around : Around text position above line below) :
    text = unlines (above ++ [line.take position.character.toNat]) ++
      unlines (line.drop position.character.toNat :: below) := by
  rw [← unlines_append_cons, List.take_append_drop, ← around.lines_eq, unlines_lines]

theorem take_offsetOf (around : Around text position above line below) :
    text.take (text.offsetOf position) =
      unlines (above ++ [line.take position.character.toNat]) := by
  have cut := congrArg (List.take (text.offsetOf position)) around.append_eq
  rwa [around.offsetOf_eq, List.take_left, ← around.offsetOf_eq] at cut

theorem drop_offsetOf (around : Around text position above line below) :
    text.drop (text.offsetOf position) =
      unlines (line.drop position.character.toNat :: below) := by
  have cut := congrArg (List.drop (text.offsetOf position)) around.append_eq
  rwa [around.offsetOf_eq, List.drop_left, ← around.offsetOf_eq] at cut

theorem offsetOf_le_length (around : Around text position above line below) :
    text.offsetOf position ≤ text.length := by
  have whole := congrArg List.length around.append_eq
  rw [List.length_append, ← around.offsetOf_eq] at whole
  omega

/-! ## Two places -/

variable {later : Position} {above' below' : List Text} {line' : Text}

/-- Places of one line have the same lines around them. -/
theorem of_same_line (around : Around text position above line below)
    (around' : Around text later above' line' below') (same : position.line = later.line) :
    above' = above ∧ line' = line ∧ below' = below := by
  have lengths : above.length = above'.length := by rw [around.row, around'.row, same]
  obtain ⟨rfl, rest⟩ :=
    List.append_inj (around.lines_eq.symm.trans around'.lines_eq) lengths
  obtain ⟨rfl, rfl⟩ := List.cons.inj rest
  exact ⟨rfl, rfl, rfl⟩

/-- A place on a later line has the line of the earlier one above it. -/
theorem of_line_lt (around : Around text position above line below)
    (around' : Around text later above' line' below')
    (before : position.line.toNat < later.line.toNat) :
    ∃ middle, above' = above ++ line :: middle ∧ below = middle ++ line' :: below' := by
  have same := around.lines_eq.symm.trans around'.lines_eq
  have shorter : above.length < above'.length := by rwa [around.row, around'.row]
  rcases List.append_eq_append_iff.1 same with ⟨middle, rfl, rest⟩ | ⟨middle, rfl, _⟩
  · cases middle with
    | nil => simp at shorter
    | cons first middle =>
      rw [List.cons_append, List.cons.injEq] at rest
      obtain ⟨rfl, below_eq⟩ := rest
      exact ⟨middle, rfl, below_eq⟩
  · rw [List.length_append] at shorter
    omega

theorem offsetOf_lt_of_line_lt (around : Around text position above line below)
    (around' : Around text later above' line' below')
    (before : position.line.toNat < later.line.toNat) :
    text.offsetOf position < text.offsetOf later := by
  obtain ⟨middle, rfl, rfl⟩ := around.of_line_lt around' before
  rw [around.offsetOf_eq, around'.offsetOf_eq, length_unlines_concat, length_unlines_concat,
    List.map_append, List.sum_append, List.map_cons, List.sum_cons, List.length_take]
  omega

/-- What stands between two places of one line. -/
theorem between_of_same_line (around : Around text position above line below)
    (around' : Around text later above line below)
    (ordered : position.character.toNat ≤ later.character.toNat) :
    text.between position later =
      (line.take later.character.toNat).drop position.character.toNat := by
  rw [between, around'.take_offsetOf, around.offsetOf_eq, ← take_append_drop_take line ordered,
    unlines_append_cons, unlines_singleton, List.drop_left, take_append_drop_take line ordered]

/-- What stands between two places of different lines. -/
theorem between_of_line_lt {middle : List Text}
    (around : Around text position above line (middle ++ line' :: below'))
    (around' : Around text later (above ++ line :: middle) line' below') :
    text.between position later =
      unlines (line.drop position.character.toNat ::
        middle ++ [line'.take later.character.toNat]) := by
  have parted := unlines_append_cons above (line.take position.character.toNat)
    (line.drop position.character.toNat) (middle ++ [line'.take later.character.toNat])
  rw [List.take_append_drop] at parted
  rw [between, around'.take_offsetOf, around.offsetOf_eq, List.append_assoc, List.cons_append,
    parted, List.drop_left, List.cons_append]

end Around

/-! ## Order -/

section Order

variable {text : Text} {first second : Position}

theorem HasPlace.offsetOf_le_length (place : text.HasPlace first) :
    text.offsetOf first ≤ text.length := by
  obtain ⟨_, _, _, around⟩ := place.around
  exact around.offsetOf_le_length

theorem HasPlace.offsetOf_lt (place : text.HasPlace first) (place' : text.HasPlace second)
    (before : first < second) : text.offsetOf first < text.offsetOf second := by
  obtain ⟨above, line, below, around⟩ := place.around
  obtain ⟨above', line', below', around'⟩ := place'.around
  rcases Position.lt_iff.1 before with earlier | ⟨same, earlier⟩
  · exact around.offsetOf_lt_of_line_lt around' earlier
  · rw [offsetOf, offsetOf, same]
    omega

/-- Places stand in the order of their offsets. -/
theorem HasPlace.le_iff_offsetOf_le (place : text.HasPlace first)
    (place' : text.HasPlace second) :
    first ≤ second ↔ text.offsetOf first ≤ text.offsetOf second := by
  constructor
  · intro ordered
    by_cases before : first < second
    · exact Nat.le_of_lt (place.offsetOf_lt place' before)
    · exact Nat.le_of_eq (congrArg text.offsetOf (Position.le_antisymm ordered before))
  · intro ordered before
    exact Nat.not_lt.2 ordered (place'.offsetOf_lt place before)

theorem HasPlace.eq_of_offsetOf_eq (place : text.HasPlace first)
    (place' : text.HasPlace second) (same : text.offsetOf first = text.offsetOf second) :
    first = second :=
  Position.le_antisymm ((place.le_iff_offsetOf_le place').2 (Nat.le_of_eq same))
    ((place'.le_iff_offsetOf_le place).2 (Nat.le_of_eq same.symm))

end Order

/-! ## The beginning of a text -/

theorem hasPlace_zero (text : Text) : text.HasPlace .zero := by
  cases same : lines text with
  | nil => exact absurd same (lines_ne_nil text)
  | cons first rest => exact ⟨first, by rw [same]; rfl, Nat.zero_le _⟩

theorem offsetOf_zero (text : Text) : text.offsetOf .zero = 0 := rfl

end Text
end Retouch
