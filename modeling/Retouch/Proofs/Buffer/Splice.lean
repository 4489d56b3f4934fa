import Retouch.Buffer.Grid
import Retouch.Proofs.Position
import Retouch.Proofs.Text.Places

/-!
# Edits made from the last to the first

A batch is made in place, from its last edit to its first, on a grid whose rows may
meanwhile hold newlines or be absorbed.  The grid stays in step with the text as it
was up to a *frontier*, a place of the text: above it and on its line before it the
rows are still those of the text, and what is read from it on is what the edits made
so far have put there (`Settled`).

Every place up to the frontier can be the frontier (`Settled.earlier`), and an edit
that stops at the frontier is never refused and moves the frontier to its start
(`Settled.splice`).
-/

set_option autoImplicit false

namespace Retouch

/-! ## Replacing in a flat text -/

namespace Text

/-- A text from an offset on, with the ranges of edits replaced by their codes.  The
edits come in document order and do not overlap; what stands between them stays. -/
def splicedFrom (text : Text) (offset : Nat) : List Edit → Text
  | [] => text.drop offset
  | edit :: rest =>
    (text.take (text.offsetOf edit.selection.start)).drop offset ++ edit.code ++
      text.splicedFrom (text.offsetOf edit.selection.stop) rest

/-- A text with the ranges of edits, given in document order, replaced. -/
def spliced (text : Text) (ordered : List Edit) : Text := text.splicedFrom 0 ordered

end Text

namespace Grid

open Text

/-! ## Rows of a grid -/

@[simp] theorem filterMap_characters (rows : List Text) :
    (rows.map Row.characters).filterMap Row.text? = rows := by
  rw [List.filterMap_map]
  exact List.filterMap_some

@[simp] theorem filterMap_absorbed (count : Nat) :
    (List.replicate count Row.absorbed).filterMap Row.text? = [] := by
  induction count with
  | zero => rfl
  | succ count ih => rw [List.replicate_succ, List.filterMap_cons, Row.text?, ih]

theorem line?_of_rows {grid : Grid} {above : List Row} {characters : Text} {below : List Row}
    {line : UInt32} (rows : grid.rows = above ++ .characters characters :: below)
    (row : above.length = line.toNat) : grid.line? line = some characters := by
  rw [line?, rows, ← row, List.getElem?_append_right (Nat.le_refl _), Nat.sub_self]
  rfl

theorem lineAt_of_line? {grid : Grid} {position : Position} {characters : Text}
    (found : grid.line? position.line = some characters)
    (column : position.character.toNat ≤ characters.length) :
    grid.lineAt position = .ok characters := by
  rw [lineAt, found]
  exact if_pos column

theorem mapIdx_of_fixed {rows : List Row} {change : Nat → Row → Row}
    (fixed : ∀ index row, index < rows.length → change index row = row) :
    rows.mapIdx change = rows := by
  refine List.ext_getElem List.length_mapIdx ?_
  intro index inside inside'
  rw [List.getElem_mapIdx, fixed index _ inside']

theorem mapIdx_of_absorbed {rows : List Row} {change : Nat → Row → Row}
    (absorbs : ∀ index row, index < rows.length → change index row = .absorbed) :
    rows.mapIdx change = List.replicate rows.length .absorbed := by
  refine List.ext_getElem (by simp) ?_
  intro index inside inside'
  rw [List.getElem_mapIdx, List.getElem_replicate]
  exact absorbs index _ (by simpa using inside')

/-- Rows below a replaced one are absorbed, one for one. -/
theorem replaceRows_eq (above : List Row) (row : Row) (between below : List Row)
    {first last : UInt32} (characters : Text) (start : above.length = first.toNat)
    (stop : above.length + between.length = last.toNat) :
    replaceRows ⟨above ++ row :: (between ++ below)⟩ first last characters =
      ⟨above ++ .characters characters ::
        (List.replicate between.length .absorbed ++ below)⟩ := by
  unfold replaceRows
  rw [List.mapIdx_append, List.mapIdx_cons, List.mapIdx_append]
  congr 2
  · refine mapIdx_of_fixed ?_
    intro index _ inside
    rw [if_neg (by omega), if_neg (by omega)]
  · congr 1
    · exact if_pos (by omega)
    · congr 1
      · refine mapIdx_of_absorbed ?_
        intro index _ inside
        rw [if_neg (by omega), if_pos (by omega)]
      · refine mapIdx_of_fixed ?_
        intro index _ inside
        rw [if_neg (by omega), if_neg (by omega)]

/-! ## The frontier -/

/-- A grid that up to a place of a text holds the rows of the text, and from there on
reads as a given suffix. -/
inductive Settled (text : Text) (frontier : Position) (suffix : Text) : Grid → Prop where
  | intro {above below : List Text} {line tail : Text} {rest : List Row}
      (around : Around text frontier above line below)
      (reads : unlines (tail :: rest.filterMap Row.text?) = suffix) :
      Settled text frontier suffix ⟨above.map .characters ++
        .characters (line.take frontier.character.toNat ++ tail) :: rest⟩

namespace Settled

variable {text suffix : Text} {frontier : Position} {grid : Grid}

/-- Before any edit every place is a frontier. -/
theorem ofText (place : text.HasPlace frontier) :
    Settled text frontier (text.drop (text.offsetOf frontier)) (.ofText text) := by
  obtain ⟨above, line, below, around⟩ := place.around
  have rows : Grid.ofText text = ⟨above.map .characters ++ .characters
      (line.take frontier.character.toNat ++ line.drop frontier.character.toNat) ::
        below.map .characters⟩ := by
    rw [Grid.ofText, around.lines_eq, List.map_append, List.map_cons, List.take_append_drop]
  rw [rows]
  refine .intro around ?_
  rw [filterMap_characters, around.drop_offsetOf]

theorem text_eq (settled : Settled text frontier suffix grid) :
    grid.text = text.take (text.offsetOf frontier) ++ suffix := by
  obtain ⟨around, reads⟩ := settled
  rw [Grid.text, lines, List.filterMap_append, filterMap_characters, List.filterMap_cons,
    Row.text?, unlines_append_cons, reads, around.take_offsetOf]

/-- Every place before a frontier can be the frontier. -/
theorem earlier {place : Position} (settled : Settled text frontier suffix grid)
    (hasPlace : text.HasPlace place) (before : place ≤ frontier) :
    Settled text place (text.between place frontier ++ suffix) grid := by
  obtain ⟨around, reads⟩ := settled
  rename_i above below line tail rest
  obtain ⟨above', line', below', around'⟩ := hasPlace.around
  rcases Nat.lt_or_eq_of_le (Position.line_le_of_le before) with later | same
  · -- The lines from that of the place down to the frontier still stand.
    obtain ⟨middle, rfl, rfl⟩ := around'.of_line_lt around later
    have rows : (above' ++ line' :: middle).map Row.characters ++
        .characters (line.take frontier.character.toNat ++ tail) :: rest =
        above'.map .characters ++ .characters
          (line'.take place.character.toNat ++ line'.drop place.character.toNat) ::
            (middle.map .characters ++
              .characters (line.take frontier.character.toNat ++ tail) :: rest) := by
      simp
    rw [rows]
    refine .intro around' ?_
    rw [List.filterMap_append, filterMap_characters, List.filterMap_cons, Row.text?,
      around'.between_of_line_lt around, ← List.cons_append, unlines_append_cons, reads]
  · obtain ⟨rfl, rfl, rfl⟩ := around.of_same_line around' (UInt32.toNat_inj.1 same.symm)
    have ordered := Position.character_le_of_le before same
    rw [← take_append_drop_take line' ordered, List.append_assoc]
    refine .intro around' ?_
    rw [unlines_cons_append, reads, around'.between_of_same_line around ordered]

/-- The rows from a place before the frontier down to the frontier. -/
theorem rows_from {place : Position} {above below above' below' : List Text}
    {line line' tail : Text} {rest : List Row} (around : Around text frontier above line below)
    (around' : Around text place above' line' below') (before : place ≤ frontier) :
    ∃ kept between, above.map Row.characters ++
        .characters (line.take frontier.character.toNat ++ tail) :: rest =
        above'.map .characters ++
          .characters (line'.take place.character.toNat ++ kept) :: (between ++ rest) ∧
      (above'.map Row.characters).length + between.length = frontier.line.toNat := by
  rcases Nat.lt_or_eq_of_le (Position.line_le_of_le before) with later | same
  · obtain ⟨middle, rfl, rfl⟩ := around'.of_line_lt around later
    refine ⟨line'.drop place.character.toNat, middle.map .characters ++
      [.characters (line.take frontier.character.toNat ++ tail)], by simp, ?_⟩
    rw [← around.row]
    simp
  · obtain ⟨rfl, rfl, rfl⟩ := around.of_same_line around' (UInt32.toNat_inj.1 same.symm)
    have ordered := Position.character_le_of_le before same
    refine ⟨(line'.take frontier.character.toNat).drop place.character.toNat ++ tail, [], ?_, ?_⟩
    · rw [← List.append_assoc, take_append_drop_take line' ordered, List.nil_append]
    · simp [around.row]

/-- **An edit that stops at the frontier is made**, and moves the frontier to its
start. -/
theorem splice {edit : Edit} (settled : Settled text edit.selection.stop suffix grid)
    (hasPlace : text.HasPlace edit.selection.start) :
    ∃ edited, grid.splice edit = .ok edited ∧
      Settled text edit.selection.start (edit.code ++ suffix) edited := by
  obtain ⟨around, reads⟩ := settled
  rename_i above below line tail rest
  obtain ⟨above', line', below', around'⟩ := hasPlace.around
  obtain ⟨kept, between, rows, last⟩ :=
    @rows_from _ _ _ _ _ _ _ _ _ tail rest around around' edit.selection.ordered
  have atStop : lineAt ⟨above.map .characters ++ .characters
      (line.take edit.selection.stop.character.toNat ++ tail) :: rest⟩ edit.selection.stop = _ :=
    lineAt_of_line? (line?_of_rows rfl ((List.length_map _).trans around.row))
      (by rw [List.length_append, List.length_take, Nat.min_eq_left around.column]; omega)
  have atStart := lineAt_of_line?
    (line?_of_rows rows ((List.length_map _).trans around'.row))
    (by rw [List.length_append, List.length_take, Nat.min_eq_left around'.column]; omega)
  refine ⟨_, by rw [Grid.splice, atStop, atStart]; rfl, ?_⟩
  rw [rows, replaceRows_eq _ _ _ _ _ ((List.length_map _).trans around'.row) last]
  rw [List.take_left' (List.length_take_of_le around'.column),
    List.drop_left' (List.length_take_of_le around.column), List.append_assoc]
  refine .intro around' ?_
  rw [List.filterMap_append, filterMap_absorbed, List.nil_append, unlines_cons_append, reads]

end Settled

/-! ## A whole batch -/

theorem spliceAll_append {grid edited : Grid} {edits : List Edit}
    (made : grid.spliceAll edits = (.ok (), edited)) (more : List Edit) :
    grid.spliceAll (edits ++ more) = edited.spliceAll more := by
  induction edits generalizing grid with
  | nil =>
    cases made
    rfl
  | cons edit rest ih =>
    rw [spliceAll] at made
    rw [List.cons_append, spliceAll]
    cases outcome : grid.splice edit with
    | error refused =>
      rw [outcome] at made
      cases made
    | ok next =>
      rw [outcome] at made
      exact ih made

/-- **A batch in document order is made without a refusal**, and leaves the text with
its ranges replaced: every place before the first edit is then a frontier. -/
theorem spliceAll_reverse {text : Text} {ordered : List Edit}
    (inside : ∀ edit ∈ ordered, text.HasPlace edit.selection.start ∧
      text.HasPlace edit.selection.stop)
    (touching : ordered.Pairwise fun first second =>
      first.selection.stop ≤ second.selection.start) :
    ∃ edited, (ofText text).spliceAll ordered.reverse = (.ok (), edited) ∧
      ∀ place, text.HasPlace place → (∀ edit ∈ ordered, place ≤ edit.selection.start) →
        Settled text place (text.splicedFrom (text.offsetOf place) ordered) edited := by
  induction ordered with
  | nil => exact ⟨_, rfl, fun place hasPlace _ => .ofText hasPlace⟩
  | cons edit rest ih =>
    obtain ⟨edited, made, frontier⟩ := ih (fun other member => inside other (by simp [member]))
      (List.pairwise_cons.1 touching).2
    obtain ⟨start, stop⟩ := inside edit (by simp)
    have settled := frontier edit.selection.stop stop (List.pairwise_cons.1 touching).1
    obtain ⟨edited', made', settled'⟩ := settled.splice start
    refine ⟨edited', ?_, ?_⟩
    · rw [List.reverse_cons, spliceAll_append made, spliceAll, made']
      rfl
    · intro place hasPlace before
      have shifted := settled'.earlier hasPlace (before edit (by simp))
      rw [splicedFrom, List.append_assoc]
      exact shifted

/-- The text after a batch in document order. -/
theorem text_of_spliceAll {text : Text} {ordered : List Edit} {edited : Grid}
    (settled : ∀ place, text.HasPlace place → (∀ edit ∈ ordered, place ≤ edit.selection.start) →
      Settled text place (text.splicedFrom (text.offsetOf place) ordered) edited) :
    edited.text = text.spliced ordered := by
  have whole := (settled .zero (hasPlace_zero text) fun edit _ => Position.zero_le _).text_eq
  rwa [offsetOf_zero, List.take_zero, List.nil_append] at whole

end Grid
end Retouch
