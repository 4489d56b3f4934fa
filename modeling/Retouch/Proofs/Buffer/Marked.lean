import Mathlib.Data.List.Infix
import Retouch.Buffer.Marked
import Retouch.Proofs.Buffer.Insertion
import Retouch.Proofs.Text.Bytes

/-!
# Marking a selection and reading it back

A marker begins with a bracket and has no other opening bracket, so where a marker is put
into a text no marker begins within another one, nor in the text before and ends in it.  In
a text without markers the scan therefore finds the markers that were put there and nothing
else (`scan_append_marker`).

So **reading undoes marking**: from a text without markers, with the ends of a selection
marked by a batch of insertions, the text and the selection are read back, and likewise a
cursor (`decode_apply_marks`).  Neither the size of the text nor what stands around the
markers matters.
-/

set_option autoImplicit false

namespace Retouch

/-! ## Texts without markers -/

namespace Marker

theorem exists_text_eq (marker : Marker) :
    ∃ body, marker.text = '[' :: body ∧ '[' ∉ body ∧ '\n' ∉ body := by
  cases marker <;> exact ⟨_, rfl, by decide, by decide⟩

theorem notMem_text (marker : Marker) : '\n' ∉ marker.text := by
  obtain ⟨body, same, -, whole⟩ := marker.exists_text_eq
  rw [same, List.mem_cons, not_or]
  exact ⟨by decide, whole⟩

theorem leading?_append (marker : Marker) (after : Text) :
    leading? (marker.text ++ after) = some marker := by
  cases marker <;> rfl

theorem mem_all (marker : Marker) : marker ∈ all := by
  cases marker <;> decide

theorem leading?_eq_none_iff {text : Text} :
    leading? text = none ↔ ∀ marker : Marker, ¬ marker.text <+: text := by
  rw [leading?, List.find?_eq_none]
  simp only [List.isPrefixOf_iff_prefix]
  exact ⟨fun none marker => none marker marker.mem_all, fun none marker _ => none marker⟩

end Marker

namespace Text

/-- Whether no line of a text holds a marker. -/
def IsUnmarked (text : Text) : Prop :=
  ∀ line ∈ lines text, ∀ marker : Marker, ¬ marker.text <:+: line

theorem lines_append_of_notMem {row : Text} (whole : '\n' ∉ row) (after : Text) :
    ∃ first below, lines (row ++ after) = (row ++ first) :: below := by
  obtain ⟨above, last, first, below, linesRow, -, linesBoth⟩ := lines_append row after
  have single : [] ++ [row] = above ++ [last] := (lines_of_notMem whole).symm.trans linesRow
  obtain ⟨rfl, same⟩ := List.append_inj' single rfl
  obtain rfl := List.singleton_inj.1 same
  exact ⟨first, below, linesBoth⟩

/-- What has no newline and stands in a text stands on a line of it. -/
theorem exists_line_of_infix {row text : Text} (whole : '\n' ∉ row) (inside : row <:+: text) :
    ∃ line ∈ lines text, row <:+: line := by
  obtain ⟨before, after, rfl⟩ := inside
  obtain ⟨above, last, first, below, -, linesRest, linesBoth⟩ := lines_append before (row ++ after)
  obtain ⟨rest, below', linesRow⟩ := lines_append_of_notMem whole after
  obtain ⟨rfl, -⟩ := List.cons.inj (linesRest.symm.trans linesRow)
  refine ⟨last ++ (row ++ rest), ?_, last, rest, List.append_assoc _ _ _⟩
  rw [List.append_assoc, linesBoth]
  simp

theorem IsUnmarked.not_infix {text : Text} (unmarked : text.IsUnmarked) (marker : Marker) :
    ¬ marker.text <:+: text := by
  intro inside
  obtain ⟨line, member, found⟩ := exists_line_of_infix marker.notMem_text inside
  exact unmarked line member marker found

end Text

/-! ## Scanning -/

namespace Piece

/-- No marker in a text and none that goes over from it into a marker that follows: of the
two brackets one would be within the other marker. -/
theorem not_prefix_of_append {before after : Text} (begun : before ≠ [])
    (free : ∀ marker : Marker, ¬ marker.text <:+: before) (marker next : Marker) :
    ¬ marker.text <+: before ++ (next.text ++ after) := by
  intro leads
  rcases List.prefix_or_prefix_of_prefix leads (List.prefix_append before _) with
    within | ⟨more, beyond⟩
  · exact free marker within.isInfix
  · rw [← beyond, List.prefix_append_right_inj] at leads
    obtain ⟨body, opens, single, -⟩ := marker.exists_text_eq
    obtain ⟨body', opens', -, -⟩ := next.exists_text_eq
    obtain ⟨first, rest, rfl⟩ := List.exists_cons_of_ne_nil begun
    rw [opens, List.cons_append] at beyond
    obtain ⟨rfl, rfl⟩ := List.cons.inj beyond
    cases more with
    | nil => exact free marker ⟨[], [], by simpa using opens⟩
    | cons second more =>
      rw [opens'] at leads
      obtain ⟨rfl, -⟩ := List.cons_prefix_cons.1 leads
      exact single (by simp)

theorem scan_length (skipped rest : Text) :
    scan skipped.length (skipped ++ rest) = scan 0 rest := by
  induction skipped with
  | nil => rfl
  | cons first skipped ih => exact ih

theorem scan_of_leading? {first : Char} {rest : Text}
    (none : Marker.leading? (first :: rest) = none) :
    scan 0 (first :: rest) = character first :: scan 0 rest := by
  rw [scan, none]

theorem scan_marker (found : Marker) (after : Text) :
    scan 0 (found.text ++ after) = marker found :: scan 0 after := by
  have leads := found.leading?_append after
  obtain ⟨body, opens, -⟩ := found.exists_text_eq
  have skipped : found.text.length - 1 = body.length := by rw [opens]; rfl
  rw [opens, List.cons_append] at leads ⊢
  rw [scan, leads]
  show marker found :: scan (found.text.length - 1) (body ++ after) = _
  rw [skipped, scan_length]

/-- **The scan finds a marker that follows a text without markers.** -/
theorem scan_append_marker {before : Text} (free : ∀ other : Marker, ¬ other.text <:+: before)
    (found : Marker) (after : Text) :
    scan 0 (before ++ (found.text ++ after)) =
      before.map character ++ marker found :: scan 0 after := by
  induction before with
  | nil => exact scan_marker found after
  | cons first before ih =>
    have none : Marker.leading? (first :: (before ++ (found.text ++ after))) = none :=
      Marker.leading?_eq_none_iff.2 fun other =>
        not_prefix_of_append (List.cons_ne_nil first before) free other found
    rw [List.cons_append, scan_of_leading? none,
      ih fun other inside => free other (inside.trans (List.suffix_cons first before).isInfix)]
    rfl

theorem scan_of_free {text : Text} (free : ∀ other : Marker, ¬ other.text <:+: text) :
    scan 0 text = text.map character := by
  induction text with
  | nil => rfl
  | cons first rest ih =>
    have none : Marker.leading? (first :: rest) = none :=
      Marker.leading?_eq_none_iff.2 fun other leads => free other leads.isInfix
    rw [scan_of_leading? none,
      ih fun other inside => free other (inside.trans (List.suffix_cons first rest).isInfix)]
    rfl

@[simp] theorem filterMap_character (text : Text) :
    (text.map character).filterMap character? = text := by
  rw [List.filterMap_map]
  exact List.filterMap_some

end Piece

/-! ## Reading back -/

namespace Sample

open Text

theorem foldl_step_character (text : Text) (reading : Reading) :
    (text.map Piece.character).foldl Reading.step reading =
      { reading with position := text.foldl Position.after reading.position } := by
  induction text generalizing reading with
  | nil => rfl
  | cons first rest ih => exact ih _

/-- Reading the characters of a text after a beginning. -/
theorem foldl_step_reach (before text : Text) (cursorSeen : Bool) (selection : Selection) :
    (text.map Piece.character).foldl Reading.step ⟨reach before, cursorSeen, selection⟩ =
      ⟨reach (before ++ text), cursorSeen, selection⟩ := by
  rw [foldl_step_character]
  exact congrArg (Reading.mk · cursorSeen selection) (foldl_after before text)

theorem decode_cursor {before after : Text}
    (free : ∀ marker : Marker, ¬ marker.text <:+: before ++ after) (unmarked : Position) :
    decode (before ++ (Marker.cursor.text ++ after)) unmarked =
      ⟨before ++ after, .cursorAt (reach before)⟩ := by
  have pieces : Text.pieces (before ++ (Marker.cursor.text ++ after)) =
      before.map .character ++ .marker .cursor :: after.map .character := by
    rw [Text.pieces, Piece.scan_append_marker, Piece.scan_of_free]
    · intro marker inside
      exact free marker (inside.trans (List.suffix_append before after).isInfix)
    · intro marker inside
      exact free marker (inside.trans (List.prefix_append before after).isInfix)
  have begun := foldl_step_reach [] before false (.cursorAt unmarked)
  rw [decode, pieces, Sample.mk.injEq]
  constructor
  · simp only [List.filterMap_append, List.filterMap_cons, Piece.filterMap_character,
      Piece.character?]
  · rw [List.foldl_append, show Position.zero = reach [] from rfl, begun, List.foldl_cons,
      foldl_step_character]
    rfl

theorem decode_selection {before between after : Text}
    (free : ∀ marker : Marker, ¬ marker.text <:+: before ++ (between ++ after))
    (unmarked : Position) :
    decode (before ++ (Marker.start.text ++ (between ++ (Marker.stop.text ++ after)))) unmarked =
      ⟨before ++ (between ++ after), .between (reach before) (reach (before ++ between))⟩ := by
  have rest : ∀ marker : Marker, ¬ marker.text <:+: between ++ after :=
    fun marker inside => free marker (inside.trans (List.suffix_append before _).isInfix)
  have pieces : Text.pieces
      (before ++ (Marker.start.text ++ (between ++ (Marker.stop.text ++ after)))) =
        before.map .character ++ .marker .start ::
          (between.map .character ++ .marker .stop :: after.map .character) := by
    rw [Text.pieces, Piece.scan_append_marker, Piece.scan_append_marker, Piece.scan_of_free]
    · exact fun marker inside => rest marker (inside.trans (List.suffix_append between _).isInfix)
    · exact fun marker inside => rest marker (inside.trans (List.prefix_append between _).isInfix)
    · exact fun marker inside => free marker (inside.trans (List.prefix_append before _).isInfix)
  have begun := foldl_step_reach [] before false (.cursorAt unmarked)
  have started := foldl_step_reach before between false (.cursorAt (reach before))
  rw [decode, pieces, Sample.mk.injEq]
  constructor
  · simp only [List.filterMap_append, List.filterMap_cons, Piece.filterMap_character,
      Piece.character?]
  · rw [List.foldl_append, show Position.zero = reach [] from rfl, begun, List.foldl_cons,
      show Reading.step ⟨reach ([] ++ before), false, _⟩ (.marker .start) =
        ⟨reach before, false, .cursorAt (reach before)⟩ from rfl,
      List.foldl_append, started, List.foldl_cons, foldl_step_character]
    rfl

/-! ## Marking -/

/-- The edits that mark the ends of a selection. -/
def marks (selection : Selection) : List Edit :=
  [.insertAt selection.start Marker.start.text, .insertAt selection.stop Marker.stop.text]

/-- Whether a batch marks a selection: with the start before the stop, or the other way
round when they are not at one place. -/
def IsMarking (selection : Selection) (edits : List Edit) : Prop :=
  edits = marks selection ∨ edits = (marks selection).reverse ∧ selection.start ≠ selection.stop

theorem pairwise_marks (selection : Selection) :
    (marks selection).Pairwise fun first second => first.comesBefore second = true := by
  refine List.pairwise_pair.2 (Edit.comesBefore_iff.2 ?_)
  rcases lt_or_eq_of_le selection.ordered with before | same
  · exact .inl before
  · exact .inr ⟨same, selection.ordered⟩

/-- However a selection is marked, the mark of its start comes first in the text. -/
theorem IsMarking.mergeSort_eq {selection : Selection} {edits : List Edit}
    (marking : IsMarking selection edits) :
    edits.mergeSort Edit.comesBefore = marks selection := by
  rcases marking with rfl | ⟨rfl, apart⟩
  · exact List.mergeSort_of_pairwise (pairwise_marks selection)
  · have permuted := (List.mergeSort_perm (marks selection).reverse Edit.comesBefore).trans
      (List.reverse_perm _)
    refine List.Perm.eq_of_pairwise ?_ (Grid.pairwise_mergeSort_comesBefore _)
      (pairwise_marks selection) permuted
    intro first second member member' before after
    have same := congrArg Selection.start (Edit.selection_eq_of_comesBefore before after)
    rw [permuted.mem_iff] at member
    simp only [marks, List.mem_cons, List.not_mem_nil, or_false] at member member'
    rcases member with rfl | rfl <;> rcases member' with rfl | rfl
    · rfl
    · exact absurd same apart
    · exact absurd same.symm apart
    · rfl

theorem IsMarking.mem_iff {selection : Selection} {edits : List Edit}
    (marking : IsMarking selection edits) {edit : Edit} :
    edit ∈ edits ↔ edit ∈ marks selection := by
  rcases marking with rfl | ⟨rfl, -⟩
  · exact Iff.rfl
  · exact List.mem_reverse

/-- The text with the ends of a selection marked. -/
theorem apply_marking {code : Text} {selection : Selection} {edits : List Edit}
    (marking : IsMarking selection edits) (start : code.HasPlace selection.start)
    (stop : code.HasPlace selection.stop) :
    (Grid.ofText code).apply edits = (.ok (), .ofText
      (code.take (code.offsetOf selection.start) ++ (Marker.start.text ++
        (code.between selection.start selection.stop ++ (Marker.stop.text ++
          code.drop (code.offsetOf selection.stop)))))) := by
  have insertions : ∀ edit ∈ edits, edit.IsInsertion ∧ code.HasPlace edit.selection.start := by
    intro edit member
    rw [marking.mem_iff] at member
    simp only [marks, List.mem_cons, List.not_mem_nil, or_false] at member
    rcases member with rfl | rfl
    · exact ⟨rfl, start⟩
    · exact ⟨rfl, stop⟩
  have admits : (Grid.ofText code).text.Admits edits := by
    rw [Grid.text_ofText]
    refine ⟨fun edit member => ?_, Edit.apart_of_isInsertion fun edit member =>
      (insertions edit member).1⟩
    obtain ⟨insertion, place⟩ := insertions edit member
    exact ⟨place, insertion ▸ place⟩
  rw [(Grid.Reachable.ofText code).apply_of_admits admits, marking.mergeSort_eq, Grid.text_ofText]
  simp only [spliced, marks, splicedFrom, Edit.insertAt, Selection.cursorAt, between,
    List.drop_zero, List.append_assoc]

/-- The text with a cursor marked. -/
theorem apply_cursorMark {code : Text} {position : Position} (place : code.HasPlace position) :
    (Grid.ofText code).apply [.insertAt position Marker.cursor.text] = (.ok (), .ofText
      (code.take (code.offsetOf position) ++ (Marker.cursor.text ++
        code.drop (code.offsetOf position)))) := by
  have admits : (Grid.ofText code).text.Admits [.insertAt position Marker.cursor.text] := by
    rw [Grid.text_ofText]
    exact ⟨by simpa using ⟨place, place⟩, List.pairwise_singleton _ _⟩
  rw [(Grid.Reachable.ofText code).apply_of_admits admits, List.mergeSort_singleton,
    Grid.text_ofText]
  simp only [spliced, splicedFrom, Edit.insertAt, Selection.cursorAt, List.drop_zero,
    List.append_assoc]

/-- **Reading undoes marking.**  When no line of a text holds a marker, any selection in it
can be marked at its ends, and any place as a cursor, and reading gives back the text with
that selection or cursor, whatever position reading starts from. -/
theorem decode_apply_marks {code : Text} (free : code.IsUnmarked) (unmarked : Position) :
    (∀ selection edits, code.HasPlace selection.start → code.HasPlace selection.stop →
      IsMarking selection edits → ∃ marked, (Grid.ofText code).apply edits = (.ok (), marked) ∧
        decode marked.text unmarked = ⟨code, selection⟩) ∧
    ∀ position, code.HasPlace position → ∃ marked,
      (Grid.ofText code).apply [.insertAt position Marker.cursor.text] = (.ok (), marked) ∧
        decode marked.text unmarked = ⟨code, .cursorAt position⟩ := by
  constructor
  · intro selection edits start stop marking
    refine ⟨_, apply_marking marking start stop, ?_⟩
    have before : code.take (code.offsetOf selection.start) ++
        code.between selection.start selection.stop = code.take (code.offsetOf selection.stop) :=
      take_append_drop_take code ((start.le_iff_offsetOf_le stop).1 selection.ordered)
    have whole : code.take (code.offsetOf selection.start) ++
        (code.between selection.start selection.stop ++
          code.drop (code.offsetOf selection.stop)) = code := by
      rw [← List.append_assoc, before, List.take_append_drop]
    rw [Grid.text_ofText, decode_selection (by rw [whole]; exact free.not_infix), whole, before,
      reach_take_offsetOf start, reach_take_offsetOf stop, Selection.between_start_stop]
  · intro position place
    have whole := List.take_append_drop (code.offsetOf position) code
    refine ⟨_, apply_cursorMark place, ?_⟩
    rw [Grid.text_ofText, decode_cursor (by rw [whole]; exact free.not_infix), whole,
      reach_take_offsetOf place]

/-- Two lines that end and begin like markers. -/
def fragments : Text := "[sta[cur
rt]sor]é[en".toList

theorem decode_apply_marks_fragments :
    fragments.IsUnmarked ∧ fragments.HasPlace ⟨0, 4⟩ ∧ fragments.HasPlace ⟨1, 8⟩ ∧
      ∃ marked, (Grid.ofText fragments).apply (marks (.between ⟨0, 4⟩ ⟨1, 8⟩)) = (.ok (), marked) ∧
        decode marked.text ⟨7, 7⟩ = ⟨fragments, .between ⟨0, 4⟩ ⟨1, 8⟩⟩ := by
  have free : fragments.IsUnmarked := by
    have each : ∀ line ∈ lines fragments, ∀ marker ∈ Marker.all, ¬ marker.text <:+: line := by
      decide
    exact fun line member marker => each line member marker marker.mem_all
  have start : fragments.HasPlace ⟨0, 4⟩ := by decide
  have stop : fragments.HasPlace ⟨1, 8⟩ := by decide
  exact ⟨free, start, stop,
    (decode_apply_marks free ⟨7, 7⟩).1 (.between ⟨0, 4⟩ ⟨1, 8⟩) _ start stop (.inl rfl)⟩

end Sample
end Retouch
