import Mathlib.Data.List.Forall2
import Retouch.Proofs.Buffer.Marked

/-!
# The scan of a marked text

A scan from the left to the right takes a marker wherever one begins and goes on behind it; every
other character is kept.  So the pieces spell the text, and no marker begins at a character that is
kept (`Piece.IsScan`).  **Each text has exactly one scan** (`Piece.isScan_iff`).

No marker holds a newline.  The lines of a text may therefore be scanned one by one
(`Piece.pieces_eq_joined`): the code has as many lines as the marked text, and each is what is kept
of its own (`Sample.lines_code`).
-/

set_option autoImplicit false

namespace Retouch

open Text

namespace Marker

theorem prefix_of_leading? {text : Text} {marker : Marker} (leads : leading? text = some marker) :
    marker.text <+: text := by
  have begins := List.find?_some leads
  exact List.isPrefixOf_iff_prefix.1 begins

theorem text_ne_nil (marker : Marker) : marker.text ≠ [] := by
  obtain ⟨body, same, -⟩ := marker.exists_text_eq
  rw [same]
  exact List.cons_ne_nil _ _

/-- A marker does not run over a newline. -/
theorem prefix_of_prefix_newline {marker : Marker} {before after : Text}
    (leads : marker.text <+: before ++ '\n' :: after) : marker.text <+: before := by
  rcases List.prefix_or_prefix_of_prefix leads (List.prefix_append before _) with within | beyond
  · exact within
  · obtain ⟨more, same⟩ := beyond
    cases more with
    | nil => exact ⟨[], by simpa using same.symm⟩
    | cons first more =>
      rw [← same, List.prefix_append_right_inj, List.cons_prefix_cons] at leads
      obtain ⟨rfl, -⟩ := leads
      exact absurd (same ▸ by simp) marker.notMem_text

end Marker

namespace Piece

/-! ## What pieces spell and what is kept -/

def text : Piece → Text
  | character value => [value]
  | marker found => found.text

/-- The text of which pieces are the parts. -/
def spelled (pieces : List Piece) : Text := pieces.flatMap text

/-- The characters among pieces. -/
def kept (pieces : List Piece) : Text := pieces.filterMap character?

@[simp] theorem spelled_cons (piece : Piece) (pieces : List Piece) :
    spelled (piece :: pieces) = piece.text ++ spelled pieces := rfl

@[simp] theorem spelled_append (pieces more : List Piece) :
    spelled (pieces ++ more) = spelled pieces ++ spelled more := List.flatMap_append

@[simp] theorem kept_nil : kept [] = [] := rfl

@[simp] theorem kept_character (value : Char) (pieces : List Piece) :
    kept (character value :: pieces) = value :: kept pieces := rfl

@[simp] theorem kept_marker (found : Marker) (pieces : List Piece) :
    kept (marker found :: pieces) = kept pieces := rfl

@[simp] theorem kept_append (pieces more : List Piece) :
    kept (pieces ++ more) = kept pieces ++ kept more := List.filterMap_append

theorem kept_sublist (pieces : List Piece) : (kept pieces).Sublist (spelled pieces) := by
  induction pieces with
  | nil => exact List.Sublist.slnil
  | cons piece pieces ih =>
    cases piece with
    | character value => exact ih.cons_cons value
    | marker found => exact ih.trans (List.sublist_append_right found.text _)

/-! ## Scans -/

section Scans

variable {text after : Text} {pieces : List Piece}

/-- **The pieces that a scan from the left to the right finds**: they are the parts of the text,
and where a character is kept no marker begins. -/
structure IsScan (text : Text) (pieces : List Piece) : Prop where
  spells : spelled pieces = text
  leftmost : ∀ before value rest, pieces = before ++ character value :: rest →
    ∀ marker : Marker, ¬ marker.text <+: value :: spelled rest

theorem isScan_nil : IsScan [] [] :=
  ⟨rfl, fun _ _ _ same => absurd same.symm (List.append_ne_nil_of_right_ne_nil _ (by simp))⟩

theorem IsScan.cons_marker (scanned : IsScan after pieces) (found : Marker) :
    IsScan (found.text ++ after) (marker found :: pieces) := by
  refine ⟨by rw [spelled_cons, scanned.spells]; rfl, fun before value rest same => ?_⟩
  cases before with
  | nil => cases same
  | cons piece before => exact scanned.leftmost before value rest (List.cons.inj same).2

theorem IsScan.cons_character {value : Char} (scanned : IsScan after pieces)
    (none : Marker.leading? (value :: after) = none) :
    IsScan (value :: after) (character value :: pieces) := by
  refine ⟨by rw [spelled_cons, scanned.spells]; rfl, fun before value' rest same => ?_⟩
  cases before with
  | nil =>
    cases same
    rw [scanned.spells]
    exact Marker.leading?_eq_none_iff.1 none
  | cons piece before => exact scanned.leftmost before value' rest (List.cons.inj same).2

theorem IsScan.tail {piece : Piece} (scanned : IsScan text (piece :: pieces)) :
    IsScan (spelled pieces) pieces :=
  ⟨rfl, fun before value rest same =>
    scanned.leftmost (piece :: before) value rest (congrArg (piece :: ·) same)⟩

theorem isScan_scan (text : Text) : IsScan text (scan 0 text) := by
  cases text with
  | nil => exact isScan_nil
  | cons first rest =>
    cases leads : Marker.leading? (first :: rest) with
    | none =>
      rw [scan_of_leading? leads]
      exact (isScan_scan rest).cons_character leads
    | some found =>
      obtain ⟨after, same⟩ := Marker.prefix_of_leading? leads
      have shorter : after.length ≤ rest.length := by
        have nonempty := List.length_pos_iff.2 found.text_ne_nil
        have whole := congrArg List.length same
        rw [List.length_append, List.length_cons] at whole
        omega
      rw [← same, scan_marker]
      exact (isScan_scan after).cons_marker found
termination_by text.length

theorem IsScan.eq_scan (scanned : IsScan text pieces) : pieces = scan 0 text := by
  induction pieces generalizing text with
  | nil =>
    obtain rfl := scanned.spells
    rfl
  | cons piece pieces ih =>
    have rest := ih scanned.tail
    obtain rfl := scanned.spells
    cases piece with
    | marker found => exact (congrArg (marker found :: ·) rest).trans (scan_marker found _).symm
    | character value =>
      have none : Marker.leading? (value :: spelled pieces) = none :=
        Marker.leading?_eq_none_iff.2 (scanned.leftmost [] value pieces rfl)
      exact (congrArg (character value :: ·) rest).trans (scan_of_leading? none).symm

/-- **The pieces of a text are its only scan.** -/
theorem isScan_iff : IsScan text pieces ↔ pieces = text.pieces :=
  ⟨IsScan.eq_scan, fun same => same ▸ isScan_scan text⟩

end Scans

/-! ## Line by line -/

/-- The pieces of lines, with newlines between them. -/
def joined : List (List Piece) → List Piece
  | [] => []
  | [row] => row
  | row :: rows => row ++ character '\n' :: joined rows

theorem joined_cons (row : List Piece) {rows : List (List Piece)} (more : rows ≠ []) :
    joined (row :: rows) = row ++ character '\n' :: joined rows := by
  cases rows with
  | nil => exact absurd rfl more
  | cons _ _ => rfl

theorem kept_joined (rows : List (List Piece)) : kept (joined rows) = unlines (rows.map kept) := by
  induction rows with
  | nil => rfl
  | cons row rows ih =>
    by_cases last : rows = []
    · subst last
      exact (unlines_singleton _).symm
    · rw [joined_cons row last, List.map_cons, unlines_cons _ (by simpa using last), ← ih,
        kept_append, kept_character]

/-- Two scans with a newline between them are a scan. -/
theorem IsScan.append_newline {row after : Text} {above pieces : List Piece}
    (scanned : IsScan row above) (scanned' : IsScan after pieces) :
    IsScan (row ++ '\n' :: after) (above ++ character '\n' :: pieces) := by
  constructor
  · rw [spelled_append, spelled_cons, scanned.spells, scanned'.spells]
    rfl
  · intro before value rest same marker leads
    -- the character is above the newline, the newline itself, or below it
    rcases List.append_eq_append_iff.1 same with ⟨between, -, parts⟩ | ⟨between, rfl, parts⟩
    · cases between with
      | nil =>
        cases parts
        exact marker.text_ne_nil (List.prefix_nil.1 (Marker.prefix_of_prefix_newline leads))
      | cons _ between =>
        exact scanned'.leftmost between value rest (List.cons.inj parts).2 marker leads
    · cases between with
      | nil =>
        cases parts
        exact marker.text_ne_nil (List.prefix_nil.1 (Marker.prefix_of_prefix_newline leads))
      | cons _ between =>
        obtain ⟨rfl, below⟩ := List.cons.inj parts
        have written : rest = between ++ character '\n' :: pieces := below
        refine scanned.leftmost before value between rfl marker ?_
        rw [written, spelled_append] at leads
        exact @Marker.prefix_of_prefix_newline marker (value :: spelled between) _ leads

/-- Each line is scanned as a text of its own. -/
theorem forall₂_isScan_iff {texts : List Text} {rows : List (List Piece)} :
    List.Forall₂ IsScan texts rows ↔ rows = texts.map Text.pieces := by
  constructor
  · intro scanned
    induction scanned with
    | nil => rfl
    | cons first _ ih => rw [List.map_cons, isScan_iff.1 first, ih]
  · rintro rfl
    exact List.forall₂_map_right_iff.2 (List.forall₂_same.2 fun text _ => isScan_scan text)

theorem pieces_unlines {texts : List Text} (some : texts ≠ []) :
    (unlines texts).pieces = joined (texts.map Text.pieces) := by
  refine (isScan_iff.1 ?_).symm
  induction texts with
  | nil => exact absurd rfl some
  | cons row rows ih =>
    by_cases last : rows = []
    · subst last
      rw [unlines_singleton]
      exact isScan_scan row
    · rw [unlines_cons row last, List.map_cons, joined_cons _ (by simpa using last)]
      exact (isScan_scan row).append_newline (ih last)

/-- **A text is scanned line by line.** -/
theorem pieces_eq_joined (text : Text) : text.pieces = joined ((lines text).map Text.pieces) := by
  rw [← pieces_unlines (lines_ne_nil text), unlines_lines]

end Piece

namespace Sample

open Piece

/-- **The lines of the code are what is kept of the lines.** -/
theorem lines_code (marked : Text) (unmarked : Position) :
    lines (decode marked unmarked).code = ((lines marked).map Text.pieces).map kept := by
  have code : (decode marked unmarked).code =
      unlines (((lines marked).map Text.pieces).map kept) := by
    rw [← kept_joined, ← pieces_eq_joined]
    rfl
  rw [code, lines_unlines (by simpa using lines_ne_nil marked)]
  intro row member
  rw [List.map_map, List.mem_map] at member
  obtain ⟨line, inText, rfl⟩ := member
  have fewer := kept_sublist line.pieces
  rw [(isScan_iff.2 rfl : IsScan line line.pieces).spells] at fewer
  exact fun newline => notMem_of_mem_lines inText (fewer.subset newline)

end Sample
end Retouch
