import Retouch.Proofs.Buffer.Scan

/-!
# The anchor of a marked selection

The markers of a text may stand in any order.  The first `[cursor]` and every `[start]` anchor the
selection: they put a cursor at their place, whatever was selected before
(`Piece.IsAnchor`).  An `[end]` moves the stop there, but it is the ends that are put in order, so
that an `[end]` in front of the start would become the start.

Behind the last anchor this does not happen, since the places of markers ascend.  There each
`[end]` only replaces the stop that the one before it gave (`Sample.foldl_step_extends`).  **The
selection goes from the last anchor to the last `[end]` behind it** (`Sample.decode_follows_scan`);
the markers in front of the anchor, and every `[cursor]` after the first, are as good as absent.
-/

set_option autoImplicit false

namespace Retouch

open Text

namespace Piece

/-! ## Anchors -/

/-- Whether a marker anchors the selection: every start, and a cursor that no other is before. -/
def IsAnchor (before : List Piece) : Marker → Prop
  | .cursor => marker .cursor ∉ before
  | .start => True
  | .stop => False

instance (before : List Piece) : DecidablePred (IsAnchor before)
  | .cursor => inferInstanceAs (Decidable (_ ∉ _))
  | .start => .isTrue trivial
  | .stop => .isFalse id

/-- Whether no marker among pieces is an anchor. -/
def NoAnchor (before after : List Piece) : Prop :=
  ∀ inner found rest, after = inner ++ marker found :: rest → ¬ IsAnchor (before ++ inner) found

/-- The last anchor among pieces. -/
structure IsLastAnchor (pieces before : List Piece) (anchor : Marker) (after : List Piece) :
    Prop where
  parts : pieces = before ++ marker anchor :: after
  anchors : IsAnchor before anchor
  last : NoAnchor (before ++ [marker anchor]) after

section Anchors

variable {before after pieces : List Piece} {piece : Piece} {anchor found : Marker}

theorem NoAnchor.nil (before : List Piece) : NoAnchor before [] :=
  fun _ _ _ same => absurd same.symm (List.append_ne_nil_of_right_ne_nil _ (List.cons_ne_nil _ _))

theorem noAnchor_cons_iff : NoAnchor before (piece :: after) ↔
    (∀ found, piece = marker found → ¬ IsAnchor before found) ∧
      NoAnchor (before ++ [piece]) after := by
  constructor
  · intro none
    constructor
    · rintro found rfl
      simpa using none [] found after rfl
    · intro inner found rest same
      simpa using none (piece :: inner) found rest (by rw [same]; rfl)
  · rintro ⟨here, none⟩ inner found rest same
    cases inner with
    | nil =>
      rw [List.append_nil]
      exact here found (List.cons.inj same).1
    | cons first inner =>
      obtain ⟨rfl, below⟩ := List.cons.inj same
      simpa using none inner found rest below

instance decidableNoAnchor : ∀ before after, Decidable (NoAnchor before after)
  | before, [] => .isTrue (.nil before)
  | before, .character value :: after =>
    have := decidableNoAnchor (before ++ [character value]) after
    decidable_of_iff (NoAnchor (before ++ [character value]) after) (by simp [noAnchor_cons_iff])
  | before, .marker found :: after =>
    have := decidableNoAnchor (before ++ [marker found]) after
    decidable_of_iff (¬ IsAnchor before found ∧ NoAnchor (before ++ [marker found]) after)
      (by simp [noAnchor_cons_iff])

/-- Behind other pieces there is a last anchor or none. -/
theorem exists_isLastAnchor_or_noAnchor (before after : List Piece) :
    (∃ inner anchor rest, IsLastAnchor (before ++ after) inner anchor rest) ∨
      NoAnchor before after := by
  induction after generalizing before with
  | nil => exact .inr (.nil before)
  | cons piece after ih =>
    rcases ih (before ++ [piece]) with ⟨inner, anchor, rest, last⟩ | none
    · exact .inl ⟨inner, anchor, rest, by simpa using last⟩
    · by_cases here : ∃ found, piece = marker found ∧ IsAnchor before found
      · obtain ⟨found, rfl, anchors⟩ := here
        exact .inl ⟨before, found, after, rfl, anchors, none⟩
      · exact .inr (noAnchor_cons_iff.2
          ⟨fun found same anchors => here ⟨found, same, anchors⟩, none⟩)

/-- A cursor that is no anchor has another one before it. -/
theorem NoAnchor.cursor_mem (none : NoAnchor before after) (member : marker .cursor ∈ after) :
    marker .cursor ∈ before := by
  obtain ⟨inner, rest, same, first⟩ := List.eq_append_cons_of_mem member
  have earlier : marker .cursor ∈ before ++ inner :=
    Decidable.not_not.1 (none inner .cursor rest same)
  exact (List.mem_append.1 earlier).resolve_right first

/-- Whether each marker among pieces stands at a position: words count what is kept before it. -/
def IsPlaced (pieces : List Piece) : Prop :=
  ∀ before found rest, pieces = before ++ marker found :: rest → (kept before).IsCounted

/-- In a text whose characters are counted by a word every marker stands at a position. -/
theorem isPlaced_of_length_lt {text : Text} (short : text.length < 2 ^ 32) :
    IsPlaced text.pieces := by
  intro before found rest same
  have whole : spelled text.pieces = text := (isScan_iff.2 rfl : IsScan text text.pieces).spells
  rw [same, spelled_append] at whole
  have fewer := (kept_sublist before).length_le
  rw [← whole, List.length_append] at short
  exact (fits_of_length_lt (by omega)).isCounted

theorem IsPlaced.reach_le_reach {inner rest : List Piece} (placed : IsPlaced pieces)
    (parts : pieces = before ++ marker anchor :: after)
    (beyond : after = inner ++ marker found :: rest) :
    reach (kept before) ≤ reach (kept (before ++ marker anchor :: inner)) := by
  have parts' : pieces = (before ++ marker anchor :: inner) ++ marker found :: rest := by
    rw [parts, beyond, List.append_assoc, List.cons_append]
  have begins : kept before <+: kept (before ++ marker anchor :: inner) := by simp
  rw [(placed before anchor after parts).reach_le_iff (placed _ found rest parts') begins
    List.prefix_rfl]
  exact begins.length_le

theorem IsPlaced.hasPlace (placed : IsPlaced pieces)
    (parts : pieces = before ++ marker found :: after) :
    (kept pieces).HasPlace (reach (kept before)) :=
  (placed before found after parts).hasPlace_reach (by rw [parts, kept_append]; simp)

end Anchors

/-! ## Extending a selection -/

/-- **A selection extended by the stop markers among pieces**: it starts as before, and it stops
at the last of them, or as before if there are none. -/
structure Extends (before after : List Piece) (old new : Selection) : Prop where
  start : new.start = old.start
  stop : ∀ inner rest, after = inner ++ marker .stop :: rest → marker .stop ∉ rest →
    new.stop = reach (kept (before ++ inner))
  otherwise : marker .stop ∉ after → new.stop = old.stop

section Extending

variable {before after : List Piece} {old new : Selection}

theorem Extends.nil (before : List Piece) (selection : Selection) :
    Extends before [] selection selection :=
  ⟨rfl, fun _ _ same => absurd same.symm
    (List.append_ne_nil_of_right_ne_nil _ (List.cons_ne_nil _ _)), fun _ => rfl⟩

theorem Extends.cons {piece : Piece} (extended : Extends (before ++ [piece]) after old new)
    (other : piece ≠ marker .stop) : Extends before (piece :: after) old new := by
  refine ⟨extended.start, fun inner rest same later => ?_,
    fun none => extended.otherwise fun member => none (List.mem_cons_of_mem _ member)⟩
  cases inner with
  | nil => exact absurd (List.cons.inj same).1 other
  | cons first inner =>
    obtain ⟨rfl, below⟩ := List.cons.inj same
    simpa using extended.stop inner rest below later

theorem Extends.cons_stop (ordered : old.start ≤ reach (kept before))
    (extended : Extends (before ++ [marker .stop]) after ⟨old.start, reach (kept before), ordered⟩
      new) : Extends before (marker .stop :: after) old new := by
  refine ⟨extended.start, fun inner rest same later => ?_,
    fun none => absurd List.mem_cons_self none⟩
  cases inner with
  | nil =>
    obtain rfl : after = rest := (List.cons.inj same).2
    rw [List.append_nil]
    exact extended.otherwise later
  | cons first inner =>
    obtain ⟨rfl, below⟩ := List.cons.inj same
    simpa using extended.stop inner rest below later

/-- Either there is a last stop marker or there is none. -/
theorem Extends.stop_cases (extended : Extends before after old new) :
    (∃ inner rest, after = inner ++ marker .stop :: rest ∧
      new.stop = reach (kept (before ++ inner))) ∨ new.stop = old.stop := by
  by_cases member : marker .stop ∈ after
  · obtain ⟨later, earlier, same, none⟩ := List.eq_append_cons_of_mem (List.mem_reverse.2 member)
    have parts : after = earlier.reverse ++ marker .stop :: later.reverse := by
      rw [← List.reverse_reverse after, same]
      simp
    exact .inl ⟨_, _, parts, extended.stop _ _ parts (by simpa using none)⟩
  · exact .inr (extended.otherwise member)

end Extending
end Piece

namespace Sample

open Piece

/-! ## Reading -/

section Run

variable {before after : List Piece} {reading reading' : Reading}

/-- **What a reading knows of the pieces before it**: the position that their characters reach, and
whether there has been a cursor. -/
structure Reading.Follows (reading : Reading) (before : List Piece) : Prop where
  position : reading.position = reach (kept before)
  cursorSeen : reading.cursorSeen = true ↔ .marker .cursor ∈ before

theorem Reading.Follows.step (follows : reading.Follows before) (piece : Piece) :
    (reading.step piece).Follows (before ++ [piece]) := by
  cases piece with
  | character value =>
    refine ⟨?_, by simpa [Reading.step] using follows.cursorSeen⟩
    rw [kept_append, kept_character, kept_nil, reach_concat, ← follows.position]
    rfl
  | marker found =>
    have same : reading.position = reach (kept (before ++ [.marker found])) := by
      rw [kept_append, kept_marker, kept_nil, List.append_nil]
      exact follows.position
    cases found with
    | cursor =>
      rw [Reading.step]
      split
      · rename_i seen
        exact ⟨same, iff_of_true seen (by simp)⟩
      · exact ⟨same, iff_of_true rfl (by simp)⟩
    | start => exact ⟨same, by simpa [Reading.step] using follows.cursorSeen⟩
    | stop => exact ⟨same, by simpa [Reading.step] using follows.cursorSeen⟩

theorem Reading.Follows.foldl (follows : reading.Follows before) (after : List Piece) :
    (after.foldl Reading.step reading).Follows (before ++ after) := by
  induction after generalizing before reading with
  | nil =>
    rw [List.append_nil]
    exact follows
  | cons piece after ih =>
    rw [List.append_cons]
    exact ih (follows.step piece)

theorem cursorSeen_step (seen : reading.cursorSeen = true) (piece : Piece) :
    (reading.step piece).cursorSeen = true := by
  cases piece with
  | character value => exact seen
  | marker found => cases found <;> simp [Reading.step, seen]

/-- **Where no marker is an anchor the selection is extended** by the stop markers, provided that
none of them is in front of its start. -/
theorem foldl_step_extends (follows : reading.Follows before) (none : NoAnchor before after)
    (ordered : ∀ inner rest, after = inner ++ .marker .stop :: rest →
      reading.selection.start ≤ reach (kept (before ++ inner))) :
    Extends before after reading.selection (after.foldl Reading.step reading).selection := by
  induction after generalizing before reading with
  | nil => exact .nil before _
  | cons piece after ih =>
    obtain ⟨noAnchor, none⟩ := noAnchor_cons_iff.1 none
    have next := follows.step piece
    have ordered' : ∀ inner rest, after = inner ++ .marker .stop :: rest →
        reading.selection.start ≤ reach (kept (before ++ [piece] ++ inner)) := by
      intro inner rest same
      simpa using ordered (piece :: inner) rest (by rw [same]; rfl)
    rw [List.foldl_cons]
    cases piece with
    | character value => exact (ih next none ordered').cons (by simp)
    | marker found =>
      cases found with
      | cursor =>
        -- only a cursor that is not the first is no anchor, and that one is passed over
        have seen := follows.cursorSeen.2 (Decidable.not_not.1 (noAnchor .cursor rfl))
        have same : reading.step (.marker .cursor) = reading := by rw [Reading.step, if_pos seen]
        rw [same] at next ⊢
        exact (ih next none ordered').cons (by simp)
      | start => exact absurd trivial (noAnchor .start rfl)
      | stop =>
        have here : reading.selection.start ≤ reach (kept before) := by
          simpa using ordered [] after rfl
        have moved : (reading.step (.marker .stop)).selection =
            ⟨reading.selection.start, reach (kept before), here⟩ := by
          show reading.selection.extendStopTo reading.position = _
          rw [Selection.extendStopTo, follows.position, Selection.between_of_le here]
        have extended := ih next none (by rw [moved]; exact ordered')
        rw [moved] at extended
        exact extended.cons_stop here

/-- A cursor that is no anchor changes nothing: reading goes on as without it. -/
theorem selection_foldl_filter (position : reading.position = reading'.position)
    (selection : reading.selection = reading'.selection)
    (seen : .marker .cursor ∈ after → reading.cursorSeen = true) :
    ((after.filter (· ≠ .marker .cursor)).foldl Reading.step reading').selection =
      (after.foldl Reading.step reading).selection := by
  induction after generalizing reading reading' with
  | nil => exact selection.symm
  | cons piece after ih =>
    by_cases cursor : piece = .marker .cursor
    · subst cursor
      have same : reading.step (.marker .cursor) = reading := by
        rw [Reading.step, if_pos (seen List.mem_cons_self)]
      rw [List.filter_cons_of_neg (by simp), List.foldl_cons, same]
      exact ih position selection fun _ => seen List.mem_cons_self
    · rw [List.filter_cons_of_pos (by simpa using cursor), List.foldl_cons, List.foldl_cons]
      refine ih ?_ ?_ fun member => cursorSeen_step (seen (List.mem_cons_of_mem _ member)) piece
      · cases piece with
        | character value => simp [Reading.step, position]
        | marker found => cases found <;> simp_all [Reading.step]
      · cases piece with
        | character value => simp [Reading.step, selection]
        | marker found => cases found <;> simp_all [Reading.step]

end Run

/-! ## What is selected -/

section Selected

variable {pieces before after : List Piece} {anchor : Marker}

/-- The reading of pieces from the beginning. -/
def readingOf (pieces : List Piece) (unmarked : Position) : Reading :=
  pieces.foldl Reading.step ⟨.zero, false, .cursorAt unmarked⟩

theorem readingOf_append (pieces more : List Piece) (unmarked : Position) :
    readingOf (pieces ++ more) unmarked = more.foldl Reading.step (readingOf pieces unmarked) :=
  List.foldl_append

theorem readingOf_append_cons (before : List Piece) (piece : Piece) (after : List Piece)
    (unmarked : Position) : readingOf (before ++ piece :: after) unmarked =
      after.foldl Reading.step (readingOf (before ++ [piece]) unmarked) := by
  rw [List.append_cons, readingOf_append]

theorem selection_decode (marked : Text) (unmarked : Position) :
    (decode marked unmarked).selection = (readingOf marked.pieces unmarked).selection := rfl

theorem follows_readingOf (pieces : List Piece) (unmarked : Position) :
    (readingOf pieces unmarked).Follows pieces := by
  have begun : (⟨.zero, false, .cursorAt unmarked⟩ : Reading).Follows [] :=
    ⟨rfl, iff_of_false Bool.false_ne_true List.not_mem_nil⟩
  exact begun.foldl pieces

/-- An anchor puts a cursor at its place. -/
theorem selection_readingOf_anchor (anchors : IsAnchor before anchor) (unmarked : Position) :
    (readingOf (before ++ [marker anchor]) unmarked).selection =
      .cursorAt (reach (kept before)) := by
  have follows := follows_readingOf before unmarked
  rw [readingOf_append, ← follows.position, List.foldl_cons, List.foldl_nil]
  cases anchor with
  | cursor => rw [Reading.step, if_neg fun seen => anchors (follows.cursorSeen.1 seen)]
  | start => rfl
  | stop => exact anchors.elim

theorem extends_of_isLastAnchor (last : IsLastAnchor pieces before anchor after)
    (placed : IsPlaced pieces) (unmarked : Position) :
    Extends (before ++ [marker anchor]) after (.cursorAt (reach (kept before)))
      (readingOf pieces unmarked).selection := by
  have selected := selection_readingOf_anchor last.anchors unmarked
  rw [last.parts, readingOf_append_cons, ← selected]
  refine foldl_step_extends (follows_readingOf _ _) last.last fun inner rest same => ?_
  rw [selected, Selection.cursorAt]
  simpa using placed.reach_le_reach last.parts same

/-- Only the last anchor counts and the stop markers behind it. -/
theorem selection_readingOf_filter (last : IsLastAnchor pieces before anchor after)
    (unmarked unmarked' : Position) :
    (readingOf ((kept before).map character ++
        marker anchor :: after.filter (· ≠ marker .cursor)) unmarked').selection =
      (readingOf pieces unmarked).selection := by
  have anchors' : IsAnchor ((kept before).map character) anchor := by
    have anchors := last.anchors
    cases anchor with
    | cursor => simp [IsAnchor]
    | start => exact trivial
    | stop => exact anchors
  have same : kept ((kept before).map character) = kept before := filterMap_character _
  have selected := selection_readingOf_anchor last.anchors unmarked
  have selected' := selection_readingOf_anchor anchors' unmarked'
  rw [same] at selected'
  rw [last.parts, readingOf_append_cons before, readingOf_append_cons _ _ (after.filter _)]
  refine selection_foldl_filter ?_ (selected.trans selected'.symm)
    fun member => (follows_readingOf _ _).cursorSeen.2 (last.last.cursor_mem member)
  rw [(follows_readingOf _ _).position, (follows_readingOf _ _).position, kept_append, kept_append,
    same]

theorem extends_of_noAnchor (none : NoAnchor [] pieces) (placed : IsPlaced pieces)
    {unmarked : Position}
    (ordered : ∀ before after, pieces = before ++ marker .stop :: after →
      marker .stop ∉ before → unmarked ≤ reach (kept before)) :
    Extends [] pieces (.cursorAt unmarked) (readingOf pieces unmarked).selection := by
  refine foldl_step_extends (follows_readingOf [] unmarked) none fun inner rest same => ?_
  show unmarked ≤ reach (kept ([] ++ inner))
  rw [List.nil_append]
  by_cases earlier : marker .stop ∈ inner
  · -- the first of them is the one that the position is not after
    obtain ⟨before, between, rfl, first⟩ := List.eq_append_cons_of_mem earlier
    have parts : pieces = before ++ marker .stop :: (between ++ marker .stop :: rest) := by
      rw [same, List.append_assoc, List.cons_append]
    exact le_trans (ordered _ _ parts first) (placed.reach_le_reach parts rfl)
  · exact ordered inner rest same earlier

/-- **A marked text is read as its scan says.**  There is one scan of each line; the code has as
many lines, and each of them is what the scan has kept.  Suppose that each marker stands at a
position, as it does in every text of less than `2 ^ 32` characters.  If there is an anchor, the
selection starts at the last one and stops at the last `[end]` behind it, if there is any, or where
it starts; both of its ends are in the code; and it is what is selected without the markers in front
of the anchor and the cursors behind it, wherever reading starts from.  If there is none and the
first `[end]` is not in front of the given position, the selection starts at this position and stops
at the last `[end]`. -/
theorem decode_follows_scan (marked : Text) (unmarked : Position) :
    ∃ rows, List.Forall₂ IsScan (lines marked) rows ∧
      (∀ others, List.Forall₂ IsScan (lines marked) others → others = rows) ∧
      let sample := decode marked unmarked
      let pieces := joined rows
      lines sample.code = rows.map kept ∧
      (lines sample.code).length = (lines marked).length ∧
      ((∃ before anchor after, IsLastAnchor pieces before anchor after) ∨ NoAnchor [] pieces) ∧
      (IsPlaced pieces →
        (∀ before anchor after, IsLastAnchor pieces before anchor after →
          Extends (before ++ [.marker anchor]) after (.cursorAt (reach (kept before)))
            sample.selection ∧
          sample.code.HasPlace sample.selection.start ∧
          sample.code.HasPlace sample.selection.stop ∧
          ∀ unmarked', (readingOf ((kept before).map .character ++
            .marker anchor :: after.filter (· ≠ .marker .cursor)) unmarked').selection =
              sample.selection) ∧
        (NoAnchor [] pieces →
          (∀ before after, pieces = before ++ .marker .stop :: after → .marker .stop ∉ before →
            unmarked ≤ reach (kept before)) →
          Extends [] pieces (.cursorAt unmarked) sample.selection)) := by
  have rows := lines_code marked unmarked
  refine ⟨(lines marked).map Text.pieces, forall₂_isScan_iff.2 rfl,
    fun others => forall₂_isScan_iff.1, rows, by rw [rows]; simp, ?_⟩
  rw [← pieces_eq_joined]
  refine ⟨exists_isLastAnchor_or_noAnchor [] marked.pieces, fun placed => ⟨?_, ?_⟩⟩
  · intro before anchor after last
    have extended := extends_of_isLastAnchor last placed unmarked
    have start := placed.hasPlace last.parts
    refine ⟨extended, by rw [selection_decode, extended.start]; exact start, ?_,
      fun unmarked' => selection_readingOf_filter last unmarked unmarked'⟩
    rw [selection_decode]
    rcases extended.stop_cases with ⟨inner, rest, same, stop⟩ | stop
    · have parts : marked.pieces =
          before ++ [.marker anchor] ++ inner ++ .marker .stop :: rest := by
        rw [last.parts, same]
        simp
      rw [stop]
      exact placed.hasPlace parts
    · rw [stop]
      exact start
  · exact fun none ordered => extends_of_noAnchor none placed ordered

/-- Markers before and after a start, of which only one counts beside it. -/
def interleaved : Text :=
  "a[end]b[cursor]c[end]\nd[start]é[end][cursor]f[end]g[cursor]".toList

theorem decode_follows_scan_interleaved :
    IsPlaced interleaved.pieces ∧
      IsLastAnchor interleaved.pieces (interleaved.pieces.take 8) .start
        (interleaved.pieces.drop 9) ∧
      decode interleaved ⟨9, 9⟩ = ⟨"abc\ndéfg".toList, .between ⟨1, 1⟩ ⟨1, 3⟩⟩ := by
  have placed : IsPlaced interleaved.pieces := isPlaced_of_length_lt (by decide)
  have last : IsLastAnchor interleaved.pieces (interleaved.pieces.take 8) .start
      (interleaved.pieces.drop 9) := ⟨by decide, trivial, by decide⟩
  obtain ⟨rows, scanned, -, -, -, -, selected⟩ := decode_follows_scan interleaved ⟨9, 9⟩
  obtain rfl := forall₂_isScan_iff.1 scanned
  rw [← pieces_eq_joined] at selected
  obtain ⟨extended, -⟩ := (selected placed).1 _ _ _ last
  have start : (decode interleaved ⟨9, 9⟩).selection.start = ⟨1, 1⟩ := extended.start
  have stop : (decode interleaved ⟨9, 9⟩).selection.stop = ⟨1, 3⟩ :=
    extended.stop ((interleaved.pieces.drop 9).take 4) ((interleaved.pieces.drop 9).drop 5)
      (by decide) (by decide)
  refine ⟨placed, last, ?_⟩
  rw [Sample.mk.injEq]
  exact ⟨by decide, Selection.ext start stop⟩

end Selected
end Sample
end Retouch
