import Mathlib.Data.List.Flatten
import Retouch.Buffer.Decorated
import Retouch.Proofs.Buffer.Insertion
import Retouch.Proofs.Text.Bytes

/-!
# Showing highlights is a batch of insertions

The markers of the highlights can be written into a code in two ways: in one pass from
its beginning to its end, which puts the markers of a position where it is reached
(`render`), or as one batch of insertions, all closing markers before all opening ones
(`insertions`), less those whose positions are no places of the code.  A position can be
reached that is no place only in a code with more lines or columns than positions can
count, where the count starts again, so the second way is the same as the first for every
code that fits, and otherwise as long as the highlights keep to positions that are reached
once (`apply_insertionsIn`).
-/

set_option autoImplicit false

namespace Retouch

open Text

/-- Whether a position is reached nowhere in a text but at the place that it names. -/
def Text.Locates (text : Text) (position : Position) : Prop :=
  ∀ before, before <+: text → reach before = position →
    text.HasPlace position ∧ text.offsetOf position = before.length

theorem Text.Fits.locates {text : Text} (fits : text.Fits) (position : Position) :
    text.Locates position := by
  rintro before begins rfl
  exact ⟨(fits.of_prefix begins).hasPlace_reach begins,
    (fits.of_prefix begins).offsetOf_reach begins⟩

/-- A beginning reaches the place at which it ends. -/
theorem Text.HasPlace.reach_eq {text before : Text} {position : Position}
    (place : text.HasPlace position) (begins : before <+: text)
    (ending : text.offsetOf position = before.length) : reach before = position := by
  rw [← reach_take_offsetOf place, ending, ← List.prefix_iff_eq_take.1 begins]

section Filtered

variable {α β : Type} {list : List α} {kept : α → Bool} {text : α → List β}

/-- Nothing is left out of a list when no text of it goes missing. -/
theorem all_of_length_flatMap_le_filter (written : ∀ member ∈ list, text member ≠ [])
    (total : (list.flatMap text).length ≤ ((list.filter kept).flatMap text).length) :
    ∀ member ∈ list, kept member = true := by
  induction list with
  | nil => exact List.forall_mem_nil _
  | cons first rest ih =>
    have fewer : ((rest.filter kept).flatMap text).length ≤ (rest.flatMap text).length :=
      (List.filter_sublist.flatMap text).length_le
    have positive := List.length_pos_iff.2 (written first List.mem_cons_self)
    rw [List.flatMap_cons, List.length_append, List.filter_cons] at total
    split at total
    · rename_i here
      rw [List.flatMap_cons, List.length_append] at total
      exact List.forall_mem_cons.2 ⟨here, ih
        (fun member inside => written member (List.mem_cons_of_mem _ inside)) (by omega)⟩
    · omega

end Filtered

namespace Highlights

/-! ## One pass -/

theorem decorate_reach (decorations : List (Selection × Nat)) (before rest : Text) :
    decorate decorations (reach before) rest =
      strewn (fun beginning => markersAt decorations (reach beginning)) before rest := by
  induction rest generalizing before with
  | nil => rfl
  | cons character rest ih => rw [decorate, strewn, ← reach_concat, ih]

theorem render_eq_strewn (highlights : Highlights) (code : Text) :
    highlights.render code =
      strewn (fun beginning => markersAt highlights.decorations (reach beginning)) [] code :=
  decorate_reach highlights.decorations [] code

/-! ## One batch -/

/-- The end of a decoration is shown unless its start shows it. -/
def closing? : Selection × Nat → Option Edit
  | (range, color) =>
    if range.isEmpty then none else some (.insertAt range.stop (closingMarker color))

def opening : Selection × Nat → Edit
  | (range, color) => .insertAt range.start (markerAtStart range color)

/-- All closing markers and then all opening ones, each in the order of the decorations. -/
def insertions (highlights : Highlights) : List Edit :=
  highlights.decorations.filterMap closing? ++ highlights.decorations.map opening

/-- The insertions whose positions are places of a code. -/
def insertionsIn (highlights : Highlights) (code : Text) : List Edit :=
  highlights.insertions.filter fun edit => code.HasPlace edit.selection.start

section Insertions

variable {highlights : Highlights} {edit : Edit} {position : Position}

theorem flatMap_filterMap_closing? (decorations : List (Selection × Nat)) (position : Position) :
    ((decorations.filterMap closing?).filter (·.selection.start = position)).flatMap Edit.code =
      (decorations.filter fun (range, _) => !range.isEmpty && range.stop == position).flatMap
        fun (_, color) => closingMarker color := by
  induction decorations with
  | nil => rfl
  | cons decoration rest ih =>
    obtain ⟨range, color⟩ := decoration
    cases empty : range.isEmpty with
    | true => simpa [closing?, empty] using ih
    | false =>
      by_cases here : range.stop = position
      · simpa [closing?, empty, here, Edit.insertAt, Selection.cursorAt] using ih
      · simpa [closing?, empty, here, Edit.insertAt, Selection.cursorAt] using ih

theorem flatMap_map_opening (decorations : List (Selection × Nat)) (position : Position) :
    ((decorations.map opening).filter (·.selection.start = position)).flatMap Edit.code =
      (decorations.filter fun (range, _) => range.start == position).flatMap
        fun (range, color) => markerAtStart range color := by
  induction decorations with
  | nil => rfl
  | cons decoration rest ih =>
    obtain ⟨range, color⟩ := decoration
    by_cases here : range.start = position
    · simpa [opening, here, Edit.insertAt, Selection.cursorAt] using ih
    · simpa [opening, here, Edit.insertAt, Selection.cursorAt] using ih

/-- The markers of a position are what is inserted there. -/
theorem markersAt_eq (highlights : Highlights) (position : Position) :
    markersAt highlights.decorations position =
      (highlights.insertions.filter (·.selection.start = position)).flatMap Edit.code := by
  rw [insertions, List.filter_append, List.flatMap_append, flatMap_filterMap_closing?,
    flatMap_map_opening]
  rfl

theorem markerAtStart_ne_nil (range : Selection) (color : Nat) :
    markerAtStart range color ≠ [] := by
  rw [markerAtStart]
  split <;> simp [openingMarker, closingMarker]

theorem mem_insertions (member : edit ∈ highlights.insertions) :
    edit.IsInsertion ∧ edit.code ≠ [] := by
  rcases List.mem_append.1 member with member | member
  · obtain ⟨⟨range, color⟩, -, shown⟩ := List.mem_filterMap.1 member
    rw [closing?] at shown
    split at shown
    · contradiction
    · obtain rfl := Option.some.inj shown
      exact ⟨rfl, by simp [Edit.insertAt, closingMarker]⟩
  · obtain ⟨⟨range, color⟩, -, rfl⟩ := List.mem_map.1 member
    exact ⟨rfl, markerAtStart_ne_nil range color⟩

/-- What the batch inserts where a beginning of the code ends is part of what one pass
shows there. -/
theorem codesAt_insertionsIn {code beginning : Text} (begins : beginning <+: code) :
    code.codesAt (highlights.insertionsIn code) beginning.length =
      ((highlights.insertions.filter (·.selection.start = reach beginning)).filter fun edit =>
        code.HasPlace edit.selection.start ∧
          code.offsetOf edit.selection.start = beginning.length).flatMap Edit.code := by
  rw [codesAt, insertionsIn, List.filter_filter, List.filter_filter]
  refine congrArg (List.flatMap Edit.code) (List.filter_congr fun edit _ => ?_)
  rw [← Bool.decide_and, ← Bool.decide_and, decide_eq_decide]
  constructor
  · rintro ⟨ending, place⟩
    exact ⟨⟨place, ending⟩, (place.reach_eq begins ending).symm⟩
  · rintro ⟨⟨place, ending⟩, -⟩
    exact ⟨ending, place⟩

/-- No more is inserted there than one pass shows. -/
theorem length_codesAt_insertionsIn_le {code beginning : Text} (begins : beginning <+: code) :
    (code.codesAt (highlights.insertionsIn code) beginning.length).length ≤
      (markersAt highlights.decorations (reach beginning)).length := by
  rw [codesAt_insertionsIn begins, markersAt_eq]
  exact (List.filter_sublist.flatMap Edit.code).length_le

/-- It is all of that just when the markers shown there are at their places. -/
theorem length_codesAt_insertionsIn_eq_iff {code beginning : Text} (begins : beginning <+: code) :
    (code.codesAt (highlights.insertionsIn code) beginning.length).length =
        (markersAt highlights.decorations (reach beginning)).length ↔
      ∀ edit ∈ highlights.insertions, edit.selection.start = reach beginning →
        code.HasPlace edit.selection.start ∧
          code.offsetOf edit.selection.start = beginning.length := by
  rw [codesAt_insertionsIn begins, markersAt_eq]
  constructor
  · intro equal edit member here
    have written : ∀ edit ∈ highlights.insertions.filter (·.selection.start = reach beginning),
        edit.code ≠ [] := fun edit member => (mem_insertions (List.mem_filter.1 member).1).2
    exact of_decide_eq_true (all_of_length_flatMap_le_filter written (le_of_eq equal.symm) edit
      (List.mem_filter.2 ⟨member, decide_eq_true here⟩))
  · intro atPlaces
    rw [List.filter_eq_self.2]
    intro edit member
    obtain ⟨member, here⟩ := List.mem_filter.1 member
    exact decide_eq_true (atPlaces edit member (of_decide_eq_true here))

/-- The batch strews the code with the markers that one pass shows just when each of them
is at its place wherever its position is reached. -/
theorem strewn_insertionsIn_eq_render_iff (highlights : Highlights) (code : Text) :
    strewn (fun beginning => code.codesAt (highlights.insertionsIn code) beginning.length) [] code =
        highlights.render code ↔
      ∀ edit ∈ highlights.insertions, code.Locates edit.selection.start := by
  rw [render_eq_strewn]
  constructor
  · intro same edit member beginning begins reaches
    have equal := length_eq_of_length_strewn_le
      (fun _ _ begins => length_codesAt_insertionsIn_le begins)
      (le_of_eq (congrArg List.length same.symm)) beginning List.nil_prefix begins
    exact (length_codesAt_insertionsIn_eq_iff begins).1 equal edit member reaches.symm
  · intro located
    refine strewn_congr fun beginning _ begins => ?_
    rw [List.nil_append] at begins
    have equal := (length_codesAt_insertionsIn_eq_iff begins).2 fun edit member here =>
      located edit member beginning begins here.symm
    -- Of the markers of a position the batch has some, in their order: all, if as many.
    rw [codesAt_insertionsIn begins, markersAt_eq] at equal ⊢
    exact (List.filter_sublist.flatMap Edit.code).eq_of_length equal

end Insertions

/-- **Showing highlights agrees with editing.**  The insertions at places of the code are
accepted as one batch.  The result is the code shown with its highlights when the code
fits, and in general just when every position of a marker is reached only as the place
that it names.  Nothing of the code is lost in showing it. -/
theorem apply_insertionsIn (highlights : Highlights) (code : Text) :
    ∃ edited, (Grid.ofText code).apply (highlights.insertionsIn code) = (.ok (), edited) ∧
      (code.Fits → edited.text = highlights.render code) ∧
      (edited.text = highlights.render code ↔
        ∀ edit ∈ highlights.insertions, code.Locates edit.selection.start) ∧
      code.Sublist (highlights.render code) := by
  have insertions : ∀ edit ∈ highlights.insertionsIn code, edit.IsInsertion :=
    fun edit member => (mem_insertions (List.mem_filter.1 member).1).1
  have inside : ∀ edit ∈ highlights.insertionsIn code, code.HasPlace edit.selection.start :=
    fun edit member => of_decide_eq_true (List.mem_filter.1 member).2
  refine ⟨_, Grid.apply_insertions insertions inside, ?_, ?_, ?_⟩
  · rw [Grid.text_ofText, strewn_insertionsIn_eq_render_iff]
    exact fun fits edit _ => fits.locates edit.selection.start
  · rw [Grid.text_ofText, strewn_insertionsIn_eq_render_iff]
  · rw [render_eq_strewn]
    exact sublist_strewn _ _ _

example : render ⟨[⟨.between ⟨0, 0⟩ ⟨0, 1⟩, [.cursorAt ⟨0, 1⟩], 0⟩, ⟨.between ⟨0, 1⟩ ⟨7, 0⟩, [], 1⟩], 2⟩
    "ab".toList = "[h0]a[/h0][h0][/h0][h1]b".toList := by decide

end Highlights
end Retouch
