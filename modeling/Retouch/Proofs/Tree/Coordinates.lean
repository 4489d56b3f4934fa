import Retouch.Proofs.Buffer.Read
import Retouch.Proofs.Selection
import Retouch.Proofs.Text.Bytes
import Retouch.Tree.Node

/-!
# The coordinates of a tree are those of a buffer

A tree counts bytes, a buffer counts lines and characters.  On a text whose coordinates
are words the two agree (`bytes_agree_with_positions`): the positions found for byte
offsets are the places of the buffer, in the same order and each once, and what a
buffer reads between two of them are the bytes between the offsets.  In particular a
buffer reads the text of a node in the range of the node, and a node within another has
its range within the other's.
-/

set_option autoImplicit false

namespace Retouch

open Text

namespace Text

/-- A byte offset that stands between two characters, or at an end of a text. -/
def IsBoundary (source : Text) (offset : Nat) : Prop :=
  ∃ before, before <+: source ∧ byteLength before = offset

theorem isSome_splitAtByte?_iff {source : Text} {offset : Nat} :
    (splitAtByte? offset source).isSome = true ↔ source.IsBoundary offset := by
  constructor
  · intro parted
    induction offset, source using splitAtByte?.induct with
    | case1 text => exact ⟨[], List.nil_prefix, rfl⟩
    | case2 offset => cases parted
    | case3 offset first rest fits ih =>
      rw [splitAtByte?, if_pos fits, Option.isSome_map] at parted
      obtain ⟨before, begins, bytes⟩ := ih parted
      refine ⟨first :: before, List.cons_prefix_cons.2 ⟨rfl, begins⟩, ?_⟩
      rw [byteLength, bytes]
      omega
    | case4 offset first rest wide =>
      rw [splitAtByte?, if_neg wide] at parted
      cases parted
  · rintro ⟨before, ⟨after, rfl⟩, rfl⟩
    rw [splitAtByte?_append]
    rfl

theorem IsBoundary.marks {source : Text} {offset : Nat} (boundary : source.IsBoundary offset) :
    Marks source offset (source.pointAt offset) := by
  obtain ⟨before, begins, rfl⟩ := boundary
  exact marks_pointAt begins

section Coordinates

variable {source : Text} {first second : Nat} {point point' : Point}

theorem Marks.hasPlace (fits : Fits source) (marks : Marks source first point) :
    source.HasPlace (source.positionAt first point) := by
  obtain ⟨before, begins, rfl, same⟩ := marks.positionAt_eq
  rw [same]
  exact hasPlace_reach fits begins

/-- Positions stand in the order of the bytes. -/
theorem Marks.le_iff (fits : Fits source) (marks : Marks source first point)
    (marks' : Marks source second point') :
    first ≤ second ↔ source.positionAt first point ≤ source.positionAt second point' := by
  obtain ⟨before, begins, rfl, same⟩ := marks.positionAt_eq
  obtain ⟨before', begins', rfl, same'⟩ := marks'.positionAt_eq
  rw [same, same', reach_le_iff fits begins begins']

/-- Every place of a text is the position of an offset. -/
theorem exists_marks_of_hasPlace {position : Position} (place : source.HasPlace position) :
    ∃ offset point, Marks source offset point ∧ source.positionAt offset point = position := by
  have begins := List.take_prefix (source.offsetOf position) source
  have marks := marks_pointAt begins
  refine ⟨_, _, marks, ?_⟩
  obtain ⟨before, begins', bytes, same⟩ := marks.positionAt_eq
  rw [same, eq_of_byteLength_eq begins' begins bytes, reach_take_offsetOf place]

/-- Between two positions stand the bytes between their offsets. -/
theorem Marks.between_eq (fits : Fits source) (marks : Marks source first point)
    (marks' : Marks source second point') (ordered : first ≤ second) :
    source.slice? first second =
      some (source.between (source.positionAt first point)
        (source.positionAt second point')) := by
  obtain ⟨before, begins, rfl, same⟩ := marks.positionAt_eq
  obtain ⟨before', begins', rfl, same'⟩ := marks'.positionAt_eq
  rw [same, same', between, offsetOf_reach fits begins, offsetOf_reach fits begins']
  obtain ⟨middle, rfl⟩ :=
    List.prefix_of_prefix_length_le begins begins' ((byteLength_le_iff begins begins').1 ordered)
  obtain ⟨after, rfl⟩ := begins'
  rw [slice?_append, List.take_left, List.drop_left]

/-- A buffer reads the bytes between two offsets. -/
theorem Marks.read_eq (fits : Fits source) (marks : Marks source first point)
    (marks' : Marks source second point') (ordered : first ≤ second) :
    ∃ text, source.slice? first second = some text ∧
      (Grid.ofText source).read (.between (source.positionAt first point)
        (source.positionAt second point')) = .ok text := by
  refine ⟨_, marks.between_eq fits marks' ordered, ?_⟩
  rw [Selection.between_of_le ((marks.le_iff fits marks').1 ordered)]
  exact Grid.read_ofText (marks.hasPlace fits) (marks'.hasPlace fits)

end Coordinates
end Text

/-! ## Nodes -/

namespace Node

/-- The position of a byte offset is where the characters before it reach. -/
theorem place_byteLength {before source : Text} (begins : before <+: source) :
    place source (byteLength before) = reach before := by
  obtain ⟨before', begins', bytes, same⟩ := (marks_pointAt begins).positionAt_eq
  rw [place, same, eq_of_byteLength_eq begins' begins bytes]

/-- Whether the ends of a node stand between characters of a source, the start not after
the stop. -/
structure Spans (node : Node) (source : Text) : Prop where
  start : source.IsBoundary node.label.start
  stop : source.IsBoundary node.label.stop
  ordered : node.label.start ≤ node.label.stop

variable {source : Text} {node inner outer : Node}

/-- A buffer reads the text of a node in its range. -/
theorem Spans.read_rangeIn (fits : Fits source) (spans : node.Spans source) :
    (Grid.ofText source).read (node.rangeIn source) = .ok (node.textIn source) := by
  obtain ⟨text, sliced, read⟩ :=
    spans.start.marks.read_eq fits spans.stop.marks spans.ordered
  rw [textIn, sliced]
  exact read

/-- A node within another has its range within the other's. -/
theorem Spans.isInside (fits : Fits source) (spans : inner.Spans source)
    (spans' : outer.Spans source) (starts : outer.label.start ≤ inner.label.start)
    (stops : inner.label.stop ≤ outer.label.stop) :
    (inner.rangeIn source).isInside (outer.rangeIn source) = true := by
  have order {first second : Nat} (boundary : source.IsBoundary first)
      (boundary' : source.IsBoundary second) (ordered : first ≤ second) :
      place source first ≤ place source second :=
    (boundary.marks.le_iff fits boundary'.marks).1 ordered
  rw [rangeIn, rangeIn, Selection.between_of_le (order spans.start spans.stop spans.ordered),
    Selection.between_of_le (order spans'.start spans'.stop spans'.ordered),
    Selection.isInside_iff]
  exact ⟨order spans'.start spans.start starts, order spans.stop spans'.stop stops⟩

end Node

/-- **Bytes and positions agree.**  On a text whose coordinates are words: the positions
of byte offsets are places; they stand in the order of the offsets; every place is the
position of exactly one offset; and a buffer reads between two positions the bytes
between their offsets.  Hence a buffer reads the text of a node in its range, and a node
within another has its range within the other's. -/
theorem bytes_agree_with_positions {source : Text} (fits : Fits source) :
    (∀ offset point, Marks source offset point →
      (Grid.ofText source).holds (source.positionAt offset point) = true) ∧
    (∀ first point second point', Marks source first point → Marks source second point' →
      (first ≤ second ↔ source.positionAt first point ≤ source.positionAt second point')) ∧
    (∀ position, (Grid.ofText source).holds position = true →
      ∃ offset, (∃ point, Marks source offset point ∧
          source.positionAt offset point = position) ∧
        ∀ other point, Marks source other point → source.positionAt other point = position →
          other = offset) ∧
    (∀ first point second point', Marks source first point → Marks source second point' →
      first ≤ second → ∃ text, source.slice? first second = some text ∧
        (Grid.ofText source).read (.between (source.positionAt first point)
          (source.positionAt second point')) = .ok text) ∧
    (∀ node : Node, node.Spans source →
      (Grid.ofText source).read (node.rangeIn source) = .ok (node.textIn source)) ∧
    ∀ inner outer : Node, inner.Spans source → outer.Spans source →
      outer.label.start ≤ inner.label.start → inner.label.stop ≤ outer.label.stop →
        (inner.rangeIn source).isInside (outer.rangeIn source) = true := by
  refine ⟨?_, ?_, ?_, ?_, ?_, ?_⟩
  · intro offset point marks
    exact Grid.holds_ofText_iff.2 (marks.hasPlace fits)
  · intro first point second point' marks marks'
    exact marks.le_iff fits marks'
  · intro position place
    obtain ⟨offset, point, marks, same⟩ :=
      exists_marks_of_hasPlace (Grid.holds_ofText_iff.1 place)
    refine ⟨offset, ⟨point, marks, same⟩, ?_⟩
    intro other point' marks' same'
    have equal : source.positionAt other point' = source.positionAt offset point :=
      same'.trans same.symm
    exact Nat.le_antisymm ((marks'.le_iff fits marks).2 (le_of_eq equal))
      ((marks.le_iff fits marks').2 (le_of_eq equal.symm))
  · intro first point second point' marks marks' ordered
    exact marks.read_eq fits marks' ordered
  · intro node spans
    exact spans.read_rangeIn fits
  · intro inner outer spans spans' starts stops
    exact spans.isInside fits spans' starts stops

/-- Characters of two and of four bytes on both sides of a carriage return and newline. -/
def wideText : Text := ['é', '\r', '\n', '😀', 'b']

theorem bytes_agree_with_positions_wideText :
    Fits wideText ∧ Marks wideText 2 ⟨0, 2⟩ ∧ Marks wideText 8 ⟨1, 4⟩ ∧
      ∃ text, wideText.slice? 2 8 = some text ∧
        (Grid.ofText wideText).read (.between (wideText.positionAt 2 ⟨0, 2⟩)
          (wideText.positionAt 8 ⟨1, 4⟩)) = .ok text := by
  have fits : Fits wideText := by decide
  have marks : Marks wideText 2 ⟨0, 2⟩ :=
    .intro [] ['é'] ['\r', '\n', '😀', 'b'] rfl (.inl rfl) (by decide) rfl rfl rfl
  have marks' : Marks wideText 8 ⟨1, 4⟩ :=
    .intro ['é', '\r', '\n'] ['😀'] ['b'] rfl (.inr rfl) (by decide) rfl rfl rfl
  exact ⟨fits, marks, marks', (bytes_agree_with_positions fits).2.2.2.1 2 ⟨0, 2⟩ 8 ⟨1, 4⟩
    marks marks' (by decide)⟩

end Retouch
