import Retouch.Proofs.Buffer.DocumentOrder
import Retouch.Proofs.Buffer.Splice

/-!
# What a batch of edits does

A buffer answers a batch in one of three ways.  It refuses the first end, in the order
in which the batch is given, that is no place of it; else it refuses two edits that
overlap; else it makes all edits.  A refused batch leaves the buffer as it is, although
edits are made in place: by then every check has passed, so that none of them can fail
(`apply_ofText`).

**Result.** An accepted batch leaves the text with the ranges replaced, in document
order, and everything between them kept (`apply_eq_spliced`).

**Refusal.** Which of the three answers is given, and which overlap is reported, does
not depend on the order in which the batch is given (`apply_outcome`).
-/

set_option autoImplicit false

namespace Retouch

/-- The ends of an edit, in the order in which they are checked. -/
def Edit.ends (edit : Edit) : List Position := [edit.selection.start, edit.selection.stop]

/-- Whether a text admits a batch: all ends are places of it, and no two edits overlap. -/
def Text.Admits (text : Text) (edits : List Edit) : Prop :=
  (∀ edit ∈ edits, text.HasPlace edit.selection.start ∧ text.HasPlace edit.selection.stop) ∧
    Edit.Apart edits

namespace Grid

open Text

/-! ## The ends of a batch -/

/-- Whether the line of a position stands and reaches that far. -/
def holds (grid : Grid) (position : Position) : Bool :=
  (grid.line? position.line).any fun characters =>
    position.character.toNat ≤ characters.length

/-- The first end of a batch that is no place of the grid. -/
def firstOutside? (grid : Grid) (edits : List Edit) : Option Position :=
  (edits.flatMap Edit.ends).find? fun position => !grid.holds position

theorem line?_ofText (text : Text) (line : UInt32) :
    (ofText text).line? line = (Text.lines text)[line.toNat]? := by
  rw [line?, ofText, List.getElem?_map]
  cases (Text.lines text)[line.toNat]? <;> rfl

theorem holds_ofText_iff {text : Text} {position : Position} :
    (ofText text).holds position = true ↔ text.HasPlace position := by
  rw [holds, line?_ofText, Option.any_eq_true]
  simp only [decide_eq_true_eq]
  rfl

instance (text : Text) (position : Position) : Decidable (text.HasPlace position) :=
  decidable_of_iff _ holds_ofText_iff

instance (text : Text) (edits : List Edit) : Decidable (text.Admits edits) :=
  inferInstanceAs (Decidable (_ ∧ _))

theorem lineAt_of_holds {grid : Grid} {position : Position} (place : grid.holds position = true) :
    ∃ characters, grid.lineAt position = .ok characters := by
  obtain ⟨characters, found, column⟩ := Option.any_eq_true _ _ |>.1 place
  exact ⟨characters, lineAt_of_line? found (of_decide_eq_true column)⟩

theorem lineAt_of_not_holds {grid : Grid} {position : Position}
    (outside : grid.holds position = false) :
    grid.lineAt position = .error (.outOfBounds position) := by
  unfold lineAt
  split
  · rename_i characters found
    rw [holds, found, Option.any_some, decide_eq_false_iff_not] at outside
    exact if_neg outside
  · rfl

theorem checkEnds_eq (grid : Grid) (edit : Edit) :
    grid.checkEnds edit =
      match edit.ends.find? (fun position => !grid.holds position) with
      | some position => .error (.outOfBounds position)
      | none => .ok () := by
  unfold checkEnds Edit.ends
  cases start : grid.holds edit.selection.start with
  | false =>
    rw [lineAt_of_not_holds start, List.find?_cons_of_pos (by rw [start]; rfl)]
    rfl
  | true =>
    obtain ⟨first, atStart⟩ := lineAt_of_holds start
    rw [atStart, List.find?_cons_of_neg (by rw [start]; decide)]
    cases stop : grid.holds edit.selection.stop with
    | false =>
      rw [lineAt_of_not_holds stop, List.find?_cons_of_pos (by rw [stop]; rfl)]
      rfl
    | true =>
      obtain ⟨last, atStop⟩ := lineAt_of_holds stop
      rw [atStop, List.find?_cons_of_neg (by rw [stop]; decide)]
      rfl

/-- The checks of a batch refuse its first end that is no place. -/
theorem forM_checkEnds (grid : Grid) (edits : List Edit) :
    edits.forM grid.checkEnds =
      match grid.firstOutside? edits with
      | some position => .error (.outOfBounds position)
      | none => .ok () := by
  induction edits with
  | nil => rfl
  | cons edit rest ih =>
    show (grid.checkEnds edit >>= fun _ => rest.forM grid.checkEnds) = _
    rw [checkEnds_eq, ih, firstOutside?, firstOutside?, List.flatMap_cons,
      List.find?_append]
    cases edit.ends.find? fun position => !grid.holds position <;> rfl

theorem firstOutside?_eq_none_iff {text : Text} {edits : List Edit} :
    (ofText text).firstOutside? edits = none ↔
      ∀ edit ∈ edits, text.HasPlace edit.selection.start ∧ text.HasPlace edit.selection.stop := by
  simp [firstOutside?, Edit.ends, holds_ofText_iff]

/-! ## Results -/

/-- Once the ends of a batch are places and no two edits overlap, none of its edits is
refused. -/
theorem spliceAll_mergeSort {text : Text} {edits : List Edit}
    (inside : (ofText text).firstOutside? edits = none) (apart : Edit.Apart edits) :
    ∃ edited, (ofText text).spliceAll (edits.mergeSort Edit.comesBefore).reverse =
        (.ok (), edited) ∧ edited.text = text.spliced (edits.mergeSort Edit.comesBefore) := by
  have places := firstOutside?_eq_none_iff.1 inside
  obtain ⟨edited, made, settled⟩ := spliceAll_reverse
    (fun edit member => places edit (List.mem_mergeSort.1 member))
    (pairwise_of_firstOverlap?_eq_none ((firstOverlap?_mergeSort_eq_none_iff edits).2 apart))
  exact ⟨edited, made, text_of_spliceAll settled⟩

/-- **What a batch does to a text.** -/
theorem apply_ofText (text : Text) (edits : List Edit) :
    (ofText text).apply edits =
      match (ofText text).firstOutside? edits with
      | some position => (.error (.outOfBounds position), ofText text)
      | none =>
        match firstOverlap? (edits.mergeSort Edit.comesBefore) with
        | some (first, second) => (.error (.overlap first second), ofText text)
        | none => (.ok (), ofText (text.spliced (edits.mergeSort Edit.comesBefore))) := by
  rw [apply, forM_checkEnds]
  cases inside : (ofText text).firstOutside? edits with
  | some position => rfl
  | none =>
    cases reaching : firstOverlap? (edits.mergeSort Edit.comesBefore) with
    | some pair => simp only [reaching]
    | none =>
      obtain ⟨edited, made, result⟩ :=
        spliceAll_mergeSort inside ((firstOverlap?_mergeSort_eq_none_iff edits).1 reaching)
      simp only [reaching, made, result]

/-- The grids of a buffer: that of a text, and what batches, accepted or refused, make
of it. -/
inductive Reachable : Grid → Prop where
  | ofText (text : Text) : Reachable (.ofText text)
  | apply {grid : Grid} (reachable : Reachable grid) (edits : List Edit) :
      Reachable (grid.apply edits).2

/-- Every batch leaves a grid that is laid out from its text. -/
theorem Reachable.eq_ofText {grid : Grid} (reachable : Reachable grid) :
    ∃ text, grid = Grid.ofText text := by
  induction reachable with
  | ofText text => exact ⟨text, rfl⟩
  | apply _ edits ih =>
    obtain ⟨text, rfl⟩ := ih
    rw [apply_ofText]
    split
    · exact ⟨text, rfl⟩
    · split <;> exact ⟨_, rfl⟩

theorem Reachable.eq_ofText_text {grid : Grid} (reachable : Reachable grid) :
    grid = Grid.ofText grid.text := by
  obtain ⟨text, rfl⟩ := reachable.eq_ofText
  rw [text_ofText]

/-- **A text that admits a batch has it made.** -/
theorem Reachable.apply_of_admits {grid : Grid} {edits : List Edit} (reachable : Reachable grid)
    (admits : grid.text.Admits edits) :
    grid.apply edits = (.ok (), .ofText (grid.text.spliced (edits.mergeSort Edit.comesBefore))) := by
  obtain ⟨text, rfl⟩ := reachable.eq_ofText
  rw [text_ofText] at admits ⊢
  rw [apply_ofText, firstOutside?_eq_none_iff.2 admits.1,
    (firstOverlap?_mergeSort_eq_none_iff edits).2 admits.2]

/-- **A text that does not admit a batch refuses it**, and the grid stays. -/
theorem Reachable.apply_of_not_admits {grid : Grid} {edits : List Edit}
    (reachable : Reachable grid) (refuses : ¬ grid.text.Admits edits) :
    ∃ error, grid.apply edits = (.error error, grid) := by
  obtain ⟨text, rfl⟩ := reachable.eq_ofText
  rw [text_ofText] at refuses
  rw [apply_ofText]
  cases outside : (Grid.ofText text).firstOutside? edits with
  | some position => exact ⟨_, rfl⟩
  | none =>
    cases reaching : firstOverlap? (edits.mergeSort Edit.comesBefore) with
    | some pair => exact ⟨.overlap pair.1 pair.2, rfl⟩
    | none => exact absurd ⟨firstOutside?_eq_none_iff.1 outside,
        (firstOverlap?_mergeSort_eq_none_iff edits).1 reaching⟩ refuses

/-- **An accepted batch replaces its ranges and keeps everything else.**  When all ends
are places and no two edits overlap, the batch is accepted, and the text is then what
stood between the ranges with the codes put between, in document order. -/
theorem apply_eq_spliced (text : Text) (edits : List Edit)
    (inside : ∀ edit ∈ edits, text.HasPlace edit.selection.start ∧
      text.HasPlace edit.selection.stop)
    (apart : Edit.Apart edits) :
    ∃ ordered, (∀ other, Edit.InDocumentOrder edits other ↔ other = ordered) ∧
      (ofText text).apply edits = (.ok (), ofText (text.spliced ordered)) ∧
      ((ofText text).apply edits).2.text = text.spliced ordered := by
  have outcome : (ofText text).apply edits =
      (.ok (), ofText (text.spliced (edits.mergeSort Edit.comesBefore))) := by
    rw [apply_ofText, firstOutside?_eq_none_iff.2 inside,
      (firstOverlap?_mergeSort_eq_none_iff edits).2 apart]
  refine ⟨edits.mergeSort Edit.comesBefore, fun other => Edit.inDocumentOrder_iff, outcome, ?_⟩
  rw [outcome, text_ofText]

/-- Two ranges that share a line, the later given first; the earlier gets a newline. -/
def sharedLine : List Edit :=
  [⟨['3'], .between ⟨1, 4⟩ ⟨2, 4⟩⟩, ⟨['1', '\n'], .between ⟨0, 0⟩ ⟨1, 3⟩⟩]

theorem apply_eq_spliced_sharedLine :
    (∀ edit ∈ sharedLine, Text.HasPlace "one\ntwo three\nfour".toList edit.selection.start ∧
        Text.HasPlace "one\ntwo three\nfour".toList edit.selection.stop) ∧
      Edit.Apart sharedLine ∧
      ∃ ordered, (∀ other, Edit.InDocumentOrder sharedLine other ↔ other = ordered) ∧
        (ofText "one\ntwo three\nfour".toList).apply sharedLine =
          (.ok (), ofText (Text.spliced "one\ntwo three\nfour".toList ordered)) ∧
        ((ofText "one\ntwo three\nfour".toList).apply sharedLine).2.text =
          Text.spliced "one\ntwo three\nfour".toList ordered := by
  have inside := (@firstOutside?_eq_none_iff "one\ntwo three\nfour".toList sharedLine).1
    (by decide)
  have apart : Edit.Apart sharedLine := by decide
  exact ⟨inside, apart, apply_eq_spliced _ _ inside apart⟩

theorem firstOutside?_eq_none_of_perm {text : Text} {edits others : List Edit}
    (permuted : edits.Perm others) :
    (ofText text).firstOutside? others = none ↔ (ofText text).firstOutside? edits = none := by
  rw [firstOutside?_eq_none_iff, firstOutside?_eq_none_iff]
  exact forall_congr' fun edit => by rw [permuted.mem_iff]

/-- What does not depend on the order in which a batch is given. -/
theorem apply_of_perm {text : Text} {edits others : List Edit} (permuted : edits.Perm others) :
    (((ofText text).apply others).1 = .ok () ↔ ((ofText text).apply edits).1 = .ok ()) ∧
      ((∃ position, ((ofText text).apply others).1 = .error (.outOfBounds position)) ↔
        ∃ position, ((ofText text).apply edits).1 = .error (.outOfBounds position)) ∧
      ∀ first second, ((ofText text).apply others).1 = .error (.overlap first second) ↔
        ((ofText text).apply edits).1 = .error (.overlap first second) := by
  have same := @firstOutside?_eq_none_of_perm text _ _ permuted
  rw [apply_ofText, apply_ofText, firstOverlap?_mergeSort_of_perm permuted]
  cases inside : (ofText text).firstOutside? edits with
  | none =>
    -- Past the check of the ends both answers are read off the same overlap.
    rw [same.2 inside]
    cases firstOverlap? (others.mergeSort Edit.comesBefore) <;> simp
  | some position =>
    cases inside' : (ofText text).firstOutside? others with
    | none => rw [same.1 inside'] at inside; cases inside
    | some position' => simp

/-- **A batch is accepted or refused as a whole.**  The first end that is no place is
refused, else two edits that overlap, else nothing.  A refused batch leaves the grid,
and once both checks have passed no edit is refused.  How the batch is given decides
neither whether it is accepted, nor which check refuses it, nor the overlap that is
reported. -/
theorem apply_outcome {grid : Grid} (reachable : Reachable grid) (edits : List Edit) :
    (∀ position, grid.firstOutside? edits = some position →
      grid.apply edits = (.error (.outOfBounds position), grid)) ∧
    (grid.firstOutside? edits = none → ¬ Edit.Apart edits →
      ∃ first ∈ edits, ∃ second ∈ edits, first.Overlaps second ∧
        grid.apply edits = (.error (.overlap first.selection second.selection), grid)) ∧
    (grid.firstOutside? edits = none → Edit.Apart edits →
      (∃ edited, grid.spliceAll (edits.mergeSort Edit.comesBefore).reverse = (.ok (), edited)) ∧
        ∃ edited, grid.apply edits = (.ok (), edited)) ∧
    ∀ others, edits.Perm others →
      ((grid.apply others).1 = .ok () ↔ (grid.apply edits).1 = .ok ()) ∧
      ((∃ position, (grid.apply others).1 = .error (.outOfBounds position)) ↔
        ∃ position, (grid.apply edits).1 = .error (.outOfBounds position)) ∧
      ∀ first second, (grid.apply others).1 = .error (.overlap first second) ↔
        (grid.apply edits).1 = .error (.overlap first second) := by
  obtain ⟨text, rfl⟩ := reachable.eq_ofText
  refine ⟨?_, ?_, ?_, ?_⟩
  · intro position outside
    rw [apply_ofText, outside]
  · intro inside overlapping
    cases reaching : firstOverlap? (edits.mergeSort Edit.comesBefore) with
    | none => exact absurd ((firstOverlap?_mergeSort_eq_none_iff edits).1 reaching) overlapping
    | some pair =>
      obtain ⟨earlier, later⟩ := pair
      obtain ⟨first, member, second, member', overlap, rfl, rfl⟩ :=
        overlaps_of_firstOverlap?_eq_some (pairwise_mergeSort_comesBefore edits) reaching
      refine ⟨first, List.mem_mergeSort.1 member, second, List.mem_mergeSort.1 member', overlap, ?_⟩
      rw [apply_ofText, inside, reaching]
  · intro inside apart
    obtain ⟨edited, made, _⟩ := spliceAll_mergeSort inside apart
    refine ⟨⟨edited, made⟩, ofText (text.spliced (edits.mergeSort Edit.comesBefore)), ?_⟩
    rw [apply_ofText, inside, (firstOverlap?_mergeSort_eq_none_iff edits).2 apart]
  · intro others permuted
    exact apply_of_perm permuted

/-- A batch whose second edit starts within the first, with an insertion between. -/
def reaching : List Edit :=
  [⟨['Y'], .between ⟨0, 2⟩ ⟨0, 5⟩⟩, .insertAt ⟨0, 0⟩ ['-'], ⟨['X'], .between ⟨0, 0⟩ ⟨0, 3⟩⟩]

theorem apply_outcome_reaching :
    Reachable (.ofText "abcdef".toList) ∧
      (ofText "abcdef".toList).firstOutside? reaching = none ∧ ¬ Edit.Apart reaching ∧
      ∃ first ∈ reaching, ∃ second ∈ reaching, first.Overlaps second ∧
        (ofText "abcdef".toList).apply reaching =
          (.error (.overlap first.selection second.selection), ofText "abcdef".toList) := by
  have reachable : Reachable (.ofText "abcdef".toList) := .ofText _
  have inside : (ofText "abcdef".toList).firstOutside? reaching = none := by decide
  have overlapping : ¬ Edit.Apart reaching := by decide
  exact ⟨reachable, inside, overlapping,
    (apply_outcome reachable reaching).2.1 inside overlapping⟩

end Grid
end Retouch
