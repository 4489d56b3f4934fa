import Mathlib.Data.List.Sort
import Retouch.Proofs.Buffer.ReadBack
import Retouch.Proofs.Workspace.Files
import Retouch.Workspace.Editor

/-!
# The occurrences of a word

A word stands at a column of a line if the line goes on with it there and it is not part of a longer
word (`Reference.IsWordAt`).  The search goes through the line once, with the character before it in
hand, and finds these columns from the left to the right (`Reference.mem_columns_iff`,
`Reference.pairwise_columns`).  Occurrences may overlap, and the word may be longer than the line.

The places of a word in a text are an index of it: each place at which it occurs stands there once
and in order, and there is one such index (`Reference.indexes_iff`).  **The references to a selected
word are its indices in the editor's own text and in the other files**
(`Editor.references_eq_occurrences`).
-/

set_option autoImplicit false

namespace Retouch

open Text

namespace Reference

/-! ## Columns -/

section Columns

variable {word line : Text} {start column : Nat}

/-- **Whether a word stands at a column of a line**: the line goes on with the word there, and
neither the character before it nor the one behind it belongs to a word. -/
def IsWordAt (word line : Text) (column : Nat) : Prop :=
  ∃ before after, line = before ++ word ++ after ∧ before.length = column ∧
    before.getLast?.any isWordCharacter = false ∧ after.head?.any isWordCharacter = false

theorem isWordAt_append {before after : Text} :
    IsWordAt word (before ++ word ++ after) before.length ↔
      before.getLast?.any isWordCharacter = false ∧ after.head?.any isWordCharacter = false := by
  constructor
  · rintro ⟨before', after', same, length, bounded⟩
    rw [List.append_assoc, List.append_assoc] at same
    obtain ⟨rfl, rest⟩ := List.append_inj same length.symm
    rwa [List.append_cancel_left rest]
  · exact fun bounded => ⟨before, after, rfl, rfl, bounded⟩

theorem isBoundary_iff {beside : Option Char} :
    isBoundary beside = true ↔ beside.any isWordCharacter = false := by
  rw [isBoundary, Bool.not_eq_true']

/-- A word at the very beginning. -/
theorem mem_here_iff {before : Option Char} :
    column ∈ (if word.isPrefixOf line && isBoundary before &&
        isBoundary (line.drop word.length).head? then [start] else []) ↔
      column = start ∧ ∃ after, line = word ++ after ∧ before.any isWordCharacter = false ∧
        after.head?.any isWordCharacter = false := by
  have leads : word <+: line ↔ ∃ after, line = word ++ after :=
    exists_congr fun after => eq_comm
  split
  · rename_i all
    simp only [Bool.and_eq_true, List.isPrefixOf_iff_prefix, isBoundary_iff] at all
    obtain ⟨⟨⟨after, rfl⟩, bounded⟩, bounded'⟩ := all
    rw [List.drop_left] at bounded'
    rw [List.mem_singleton]
    exact ⟨fun same => ⟨same, after, rfl, bounded, bounded'⟩, And.left⟩
  · rename_i fails
    refine iff_of_false List.not_mem_nil ?_
    rintro ⟨-, after, rfl, bounded, bounded'⟩
    refine fails ?_
    simp [isBoundary_iff, bounded, bounded']

/-- **The columns that are found are those at which the word stands.**  The character before what is
left of the line is the last of what has been passed. -/
theorem mem_columns_iff {before : Option Char} : column ∈ columns word before start line ↔
    ∃ front after, line = front ++ word ++ after ∧ start + front.length = column ∧
      (front.getLast?.or before).any isWordCharacter = false ∧
      after.head?.any isWordCharacter = false := by
  induction line generalizing before start with
  | nil =>
    rw [columns, mem_here_iff]
    constructor
    · rintro ⟨rfl, after, same, bounded⟩
      exact ⟨[], after, same, rfl, bounded⟩
    · rintro ⟨front, after, same, rfl, bounded⟩
      obtain ⟨rfl, rfl, rfl⟩ : front = [] ∧ word = [] ∧ after = [] := by simpa using same.symm
      exact ⟨rfl, [], rfl, bounded⟩
  | cons first rest ih =>
    rw [columns, List.mem_append, mem_here_iff, ih]
    constructor
    · rintro (⟨rfl, after, same, bounded⟩ | ⟨front, after, rfl, rfl, bounded⟩)
      · exact ⟨[], after, same, rfl, bounded⟩
      · refine ⟨first :: front, after, rfl, ?_, ?_⟩
        · rw [List.length_cons]
          omega
        · rwa [List.getLast?_cons, Option.some_or, ← Option.or_some]
    · rintro ⟨front, after, same, rfl, bounded⟩
      cases front with
      | nil => exact .inl ⟨rfl, after, same, bounded⟩
      | cons first' front =>
        obtain ⟨rfl, rfl⟩ := List.cons.inj same
        refine .inr ⟨front, after, rfl, ?_, ?_⟩
        · rw [List.length_cons]
          omega
        · rwa [List.getLast?_cons, Option.some_or, ← Option.or_some] at bounded

theorem isWordAt_iff_mem_columns :
    IsWordAt word line column ↔ column ∈ columns word none 0 line := by
  simp only [mem_columns_iff, Nat.zero_add, Option.or_none]
  rfl

theorem pairwise_here (found : Bool) (start : Nat) :
    (if found then [start] else []).Pairwise (· < ·) := by
  cases found with
  | true => exact List.pairwise_singleton _ _
  | false => exact .nil

theorem pairwise_columns (before : Option Char) :
    (columns word before start line).Pairwise (· < ·) := by
  induction line generalizing before start with
  | nil => exact pairwise_here _ start
  | cons first rest ih =>
    rw [columns, List.pairwise_append]
    refine ⟨pairwise_here _ start, ih _, fun here found later found' => ?_⟩
    rw [(mem_here_iff.1 found).1]
    obtain ⟨front, after, -, rfl, -⟩ := mem_columns_iff.1 found'
    omega

end Columns

/-! ## Places -/

section Places

variable {word text : Text} {number column : Nat}

/-- Whether a word stands at a column of a line of a text. -/
def OccursAt (word text : Text) (number column : Nat) : Prop :=
  ∃ line, (lines text)[number]? = some line ∧ IsWordAt word line column

/-- Whether a place, a line and a column, comes before another. -/
def Precedes (place other : Nat × Nat) : Prop :=
  place.1 < other.1 ∨ place.1 = other.1 ∧ place.2 < other.2

instance : Std.Irrefl Precedes where
  irrefl place := by
    rw [Precedes]
    omega

instance : Std.Antisymm Precedes where
  antisymm place other := by
    rw [Precedes, Precedes]
    omega

/-- **An index of a word in a text**: all places at which it occurs, each once and in order. -/
structure Indexes (word text : Text) (index : List (Nat × Nat)) : Prop where
  mem_iff : ∀ number column, (number, column) ∈ index ↔ OccursAt word text number column
  ordered : index.Pairwise Precedes

/-- The places at which a word stands in lines, of which the first has a given number. -/
def places (word : Text) (number : Nat) : List Text → List (Nat × Nat)
  | [] => []
  | line :: rest => (columns word none 0 line).map (number, ·) ++ places word (number + 1) rest

theorem rangesIn_eq (word : Text) (number : Nat) (rows : List Text) :
    rangesIn word number rows =
      (places word number rows).map fun place => range place.1 place.2 word.length := by
  induction rows generalizing number with
  | nil => rfl
  | cons line rest ih =>
    rw [rangesIn, places, List.map_append, List.map_map, ih]
    rfl

theorem mem_places_iff {first : Nat} {rows : List Text} :
    (number, column) ∈ places word first rows ↔
      ∃ index line, first + index = number ∧ rows[index]? = some line ∧
        IsWordAt word line column := by
  induction rows generalizing first with
  | nil => simp [places]
  | cons row rest ih =>
    have here : (number, column) ∈ (columns word none 0 row).map (first, ·) ↔
        first = number ∧ IsWordAt word row column := by
      rw [isWordAt_iff_mem_columns, List.mem_map]
      simp only [Prod.mk.injEq]
      exact ⟨fun ⟨_, found, same, same'⟩ => ⟨same, same' ▸ found⟩,
        fun ⟨same, found⟩ => ⟨column, found, same, rfl⟩⟩
    rw [places, List.mem_append, here, ih]
    constructor
    · rintro (⟨same, stands⟩ | ⟨index, line, rfl, found, stands⟩)
      · exact ⟨0, row, same, rfl, stands⟩
      · exact ⟨index + 1, line, by omega, found, stands⟩
    · rintro ⟨index, line, rfl, found, stands⟩
      cases index with
      | zero =>
        obtain rfl : row = line := Option.some.inj found
        exact .inl ⟨rfl, stands⟩
      | succ index => exact .inr ⟨index, line, by omega, found, stands⟩

theorem pairwise_places (first : Nat) (rows : List Text) :
    (places word first rows).Pairwise Precedes := by
  induction rows generalizing first with
  | nil => exact .nil
  | cons row rest ih =>
    rw [places, List.pairwise_append]
    refine ⟨?_, ih _, fun place found later found' => ?_⟩
    · exact List.pairwise_map.2 ((pairwise_columns none).imp fun before => .inr ⟨rfl, before⟩)
    · obtain ⟨column, -, rfl⟩ := List.mem_map.1 found
      obtain ⟨index, _, further, -⟩ := mem_places_iff.1 found'
      exact .inl (by rw [← further]; omega)

/-- **The places that are found are the only index of the text.** -/
theorem indexes_iff {index : List (Nat × Nat)} :
    Indexes word text index ↔ index = places word 0 (lines text) := by
  have found (number column : Nat) :
      (number, column) ∈ places word 0 (lines text) ↔ OccursAt word text number column := by
    simp only [mem_places_iff, Nat.zero_add, OccursAt]
    exact ⟨fun ⟨_, line, same, stands⟩ => ⟨line, same ▸ stands⟩,
      fun ⟨line, stands⟩ => ⟨number, line, rfl, stands⟩⟩
  constructor
  · intro indexes
    refine List.Pairwise.eq_of_mem_iff indexes.ordered (pairwise_places 0 _) fun place => ?_
    rw [indexes.mem_iff, found]
  · rintro rfl
    exact ⟨found, pairwise_places 0 _⟩

end Places

/-! ## Ranges -/

section Ranges

variable {word text : Text} {number column : Nat}

/-- A text falls apart where a word stands, and what is in front of the word and up to its end
reaches the ends of its range. -/
theorem OccursAt.exists_parts (occurs : OccursAt word text number column) :
    ∃ front back, text = front ++ word ++ back ∧
      reach front = ⟨UInt32.ofNat number, UInt32.ofNat column⟩ ∧
      reach (front ++ word) = ⟨UInt32.ofNat number, UInt32.ofNat (column + word.length)⟩ ∧
      (number < 2 ^ 32 → column + word.length < 2 ^ 32 →
        IsCounted front ∧ IsCounted (front ++ word)) := by
  obtain ⟨line, found, before, after, rfl, rfl, -⟩ := occurs
  obtain ⟨above, below, rows, rfl⟩ := exists_append_of_getElem? found
  have inText : ∀ row ∈ lines text, '\n' ∉ row := fun _ => notMem_of_mem_lines
  rw [rows, List.forall_mem_append, List.forall_mem_cons] at inText
  obtain ⟨upper, line, -⟩ := inText
  simp only [List.mem_append, not_or] at line
  have whole : ∀ row ∈ above ++ [before], '\n' ∉ row := by
    simpa [or_imp, forall_and] using ⟨upper, line.1.1⟩
  have whole' : ∀ row ∈ above ++ [before ++ word], '\n' ∉ row := by
    simpa [or_imp, forall_and] using ⟨upper, line.1.1, line.1.2⟩
  have cut : unlines (above ++ [before]) ++ word = unlines (above ++ [before ++ word]) := by
    rw [unlines_append_cons, unlines_singleton]
  refine ⟨unlines (above ++ [before]), unlines (after :: below), ?_, reach_unlines_concat whole,
    ?_, ?_⟩
  · rw [cut, ← unlines_append_cons, ← rows, unlines_lines]
  · rw [cut, reach_unlines_concat whole', List.length_append]
  · intro row fits
    rw [cut, isCounted_unlines_concat_iff whole, isCounted_unlines_concat_iff whole',
      List.length_append]
    exact ⟨⟨row, by omega⟩, row, fits⟩

/-- **At an occurrence the word is read**, when words count its coordinates. -/
theorem OccursAt.read_range (occurs : OccursAt word text number column) (row : number < 2 ^ 32)
    (fits : column + word.length < 2 ^ 32) :
    (Grid.ofText text).read (range number column word.length) = .ok word := by
  obtain ⟨front, back, rfl, start, stop, counted⟩ := occurs.exists_parts
  obtain ⟨before, upTo⟩ := counted row fits
  rw [range, ← start, ← stop, Grid.read_part before upTo]

theorem OccursAt.counted (occurs : OccursAt word text number column) (fits : text.Fits) :
    number < 2 ^ 32 ∧ column + word.length < 2 ^ 32 := by
  obtain ⟨line, found, before, after, rfl, rfl, -⟩ := occurs
  obtain ⟨above, rows, newlines⟩ := exists_lines_eq_concat text
  have row := (List.getElem?_eq_some_iff.1 found).1
  have columns := fits.2 _ (List.mem_of_getElem? found)
  rw [rows, List.length_append, List.length_singleton, ← newlines] at row
  rw [List.length_append, List.length_append] at columns
  have rowsFit := fits.1
  omega

/-- A range that words count starts at its line and column. -/
theorem range_start {length : Nat} (row : number < 2 ^ 32) (counted : column + length < 2 ^ 32) :
    (range number column length).start.line.toNat = number ∧
      (range number column length).start.character.toNat = column := by
  have line : (UInt32.ofNat number).toNat = number := UInt32.toNat_ofNat_of_lt' row
  have first : (UInt32.ofNat column).toNat = column :=
    UInt32.toNat_ofNat_of_lt' (Nat.lt_of_le_of_lt (Nat.le_add_right _ _) counted)
  have last : (UInt32.ofNat (column + length)).toNat = column + length :=
    UInt32.toNat_ofNat_of_lt' counted
  have ordered : (⟨UInt32.ofNat number, UInt32.ofNat column⟩ : Position) ≤
      ⟨UInt32.ofNat number, UInt32.ofNat (column + length)⟩ := by
    simp only [Position.le_iff_not_lt, Position.lt_iff, first, last]
    omega
  rw [range, Selection.between_of_le ordered]
  exact ⟨line, first⟩

/-- A selection without a newline is the range of its text on its line. -/
theorem exists_line_of_selection {selection : Selection} (start : text.HasPlace selection.start)
    (stop : text.HasPlace selection.stop)
    (whole : '\n' ∉ text.between selection.start selection.stop) :
    ∃ before after, (lines text)[selection.start.line.toNat]? =
        some (before ++ text.between selection.start selection.stop ++ after) ∧
      before.length = selection.start.character.toNat ∧
      range selection.start.line.toNat selection.start.character.toNat
        (text.between selection.start selection.stop).length = selection := by
  obtain ⟨above, line, below, around⟩ := start.around
  obtain ⟨above', line', below', around'⟩ := stop.around
  rcases Nat.lt_or_eq_of_le (Position.line_le_of_le selection.ordered) with later | same
  · obtain ⟨middle, rfl, rfl⟩ := around.of_line_lt around' later
    rw [around.between_of_line_lt around', List.cons_append, unlines_cons _ (by simp)] at whole
    exact absurd (List.mem_append_right _ List.mem_cons_self) whole
  · have columns := Position.character_le_of_le selection.ordered same
    obtain ⟨rfl, rfl, rfl⟩ := around.of_same_line around' (UInt32.toNat_inj.1 same)
    rw [around.between_of_same_line around' columns]
    have length : ((line'.take selection.stop.character.toNat).drop
        selection.start.character.toNat).length =
          selection.stop.character.toNat - selection.start.character.toNat := by
      rw [List.length_drop, List.length_take, Nat.min_eq_left around'.column]
    refine ⟨line'.take selection.start.character.toNat,
      line'.drop selection.stop.character.toNat, ?_, ?_, ?_⟩
    · rw [take_append_drop_take line' columns, List.take_append_drop, around.lines_eq, ← around.row]
      simp
    · rw [List.length_take, Nat.min_eq_left around.column]
    · have stopPlace : (⟨selection.start.line, selection.stop.character⟩ : Position) =
          selection.stop := congrArg (Position.mk · _) (UInt32.toNat_inj.1 same)
      rw [length, range, Nat.add_sub_cancel' columns, UInt32.ofNat_toNat, UInt32.ofNat_toNat,
        UInt32.ofNat_toNat, stopPlace]
      exact Selection.between_start_stop selection

end Ranges
end Reference

namespace Editor

open Reference

/-- The references to a word at the places of a text. -/
def referencesAt (path : Path) (word : Text) (index : List (Nat × Nat)) : List Reference :=
  index.map fun place => ⟨path, range place.1 place.2 word.length⟩

/-- When words count the coordinates of a text, a range in it is referred to exactly if its place is
in the index. -/
theorem mem_referencesAt_iff {path : Path} {word text : Text} {index : List (Nat × Nat)}
    {place : Nat × Nat} (indexes : Indexes word text index) (fits : text.Fits)
    (row : place.1 < 2 ^ 32) (counted : place.2 + word.length < 2 ^ 32) :
    ⟨path, range place.1 place.2 word.length⟩ ∈ referencesAt path word index ↔ place ∈ index := by
  constructor
  · intro member
    obtain ⟨found, inIndex, same⟩ := List.mem_map.1 member
    obtain ⟨row', counted'⟩ := ((indexes.mem_iff _ _).1 inIndex).counted fits
    have ranges : range found.1 found.2 word.length = range place.1 place.2 word.length :=
      congrArg Reference.selection same
    obtain ⟨line, column⟩ := range_start row' counted'
    obtain ⟨line', column'⟩ := range_start row counted
    have places : found = place := Prod.ext (by rw [← line, ranges, line'])
      (by rw [← column, ranges, column'])
    rwa [← places]
  · exact fun member => List.mem_map.2 ⟨place, member, rfl⟩

theorem inFile_eq (path : Path) (text word : Text) :
    inFile path text word = referencesAt path word (places word 0 (lines text)) := by
  rw [inFile, rangesIn_eq, List.map_map]
  rfl

/-- What is referred to in files stands in the order of their paths. -/
theorem pairwise_path {files : Files} (ordered : files.IsOrdered) (word : Text)
    (index : Text → List (Nat × Nat)) :
    (files.flatMap fun file => referencesAt file.1 word (index file.2)).Pairwise
      fun first second => first.path = second.path ∨ first.path.IsBefore second.path := by
  have path {file : Path × Text} {reference : Reference}
      (member : reference ∈ referencesAt file.1 word (index file.2)) :
      reference.path = file.1 := by
    obtain ⟨_, -, rfl⟩ := List.mem_map.1 member
    rfl
  refine List.pairwise_flatMap.2 ⟨fun file _ => ?_, ?_⟩
  · exact List.pairwise_of_forall_mem_list
      fun _ member _ member' => .inl ((path member).trans (path member').symm)
  · refine (List.pairwise_map.1 ordered).imp fun earlier first member second member' => .inr ?_
    rw [path member, path member']
    exact earlier

/-- **The references to a selected word are all its occurrences.**  A selection lies in the text of
an editor, and what it holds is neither empty nor goes over a line.  The references are those at the
places of an index of the own text, and then of each other file, in the order of the paths.  The
word is read at each place that words count.  The selection is the range of its own place, and this
place is in the index exactly if the word is not part of a longer one there; when words count all
coordinates of the text, this is also when the selection is referred to in it. -/
theorem references_eq_occurrences {editor : Editor} {selection : Selection}
    (reachable : editor.grid.Reachable) (ordered : editor.files.IsOrdered)
    (start : editor.code.HasPlace selection.start) (stop : editor.code.HasPlace selection.stop)
    (nonempty : editor.code.between selection.start selection.stop ≠ [])
    (whole : '\n' ∉ editor.code.between selection.start selection.stop) :
    let word := editor.code.between selection.start selection.stop
    let place := (selection.start.line.toNat, selection.start.character.toNat)
    ∃ index : Text → List (Nat × Nat), (∀ text, Indexes word text (index text)) ∧
      let others := editor.files.flatMap fun file => referencesAt file.1 word (index file.2)
      editor.grid.read selection = .ok word ∧
      editor.references selection =
        .ok (referencesAt editor.path word (index editor.code) ++ others) ∧
      others.Pairwise (fun first second =>
        first.path = second.path ∨ first.path.IsBefore second.path) ∧
      (∀ text, ∀ found ∈ index text, found.1 < 2 ^ 32 → found.2 + word.length < 2 ^ 32 →
        (Grid.ofText text).read (range found.1 found.2 word.length) = .ok word) ∧
      range place.1 place.2 word.length = selection ∧
      ∃ before after, (lines editor.code)[place.1]? = some (before ++ word ++ after) ∧
        before.length = place.2 ∧
        (place ∈ index editor.code ↔
          before.getLast?.any isWordCharacter = false ∧
            after.head?.any isWordCharacter = false) ∧
        (editor.code.Fits →
          (⟨editor.path, selection⟩ ∈ referencesAt editor.path word (index editor.code) ↔
            place ∈ index editor.code)) := by
  intro word place
  have grid : editor.grid = .ofText editor.code := reachable.eq_ofText_text
  have read : editor.grid.read selection = .ok word := by rw [grid, Grid.read_ofText start stop]
  have indexes (text : Text) : Indexes word text (places word 0 (lines text)) := indexes_iff.2 rfl
  obtain ⟨before, after, line, column, range⟩ := exists_line_of_selection start stop whole
  refine ⟨fun text => places word 0 (lines text), indexes, read, ?_,
    pairwise_path ordered word fun text => places word 0 (lines text), ?_, range, before, after,
    line, column, ?_, ?_⟩
  · have isEmpty : word.isEmpty = false := List.isEmpty_eq_false_iff.2 nonempty
    have single : word.contains '\n' = false := by simpa using whole
    rw [references, read]
    simp only [isEmpty, single, Bool.or_self, Bool.false_eq_true, if_false, inFile_eq]
  · intro text found member
    exact (((indexes text).mem_iff _ _).1 member).read_range
  · rw [(indexes _).mem_iff, ← @isWordAt_append word before after, column]
    constructor
    · rintro ⟨_, found, stands⟩
      obtain rfl := Option.some.inj (line.symm.trans found)
      exact stands
    · exact fun stands => ⟨_, line, stands⟩
  · intro fits
    have columns := fits.2 _ (List.mem_of_getElem? line)
    rw [List.length_append, List.length_append, column] at columns
    have member := @mem_referencesAt_iff editor.path word editor.code _ place (indexes _) fits
      selection.start.line.toNat_lt (Nat.lt_of_le_of_lt (Nat.le_add_right _ _) columns)
    rwa [show Reference.range place.1 place.2 word.length = selection from range] at member

/-- An editor with operators, some of which overlap and some of which touch a word. -/
def withOperators : Editor :=
  (ofCode "+++ a\n++".toList default).withFile ⟨"other.ts"⟩ "a++;+ ++".toList

theorem references_eq_occurrences_withOperators :
    let selection := Selection.between ⟨0, 0⟩ ⟨0, 2⟩
    withOperators.grid.Reachable ∧ withOperators.files.IsOrdered ∧
      withOperators.code.HasPlace selection.start ∧ withOperators.code.HasPlace selection.stop ∧
      withOperators.code.between selection.start selection.stop = "++".toList ∧
      withOperators.references selection = .ok
        (referencesAt defaultPath "++".toList [(0, 0), (0, 1), (1, 0)] ++
          referencesAt ⟨"other.ts"⟩ "++".toList [(0, 6)]) := by
  intro selection
  have reachable : withOperators.grid.Reachable := .ofText _
  have ordered : withOperators.files.IsOrdered := by decide
  have start : withOperators.code.HasPlace selection.start := by decide
  have stop : withOperators.code.HasPlace selection.stop := by decide
  have word : withOperators.code.between selection.start selection.stop = "++".toList := by decide
  obtain ⟨index, indexes, -, references, -⟩ :=
    references_eq_occurrences reachable ordered start stop (by rw [word]; decide)
      (by rw [word]; decide)
  refine ⟨reachable, ordered, start, stop, word, ?_⟩
  rw [references]
  simp only [word] at indexes ⊢
  have own : index withOperators.code = [(0, 0), (0, 1), (1, 0)] :=
    (indexes_iff.1 (indexes _)).trans (by decide +kernel)
  have other : index "a++;+ ++".toList = [(0, 6)] :=
    (indexes_iff.1 (indexes _)).trans (by decide +kernel)
  have files : withOperators.files = [(⟨"other.ts"⟩, "a++;+ ++".toList)] := rfl
  rw [own, files, List.flatMap_cons, List.flatMap_nil, List.append_nil, other]
  rfl

end Editor
end Retouch
