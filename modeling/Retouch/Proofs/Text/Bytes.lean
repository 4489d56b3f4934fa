import Retouch.Text.Offset
import Retouch.Proofs.Text.Places

/-!
# Byte offsets and positions

A beginning of a text says where it ends in three ways: by its number of characters, by
its number of bytes, and by the position that it reaches, which is the number of its
newlines with the number of characters after the last of them (`reach`).  The three
count the same thing.  The beginnings of a text are told apart by their bytes
(`eq_of_byteLength_eq`), they reach its places and nothing else (`around_reach`,
`reach_take_offsetOf`), and the offset of the place that one reaches is its number of
characters (`offsetOf_reach`).

A parser gives a byte offset with its point (`Marks`), and from these two the position
that the characters before the offset reach is found again (`Marks.positionAt_eq`).
-/

set_option autoImplicit false

namespace Retouch
namespace Text

/-! ## Bytes -/

theorem byteLength_append (before after : Text) :
    byteLength (before ++ after) = byteLength before + byteLength after := by
  induction before with
  | nil => exact (Nat.zero_add _).symm
  | cons first before ih => rw [List.cons_append, byteLength, byteLength, ih, Nat.add_assoc]

theorem eq_nil_of_byteLength_eq_zero {text : Text} (empty : byteLength text = 0) : text = [] := by
  cases text with
  | nil => rfl
  | cons first rest =>
    have size := first.utf8Size_pos
    rw [byteLength] at empty
    omega

/-- A text falls apart at the end of each of its beginnings. -/
theorem splitAtByte?_append (before after : Text) :
    splitAtByte? (byteLength before) (before ++ after) = some (before, after) := by
  induction before with
  | nil => cases after <;> rfl
  | cons first before ih =>
    obtain ⟨size, positive⟩ := Nat.exists_eq_add_of_lt first.utf8Size_pos
    have step : byteLength (first :: before) = size + byteLength before + 1 := by
      rw [byteLength]
      omega
    rw [step, List.cons_append, splitAtByte?, if_pos (by omega),
      show size + byteLength before + 1 - first.utf8Size = byteLength before by omega, ih]
    rfl

theorem slice?_append (before middle after : Text) :
    slice? (before ++ middle ++ after) (byteLength before) (byteLength (before ++ middle)) =
      some middle := by
  rw [slice?, splitAtByte?_append (before ++ middle) after]
  show (splitAtByte? _ (before ++ middle) >>= _) = _
  rw [splitAtByte?_append]
  rfl

/-- Of two beginnings of a text one begins the other. -/
theorem prefix_total {before before' text : Text} (begins : before <+: text)
    (begins' : before' <+: text) : before <+: before' ∨ before' <+: before := by
  rcases Nat.le_total before.length before'.length with shorter | shorter
  · exact .inl (List.prefix_of_prefix_length_le begins begins' shorter)
  · exact .inr (List.prefix_of_prefix_length_le begins' begins shorter)

/-- Beginnings of a text are told apart by their bytes. -/
theorem eq_of_byteLength_eq {before before' text : Text} (begins : before <+: text)
    (begins' : before' <+: text) (same : byteLength before = byteLength before') :
    before = before' := by
  rcases prefix_total begins begins' with ⟨more, rfl⟩ | ⟨more, rfl⟩
  · rw [byteLength_append] at same
    have nothing : more = [] := eq_nil_of_byteLength_eq_zero (by omega)
    rw [nothing, List.append_nil]
  · rw [byteLength_append] at same
    have nothing : more = [] := eq_nil_of_byteLength_eq_zero (by omega)
    rw [nothing, List.append_nil]

/-- Beginnings of a text have their bytes in the order of their characters. -/
theorem byteLength_le_iff {before before' text : Text} (begins : before <+: text)
    (begins' : before' <+: text) :
    byteLength before ≤ byteLength before' ↔ before.length ≤ before'.length := by
  constructor
  · intro fewer
    rcases prefix_total begins begins' with shorter | ⟨more, rfl⟩
    · exact shorter.length_le
    · rw [byteLength_append] at fewer
      have nothing : more = [] := eq_nil_of_byteLength_eq_zero (by omega)
      exact Nat.le_of_eq (by rw [nothing, List.append_nil])
  · intro shorter
    obtain ⟨more, rfl⟩ := List.prefix_of_prefix_length_le begins begins' shorter
    rw [byteLength_append]
    omega

/-! ## The position that a beginning reaches -/

/-- The lines of two texts, joined where the one goes over into the other. -/
theorem lines_append (before after : Text) :
    ∃ above last first below, lines before = above ++ [last] ∧ lines after = first :: below ∧
      lines (before ++ after) = above ++ (last ++ first) :: below := by
  induction before with
  | nil =>
    cases same : lines after with
    | nil => exact absurd same (lines_ne_nil after)
    | cons first below => exact ⟨[], [], first, below, rfl, rfl, same⟩
  | cons character before ih =>
    obtain ⟨above, last, first, below, linesBefore, linesAfter, linesBoth⟩ := ih
    rw [List.cons_append, lines, lines, linesBefore, linesBoth]
    split
    · exact ⟨[] :: above, last, first, below, rfl, linesAfter, rfl⟩
    · cases above with
      | nil => exact ⟨[], character :: last, first, below, rfl, linesAfter, rfl⟩
      | cons top above =>
        exact ⟨(character :: top) :: above, last, first, below, rfl, linesAfter, rfl⟩

theorem count_unlines_concat {above : List Text} {last : Text}
    (whole : ∀ row ∈ above ++ [last], '\n' ∉ row) :
    (unlines (above ++ [last])).count '\n' = above.length := by
  induction above with
  | nil => simpa [List.count_eq_zero] using whole
  | cons top above ih =>
    rw [List.cons_append, unlines_cons top (by simp), List.count_append, List.count_cons_self,
      ih fun row member => whole row (by simp_all), List.count_eq_zero.2 (whole top (by simp)),
      List.length_cons, Nat.zero_add]

/-- What has no newline goes on with the last line. -/
theorem lastLine_append_of_notMem (before : Text) {after : Text} (whole : '\n' ∉ after) :
    lastLine (before ++ after) = lastLine before ++ after := by
  have all : ∀ character ∈ after.reverse, decide (character ≠ '\n') = true :=
    fun character member => decide_eq_true fun same => whole (same ▸ List.mem_reverse.1 member)
  rw [lastLine, lastLine, List.reverse_append, List.takeWhile_append_of_pos all,
    List.reverse_append, List.reverse_reverse]

theorem lastLine_of_notMem {line : Text} (whole : '\n' ∉ line) : lastLine line = line :=
  lastLine_append_of_notMem [] whole

theorem lastLine_append_newline (before after : Text) :
    lastLine (before ++ '\n' :: after) = lastLine after := by
  rw [lastLine, lastLine, List.reverse_append, List.reverse_cons, List.append_assoc,
    List.takeWhile_append]
  split
  · rename_i whole
    rw [List.singleton_append, List.takeWhile_cons_of_neg (by simp), List.append_nil,
      (List.takeWhile_prefix _).eq_of_length whole]
  · rfl

theorem lastLine_unlines_concat (above : List Text) {last : Text} (whole : '\n' ∉ last) :
    lastLine (unlines (above ++ [last])) = last := by
  induction above with
  | nil => exact (congrArg lastLine (unlines_singleton last)).trans (lastLine_of_notMem whole)
  | cons top above ih =>
    rw [List.cons_append, unlines_cons top (by simp), lastLine_append_newline, ih]

/-- The position that a text reaches. -/
def reach (before : Text) : Position :=
  ⟨UInt32.ofNat (before.count '\n'), UInt32.ofNat (lastLine before).length⟩

/-- Counting one more character. -/
theorem reach_concat (before : Text) (character : Char) :
    reach (before ++ [character]) = (reach before).after character := by
  by_cases newline : character = '\n'
  · subst newline
    rw [reach, List.count_append, List.count_singleton_self, UInt32.ofNat_add,
      lastLine_append_newline, Position.after, if_pos rfl]
    rfl
  · have line : (before ++ [character]).count '\n' = before.count '\n' := by
      rw [List.count_append, List.count_singleton, if_neg (by simpa using newline), Nat.add_zero]
    have column : (lastLine (before ++ [character])).length = (lastLine before).length + 1 := by
      simp [lastLine, newline]
    rw [reach, line, column, UInt32.ofNat_add, Position.after, if_neg newline]
    rfl

/-- Counting the characters of a text gives what the text reaches, in words as well. -/
theorem foldl_after (before text : Text) :
    text.foldl Position.after (reach before) = reach (before ++ text) := by
  induction text generalizing before with
  | nil => rw [List.foldl_nil, List.append_nil]
  | cons character rest ih =>
    rw [List.foldl_cons, ← reach_concat, ih, List.append_assoc, List.singleton_append]

/-- Whether the coordinates of a text are words. -/
def Fits (text : Text) : Prop :=
  text.count '\n' < 2 ^ 32 ∧ ∀ line ∈ lines text, line.length < 2 ^ 32

instance (text : Text) : Decidable (Fits text) := inferInstanceAs (Decidable (_ ∧ _))

theorem Fits.of_prefix {before text : Text} (fits : Fits text) (begins : before <+: text) :
    Fits before := by
  obtain ⟨after, rfl⟩ := begins
  obtain ⟨above, last, first, below, linesBefore, -, linesBoth⟩ := lines_append before after
  obtain ⟨newlines, columns⟩ := fits
  refine ⟨?_, ?_⟩
  · rw [List.count_append] at newlines
    omega
  · intro line member
    rw [linesBefore] at member
    rcases List.mem_append.1 member with upper | final
    · exact columns line (by simp [linesBoth, upper])
    · have bound := columns (last ++ first) (by simp [linesBoth])
      rw [List.length_append] at bound
      rw [List.mem_singleton.1 final]
      omega

theorem length_le_of_mem_lines {text line : Text} (member : line ∈ lines text) :
    line.length ≤ text.length := by
  obtain ⟨above, below, split⟩ := List.append_of_mem member
  have before := unlines_append_cons above [] line below
  have after := unlines_cons_append line [] below
  rw [List.nil_append] at before
  rw [List.append_nil] at after
  rw [← unlines_lines text, split, before, after, List.length_append, List.length_append]
  omega

theorem length_le_byteLength (text : Text) : text.length ≤ byteLength text := by
  induction text with
  | nil => exact Nat.le_refl _
  | cons first rest ih =>
    have size := first.utf8Size_pos
    rw [List.length_cons, byteLength]
    omega

/-- The coordinates of a text whose characters are counted by a word are words. -/
theorem fits_of_length_lt {text : Text} (short : text.length < 2 ^ 32) : Fits text :=
  ⟨Nat.lt_of_le_of_lt List.count_le_length short,
    fun _ member => Nat.lt_of_le_of_lt (length_le_of_mem_lines member) short⟩

/-- The coordinates of a text whose bytes are counted by a word are words. -/
theorem fits_of_byteLength_lt {text : Text} (bound : byteLength text < 2 ^ 32) : Fits text :=
  fits_of_length_lt (Nat.lt_of_le_of_lt (length_le_byteLength text) bound)

/-- The last of the lines, with as many above it as there are newlines. -/
theorem exists_lines_eq_concat (before : Text) :
    ∃ above, lines before = above ++ [lastLine before] ∧ before.count '\n' = above.length := by
  have same := (List.dropLast_concat_getLast (lines_ne_nil before)).symm
  generalize (lines before).dropLast = above, (lines before).getLast _ = last at same
  have whole : ∀ row ∈ above ++ [last], '\n' ∉ row := by
    rw [← same]
    exact fun row member => notMem_of_mem_lines member
  have joined : unlines (above ++ [last]) = before := same ▸ unlines_lines before
  have ending : lastLine before = last :=
    joined ▸ lastLine_unlines_concat above (whole last (by simp))
  exact ⟨above, by rw [same, ending], joined ▸ count_unlines_concat whole⟩

/-- Whether words count a text: its newlines, and the characters after the last of them. -/
def IsCounted (before : Text) : Prop :=
  before.count '\n' < 2 ^ 32 ∧ (lastLine before).length < 2 ^ 32

instance (before : Text) : Decidable before.IsCounted := inferInstanceAs (Decidable (_ ∧ _))

theorem Fits.isCounted {text : Text} (fits : Fits text) : text.IsCounted := by
  obtain ⟨above, same, -⟩ := exists_lines_eq_concat text
  exact ⟨fits.1, fits.2 _ (by simp [same])⟩

/-- Joined lines reach the last of them and its length. -/
theorem reach_unlines_concat {above : List Text} {last : Text}
    (whole : ∀ row ∈ above ++ [last], '\n' ∉ row) :
    reach (unlines (above ++ [last])) =
      ⟨UInt32.ofNat above.length, UInt32.ofNat last.length⟩ := by
  rw [reach, count_unlines_concat whole, lastLine_unlines_concat above (whole last (by simp))]

theorem isCounted_unlines_concat_iff {above : List Text} {last : Text}
    (whole : ∀ row ∈ above ++ [last], '\n' ∉ row) :
    IsCounted (unlines (above ++ [last])) ↔ above.length < 2 ^ 32 ∧ last.length < 2 ^ 32 := by
  rw [IsCounted, count_unlines_concat whole, lastLine_unlines_concat above (whole last (by simp))]

theorem IsCounted.reach_toNat {before : Text} (counted : before.IsCounted) :
    (reach before).line.toNat = before.count '\n' ∧
      (reach before).character.toNat = (lastLine before).length := by
  constructor
  · rw [reach, UInt32.toNat_ofNat', Nat.mod_eq_of_lt counted.1]
  · rw [reach, UInt32.toNat_ofNat', Nat.mod_eq_of_lt counted.2]

/-- A beginning of a text reaches a place of it. -/
theorem around_reach {before : Text} (counted : before.IsCounted) (after : Text) :
    ∃ above last first below, lines before = above ++ [last] ∧
      Around (before ++ after) (reach before) above (last ++ first) below ∧
        (reach before).character.toNat = last.length := by
  obtain ⟨above, last, first, below, linesBefore, linesAfter, linesBoth⟩ :=
    lines_append before after
  obtain ⟨above', same, newlines⟩ := exists_lines_eq_concat before
  obtain ⟨rfl, ending⟩ := List.append_inj' (same.symm.trans linesBefore) rfl
  obtain ⟨row, column⟩ := counted.reach_toNat
  rw [List.singleton_inj.1 ending] at column
  refine ⟨above', last, first, below, linesBefore, ⟨linesBoth, ?_, ?_⟩, column⟩
  · rw [row, newlines]
  · rw [column, List.length_append]
    exact Nat.le_add_right _ _

section Reach

variable {before before' text : Text}

/-- Only the beginning itself need be counted, not the text. -/
theorem IsCounted.hasPlace_reach (counted : before.IsCounted) (begins : before <+: text) :
    text.HasPlace (reach before) := by
  obtain ⟨after, rfl⟩ := begins
  obtain ⟨_, _, _, _, _, around, _⟩ := around_reach counted after
  exact around.hasPlace

/-- The place that a beginning reaches has as many characters before it. -/
theorem IsCounted.offsetOf_reach (counted : before.IsCounted) (begins : before <+: text) :
    text.offsetOf (reach before) = before.length := by
  obtain ⟨after, rfl⟩ := begins
  obtain ⟨above, last, first, below, linesBefore, around, columns⟩ := around_reach counted after
  rw [around.offsetOf_eq, columns, List.take_left, ← linesBefore, unlines_lines]

theorem IsCounted.reach_le_iff (counted : before.IsCounted) (counted' : before'.IsCounted)
    (begins : before <+: text) (begins' : before' <+: text) :
    reach before ≤ reach before' ↔ before.length ≤ before'.length := by
  rw [(counted.hasPlace_reach begins).le_iff_offsetOf_le (counted'.hasPlace_reach begins'),
    counted.offsetOf_reach begins, counted'.offsetOf_reach begins']

theorem Fits.hasPlace_reach (fits : Fits before) (begins : before <+: text) :
    text.HasPlace (reach before) :=
  fits.isCounted.hasPlace_reach begins

theorem Fits.offsetOf_reach (fits : Fits before) (begins : before <+: text) :
    text.offsetOf (reach before) = before.length :=
  fits.isCounted.offsetOf_reach begins

theorem Fits.reach_le_iff (fits : Fits before) (fits' : Fits before') (begins : before <+: text)
    (begins' : before' <+: text) :
    reach before ≤ reach before' ↔ byteLength before ≤ byteLength before' := by
  rw [fits.isCounted.reach_le_iff fits'.isCounted begins begins', byteLength_le_iff begins begins']

theorem hasPlace_reach (fits : Fits text) (begins : before <+: text) :
    text.HasPlace (reach before) :=
  (fits.of_prefix begins).hasPlace_reach begins

theorem offsetOf_reach (fits : Fits text) (begins : before <+: text) :
    text.offsetOf (reach before) = before.length :=
  (fits.of_prefix begins).offsetOf_reach begins

theorem reach_le_iff (fits : Fits text) (begins : before <+: text) (begins' : before' <+: text) :
    reach before ≤ reach before' ↔ byteLength before ≤ byteLength before' :=
  (fits.of_prefix begins).reach_le_iff (fits.of_prefix begins') begins begins'

end Reach

/-- What stands before a place has the newlines and the last line that the place counts. -/
theorem HasPlace.counts {text : Text} {position : Position} (place : text.HasPlace position) :
    (text.take (text.offsetOf position)).count '\n' = position.line.toNat ∧
      (lastLine (text.take (text.offsetOf position))).length = position.character.toNat := by
  obtain ⟨above, line, below, around⟩ := place.around
  have whole : ∀ row ∈ above ++ [line.take position.character.toNat], '\n' ∉ row := by
    intro row member newline
    rcases List.mem_append.1 member with member | member
    · have row_mem : row ∈ lines text := by rw [around.lines_eq]; simp [member]
      exact notMem_of_mem_lines row_mem newline
    · rw [List.mem_singleton.1 member] at newline
      have line_mem : line ∈ lines text := by simp [around.lines_eq]
      exact notMem_of_mem_lines line_mem (List.mem_of_mem_take newline)
  rw [around.take_offsetOf, count_unlines_concat whole,
    lastLine_unlines_concat above (whole _ (by simp)), List.length_take_of_le around.column,
    around.row]
  exact ⟨rfl, rfl⟩

theorem HasPlace.isCounted {text : Text} {position : Position} (place : text.HasPlace position) :
    IsCounted (text.take (text.offsetOf position)) := by
  rw [IsCounted, place.counts.1, place.counts.2]
  exact ⟨position.line.toNat_lt, position.character.toNat_lt⟩

/-- Every place is reached by what stands before it. -/
theorem reach_take_offsetOf {text : Text} {position : Position}
    (place : text.HasPlace position) : reach (text.take (text.offsetOf position)) = position := by
  rw [reach, place.counts.1, place.counts.2, UInt32.ofNat_toNat, UInt32.ofNat_toNat]

/-! ## Points -/

/-- A byte offset that stands between two characters, with the point that a parser gives
for it: the number of newlines before it, and the bytes since the last of them. -/
inductive Marks (source : Text) (offset : Nat) (point : Point) : Prop where
  | intro (earlier line after : Text) (source_eq : source = earlier ++ line ++ after)
      (starts : earlier = [] ∨ earlier.getLast? = some '\n') (whole : '\n' ∉ line)
      (offset_eq : offset = byteLength (earlier ++ line))
      (row : point.row = (earlier ++ line).count '\n') (column : point.column = byteLength line)

namespace Marks

variable {source : Text} {offset : Nat} {point : Point}

/-- The position that is found for a point is the one that the characters before it
reach. -/
theorem positionAt_eq (marks : Marks source offset point) :
    ∃ before, before <+: source ∧ byteLength before = offset ∧
      positionAt source offset point = reach before := by
  obtain ⟨earlier, line, after, rfl, starts, whole, rfl, row, column⟩ := marks
  refine ⟨earlier ++ line, List.prefix_append _ _, rfl, ?_⟩
  have ending : lastLine (earlier ++ line) = line := by
    rcases starts with rfl | newline
    · exact lastLine_of_notMem whole
    · obtain ⟨initial, rfl⟩ := List.getLast?_eq_some_iff.1 newline
      rw [List.append_assoc, List.singleton_append, lastLine_append_newline,
        lastLine_of_notMem whole]
  have lineStart : byteLength (earlier ++ line) - point.column = byteLength earlier := by
    rw [column, byteLength_append, Nat.add_sub_cancel]
  rw [positionAt, lineStart, slice?_append, row, reach, ending]

end Marks

theorem notMem_lastLine (before : Text) : '\n' ∉ lastLine before := by
  intro newline
  have kept := List.all_eq_true.1 List.all_takeWhile _ (List.mem_reverse.1 newline)
  exact of_decide_eq_true kept rfl

/-- A text is what ends with its last newline, and its last line. -/
theorem exists_append_lastLine (before : Text) :
    ∃ earlier, before = earlier ++ lastLine before ∧
      (earlier = [] ∨ earlier.getLast? = some '\n') := by
  refine ⟨(before.reverse.dropWhile (· ≠ '\n')).reverse, ?_, ?_⟩
  · rw [lastLine, ← List.reverse_append, List.takeWhile_append_dropWhile, List.reverse_reverse]
  · rw [List.getLast?_reverse]
    cases rest : before.reverse.dropWhile (· ≠ '\n') with
    | nil => exact .inl rfl
    | cons first more =>
      have stopped := List.head?_dropWhile_not (· ≠ '\n') before.reverse
      rw [rest] at stopped
      have newline : first = '\n' := by simpa using stopped
      exact .inr (congrArg some newline)

/-- Offsets between two characters have a point. -/
theorem marks_pointAt {before source : Text} (begins : before <+: source) :
    Marks source (byteLength before) (source.pointAt (byteLength before)) := by
  obtain ⟨after, rfl⟩ := begins
  have point : pointAt (before ++ after) (byteLength before) =
      ⟨before.count '\n', byteLength (lastLine before)⟩ := by
    rw [pointAt, splitAtByte?_append]
    rfl
  obtain ⟨earlier, parted, starts⟩ := exists_append_lastLine before
  rw [point]
  exact .intro earlier (lastLine before) after (by rw [← parted]) starts (notMem_lastLine before)
    (by rw [← parted]) (by rw [← parted]) rfl

end Text
end Retouch
