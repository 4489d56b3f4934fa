import Retouch.Proofs.Buffer.Clamp
import Retouch.Proofs.Buffer.Read

/-!
# Reading back what was written

An edit moves everything behind it: by its newlines, and on the line where it stops by its
last characters.  The position to which its code leads is counted from the start of the edit
(`Text.Leads`), and it is the one that the beginning of the new text up to there reaches
(`Text.Leads.reach_eq`).

A part of a text is read between the positions that the beginnings before and behind it
reach (`Grid.read_part`).  So an edit can be read back, and what stood in front of its
range and behind it is read where it stands now (`Grid.apply_reads_back`).  This needs no
bound on the text or the code: only the positions between which is read must be positions,
that is pairs of words.
-/

set_option autoImplicit false

namespace Retouch

open Text

namespace Text

/-! ## Walking through a text -/

/-- **The position to which a code leads**: on the same line when the code has no newline,
else further down by as many lines, at the end of the last line of the code. -/
structure Leads (code : Text) (start stop : Position) : Prop where
  line : stop.line.toNat = start.line.toNat + code.count '\n'
  character : stop.character.toNat =
    if '\n' ∈ code then (lastLine code).length else start.character.toNat + code.length

theorem lastLine_append (before code : Text) :
    lastLine (before ++ code) = if '\n' ∈ code then lastLine code else lastLine before ++ code := by
  split
  · rename_i newline
    obtain ⟨upper, lower, rfl⟩ := List.append_of_mem newline
    rw [lastLine_append_newline, ← List.append_assoc, lastLine_append_newline]
  · exact lastLine_append_of_notMem before ‹_›

variable {before code : Text} {stop : Position}

theorem leads_iff (counted : before.IsCounted) :
    code.Leads (reach before) stop ↔ (before ++ code).count '\n' = stop.line.toNat ∧
      (lastLine (before ++ code)).length = stop.character.toNat := by
  obtain ⟨row, column⟩ := counted.reach_toNat
  have length : (lastLine (before ++ code)).length = if '\n' ∈ code then (lastLine code).length
      else (reach before).character.toNat + code.length := by
    rw [lastLine_append, column]
    split
    · rfl
    · exact List.length_append
  rw [List.count_append, length, ← row]
  exact ⟨fun leads => ⟨leads.line.symm, leads.character.symm⟩,
    fun counts => ⟨counts.1.symm, counts.2.symm⟩⟩

/-- **A code leads to where the beginning with it reaches.** -/
theorem Leads.reach_eq (counted : before.IsCounted) (leads : code.Leads (reach before) stop) :
    IsCounted (before ++ code) ∧ reach (before ++ code) = stop := by
  obtain ⟨row, column⟩ := (leads_iff counted).1 leads
  constructor
  · rw [IsCounted, row, column]
    exact ⟨stop.line.toNat_lt, stop.character.toNat_lt⟩
  · rw [reach, row, column, UInt32.ofNat_toNat, UInt32.ofNat_toNat]

theorem leads_reach (counted : before.IsCounted) (counted' : IsCounted (before ++ code)) :
    code.Leads (reach before) (reach (before ++ code)) := by
  obtain ⟨row, column⟩ := counted'.reach_toNat
  exact (leads_iff counted).2 ⟨row.symm, column.symm⟩

end Text

namespace Grid

/-! ## Reading parts -/

/-- The stop of a buffer is where its text reaches, when words count it. -/
theorem stop_eq_reach {text : Text} (counted : text.IsCounted) :
    (ofText text).stop = reach text := by
  obtain ⟨above, same, newlines⟩ := exists_lines_eq_concat text
  have rows : (ofText text).lineCount = text.count '\n' + 1 := by
    have laidOut := (isLaidOut_ofText text).lineCount_eq
    rwa [text_ofText] at laidOut
  have row : (ofText text).stop.line = (reach text).line := by
    rw [stop, rows, Nat.add_sub_cancel]
    rfl
  have found : (Text.lines text)[(ofText text).stop.line.toNat]? = some (lastLine text) := by
    rw [row, counted.reach_toNat.1, same, newlines, List.getElem?_concat_length]
  have column : (ofText text).stop.character = (reach text).character := character_stop found
  exact congrArg₂ Position.mk row column

section Parts

variable {before middle : Text} (counted : before.IsCounted)
  (counted' : IsCounted (before ++ middle)) (after : Text)

include counted counted'

theorem reach_le_reach : reach before ≤ reach (before ++ middle) := by
  rw [counted.reach_le_iff counted' (List.prefix_append before middle) List.prefix_rfl,
    List.length_append]
  exact Nat.le_add_right _ _

/-- The ends of a part are places of the text, with as many characters before them. -/
theorem places_of_part :
    (HasPlace (before ++ middle ++ after) (reach before) ∧
        offsetOf (before ++ middle ++ after) (reach before) = before.length) ∧
      HasPlace (before ++ middle ++ after) (reach (before ++ middle)) ∧
        offsetOf (before ++ middle ++ after) (reach (before ++ middle)) =
          (before ++ middle).length := by
  have begins : before <+: before ++ middle ++ after := by
    rw [List.append_assoc]
    exact List.prefix_append _ _
  have begins' : before ++ middle <+: before ++ middle ++ after := List.prefix_append _ _
  exact ⟨⟨counted.hasPlace_reach begins, counted.offsetOf_reach begins⟩,
    counted'.hasPlace_reach begins', counted'.offsetOf_reach begins'⟩

/-- **A part of a text is read where it stands.** -/
theorem read_part : (ofText (before ++ middle ++ after)).read
    (.between (reach before) (reach (before ++ middle))) = .ok middle := by
  obtain ⟨⟨start, offset⟩, stop, offset'⟩ := places_of_part counted counted' after
  rw [Selection.between_of_le (reach_le_reach counted counted'), read_ofText start stop, between,
    offset, offset', List.take_left, List.drop_left]

/-- **A part of a text is replaced where it stands.** -/
theorem apply_part (code : Text) : (ofText (before ++ middle ++ after)).apply
    [⟨code, .between (reach before) (reach (before ++ middle))⟩] =
      (.ok (), ofText (before ++ code ++ after)) := by
  obtain ⟨⟨start, offset⟩, stop, offset'⟩ := places_of_part counted counted' after
  rw [Selection.between_of_le (reach_le_reach counted counted')]
  have admits : (ofText (before ++ middle ++ after)).text.Admits
      [⟨code, ⟨reach before, reach (before ++ middle), reach_le_reach counted counted'⟩⟩] := by
    rw [text_ofText]
    refine ⟨fun edit member => ?_, List.pairwise_singleton _ _⟩
    rw [List.mem_singleton.1 member]
    exact ⟨start, stop⟩
  rw [(Reachable.ofText _).apply_of_admits admits, List.mergeSort_singleton, text_ofText]
  simp only [spliced, splicedFrom, offset, offset', List.drop_zero, List.drop_left]
  rw [List.append_assoc before, List.take_left]

end Parts

/-- A selection in a text cuts it into three parts. -/
theorem exists_parts {text : Text} {selection : Selection}
    (start : text.HasPlace selection.start) (stop : text.HasPlace selection.stop) :
    ∃ front old back, text = front ++ old ++ back ∧ IsCounted front ∧ IsCounted (front ++ old) ∧
      reach front = selection.start ∧ reach (front ++ old) = selection.stop := by
  have upTo := take_append_drop_take text ((start.le_iff_offsetOf_le stop).1 selection.ordered)
  refine ⟨text.take (text.offsetOf selection.start), text.between selection.start selection.stop,
    text.drop (text.offsetOf selection.stop), ?_, start.isCounted, ?_, reach_take_offsetOf start,
    ?_⟩
  · rw [between, upTo, List.take_append_drop]
  · rw [between, upTo]
    exact stop.isCounted
  · rw [between, upTo, reach_take_offsetOf stop]

/-! ## Edits -/

/-- **Edits can be read back.**  The ends of the range are places of the buffer; its text and
the code are arbitrary.  The edit is made.  The position to which the code leads from the
start of the range is a place of the new buffer, and between the two the code is read.  From
the beginning to the start of the range what was there is still read, and so is what stood
behind the range, from that position to the stop of the new buffer.  Writing what is read
changes nothing. -/
theorem apply_reads_back {text : Text} {selection : Selection}
    (start : text.HasPlace selection.start) (stop : text.HasPlace selection.stop) (code : Text) :
    ∃ edited, (ofText text).apply [⟨code, selection⟩] = (.ok (), ofText edited) ∧
      (∃ front, (ofText text).read (.between .zero selection.start) = .ok front ∧
        (ofText edited).read (.between .zero selection.start) = .ok front) ∧
      (edited.Fits → ∃ reached, code.Leads selection.start reached) ∧
      (∀ reached, code.Leads selection.start reached →
        edited.HasPlace reached ∧ selection.start ≤ reached ∧
        (ofText edited).read (.between selection.start reached) = .ok code ∧
        (text.IsCounted → edited.IsCounted →
          ∃ back, (ofText text).read (.between selection.stop (ofText text).stop) = .ok back ∧
            (ofText edited).read (.between reached (ofText edited).stop) = .ok back)) ∧
      ((ofText text).read selection = .ok code → edited = text) := by
  obtain ⟨front, old, back, rfl, counted, counted', starts, stops⟩ := exists_parts start stop
  have range : selection = .between (reach front) (reach (front ++ old)) := by
    rw [starts, stops, Selection.between_start_stop]
  have none : IsCounted ([] : Text) := by decide
  refine ⟨front ++ code ++ back, ?_, ⟨front, ?_, ?_⟩, ?_, ?_, ?_⟩
  · rw [range, apply_part counted counted']
  · rw [← starts, List.append_assoc]
    exact read_part none counted (old ++ back)
  · rw [← starts, List.append_assoc]
    exact read_part none counted (code ++ back)
  · intro fits
    have begins : front ++ code <+: front ++ code ++ back := List.prefix_append _ _
    exact ⟨_, starts ▸ leads_reach counted (fits.of_prefix begins).isCounted⟩
  · intro reached leads
    rw [← starts] at leads ⊢
    obtain ⟨within, rfl⟩ := leads.reach_eq counted
    refine ⟨(places_of_part counted within back).2.1, reach_le_reach counted within,
      read_part counted within back, fun whole whole' => ⟨back, ?_, ?_⟩⟩
    · have read := read_part counted' whole []
      rwa [List.append_nil, stops, ← stop_eq_reach whole] at read
    · have read := read_part within whole' []
      rwa [List.append_nil, ← stop_eq_reach whole'] at read
  · intro same
    rw [range, read_part counted counted'] at same
    rw [Except.ok.inj same]

/-- A text with an empty line, and the code of two lines that takes the place of a range
from the end of its first line to the empty one. -/
def gapped : Text := "ab\nc\n\nd".toList

def twoLines : Text := "x\ny".toList

theorem apply_reads_back_gapped :
    gapped.HasPlace ⟨0, 2⟩ ∧ gapped.HasPlace ⟨2, 0⟩ ∧ twoLines.Leads ⟨0, 2⟩ ⟨1, 1⟩ ∧
      ∃ edited, (ofText gapped).apply [⟨twoLines, .between ⟨0, 2⟩ ⟨2, 0⟩⟩] = (.ok (), edited) ∧
        edited = ofText "abx\ny\nd".toList ∧
        edited.read (.between ⟨0, 2⟩ ⟨1, 1⟩) = .ok twoLines ∧
        ∃ back, (ofText gapped).read (.between ⟨2, 0⟩ ⟨3, 1⟩) = .ok back ∧
          edited.read (.between ⟨1, 1⟩ ⟨2, 1⟩) = .ok back := by
  have start : gapped.HasPlace ⟨0, 2⟩ := by decide
  have stop : gapped.HasPlace ⟨2, 0⟩ := by decide
  have leads : twoLines.Leads ⟨0, 2⟩ ⟨1, 1⟩ := ⟨by decide, by decide⟩
  obtain ⟨edited, made, -, -, readBack, -⟩ :=
    @apply_reads_back gapped (.between ⟨0, 2⟩ ⟨2, 0⟩) start stop twoLines
  obtain ⟨-, -, read, rest⟩ := readBack ⟨1, 1⟩ leads
  have admits : (ofText gapped).text.Admits [⟨twoLines, .between ⟨0, 2⟩ ⟨2, 0⟩⟩] := by decide
  have replaced := (Reachable.ofText gapped).apply_of_admits admits
  rw [List.mergeSort_singleton] at replaced
  obtain rfl : edited = "abx\ny\nd".toList := by
    have same := congrArg (fun outcome => outcome.2.text) (made.symm.trans replaced)
    rw [text_ofText, text_ofText] at same
    exact same
  exact ⟨start, stop, leads, _, made, rfl, read, rest (by decide) (by decide)⟩

end Grid
end Retouch
