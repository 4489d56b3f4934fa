import Retouch.Proofs.Buffer.Batch
import Retouch.Proofs.Tree.Shape

/-!
# Slices of a text

A slice is the text between two byte offsets.  Slices that meet make one slice
(`Text.slice?_append_slice?`), and a slice is what is there whenever both offsets stand between
characters (`Text.IsBoundary.exists_slice?`).

Edits of nodes in document order replace the slices of the nodes and keep the slices between them.
This is said one edit at a time: from a byte offset on, the edited text is the slice up to the next
node, the code for that node, and the edited text from the end of the node on
(`Text.splicedFrom_rangeIn`).
-/

set_option autoImplicit false

namespace Retouch
namespace Text

variable {source text more : Text} {start middle stop : Nat}

theorem splitAtByte?_eq_some_iff {before after : Text} :
    splitAtByte? stop source = some (before, after) ↔
      source = before ++ after ∧ byteLength before = stop := by
  constructor
  · intro parted
    obtain ⟨before', ⟨after', rfl⟩, rfl⟩ :=
      isSome_splitAtByte?_iff.1 (Option.isSome_of_eq_some parted)
    cases (splitAtByte?_append before' after').symm.trans parted
    exact ⟨rfl, rfl⟩
  · rintro ⟨rfl, rfl⟩
    exact splitAtByte?_append before after

theorem slice?_eq_some_iff : slice? source start stop = some text ↔
    ∃ before after, source = before ++ text ++ after ∧ byteLength before = start ∧
      byteLength (before ++ text) = stop := by
  constructor
  · intro sliced
    obtain ⟨⟨whole, after⟩, parted, sliced⟩ := Option.bind_eq_some_iff.1 sliced
    obtain ⟨⟨before, between⟩, parted', sliced⟩ := Option.bind_eq_some_iff.1 sliced
    obtain rfl := Option.some.inj sliced
    obtain ⟨rfl, rfl⟩ := splitAtByte?_eq_some_iff.1 parted
    obtain ⟨rfl, rfl⟩ := splitAtByte?_eq_some_iff.1 parted'
    exact ⟨before, after, rfl, rfl, rfl⟩
  · rintro ⟨before, after, rfl, rfl, rfl⟩
    exact slice?_append before text after

theorem le_of_slice? (sliced : slice? source start stop = some text) : start ≤ stop := by
  obtain ⟨before, after, -, rfl, rfl⟩ := slice?_eq_some_iff.1 sliced
  rw [byteLength_append]
  exact Nat.le_add_right _ _

/-- **Slices that meet make one slice.** -/
theorem slice?_append_slice? (first : slice? source start middle = some text)
    (second : slice? source middle stop = some more) :
    slice? source start stop = some (text ++ more) := by
  obtain ⟨before, after, rfl, rfl, rfl⟩ := slice?_eq_some_iff.1 first
  obtain ⟨before', after', same, meets, rfl⟩ := slice?_eq_some_iff.1 second
  have begins : before' <+: before ++ text ++ after := by
    rw [same, List.append_assoc]
    exact List.prefix_append _ _
  obtain rfl := eq_of_byteLength_eq begins (List.prefix_append (before ++ text) after) meets
  exact slice?_eq_some_iff.2 ⟨before, after', by rw [same]; simp, rfl, by simp⟩

/-- Between two characters there is a slice. -/
theorem IsBoundary.exists_slice? (boundary : source.IsBoundary start)
    (boundary' : source.IsBoundary stop) (ordered : start ≤ stop) :
    ∃ text, slice? source start stop = some text := by
  obtain ⟨before, begins, rfl⟩ := boundary
  obtain ⟨before', begins', rfl⟩ := boundary'
  obtain ⟨text, rfl⟩ :=
    List.prefix_of_prefix_length_le begins begins' ((byteLength_le_iff begins begins').1 ordered)
  obtain ⟨after, rfl⟩ := begins'
  exact ⟨text, slice?_append before text after⟩

theorem isBoundary_zero (source : Text) : source.IsBoundary 0 := ⟨[], List.nil_prefix, rfl⟩

/-- A slice from the beginning is followed by the rest of the text. -/
theorem exists_append_of_slice?_zero (sliced : slice? source 0 stop = some text) :
    ∃ after, source = text ++ after ∧ byteLength text = stop := by
  obtain ⟨before, after, rfl, empty, rfl⟩ := slice?_eq_some_iff.1 sliced
  obtain rfl := eq_nil_of_byteLength_eq_zero empty
  exact ⟨after, rfl, rfl⟩

/-- The characters in front of an offset. -/
theorem offsetOf_place {before : Text} (begins : before <+: source)
    (word : byteLength before < 2 ^ 32) :
    source.offsetOf (Node.place source (byteLength before)) = before.length := by
  rw [Node.place_byteLength begins, (fits_of_byteLength_lt word).offsetOf_reach begins]

/-- **An edit of a node replaces its slice** and keeps the slice in front of it. -/
theorem splicedFrom_rangeIn {node : Node} (regular : node.IsRegular source)
    (sliced : slice? source start node.label.start = some text) (code : Text) (later : List Edit) :
    source.splicedFrom (source.offsetOf (Node.place source start))
        (⟨code, node.rangeIn source⟩ :: later) =
      text ++ code ++
        source.splicedFrom (source.offsetOf (Node.place source node.label.stop)) later := by
  obtain ⟨ordered, range⟩ := regular.rangeIn_eq
  have word : node.label.start < 2 ^ 32 := Nat.lt_of_le_of_lt regular.spans.ordered regular.word
  obtain ⟨before, after, same, first, second⟩ := slice?_eq_some_iff.1 sliced
  have begins : before <+: source := ⟨text ++ after, by rw [same, List.append_assoc]⟩
  have begins' : before ++ text <+: source := ⟨after, same.symm⟩
  have atFirst : source.offsetOf (Node.place source start) = before.length := by
    rw [← first, offsetOf_place begins]
    rw [byteLength_append] at second
    omega
  have atSecond :
      source.offsetOf (Node.place source node.label.start) = (before ++ text).length := by
    rw [← second, offsetOf_place begins' (by rw [second]; exact word)]
  rw [splicedFrom, range]
  simp only [atFirst, atSecond]
  rw [same, List.take_left, List.drop_left]

/-- After the last edit the rest of the text is kept. -/
theorem splicedFrom_place_nil {after : Text} (same : source = text ++ after)
    (word : byteLength text < 2 ^ 32) :
    source.splicedFrom (source.offsetOf (Node.place source (byteLength text))) [] = after := by
  rw [splicedFrom, offsetOf_place ⟨after, same.symm⟩ word, same, List.drop_left]

end Text

namespace Node.IsRegular

variable {source : Text} {first second : Node}

/-- The slice of a node. -/
theorem slice?_eq (regular : first.IsRegular source) :
    source.slice? first.label.start first.label.stop = some (first.textIn source) := by
  obtain ⟨text, sliced⟩ :=
    regular.spans.start.exists_slice? regular.spans.stop regular.spans.ordered
  rw [textIn, sliced]
  rfl

/-- Edits of nodes come in the order of the nodes. -/
theorem comesBefore (regular : first.IsRegular source) (regular' : second.IsRegular source)
    (ordered : first.label.stop ≤ second.label.start) (code code' : Text) :
    Edit.comesBefore ⟨code, first.rangeIn source⟩ ⟨code', second.rangeIn source⟩ = true := by
  obtain ⟨within, range⟩ := regular.rangeIn_eq
  obtain ⟨within', range'⟩ := regular'.rangeIn_eq
  have word := Nat.lt_of_le_of_lt regular'.spans.ordered regular'.word
  have order := regular.spans.stop.place_le regular'.spans.start ordered word
  rw [Edit.comesBefore_iff, range, range']
  rcases lt_or_eq_of_le (le_trans within order) with less | same
  · exact .inl less
  · exact .inr ⟨same, le_trans order within'⟩

end Node.IsRegular
end Retouch
