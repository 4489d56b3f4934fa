import Mathlib.Data.List.Pairwise
import Retouch.Proofs.Buffer.Batch

/-!
# Batches of insertions

Insertions do not overlap, whatever their positions are, so a batch of them is refused
only for a position that is no place of the text.  An accepted one leaves the text with
their codes strewn into it: where a place is passed, the codes inserted there, in the order
in which the batch gives them (`apply_insertions`).

A text can be strewn with any codes that depend on the beginning passed so far
(`Text.strewn`).  Nothing of the text is lost by that (`sublist_strewn`), and codes that
are longer at some beginning leave a longer text (`length_eq_of_length_strewn_le`).
-/

set_option autoImplicit false

namespace Retouch
namespace Text

/-! ## Strewing codes into a text -/

/-- What follows a beginning of a text, with a code put in at the end of the beginning and
after every further character. -/
def strewn (code : Text → Text) (before : Text) : Text → Text
  | [] => code before
  | character :: rest => code before ++ character :: strewn code (before ++ [character]) rest

section Strewn

variable {code code' : Text → Text} {added before rest beginning : Text} {character : Char}

theorem sublist_strewn (code : Text → Text) (before rest : Text) :
    rest.Sublist (strewn code before rest) := by
  induction rest generalizing before with
  | nil => exact List.nil_sublist _
  | cons character rest ih =>
    exact List.sublist_append_of_sublist_right ((ih (before ++ [character])).cons_cons character)

/-- What holds of all beginnings from one on holds of those that go further by a
character. -/
theorem forall_beginning_concat {property : Text → Prop}
    (each : ∀ beginning, before <+: beginning → beginning <+: before ++ character :: rest →
      property beginning) :
    ∀ beginning, before ++ [character] <+: beginning → beginning <+: before ++ [character] ++ rest →
      property beginning := by
  intro beginning longer begins
  rw [List.append_assoc] at begins
  exact each beginning ((List.prefix_append before [character]).trans longer) begins

theorem eq_or_concat_prefix (longer : before <+: beginning)
    (begins : beginning <+: before ++ character :: rest) :
    beginning = before ∨ before ++ [character] <+: beginning := by
  obtain ⟨more, rfl⟩ := longer
  cases more with
  | nil => exact .inl (List.append_nil before)
  | cons first more =>
    obtain ⟨rfl, -⟩ := List.cons_prefix_cons.1 ((List.prefix_append_right_inj before).1 begins)
    exact .inr ((List.prefix_append_right_inj before).2 (List.prefix_append [first] more))

theorem strewn_congr (same : ∀ beginning, before <+: beginning → beginning <+: before ++ rest →
    code beginning = code' beginning) : strewn code before rest = strewn code' before rest := by
  have here := same before List.prefix_rfl (List.prefix_append before rest)
  induction rest generalizing before with
  | nil => exact here
  | cons character rest ih =>
    have later := forall_beginning_concat same
    rw [strewn, strewn, here, ih later (later _ List.prefix_rfl (List.prefix_append _ rest))]

/-- A code that is put in only where the text goes on stands in front of all the rest. -/
theorem strewn_of_append (here : code before = added ++ code' before)
    (later : ∀ beginning, before.length < beginning.length → code beginning = code' beginning) :
    strewn code before rest = added ++ strewn code' before rest := by
  cases rest with
  | nil => exact here
  | cons character rest =>
    rw [strewn, strewn, here, List.append_assoc, strewn_congr]
    intro beginning longer _
    refine later _ (Nat.lt_of_lt_of_le ?_ longer.length_le)
    rw [List.length_append]
    exact Nat.lt_succ_self _

theorem length_strewn_le (shorter : ∀ beginning, before <+: beginning →
    beginning <+: before ++ rest → (code beginning).length ≤ (code' beginning).length) :
    (strewn code before rest).length ≤ (strewn code' before rest).length := by
  have here := shorter before List.prefix_rfl (List.prefix_append before rest)
  induction rest generalizing before with
  | nil => exact here
  | cons character rest ih =>
    have later := forall_beginning_concat shorter
    have tail := ih later (later _ List.prefix_rfl (List.prefix_append _ rest))
    simp only [strewn, List.length_append, List.length_cons]
    omega

/-- Codes that are nowhere longer and leave a text that is no shorter are as long
everywhere. -/
theorem length_eq_of_length_strewn_le (shorter : ∀ beginning, before <+: beginning →
      beginning <+: before ++ rest → (code beginning).length ≤ (code' beginning).length)
    (total : (strewn code' before rest).length ≤ (strewn code before rest).length) :
    ∀ beginning, before <+: beginning → beginning <+: before ++ rest →
      (code beginning).length = (code' beginning).length := by
  have here := shorter before List.prefix_rfl (List.prefix_append before rest)
  induction rest generalizing before with
  | nil =>
    intro beginning longer begins
    rw [List.append_nil] at begins
    rw [← longer.eq_of_length_le begins.length_le]
    exact Nat.le_antisymm here total
  | cons character rest ih =>
    have later := forall_beginning_concat shorter
    have tail := length_strewn_le later
    simp only [strewn, List.length_append, List.length_cons] at total
    intro beginning longer begins
    rcases eq_or_concat_prefix longer begins with rfl | further
    · omega
    · refine ih later (by omega) (later _ List.prefix_rfl (List.prefix_append _ rest)) beginning
        further ?_
      rwa [List.append_assoc]

end Strewn

end Text

/-! ## Insertions -/

namespace Edit

/-- Whether an edit replaces nothing. -/
def IsInsertion (edit : Edit) : Prop := edit.selection.start = edit.selection.stop

theorem not_overlaps_of_isInsertion {first second : Edit} (insertion : first.IsInsertion)
    (insertion' : second.IsInsertion) : ¬ first.Overlaps second := by
  rintro ⟨before, after⟩
  rw [← insertion'] at before
  rw [← insertion] at after
  exact lt_asymm before after

theorem apart_of_isInsertion {edits : List Edit} (insertions : ∀ edit ∈ edits, edit.IsInsertion) :
    Apart edits :=
  List.pairwise_of_forall_mem_list fun first member second member' =>
    not_overlaps_of_isInsertion (insertions first member) (insertions second member')

end Edit

namespace Text

/-- The codes of the edits that start at an offset of a text. -/
def codesAt (text : Text) (edits : List Edit) (offset : Nat) : Text :=
  (edits.filter fun edit => text.offsetOf edit.selection.start = offset).flatMap Edit.code

section Insertions

variable {text rest : Text} {edit : Edit} {edits ordered : List Edit} {offset : Nat}

theorem codesAt_cons_of_eq (here : text.offsetOf edit.selection.start = offset) :
    text.codesAt (edit :: edits) offset = edit.code ++ text.codesAt edits offset := by
  rw [codesAt, List.filter_cons, if_pos (decide_eq_true here), List.flatMap_cons, codesAt]

theorem codesAt_cons_of_ne (elsewhere : text.offsetOf edit.selection.start ≠ offset) :
    text.codesAt (edit :: edits) offset = text.codesAt edits offset := by
  rw [codesAt, List.filter_cons, if_neg (by simpa using elsewhere), codesAt]

theorem codesAt_of_lt (later : ∀ edit ∈ edits, offset < text.offsetOf edit.selection.start) :
    text.codesAt edits offset = [] := by
  rw [codesAt, List.filter_eq_nil_iff.2, List.flatMap_nil]
  intro edit member
  simpa using (Nat.ne_of_lt (later edit member)).symm

theorem splicedFrom_of_eq (insertion : edit.IsInsertion)
    (here : text.offsetOf edit.selection.start = offset) :
    text.splicedFrom offset (edit :: ordered) = edit.code ++ text.splicedFrom offset ordered := by
  rw [splicedFrom, ← insertion, here, List.drop_eq_nil_of_le (List.length_take_le _ _),
    List.nil_append]

/-- Before the first edit the text stays. -/
theorem splicedFrom_of_lt {character : Char} (goesOn : text.drop offset = character :: rest)
    (later : ∀ edit ∈ ordered, offset < text.offsetOf edit.selection.start) :
    text.splicedFrom offset ordered = character :: text.splicedFrom (offset + 1) ordered := by
  have next : text.drop (offset + 1) = rest := by rw [← List.tail_drop, goesOn, List.tail_cons]
  cases ordered with
  | nil => rw [splicedFrom, splicedFrom, goesOn, next]
  | cons edit ordered =>
    obtain ⟨gap, apart⟩ := Nat.exists_eq_add_of_lt (later edit List.mem_cons_self)
    rw [splicedFrom, splicedFrom, List.drop_take, List.drop_take, goesOn, next,
      show text.offsetOf edit.selection.start - offset = gap + 1 by omega,
      show text.offsetOf edit.selection.start - (offset + 1) = gap by omega]
    rfl

/-- Insertions in document order are strewn into what follows a beginning. -/
theorem splicedFrom_eq_strewn {before : Text} (parted : text = before ++ rest)
    (insertions : ∀ edit ∈ ordered, edit.IsInsertion)
    (inOrder : ordered.Pairwise fun first second =>
      text.offsetOf first.selection.start ≤ text.offsetOf second.selection.start)
    (inside : ∀ edit ∈ ordered, before.length ≤ text.offsetOf edit.selection.start ∧
      text.offsetOf edit.selection.start ≤ text.length) :
    text.splicedFrom before.length ordered =
      strewn (fun beginning => text.codesAt ordered beginning.length) before rest := by
  have goesOn : text.drop before.length = rest := by rw [parted, List.drop_left]
  induction rest generalizing before ordered with
  | nil =>
    -- All that is left is inserted at the end of the text.
    induction ordered with
    | nil => exact goesOn
    | cons edit ordered ih =>
      have here : text.offsetOf edit.selection.start = before.length := by
        have bounds := inside edit List.mem_cons_self
        rw [parted, List.append_nil] at bounds ⊢
        omega
      rw [splicedFrom_of_eq (insertions edit List.mem_cons_self) here,
        ih (fun other member => insertions other (List.mem_cons_of_mem _ member))
          inOrder.tail (fun other member => inside other (List.mem_cons_of_mem _ member)),
        strewn, strewn, codesAt_cons_of_eq here]
  | cons character rest ih =>
    have next : text = (before ++ [character]) ++ rest := by simp [parted]
    induction ordered with
    | nil =>
      rw [splicedFrom_of_lt goesOn (List.forall_mem_nil _)]
      have later := @ih [] (before ++ [character]) next (List.forall_mem_nil _) .nil
        (List.forall_mem_nil _) (by rw [next, List.drop_left])
      rw [List.length_append, List.length_singleton] at later
      rw [later, strewn]
      rfl
    | cons edit ordered ih' =>
      rcases Nat.eq_or_lt_of_le (inside edit List.mem_cons_self).1 with here | after
      · rw [splicedFrom_of_eq (insertions edit List.mem_cons_self) here.symm,
          ih' (fun other member => insertions other (List.mem_cons_of_mem _ member))
            inOrder.tail (fun other member => inside other (List.mem_cons_of_mem _ member))]
        refine (strewn_of_append (codesAt_cons_of_eq here.symm) fun beginning longer => ?_).symm
        exact codesAt_cons_of_ne (by omega)
      · have later : ∀ other ∈ edit :: ordered,
            before.length < text.offsetOf other.selection.start := by
          intro other member
          rcases List.mem_cons.1 member with rfl | member
          · exact after
          · exact Nat.lt_of_lt_of_le after ((List.pairwise_cons.1 inOrder).1 other member)
        have tail := @ih (edit :: ordered) (before ++ [character]) next insertions inOrder
          (fun other member => ⟨by simpa using Nat.succ_le_of_lt (later other member),
            (inside other member).2⟩)
          (by rw [next, List.drop_left])
        rw [List.length_append, List.length_singleton] at tail
        rw [splicedFrom_of_lt goesOn later, tail, strewn, codesAt_of_lt later, List.nil_append]

/-- Sorting a batch of insertions keeps those of one place in order. -/
theorem codesAt_mergeSort (insertions : ∀ edit ∈ edits, edit.IsInsertion)
    (inside : ∀ edit ∈ edits, text.HasPlace edit.selection.start) (offset : Nat) :
    text.codesAt (edits.mergeSort Edit.comesBefore) offset = text.codesAt edits offset := by
  have sorted : (edits.filter fun edit => text.offsetOf edit.selection.start = offset).Pairwise
      fun first second => first.comesBefore second = true := by
    refine List.pairwise_of_forall_mem_list fun first member second member' => ?_
    obtain ⟨member, here⟩ := List.mem_filter.1 member
    obtain ⟨member', here'⟩ := List.mem_filter.1 member'
    have same := (inside first member).eq_of_offsetOf_eq (inside second member')
      ((of_decide_eq_true here).trans (of_decide_eq_true here').symm)
    refine Edit.comesBefore_iff.2 (.inr ⟨same, le_of_eq ?_⟩)
    rw [← insertions first member, same, insertions second member']
  have kept := (List.sublist_mergeSort Edit.comesBefore_trans Edit.comesBefore_total sorted
    List.filter_sublist).filter fun edit => text.offsetOf edit.selection.start = offset
  simp only [List.filter_filter, Bool.and_self] at kept
  have counted := ((List.mergeSort_perm edits Edit.comesBefore).filter
    fun edit => text.offsetOf edit.selection.start = offset).length_eq
  rw [codesAt, codesAt, kept.eq_of_length counted.symm]

end Insertions
end Text

namespace Grid

open Text

/-- **A batch of insertions strews their codes into the text**, at each place in the order
in which they are given. -/
theorem apply_insertions {text : Text} {edits : List Edit}
    (insertions : ∀ edit ∈ edits, edit.IsInsertion)
    (inside : ∀ edit ∈ edits, text.HasPlace edit.selection.start) :
    (ofText text).apply edits =
      (.ok (), ofText (strewn (fun beginning => text.codesAt edits beginning.length) [] text)) := by
  have admits : (ofText text).text.Admits edits := by
    rw [text_ofText]
    refine ⟨fun edit member => ⟨inside edit member, ?_⟩, Edit.apart_of_isInsertion insertions⟩
    rw [← insertions edit member]
    exact inside edit member
  have inOrder : (edits.mergeSort Edit.comesBefore).Pairwise fun first second =>
      text.offsetOf first.selection.start ≤ text.offsetOf second.selection.start := by
    refine (pairwise_mergeSort_comesBefore edits).imp_of_mem fun member member' before => ?_
    rw [← (inside _ (List.mem_mergeSort.1 member)).le_iff_offsetOf_le
      (inside _ (List.mem_mergeSort.1 member'))]
    rcases Edit.comesBefore_iff.1 before with starts | ⟨same, _⟩
    · exact le_of_lt starts
    · exact le_of_eq same
  have strewnIn := splicedFrom_eq_strewn (List.nil_append text).symm
    (fun edit member => insertions edit (List.mem_mergeSort.1 member)) inOrder
    (fun edit member => ⟨Nat.zero_le _,
      (inside edit (List.mem_mergeSort.1 member)).offsetOf_le_length⟩)
  rw [(Reachable.ofText text).apply_of_admits admits, text_ofText, spliced,
    show (0 : Nat) = List.length ([] : Text) from rfl, strewnIn]
  simp only [codesAt_mergeSort insertions inside]

end Grid
end Retouch
