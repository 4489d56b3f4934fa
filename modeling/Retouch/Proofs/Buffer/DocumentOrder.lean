import Retouch.Buffer.Grid
import Retouch.Proofs.Position

/-!
# Document order and overlaps

Two edits of a batch overlap when each starts before the other stops.  Edits that only
touch do not overlap, and neither do two insertions at one place.

A batch is checked by bringing it into document order and comparing neighbours only.
That is enough: in document order neighbours that do not reach into each other leave
no pair that does (`firstOverlap?_eq_none_iff`).  The order itself is that of start,
stop and number in the batch (`inDocumentOrder_iff`), and the overlap that is reported
does not depend on how the batch is given (`firstOverlap?_mergeSort_of_perm`).
-/

set_option autoImplicit false

namespace Retouch
namespace Edit

/-! ## Overlaps -/

/-- Whether each of two edits starts before the other stops. -/
def Overlaps (first second : Edit) : Prop :=
  first.selection.start < second.selection.stop ∧ second.selection.start < first.selection.stop

instance (first second : Edit) : Decidable (first.Overlaps second) :=
  inferInstanceAs (Decidable (_ ∧ _))

theorem Overlaps.symm {first second : Edit} (overlap : first.Overlaps second) :
    second.Overlaps first :=
  ⟨overlap.2, overlap.1⟩

/-- No two edits of a batch overlap. -/
def Apart (edits : List Edit) : Prop :=
  edits.Pairwise fun first second => ¬ first.Overlaps second

instance (edits : List Edit) : Decidable (Apart edits) :=
  inferInstanceAs (Decidable (edits.Pairwise _))

theorem Apart.perm {edits others : List Edit} (permuted : edits.Perm others) :
    Apart edits ↔ Apart others :=
  permuted.pairwise_iff fun apart overlap => apart overlap.symm

/-! ## The order of a batch -/

/-- The order of start, stop and number in the batch. -/
def ComesFirst (first second : Edit × Nat) : Prop :=
  first.1.selection.start < second.1.selection.start ∨
    first.1.selection.start = second.1.selection.start ∧
      (first.1.selection.stop < second.1.selection.stop ∨
        first.1.selection.stop = second.1.selection.stop ∧ first.2 < second.2)

/-- Whether a list holds the edits of a batch by start, stop and number in the batch. -/
def InDocumentOrder (edits ordered : List Edit) : Prop :=
  ∃ numbered : List (Edit × Nat), numbered.Perm edits.zipIdx ∧ numbered.Pairwise ComesFirst ∧
    numbered.map Prod.fst = ordered

theorem comesBefore_iff {first second : Edit} :
    first.comesBefore second = true ↔
      first.selection.start < second.selection.start ∨
        first.selection.start = second.selection.start ∧
          first.selection.stop ≤ second.selection.stop := by
  simp [comesBefore]

theorem comesBefore_trans (first second third : Edit)
    (earlier : first.comesBefore second = true) (later : second.comesBefore third = true) :
    first.comesBefore third = true := by
  rw [comesBefore_iff] at *
  rcases earlier with earlier | ⟨same, earlier⟩ <;> rcases later with later | ⟨same', later⟩
  · exact .inl (lt_trans earlier later)
  · exact .inl (same' ▸ earlier)
  · exact .inl (same ▸ later)
  · exact .inr ⟨same.trans same', le_trans earlier later⟩

theorem comesBefore_total (first second : Edit) :
    (first.comesBefore second || second.comesBefore first) = true := by
  rw [Bool.or_eq_true, comesBefore_iff, comesBefore_iff]
  rcases lt_trichotomy first.selection.start second.selection.start with earlier | same | later
  · exact .inl (.inl earlier)
  · rcases le_total first.selection.stop second.selection.stop with stops | stops
    · exact .inl (.inr ⟨same, stops⟩)
    · exact .inr (.inr ⟨same.symm, stops⟩)
  · exact .inr (.inl later)

/-- Edits that come before each other have one range. -/
theorem selection_eq_of_comesBefore {first second : Edit}
    (earlier : first.comesBefore second = true) (later : second.comesBefore first = true) :
    first.selection = second.selection := by
  rw [comesBefore_iff] at earlier later
  have starts : first.selection.start = second.selection.start := by
    rcases earlier with before | ⟨same, _⟩
    · rcases later with after | ⟨same, _⟩
      · exact absurd after (lt_asymm before)
      · exact same.symm
    · exact same
  have stops : first.selection.stop = second.selection.stop := by
    refine le_antisymm ?_ ?_
    · exact (earlier.resolve_left (starts ▸ lt_irrefl _)).2
    · exact (later.resolve_left (starts ▸ lt_irrefl _)).2
  exact Selection.ext_iff.2 ⟨starts, stops⟩

/-- In document order two numbered edits of one place stand by number. -/
theorem comesFirst_of_zipIdxLE {first second : Edit × Nat}
    (earlier : List.zipIdxLE comesBefore first second = true) (distinct : first.2 ≠ second.2) :
    ComesFirst first second := by
  unfold List.zipIdxLE at earlier
  split at earlier
  · rename_i before
    split at earlier
    · rename_i after
      have same := selection_eq_of_comesBefore before after
      have numbers : first.2 < second.2 :=
        Nat.lt_of_le_of_ne (of_decide_eq_true earlier) distinct
      exact .inr ⟨congrArg Selection.start same, .inr ⟨congrArg Selection.stop same, numbers⟩⟩
    · rename_i notAfter
      rcases comesBefore_iff.1 before with starts | ⟨starts, stops⟩
      · exact .inl starts
      · refine .inr ⟨starts, .inl (lt_of_le_of_ne stops fun same => notAfter ?_)⟩
        exact comesBefore_iff.2 (.inr ⟨starts.symm, le_of_eq same.symm⟩)
  · cases earlier

theorem inDocumentOrder_mergeSort (edits : List Edit) :
    InDocumentOrder edits (edits.mergeSort comesBefore) := by
  refine ⟨edits.zipIdx.mergeSort (List.zipIdxLE comesBefore), List.mergeSort_perm _ _, ?_,
    List.mergeSort_zipIdx⟩
  have sorted := List.pairwise_mergeSort (List.zipIdxLE_trans comesBefore_trans)
    (List.zipIdxLE_total comesBefore_total) edits.zipIdx
  have numbers : (edits.zipIdx.map Prod.snd).Nodup := by
    rw [List.zipIdx_map_snd]
    exact List.nodup_range'
  have distinct := List.pairwise_map.1 (((List.mergeSort_perm edits.zipIdx
    (List.zipIdxLE comesBefore)).map Prod.snd).nodup_iff.2 numbers)
  exact (sorted.and distinct).imp fun both => comesFirst_of_zipIdxLE both.1 both.2

theorem ComesFirst.asymm {first second : Edit × Nat} (earlier : ComesFirst first second) :
    ¬ ComesFirst second first := by
  intro later
  rcases earlier with starts | ⟨starts, earlier⟩ <;> rcases later with starts' | ⟨starts', later⟩
  · exact lt_asymm starts starts'
  · exact lt_irrefl _ (starts' ▸ starts)
  · exact lt_irrefl _ (starts ▸ starts')
  · rcases earlier with stops | ⟨stops, number⟩ <;> rcases later with stops' | ⟨stops', number'⟩
    · exact lt_asymm stops stops'
    · exact lt_irrefl _ (stops' ▸ stops)
    · exact lt_irrefl _ (stops ▸ stops')
    · exact Nat.lt_asymm number number'

/-- A batch has exactly one document order. -/
theorem inDocumentOrder_iff {edits ordered : List Edit} :
    InDocumentOrder edits ordered ↔ ordered = edits.mergeSort comesBefore := by
  constructor
  · rintro ⟨numbered, permuted, sorted, rfl⟩
    obtain ⟨numbered', permuted', sorted', same⟩ := inDocumentOrder_mergeSort edits
    rw [← same, List.Perm.eq_of_pairwise (fun _ _ _ _ earlier later =>
      absurd later earlier.asymm) sorted sorted' (permuted.trans permuted'.symm)]
  · rintro rfl
    exact inDocumentOrder_mergeSort edits

end Edit

/-! ## Checking neighbours -/

namespace Grid

open Edit

/-- Neighbours that do not reach into each other leave no pair that does. -/
theorem pairwise_of_firstOverlap?_eq_none {ordered : List Edit}
    (free : firstOverlap? ordered = none) :
    ordered.Pairwise fun first second => first.selection.stop ≤ second.selection.start := by
  induction ordered with
  | nil => exact .nil
  | cons first rest ih =>
    cases rest with
    | nil => exact List.pairwise_singleton _ _
    | cons second rest =>
      rw [firstOverlap?] at free
      split at free
      · cases free
      · rename_i touching
        have touches := not_lt.1 touching
        have later := ih free
        refine List.pairwise_cons.2 ⟨?_, later⟩
        intro other member
        rcases List.mem_cons.1 member with rfl | member
        · exact touches
        · exact le_trans (le_trans touches second.selection.ordered)
            ((List.pairwise_cons.1 later).1 other member)

/-- In document order two edits are apart when the earlier stops before the later
starts. -/
theorem not_overlaps_iff {first second : Edit} (before : first.comesBefore second = true) :
    ¬ first.Overlaps second ↔ first.selection.stop ≤ second.selection.start := by
  constructor
  · intro apart
    by_contra reaching
    refine apart ⟨?_, not_le.1 reaching⟩
    rcases comesBefore_iff.1 before with starts | ⟨starts, stops⟩
    · exact lt_of_lt_of_le starts second.selection.ordered
    · exact starts ▸ lt_of_lt_of_le (not_le.1 reaching) stops
  · intro touches overlap
    exact not_lt.2 touches overlap.2

/-- **The check of neighbours is exact**: in document order it finds nothing exactly
when no two edits overlap. -/
theorem firstOverlap?_eq_none_iff {ordered : List Edit}
    (sorted : ordered.Pairwise fun first second => first.comesBefore second = true) :
    firstOverlap? ordered = none ↔ Apart ordered := by
  constructor
  · intro free
    exact (sorted.and (pairwise_of_firstOverlap?_eq_none free)).imp fun both =>
      (not_overlaps_iff both.1).2 both.2
  · intro apart
    induction ordered with
    | nil => rfl
    | cons first rest ih =>
      cases rest with
      | nil => rfl
      | cons second rest =>
        have touches := (not_overlaps_iff ((List.pairwise_cons.1 sorted).1 second (by simp))).1
          ((List.pairwise_cons.1 apart).1 second (by simp))
        rw [firstOverlap?, if_neg (not_lt.2 touches)]
        exact ih (List.pairwise_cons.1 sorted).2 (List.pairwise_cons.1 apart).2

/-- The overlap that is found is one. -/
theorem overlaps_of_firstOverlap?_eq_some {ordered : List Edit} {first second : Selection}
    (sorted : ordered.Pairwise fun first second => first.comesBefore second = true)
    (found : firstOverlap? ordered = some (first, second)) :
    ∃ earlier ∈ ordered, ∃ later ∈ ordered, earlier.Overlaps later ∧
      earlier.selection = first ∧ later.selection = second := by
  induction ordered with
  | nil => cases found
  | cons edit rest ih =>
    cases rest with
    | nil => cases found
    | cons next rest =>
      rw [firstOverlap?] at found
      split at found
      · rename_i reaching
        cases found
        have before := (List.pairwise_cons.1 sorted).1 next (by simp)
        refine ⟨edit, by simp, next, by simp, ?_, rfl, rfl⟩
        by_contra apart
        exact not_lt.2 ((not_overlaps_iff before).1 apart) reaching
      · obtain ⟨earlier, member, later, member', rest⟩ := ih (List.pairwise_cons.1 sorted).2 found
        exact ⟨earlier, .tail _ member, later, .tail _ member', rest⟩

theorem pairwise_mergeSort_comesBefore (edits : List Edit) :
    (edits.mergeSort comesBefore).Pairwise fun first second =>
      first.comesBefore second = true :=
  List.pairwise_mergeSort comesBefore_trans comesBefore_total edits

theorem firstOverlap?_mergeSort_eq_none_iff (edits : List Edit) :
    firstOverlap? (edits.mergeSort comesBefore) = none ↔ Apart edits :=
  (firstOverlap?_eq_none_iff (pairwise_mergeSort_comesBefore edits)).trans
    (Apart.perm (List.mergeSort_perm edits comesBefore))

/-! ## What the check does not depend on -/

theorem firstOverlap?_of_selections_eq {edits others : List Edit}
    (same : edits.map Edit.selection = others.map Edit.selection) :
    firstOverlap? edits = firstOverlap? others := by
  induction edits generalizing others with
  | nil =>
    rw [List.map_nil, eq_comm, List.map_eq_nil_iff] at same
    rw [same]
  | cons first rest ih =>
    obtain ⟨first', rest', rfl, head, tail⟩ := List.map_eq_cons_iff.1 same.symm
    cases rest with
    | nil =>
      rw [List.map_nil, List.map_eq_nil_iff] at tail
      rw [tail]
      rfl
    | cons second rest =>
      obtain ⟨second', rest', rfl, head', _⟩ := List.map_eq_cons_iff.1 tail
      rw [firstOverlap?, firstOverlap?, head, head', ih tail.symm]

/-- The ranges of a batch in document order do not depend on how it is given. -/
theorem selections_mergeSort_of_perm {edits others : List Edit} (permuted : edits.Perm others) :
    (edits.mergeSort comesBefore).map Edit.selection =
      (others.mergeSort comesBefore).map Edit.selection := by
  have sorted (batch : List Edit) :
      ((batch.mergeSort comesBefore).map Edit.selection).Pairwise fun first second =>
        (⟨[], first⟩ : Edit).comesBefore ⟨[], second⟩ = true :=
    List.pairwise_map.2 (pairwise_mergeSort_comesBefore batch)
  refine List.Perm.eq_of_pairwise (fun first second _ _ earlier later =>
    selection_eq_of_comesBefore earlier later) (sorted edits) (sorted others) ?_
  exact (((List.mergeSort_perm edits _).trans permuted).trans
    (List.mergeSort_perm others _).symm).map Edit.selection

/-- The overlap that is reported does not depend on how the batch is given. -/
theorem firstOverlap?_mergeSort_of_perm {edits others : List Edit}
    (permuted : edits.Perm others) :
    firstOverlap? (edits.mergeSort comesBefore) =
      firstOverlap? (others.mergeSort comesBefore) :=
  firstOverlap?_of_selections_eq (selections_mergeSort_of_perm permuted)

end Grid
end Retouch
