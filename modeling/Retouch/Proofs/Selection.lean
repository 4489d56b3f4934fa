import Mathlib.Order.Interval.Set.Basic
import Retouch.Proofs.Position

/-!
# Selections as closed intervals

A selection is never empty as a set of positions, since it contains its own ends.  So it is
known by its positions (`Selection.positions_injective`), and its operations are known by
what they do to them: one selection is inside another if its positions are among the other's
(`isInside_iff_subset`), and two have an intersection if they share a position, which then has
just the positions that they share (`intersection?_eq_some_iff`).  The laws of the operations
are those of sets (`operates_as_intervals`).

The union of two selections is not the union of their positions, as it fills the gap between
them.  It is the least selection around both, which is what makes selections a semilattice.
-/

set_option autoImplicit false

namespace Retouch
namespace Selection

variable {first second third inner outer common : Selection}

/-! ## Positions -/

/-- The positions of a selection. -/
def positions (selection : Selection) : Set Position :=
  { position | selection.contains position = true }

theorem positions_eq_Icc (selection : Selection) :
    selection.positions = Set.Icc selection.start selection.stop := by
  ext position
  show selection.contains position = true ↔ position ∈ Set.Icc _ _
  rw [contains, Bool.and_eq_true, decide_eq_true_eq, decide_eq_true_eq, Set.mem_Icc]

theorem positions_nonempty (selection : Selection) : selection.positions.Nonempty := by
  rw [positions_eq_Icc]
  exact Set.nonempty_Icc.2 selection.ordered

/-! ## Containment -/

theorem isInside_iff :
    inner.isInside outer = true ↔ outer.start ≤ inner.start ∧ inner.stop ≤ outer.stop := by
  simp only [isInside, contains, Bool.and_eq_true, decide_eq_true_eq]
  constructor
  · rintro ⟨⟨starts, -⟩, -, stops⟩
    exact ⟨starts, stops⟩
  · rintro ⟨starts, stops⟩
    exact ⟨⟨starts, inner.ordered.trans stops⟩, starts.trans inner.ordered, stops⟩

/-- A selection is inside another if all of its positions are. -/
theorem isInside_iff_subset : inner.isInside outer = true ↔ inner.positions ⊆ outer.positions := by
  rw [isInside_iff, positions_eq_Icc, positions_eq_Icc, Set.Icc_subset_Icc_iff inner.ordered]

theorem isInside_refl (selection : Selection) : selection.isInside selection = true :=
  isInside_iff_subset.2 subset_rfl

theorem isInside_trans {range : Selection} (inside : inner.isInside outer = true)
    (within : outer.isInside range = true) : inner.isInside range = true :=
  isInside_iff_subset.2
    ((isInside_iff_subset.1 inside).trans (isInside_iff_subset.1 within))

theorem isInside_antisymm (inside : inner.isInside outer = true)
    (within : outer.isInside inner = true) : inner = outer := by
  obtain ⟨starts, stops⟩ := isInside_iff.1 inside
  obtain ⟨starts', stops'⟩ := isInside_iff.1 within
  exact Selection.ext (le_antisymm starts' starts) (le_antisymm stops stops')

theorem positions_injective : Function.Injective positions := fun _ _ same =>
  isInside_antisymm (isInside_iff_subset.2 same.subset) (isInside_iff_subset.2 same.superset)

/-! ## Unions -/

theorem union_ends (first second : Selection) :
    (first.union second).start = min first.start second.start ∧
      (first.union second).stop = max first.stop second.stop := by
  have ordered : min first.start second.start ≤ max first.stop second.stop :=
    (min_le_left _ _).trans (first.ordered.trans (le_max_left _ _))
  rw [union, between_of_le ordered]
  exact ⟨rfl, rfl⟩

/-- **Selections are ordered by containment**, and the union of two is the least around
both. -/
instance : SemilatticeSup Selection where
  le inner outer := inner.isInside outer = true
  le_refl := isInside_refl
  le_trans _ _ _ := isInside_trans
  le_antisymm _ _ := isInside_antisymm
  sup := union
  le_sup_left first second := by
    obtain ⟨start, stop⟩ := union_ends first second
    exact isInside_iff.2 ⟨start.trans_le (min_le_left _ _), stop.symm ▸ le_max_left _ _⟩
  le_sup_right first second := by
    obtain ⟨start, stop⟩ := union_ends first second
    exact isInside_iff.2 ⟨start.trans_le (min_le_right _ _), stop.symm ▸ le_max_right _ _⟩
  sup_le first second outer inside inside' := by
    obtain ⟨start, stop⟩ := union_ends first second
    obtain ⟨starts, stops⟩ := isInside_iff.1 inside
    obtain ⟨starts', stops'⟩ := isInside_iff.1 inside'
    exact isInside_iff.2 ⟨start.symm ▸ le_min starts starts', stop.symm ▸ max_le stops stops'⟩

/-! ## Intersections -/

/-- **An intersection has the positions that two selections share.** -/
theorem intersection?_eq_some_iff :
    first.intersection? second = some common ↔
      common.positions = first.positions ∩ second.positions := by
  have shared : first.positions ∩ second.positions =
      Set.Icc (max first.start second.start) (min first.stop second.stop) := by
    rw [positions_eq_Icc, positions_eq_Icc, Set.Icc_inter_Icc]
  rw [shared, intersection?]
  constructor
  · intro found
    split at found
    · obtain rfl := Option.some.inj found
      exact positions_eq_Icc _
    · cases found
  · intro same
    have ordered : max first.start second.start ≤ min first.stop second.stop :=
      Set.nonempty_Icc.1 (same ▸ common.positions_nonempty)
    rw [dif_pos ordered, Option.some.injEq]
    exact positions_injective ((positions_eq_Icc _).trans same.symm)

/-- Two selections have an intersection if they share a position. -/
theorem exists_intersection?_iff :
    (∃ common, first.intersection? second = some common) ↔
      (first.positions ∩ second.positions).Nonempty := by
  constructor
  · rintro ⟨common, found⟩
    exact intersection?_eq_some_iff.1 found ▸ common.positions_nonempty
  · rw [positions_eq_Icc, positions_eq_Icc, Set.Icc_inter_Icc, Set.nonempty_Icc]
    exact fun ordered => ⟨_, dif_pos ordered⟩

theorem intersection?_comm (first second : Selection) :
    first.intersection? second = second.intersection? first := by
  refine Option.ext fun common => ?_
  rw [intersection?_eq_some_iff, intersection?_eq_some_iff, Set.inter_comm]

/-- The intersection of three selections has the positions that all of them share. -/
theorem bind_intersection?_eq_some_iff :
    (first.intersection? second).bind (·.intersection? third) = some common ↔
      common.positions = first.positions ∩ second.positions ∩ third.positions := by
  rw [Option.bind_eq_some_iff]
  constructor
  · rintro ⟨both, found, found'⟩
    rw [intersection?_eq_some_iff.1 found', intersection?_eq_some_iff.1 found]
  · intro same
    have shared : (first.positions ∩ second.positions).Nonempty :=
      (same ▸ common.positions_nonempty).mono Set.inter_subset_left
    obtain ⟨both, found⟩ := exists_intersection?_iff.2 shared
    refine ⟨both, found, intersection?_eq_some_iff.2 ?_⟩
    rw [same, intersection?_eq_some_iff.1 found]

theorem intersection?_assoc (first second third : Selection) :
    (first.intersection? second).bind (·.intersection? third) =
      (second.intersection? third).bind first.intersection? := by
  have turned : (second.intersection? third).bind first.intersection? =
      (second.intersection? third).bind (·.intersection? first) :=
    congrArg _ (funext fun both => intersection?_comm first both)
  refine Option.ext fun common => ?_
  rw [turned, bind_intersection?_eq_some_iff, bind_intersection?_eq_some_iff, Set.inter_assoc,
    Set.inter_comm]

/-! ## The laws -/

/-- **The operations of selections are those of closed intervals.**  Two selections have an
intersection if and only if some position lies in both, and it contains the positions that
lie in both.  Their union contains both and lies in whatever contains both.  One is inside
another if and only if its positions lie in the other, and this is a partial order.  Unions
and intersections do not depend on the order of the selections nor on how they are grouped,
and three selections have no intersection if two of them have none. -/
theorem operates_as_intervals (first second third : Selection) :
    ((∃ common, first.intersection? second = some common) ↔
        ∃ position, first.contains position = true ∧ second.contains position = true) ∧
      (∀ common, first.intersection? second = some common →
        ∀ position, common.contains position = true ↔
          first.contains position = true ∧ second.contains position = true) ∧
      first.intersects second = second.intersects first ∧
      (first.isInside (first.union second) = true ∧ second.isInside (first.union second) = true ∧
        (first.isInside third = true → second.isInside third = true →
          (first.union second).isInside third = true)) ∧
      (first.isInside second = true ↔
        ∀ position, first.contains position = true → second.contains position = true) ∧
      IsPartialOrder Selection (fun inner outer => inner.isInside outer = true) ∧
      (first.union second = second.union first ∧
        (first.union second).union third = first.union (second.union third)) ∧
      first.intersection? second = second.intersection? first ∧
      (first.intersection? second).bind (·.intersection? third) =
        (second.intersection? third).bind first.intersection? := by
  have symmetric := intersection?_comm first second
  have inside : first ≤ first ⊔ second ∧ second ≤ first ⊔ second ∧
      (first ≤ third → second ≤ third → first ⊔ second ≤ third) :=
    ⟨le_sup_left, le_sup_right, sup_le⟩
  have order : IsPartialOrder Selection (· ≤ ·) := inferInstance
  refine ⟨exists_intersection?_iff, ?_, congrArg Option.isSome symmetric, inside,
    isInside_iff_subset, order, ⟨sup_comm first second, sup_assoc first second third⟩, symmetric,
    intersection?_assoc first second third⟩
  intro common found position
  have same := intersection?_eq_some_iff.1 found
  exact Set.ext_iff.1 same position

/-- Selections that touch share the position at which they do. -/
example : (between ⟨0, 0⟩ ⟨0, 5⟩).intersection? (between ⟨0, 5⟩ ⟨1, 0⟩) =
    some (cursorAt ⟨0, 5⟩) := by decide

end Selection
end Retouch
