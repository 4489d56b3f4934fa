import Mathlib.Order.Defs.LinearOrder
import Retouch.Selection

/-!
# Document order is linear

Positions form a linear order, so the general lemmas on such orders apply to them and
to the ends of selections.
-/

set_option autoImplicit false

namespace Retouch
namespace Position

instance : LinearOrder Position where
  le_refl := Position.le_refl
  le_trans _ _ _ := Position.le_trans
  le_antisymm _ _ := Position.le_antisymm
  le_total first second := by
    by_cases ordered : first ≤ second
    · exact .inl ordered
    · exact .inr (Position.le_of_not_le ordered)
  lt_iff_le_not_ge first second := by
    constructor
    · intro before
      exact ⟨Position.le_of_lt before, fun after => after before⟩
    · rintro ⟨-, notAfter⟩
      exact Decidable.of_not_not notAfter
  toDecidableLE := inferInstance
  toDecidableEq := inferInstance
  toDecidableLT := inferInstance
  min_def _ _ := rfl
  max_def _ _ := rfl

theorem zero_le (position : Position) : zero ≤ position := by
  rw [Position.le_iff_not_lt, Position.lt_iff]
  rintro (impossible | ⟨_, impossible⟩) <;> exact Nat.not_lt_zero _ impossible

theorem line_le_of_le {first second : Position} (ordered : first ≤ second) :
    first.line.toNat ≤ second.line.toNat := by
  rw [Position.le_iff_not_lt, Position.lt_iff] at ordered
  omega

theorem character_le_of_le {first second : Position} (ordered : first ≤ second)
    (same : first.line.toNat = second.line.toNat) :
    first.character.toNat ≤ second.character.toNat := by
  rw [Position.le_iff_not_lt, Position.lt_iff] at ordered
  omega

end Position

attribute [ext] Selection

end Retouch
