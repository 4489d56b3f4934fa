import Retouch.Proofs.Position

/-!
# Signed displacements

A displaced coordinate should be the one nearest to the sum of the coordinate and the distance
(`Word.IsNearest`).  The sum is formed in a signed 64-bit word, for which it can only be too
great, and then only by less than the coordinate (`Word.Overflows`).  A displacement by such a
distance has no result.

**Result.**  A position comes to the nearest one if neither sum overflows, and else to none, and
distances keep their order (`Position.offset?_exact`).  Counts of 32 bits never come near, so
displacing by them and by their negatives agrees with the moves that stop at the ends of the
range.  A far move down from the second line overflows, although the greatest line is nearest to
where it leads (`Position.offset?_far_down`).
-/

set_option autoImplicit false

namespace Retouch

/-! ## Coordinates -/

namespace Word

/-- Whether a coordinate is the one nearest to an integer: the integer itself, if it is one, and
else the end of the range that it lies beyond. -/
def IsNearest (value : Int) (coordinate : UInt32) : Prop :=
  (coordinate.toNat : Int) = max 0 (min (greatest : Int) value)

instance (value : Int) (coordinate : UInt32) : Decidable (IsNearest value coordinate) :=
  inferInstanceAs (Decidable (_ = _))

/-- Whether the sum of a coordinate and a distance is too great for a 64-bit word. -/
def Overflows (coordinate : UInt32) (distance : Int64) : Prop :=
  Int64.maxValue.toInt < coordinate.toNat + distance.toInt

instance (coordinate : UInt32) (distance : Int64) : Decidable (Overflows coordinate distance) :=
  inferInstanceAs (Decidable (_ < _))

variable {coordinate displaced : UInt32} {distance distance' : Int64}

theorem isNearest_iff {value : Int} : IsNearest value coordinate ↔ coordinate = clamp value := by
  rw [IsNearest, ← UInt32.toNat_inj, toNat_clamp]
  omega

/-- A sum of words is the sum of their integers. -/
theorem sum?_eq_some_iff {first second sum : Int64} :
    sum? first second = some sum ↔ sum.toInt = first.toInt + second.toInt := by
  have lower := sum.le_toInt
  have upper := sum.toInt_lt
  unfold sum?
  simp only [Int64.toInt_minValue, Int64.toInt_maxValue]
  split
  case isTrue fits =>
    rw [Option.some.injEq, ← Int64.toInt_inj, Int64.toInt_ofInt_of_le (by omega) (by omega)]
    exact eq_comm
  case isFalse exceeds =>
    exact iff_of_false (fun same => by cases same) (by omega)

/-- **What a displacement comes to.** -/
theorem displace?_eq_some_iff :
    displace? coordinate distance = some displaced ↔
      ¬ Overflows coordinate distance ∧
        IsNearest (coordinate.toNat + distance.toInt) displaced := by
  have bound := coordinate.toNat_lt
  have lower := distance.le_toInt
  have whole : (Int64.ofNat coordinate.toNat).toInt = coordinate.toNat :=
    Int64.toInt_ofNat_of_lt (by omega)
  simp only [displace?, Option.map_eq_some_iff, sum?_eq_some_iff, whole, isNearest_iff]
  constructor
  · rintro ⟨sum, exact, rfl⟩
    have upper := sum.toInt_lt
    rw [Overflows, Int64.toInt_maxValue, exact]
    exact ⟨by omega, rfl⟩
  · rintro ⟨fits, rfl⟩
    rw [Overflows, Int64.toInt_maxValue] at fits
    have exact : (Int64.ofInt (coordinate.toNat + distance.toInt)).toInt =
        coordinate.toNat + distance.toInt := Int64.toInt_ofInt_of_le (by omega) (by omega)
    exact ⟨_, exact, by rw [exact]⟩

theorem displace?_eq_none_iff :
    displace? coordinate distance = none ↔ Overflows coordinate distance := by
  rw [Option.eq_none_iff_forall_ne_some]
  simp only [ne_eq, displace?_eq_some_iff, isNearest_iff, not_and]
  exact ⟨fun none => Decidable.of_not_not fun fits => none _ fits rfl,
    fun exceeds _ fits => absurd exceeds fits⟩

/-! ## Counts -/

/-- Distances up to the greatest coordinate are far from overflowing. -/
theorem displace?_of_le (small : distance.toInt ≤ greatest)
    (nearest : IsNearest (coordinate.toNat + distance.toInt) displaced) :
    displace? coordinate distance = some displaced := by
  have bound := coordinate.toNat_lt
  refine displace?_eq_some_iff.2 ⟨?_, nearest⟩
  rw [Overflows, Int64.toInt_maxValue]
  rw [greatest] at small
  omega

/-- Displacing by a count stops at the greatest coordinate. -/
theorem displace?_count (coordinate count : UInt32) :
    displace? coordinate (.ofNat count.toNat) = some (add coordinate count) := by
  have bound := count.toNat_lt
  have value : (Int64.ofNat count.toNat).toInt = count.toNat :=
    Int64.toInt_ofNat_of_lt (by omega)
  refine displace?_of_le (by rw [value, greatest]; omega) ?_
  rw [IsNearest, value, toNat_add]
  omega

/-- Displacing by the negative of a count stops at zero. -/
theorem displace?_neg_count (coordinate count : UInt32) :
    displace? coordinate (-.ofNat count.toNat) = some (sub coordinate count) := by
  have bound := coordinate.toNat_lt
  have bound' := count.toNat_lt
  have value : (-Int64.ofNat count.toNat).toInt = -count.toNat :=
    Int64.toInt_neg_ofNat_of_le (by omega)
  refine displace?_of_le (by rw [value, greatest]; omega) ?_
  rw [IsNearest, value, toNat_sub, greatest]
  omega

theorem displace?_zero (coordinate : UInt32) : displace? coordinate 0 = some coordinate := by
  have bound := coordinate.toNat_lt
  refine displace?_of_le (by decide) ?_
  rw [IsNearest, Int64.toInt_zero, greatest]
  omega

/-! ## Order -/

/-- **Distances keep their order**: one that is not greater than one with a result has a result,
which is not greater either. -/
theorem exists_displace?_le {displaced' : UInt32} (ordered : distance ≤ distance')
    (further : displace? coordinate distance' = some displaced') :
    ∃ displaced, displace? coordinate distance = some displaced ∧
      displaced.toNat ≤ displaced'.toNat := by
  obtain ⟨fits, nearest⟩ := displace?_eq_some_iff.1 further
  rw [Int64.le_iff_toInt_le] at ordered
  rw [Overflows] at fits
  refine ⟨clamp (coordinate.toNat + distance.toInt),
    displace?_eq_some_iff.2 ⟨by rw [Overflows]; omega, isNearest_iff.2 rfl⟩, ?_⟩
  rw [isNearest_iff.1 nearest, toNat_clamp, toNat_clamp]
  omega

end Word

/-! ## Positions -/

namespace Position

variable {position moved : Position} {lines characters : Int64}

/-- On an earlier line, or on the same. -/
theorem le_of_line_le {line : UInt32} (above : line.toNat ≤ position.line.toNat) :
    ⟨line, position.character⟩ ≤ position := by
  simp only [le_iff_not_lt, lt_iff]
  omega

/-- At an earlier character of the line, or at the same. -/
theorem le_of_character_le {character : UInt32}
    (ahead : character.toNat ≤ position.character.toNat) :
    ⟨position.line, character⟩ ≤ position := by
  simp only [le_iff_not_lt, lt_iff]
  omega

/-- A position is displaced coordinate by coordinate. -/
theorem offset?_eq_some_iff :
    position.offset? lines characters = some moved ↔
      Word.displace? position.line lines = some moved.line ∧
        Word.displace? position.character characters = some moved.character := by
  obtain ⟨line, character⟩ := moved
  simp only [offset?, Option.bind_eq_bind, Option.bind_eq_some_iff, Option.pure_def,
    Option.some.injEq, Position.mk.injEq]
  constructor
  · rintro ⟨_, lineFound, _, characterFound, rfl, rfl⟩
    exact ⟨lineFound, characterFound⟩
  · rintro ⟨lineFound, characterFound⟩
    exact ⟨_, lineFound, _, characterFound, rfl, rfl⟩

theorem offset?_eq_none_iff :
    position.offset? lines characters = none ↔
      Word.Overflows position.line lines ∨ Word.Overflows position.character characters := by
  rw [← Word.displace?_eq_none_iff, ← Word.displace?_eq_none_iff, offset?]
  cases Word.displace? position.line lines <;>
    cases Word.displace? position.character characters <;> simp

/-- **Displacements are exact wherever they have a result.**  A position comes to another exactly
if neither sum overflows and the coordinates of that are nearest to the sums; there is no result
exactly if one of the sums overflows.  By a count of lines or of characters a position is
displaced as it is moved down or up, forwards or backwards, wherever it is.  In each of the two
distances a displacement is monotone: a distance that is not greater than one with a result has a
result, which is not further either. -/
theorem offset?_exact (position : Position) (lines characters : Int64) :
    (∀ moved, position.offset? lines characters = some moved ↔
      (¬ Word.Overflows position.line lines ∧
          Word.IsNearest (position.line.toNat + lines.toInt) moved.line) ∧
        ¬ Word.Overflows position.character characters ∧
          Word.IsNearest (position.character.toNat + characters.toInt) moved.character) ∧
      (position.offset? lines characters = none ↔
        Word.Overflows position.line lines ∨ Word.Overflows position.character characters) ∧
      (∀ count : UInt32,
        position.offset? (.ofNat count.toNat) 0 = some (position.addLines count) ∧
          position.offset? (-.ofNat count.toNat) 0 = some (position.removeLines count) ∧
          position.offset? 0 (.ofNat count.toNat) = some (position.addCharacters count) ∧
          position.offset? 0 (-.ofNat count.toNat) = some (position.removeCharacters count)) ∧
      (∀ further distant, lines ≤ further →
        position.offset? further characters = some distant →
        ∃ moved, position.offset? lines characters = some moved ∧ moved ≤ distant) ∧
      ∀ further distant, characters ≤ further →
        position.offset? lines further = some distant →
        ∃ moved, position.offset? lines characters = some moved ∧ moved ≤ distant := by
  refine ⟨fun moved => ?_, offset?_eq_none_iff, fun count => ?_, ?_, ?_⟩
  · rw [offset?_eq_some_iff, Word.displace?_eq_some_iff, Word.displace?_eq_some_iff]
  · simp only [offset?, Word.displace?_zero, Word.displace?_count, Word.displace?_neg_count]
    exact ⟨rfl, rfl, rfl, rfl⟩
  · intro further distant ordered reached
    obtain ⟨line, character⟩ := offset?_eq_some_iff.1 reached
    obtain ⟨displaced, found, before⟩ := Word.exists_displace?_le ordered line
    exact ⟨⟨displaced, distant.character⟩, offset?_eq_some_iff.2 ⟨found, character⟩,
      le_of_line_le before⟩
  · intro further distant ordered reached
    obtain ⟨line, character⟩ := offset?_eq_some_iff.1 reached
    obtain ⟨displaced, found, before⟩ := Word.exists_displace?_le ordered character
    exact ⟨⟨distant.line, displaced⟩, offset?_eq_some_iff.2 ⟨line, found⟩,
      le_of_character_le before⟩

/-- **A far move down overflows.**  From the second line by the greatest distance: there is no
result, although the greatest line is nearest to where the move leads, and although the greatest
distance is no trouble from the first line. -/
theorem offset?_far_down :
    let position : Position := ⟨1, 0⟩
    let far : Int64 := 9223372036854775807
    position.offset? far 0 = none ∧
      Word.Overflows position.line far ∧
      Word.IsNearest (position.line.toNat + far.toInt) 4294967295 ∧
      zero.offset? far 0 = some ⟨4294967295, 0⟩ := by
  decide

end Position
end Retouch
