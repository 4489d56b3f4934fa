import Mathlib.Order.Bounds.Basic
import Retouch.Proofs.Buffer.LaidOut

/-!
# Bringing positions into a buffer

Clamping a position gives a place of the buffer, whatever the position and however long the
text is (`hasPlace_clamp`).  As long as the coordinates of the text are words it is the last
place that is not after the position (`isGreatest_clamp`), so that places are left alone
(`clamp_of_hasPlace`).
-/

set_option autoImplicit false

namespace Retouch
namespace Grid

open Text

variable {text : Text} {position : Position} {line : Text}

theorem lineLength?_ofText (found : (Text.lines text)[position.line.toNat]? = some line) :
    (ofText text).lineLength? position.line = some line.length := by
  rw [lineLength?, line?_ofText, found]
  rfl

/-- A line reaches as far as the word of its length, which may have wrapped. -/
theorem hasPlace_of_le_length (found : (Text.lines text)[position.line.toNat]? = some line)
    (reaches : position.character.toNat ≤ (UInt32.ofNat line.length).toNat) :
    text.HasPlace position := by
  rw [UInt32.toNat_ofNat'] at reaches
  exact ⟨line, found, Nat.le_trans reaches (Nat.mod_le _ _)⟩

/-! ## The stop of a buffer -/

theorem line_stop_lt (text : Text) :
    (ofText text).stop.line.toNat < (Text.lines text).length := by
  have positive := List.length_pos_iff.2 (lines_ne_nil text)
  have wraps := Nat.mod_le ((Text.lines text).length - 1) (2 ^ 32)
  have last : (ofText text).stop.line.toNat = ((Text.lines text).length - 1) % 2 ^ 32 := by
    rw [stop, lineCount, ofText, List.length_map, UInt32.toNat_ofNat']
  omega

theorem character_stop (found : (Text.lines text)[(ofText text).stop.line.toNat]? = some line) :
    (ofText text).stop.character = UInt32.ofNat line.length := by
  show UInt32.ofNat (((ofText text).lineLength? (ofText text).stop.line).getD 0) = _
  rw [lineLength?_ofText found, Option.getD_some]

theorem hasPlace_stop (text : Text) : text.HasPlace (ofText text).stop := by
  have found := List.getElem?_eq_getElem (line_stop_lt text)
  exact hasPlace_of_le_length found (Nat.le_of_eq (by rw [character_stop found]))

/-- The stop is after all places when the coordinates are words. -/
theorem le_stop (fits : Fits text) (place : text.HasPlace position) :
    position ≤ (ofText text).stop := by
  obtain ⟨line, found, column⟩ := place
  obtain ⟨inside, -⟩ := List.getElem?_eq_some_iff.1 found
  have rows := (isLaidOut_ofText text).lineCount_eq
  rw [text_ofText] at rows
  have last : (ofText text).stop.line.toNat = text.count '\n' := by
    rw [stop, rows, Nat.add_sub_cancel, UInt32.toNat_ofNat', Nat.mod_eq_of_lt fits.1]
  rw [lineCount, ofText, List.length_map] at rows
  rw [Position.le_iff_not_lt, Position.lt_iff]
  rintro (above | ⟨same, before⟩)
  · omega
  · rw [← same] at found
    have bound := fits.2 line (List.mem_of_getElem? found)
    rw [character_stop found, UInt32.toNat_ofNat', Nat.mod_eq_of_lt bound] at before
    omega

/-! ## Clamping -/

/-- **Clamping gives a place of the buffer.** -/
theorem hasPlace_clamp (text : Text) (position : Position) :
    text.HasPlace ((ofText text).clamp position) := by
  rw [clamp]
  split
  · exact hasPlace_stop text
  · rename_i before
    have inside : position.line.toNat < (Text.lines text).length :=
      Nat.lt_of_le_of_lt (Position.line_le_of_le before) (line_stop_lt text)
    have found := List.getElem?_eq_getElem inside
    rw [lineLength?_ofText found, Option.getD_some]
    refine @hasPlace_of_le_length text (position.atCharacter _) _ found ?_
    show (min position.character _).toNat ≤ _
    rw [UInt32.toNat_min]
    exact Nat.min_le_right _ _

theorem clamp_le (grid : Grid) (position : Position) : grid.clamp position ≤ position := by
  rw [clamp]
  split
  · exact Position.le_of_lt ‹_›
  · show position.atCharacter (min position.character _) ≤ position
    rw [Position.le_iff_not_lt, Position.lt_iff]
    rintro (below | ⟨-, after⟩)
    · exact Nat.lt_irrefl _ below
    · rw [Position.atCharacter, UInt32.toNat_min] at after
      exact absurd after (Nat.not_lt.2 (Nat.min_le_left _ _))

/-- No place of the buffer lies between a position and what it is clamped to. -/
theorem le_clamp (fits : Fits text) {other : Position} (place : text.HasPlace other)
    (before : other ≤ position) : other ≤ (ofText text).clamp position := by
  rw [clamp]
  split
  · exact le_stop fits place
  · obtain ⟨line, found, column⟩ := place
    have bound := fits.2 line (List.mem_of_getElem? found)
    rw [Position.le_iff_not_lt, Position.lt_iff]
    rintro (below | ⟨same, after⟩)
    · exact absurd (Position.line_le_of_le before) (Nat.not_le.2 below)
    · have sameLine : other.line.toNat = position.line.toNat := same.symm
      rw [sameLine] at found
      rw [lineLength?_ofText found, Option.getD_some, Position.atCharacter, UInt32.toNat_min,
        UInt32.toNat_ofNat', Nat.mod_eq_of_lt bound] at after
      have reaches := Position.character_le_of_le before sameLine
      omega

/-- **Clamping gives the last place of the buffer that is not after the position.** -/
theorem isGreatest_clamp (fits : Fits text) (position : Position) :
    IsGreatest { place | text.HasPlace place ∧ place ≤ position }
      ((ofText text).clamp position) :=
  ⟨⟨hasPlace_clamp text position, clamp_le _ position⟩,
    fun _ ⟨place, before⟩ => le_clamp fits place before⟩

/-- **Clamping leaves the places of a buffer alone.** -/
theorem clamp_of_hasPlace (fits : Fits text) (place : text.HasPlace position) :
    (ofText text).clamp position = position :=
  (isGreatest_clamp fits position).unique
    ⟨⟨place, Position.le_refl position⟩, fun _ ⟨_, before⟩ => before⟩

theorem clamp_clamp (fits : Fits text) (position : Position) :
    (ofText text).clamp ((ofText text).clamp position) = (ofText text).clamp position :=
  clamp_of_hasPlace fits (hasPlace_clamp text position)

/-- Clamping keeps the order of positions. -/
theorem monotone_clamp (fits : Fits text) : Monotone (ofText text).clamp := fun first _ ordered =>
  le_clamp fits (hasPlace_clamp text first) ((clamp_le _ first).trans ordered)

end Grid
end Retouch
