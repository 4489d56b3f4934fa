import Retouch.Word

/-!
# Positions in a text

A position is a line and a character of that line, both counted from zero.  A
character is one Unicode scalar value.  Positions are ordered as they stand in a
document: by line, and on one line by character.  Every move gives a new position
and stops at the ends of the coordinate range; only a displacement can fail instead, by
a distance so great that its sum overflows.
-/

set_option autoImplicit false

namespace Retouch

/-- A place between two characters of a text. -/
structure Position where
  line : UInt32
  character : UInt32
deriving DecidableEq

namespace Position

/-- The beginning of every text. -/
def zero : Position := ⟨0, 0⟩

instance : Inhabited Position := ⟨zero⟩

/-! ## Document order -/

/-- An earlier line, or the same line and an earlier character. -/
protected def Before (first second : Position) : Prop :=
  first.line < second.line ∨ first.line = second.line ∧ first.character < second.character

instance : LT Position := ⟨Position.Before⟩

instance : LE Position := ⟨fun first second => ¬ second < first⟩

instance (first second : Position) : Decidable (first < second) :=
  inferInstanceAs (Decidable
    (first.line < second.line ∨ first.line = second.line ∧ first.character < second.character))

instance (first second : Position) : Decidable (first ≤ second) :=
  inferInstanceAs (Decidable (¬ second < first))

instance : Min Position := minOfLe

instance : Max Position := maxOfLe

theorem lt_iff {first second : Position} :
    first < second ↔ first.line.toNat < second.line.toNat ∨
      first.line.toNat = second.line.toNat ∧
        first.character.toNat < second.character.toNat := by
  show first.line < second.line ∨ _ ∧ first.character < second.character ↔ _
  rw [UInt32.lt_iff_toNat_lt, UInt32.lt_iff_toNat_lt, ← UInt32.toNat_inj]

theorem le_iff_not_lt {first second : Position} : first ≤ second ↔ ¬ second < first := Iff.rfl

protected theorem le_refl (position : Position) : position ≤ position := by
  rw [le_iff_not_lt, lt_iff]
  omega

protected theorem le_of_lt {first second : Position} (before : first < second) :
    first ≤ second := by
  rw [le_iff_not_lt]
  rw [lt_iff] at *
  omega

protected theorem le_of_not_le {first second : Position} (after : ¬ first ≤ second) :
    second ≤ first := by
  rw [le_iff_not_lt] at *
  rw [lt_iff] at *
  omega

protected theorem le_trans {first second third : Position} (lower : first ≤ second)
    (upper : second ≤ third) : first ≤ third := by
  rw [le_iff_not_lt, lt_iff] at *
  omega

protected theorem le_antisymm {first second : Position} (lower : first ≤ second)
    (upper : second ≤ first) : first = second := by
  obtain ⟨line, character⟩ := first
  obtain ⟨line', character'⟩ := second
  rw [le_iff_not_lt, lt_iff] at *
  simp only [Position.mk.injEq, ← UInt32.toNat_inj] at *
  omega

/-! ## Reading and printing -/

/-- The position named by a line counted from one; there is no line zero. -/
def ofOneBased? (line character : UInt32) : Option Position :=
  if line = 0 then none else some ⟨line - 1, character⟩

/-- The line and the character, with a colon between them. -/
def text (position : Position) : String :=
  toString position.line.toNat ++ ":" ++ toString position.character.toNat

/-! ## Comparisons and moves -/

/-- Whether two positions share their line. -/
def isSameLineAs (position other : Position) : Bool := position.line == other.line

def atStartOfLine (position : Position) : Position := ⟨position.line, 0⟩

def atCharacter (position : Position) (character : UInt32) : Position :=
  ⟨position.line, character⟩

/-- The same line, at the character of the other position. -/
def atCharacterOf (position other : Position) : Position := ⟨position.line, other.character⟩

def addCharacters (position : Position) (count : UInt32) : Position :=
  ⟨position.line, Word.add position.character count⟩

def removeCharacters (position : Position) (count : UInt32) : Position :=
  ⟨position.line, Word.sub position.character count⟩

def addLines (position : Position) (count : UInt32) : Position :=
  ⟨Word.add position.line count, position.character⟩

def removeLines (position : Position) (count : UInt32) : Position :=
  ⟨Word.sub position.line count, position.character⟩

def atNextLine (position : Position) : Position := position.addLines 1

def atPreviousLine (position : Position) : Position := position.removeLines 1

/-- Displaces both coordinates by signed distances.  If either sum overflows, there is
no result. -/
def offset? (position : Position) (lines characters : Int64) : Option Position := do
  return ⟨← Word.displace? position.line lines, ← Word.displace? position.character characters⟩

/-! ## Counting -/

/-- The position after a character that stands at this one: only a newline leaves the
line.  This is no move but a count, and a count in words starts again after the greatest
of them. -/
def after (position : Position) (character : Char) : Position :=
  if character = '\n' then ⟨position.line + 1, 0⟩ else ⟨position.line, position.character + 1⟩

end Position
end Retouch
