/-!
# Arithmetic on coordinates

Lines and characters are counted in 32-bit words.  Moving a coordinate never
wraps around: a move past either end of the word range stops at that end.  Only a
signed displacement may have no result at all: its sum is formed in a signed 64-bit
word before it is brought back into the range, and it must fit there.
-/

set_option autoImplicit false

namespace Retouch
namespace Word

/-- The greatest coordinate. -/
def greatest : Nat := 4294967295

/-- Adds, stopping at the greatest coordinate. -/
def add (coordinate count : UInt32) : UInt32 :=
  UInt32.ofNat (min (coordinate.toNat + count.toNat) greatest)

/-- Subtracts, stopping at zero. -/
def sub (coordinate count : UInt32) : UInt32 :=
  UInt32.ofNat (coordinate.toNat - count.toNat)

/-- The coordinate nearest to an integer. -/
def clamp (value : Int) : UInt32 :=
  UInt32.ofNat (min value.toNat greatest)

/-- The sum of two signed 64-bit words, if it fits one. -/
def sum? (first second : Int64) : Option Int64 :=
  let sum := first.toInt + second.toInt
  if Int64.minValue.toInt ≤ sum ∧ sum ≤ Int64.maxValue.toInt then some (.ofInt sum) else none

/-- Displaces a coordinate by a signed distance, unless their sum overflows. -/
def displace? (coordinate : UInt32) (distance : Int64) : Option UInt32 :=
  (sum? (.ofNat coordinate.toNat) distance).map fun sum => clamp sum.toInt

theorem toNat_add (coordinate count : UInt32) :
    (add coordinate count).toNat = min (coordinate.toNat + count.toNat) greatest := by
  simp only [add, greatest, UInt32.toNat_ofNat']
  omega

theorem toNat_sub (coordinate count : UInt32) :
    (sub coordinate count).toNat = coordinate.toNat - count.toNat := by
  have bound := coordinate.toNat_lt
  simp only [sub, UInt32.toNat_ofNat']
  omega

theorem toNat_clamp (value : Int) : (clamp value).toNat = min value.toNat greatest := by
  simp only [clamp, greatest, UInt32.toNat_ofNat']
  omega

end Word
end Retouch
