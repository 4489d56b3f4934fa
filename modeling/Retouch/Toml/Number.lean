import Retouch.Data.Value
import Retouch.Toml.Character

/-!
# Numbers and dates of TOML

An integer is written in decimal digits or, after a mark, in hexadecimal, octal or
binary ones, and must fit a signed 64-bit word.  A number with a fraction or an
exponent must not exceed the greatest finite double-precision number.  Dates and
times of day, alone or together, must name a day and a time that there can be.
Between two digits of a number there may be an underscore.
-/

set_option autoImplicit false

namespace Retouch
namespace Toml

/-! ## Digits -/

/-- Reads one or more digits, with single underscores between them. -/
def digitRun (isDigit : Char → Bool) : Reader Text
  | [] => none
  | first :: rest =>
    if isDigit first then
      match rest with
      | [] => some ([first], [])
      | next :: more =>
        if next = '_' then do
          let (digits, after) ← digitRun isDigit more
          return (first :: digits, after)
        else if isDigit next then do
          let (digits, after) ← digitRun isDigit (next :: more)
          return (first :: digits, after)
        else some ([first], next :: more)
    else none

/-- The number that digits write in a base, behind those already read. -/
def digitsValue (base : Nat) (number : Nat) : Text → Nat
  | [] => number
  | first :: rest =>
    let code := first.toNat
    let value := if code ≤ 0x39 then code - 0x30 else code % 0x20 + 9
    digitsValue base (number * base + value) rest

/-- Reads decimal digits that do not begin with a zero, or a zero. -/
def decimalRun : Reader Text
  | [] => none
  | first :: rest =>
    if first = '0' then some (['0'], rest) else digitRun Char.isDigit (first :: rest)

def isHexDigit (character : Char) : Bool :=
  character.isDigit || ('a' ≤ character && character ≤ 'f') ||
    ('A' ≤ character && character ≤ 'F')

/-! ## Numbers -/

/-- An integer that fits a signed 64-bit word. -/
def integer? (value : Int) : Option Value :=
  if -9223372036854775808 ≤ value ∧ value ≤ 9223372036854775807 then some (.integer value)
  else none

/-- Reads the digits of an integer in another base. -/
def inBase (base : Nat) (isDigit : Char → Bool) (text : Text) : Option (Value × Text) := do
  let (digits, rest) ← digitRun isDigit text
  return (← integer? (digitsValue base 0 digits), rest)

/-- Reads the exponent of a number, if there is one. -/
def exponent? : Reader Int
  | [] => some (0, [])
  | first :: rest =>
    if first = 'e' || first = 'E' then
      match rest with
      | '-' :: digits => (digitRun Char.isDigit digits).map fun (digits, rest) =>
        (-(digitsValue 10 0 digits : Int), rest)
      | '+' :: digits => (digitRun Char.isDigit digits).map fun (digits, rest) =>
        ((digitsValue 10 0 digits : Int), rest)
      | digits => (digitRun Char.isDigit digits).map fun (digits, rest) =>
        ((digitsValue 10 0 digits : Int), rest)
    else some (0, first :: rest)

/-- The least number that does not round to a finite double-precision number. -/
def firstInfinite : Nat := Nat.pow 2 1024 - Nat.pow 2 970

/-- Whether decimal digits, with an exponent, write a number beyond all finite
double-precision numbers. -/
def isInfinite (digits : Text) (exponent : Int) : Bool :=
  let number := digitsValue 10 0 digits
  if number = 0 || digits.length + exponent < 300 then false
  else if exponent ≥ 0 then exponent > 400 || firstInfinite ≤ number * Nat.pow 10 exponent.toNat
  else firstInfinite * Nat.pow 10 (-exponent).toNat ≤ number

/-- Reads a decimal number behind its sign. -/
def decimal? (isNegative : Bool) (text : Text) : Option (Value × Text) := do
  let (whole, rest) ← decimalRun text
  match rest with
  | '.' :: more =>
    let (places, rest) ← digitRun Char.isDigit more
    let (exponent, rest) ← exponent? rest
    if !isNegative && isInfinite (whole ++ places) (exponent - places.length) then none
    else some (.fraction, rest)
  | _ =>
    let (exponent, after) ← exponent? rest
    if after.length < rest.length then
      if !isNegative && isInfinite whole exponent then none else some (.fraction, after)
    else
      let magnitude : Int := digitsValue 10 0 whole
      return (← integer? (if isNegative then -magnitude else magnitude), rest)

/-- Reads a number behind its sign. -/
def afterSign (isNegative : Bool) : Reader Value
  | 'i' :: 'n' :: 'f' :: rest => some (.fraction, rest)
  | 'n' :: 'a' :: 'n' :: rest => some (.fraction, rest)
  | text => decimal? isNegative text

/-- Reads a number. -/
def number? : Reader Value
  | '0' :: 'x' :: rest => inBase 16 isHexDigit rest
  | '0' :: 'o' :: rest => inBase 8 (fun digit => '0' ≤ digit && digit ≤ '7') rest
  | '0' :: 'b' :: rest => inBase 2 (fun digit => digit = '0' || digit = '1') rest
  | '+' :: rest => afterSign false rest
  | '-' :: rest => afterSign true rest
  | text => afterSign false text

/-! ## Dates and times -/

/-- Reads so many digits as a number between two others. -/
def fixedNumber? (digits least greatest : Nat) (text : Text) : Option (Nat × Text) :=
  let found := text.take digits
  let number := digitsValue 10 0 found
  if found.length = digits && found.all Char.isDigit && least ≤ number && number ≤ greatest then
    some (number, text.drop digits)
  else none

/-- Leaves out an expected character. -/
def expect? (character : Char) : Text → Option Text
  | [] => none
  | first :: rest => if first = character then some rest else none

def isLeapYear (year : Nat) : Bool := year % 4 = 0 && (year % 100 ≠ 0 || year % 400 = 0)

def daysOfMonth (year month : Nat) : Nat :=
  if month = 2 then if isLeapYear year then 29 else 28
  else if [4, 6, 9, 11].contains month then 30
  else 31

/-- Leaves out a date. -/
def skipDate (text : Text) : Option Text := do
  let (year, rest) ← fixedNumber? 4 0 9999 text
  let rest ← expect? '-' rest
  let (month, rest) ← fixedNumber? 2 1 12 rest
  let rest ← expect? '-' rest
  let (_, rest) ← fixedNumber? 2 1 (daysOfMonth year month) rest
  return rest

/-- Leaves out the parts of a second, if there are any. -/
def skipSecondParts (text : Text) : Text :=
  match text with
  | '.' :: rest => if rest.head?.any Char.isDigit then rest.dropWhile Char.isDigit else text
  | _ => text

/-- Leaves out a time of day. -/
def skipTime (text : Text) : Option Text := do
  let (_, rest) ← fixedNumber? 2 0 23 text
  let rest ← expect? ':' rest
  let (_, rest) ← fixedNumber? 2 0 59 rest
  let rest ← expect? ':' rest
  let (_, rest) ← fixedNumber? 2 0 60 rest
  return skipSecondParts rest

/-- Leaves out the distance from universal time. -/
def skipZone : Text → Option Text
  | [] => none
  | first :: rest =>
    if first = 'Z' || first = 'z' then some rest
    else if first = '+' || first = '-' then do
      let (_, rest) ← fixedNumber? 2 0 23 rest
      let rest ← expect? ':' rest
      let (_, rest) ← fixedNumber? 2 0 59 rest
      return rest
    else none

/-- Leaves out a time that follows a date, with the character between them. -/
def skipTimeOfDate : Text → Option Text
  | [] => none
  | first :: rest =>
    if ['T', 't', ' '].contains first then do
      let rest ← skipTime rest
      return (skipZone rest).getD rest
    else none

/-- Reads a date, a time, or both. -/
def moment? (text : Text) : Option (Value × Text) :=
  match skipDate text with
  | some rest => some (.moment, (skipTimeOfDate rest).getD rest)
  | none => (skipTime text).map (.moment, ·)

end Toml
end Retouch
