import Retouch.Toml.Character

/-!
# Strings of TOML

There are four ways to write a string.  A basic string stands between quotation
marks and has escapes; a literal string stands between apostrophes and has none.
Both also exist as blocks, between three marks each, which may go over several lines
and in which one or two marks stand for themselves.

A string is written in the first way that shows it without escapes, in the order
basic, literal, basic block, literal block, and only if there is none with escapes.
A tab counts as shown and is always escaped where escapes are possible.
-/

set_option autoImplicit false

namespace Retouch
namespace Toml

def quotationMark : Char := '\x22'

def apostrophe : Char := '\x27'

/-! ## Reading -/

/-- The value of a hexadecimal digit. -/
def hexValue? (digit : Char) : Option Nat :=
  let code := digit.toNat
  if 0x30 ≤ code ∧ code ≤ 0x39 then some (code - 0x30)
  else if 0x41 ≤ code ∧ code ≤ 0x46 then some (code - 0x41 + 10)
  else if 0x61 ≤ code ∧ code ≤ 0x66 then some (code - 0x61 + 10)
  else none

/-- Reads so many hexadecimal digits, behind the digits already read. -/
def hexNumber? : Nat → Nat → Reader Nat
  | 0, number, text => some (number, text)
  | _ + 1, _, [] => none
  | digits + 1, number, first :: rest =>
    match hexValue? first with
    | some value => hexNumber? digits (number * 16 + value) rest
    | none => none

/-- The character with a code point. -/
def scalar? (code : Nat) : Option Char :=
  if code < 0xd800 ∨ 0xdfff < code ∧ code < 0x110000 then some (Char.ofNat code) else none

/-- The character that a letter after a backslash stands for. -/
def shortEscape? : Char → Option Char
  | 'b' => some '\x08'
  | 't' => some '\t'
  | 'n' => some '\n'
  | 'f' => some '\x0c'
  | 'r' => some '\r'
  | '\x22' => some '\x22'
  | '\\' => some '\\'
  | _ => none

/-- Reads so many hexadecimal digits as the code point of a character. -/
def numericEscape? (digits : Nat) (text : Text) : Option (Char × Text) :=
  match hexNumber? digits 0 text with
  | some (code, rest) => (scalar? code).map (·, rest)
  | none => none

/-- Reads what follows a backslash. -/
def escape? : Reader Char
  | [] => none
  | first :: rest =>
    if first = 'u' then numericEscape? 4 rest
    else if first = 'U' then numericEscape? 8 rest
    else (shortEscape? first).map (·, rest)

theorem length_of_hexNumber? {digits number code : Nat} {text rest : Text}
    (found : hexNumber? digits number text = some (code, rest)) : rest.length ≤ text.length := by
  induction digits generalizing number text with
  | zero =>
    simp only [hexNumber?, Option.some.injEq, Prod.mk.injEq] at found
    exact Nat.le_of_eq (congrArg List.length found.2.symm)
  | succ digits ih =>
    cases text with
    | nil => simp [hexNumber?] at found
    | cons first tail =>
      rw [hexNumber?] at found
      split at found
      · exact Nat.le_trans (ih found) (Nat.le_succ _)
      · cases found

theorem length_of_numericEscape? {digits : Nat} {text rest : Text} {character : Char}
    (found : numericEscape? digits text = some (character, rest)) :
    rest.length ≤ text.length := by
  unfold numericEscape? at found
  split at found
  · rename_i number
    obtain ⟨_, _, same⟩ := Option.map_eq_some_iff.1 found
    cases same
    exact length_of_hexNumber? number
  · cases found

theorem length_of_escape? {text rest : Text} {character : Char}
    (found : escape? text = some (character, rest)) : rest.length < text.length := by
  cases text with
  | nil => cases found
  | cons first tail =>
    rw [escape?] at found
    split at found
    · exact Nat.lt_succ_of_le (length_of_numericEscape? found)
    split at found
    · exact Nat.lt_succ_of_le (length_of_numericEscape? found)
    · obtain ⟨_, _, same⟩ := Option.map_eq_some_iff.1 found
      cases same
      exact Nat.lt_succ_self _

/-- Reads the rest of a basic string. -/
def readBasic (text : Text) : Option (Text × Text) :=
  match text with
  | [] => none
  | first :: rest =>
    if first = quotationMark then some ([], rest)
    else if first = '\\' then
      match _found : escape? rest with
      | some (character, after) => do
        let (body, after) ← readBasic after
        return (character :: body, after)
      | none => none
    else if isControl first then none
    else do
      let (body, after) ← readBasic rest
      return (first :: body, after)
termination_by text.length
decreasing_by
  · exact Nat.lt_succ_of_lt (length_of_escape? _found)
  · exact Nat.lt_succ_self _

/-- Reads the rest of a literal string. -/
def readLiteral : Reader Text
  | [] => none
  | first :: rest =>
    if first = apostrophe then some ([], rest)
    else if isControl first then none
    else do
      let (body, after) ← readLiteral rest
      return (first :: body, after)

/-- How often a mark stands at the front of a text. -/
def leading (mark : Char) (text : Text) : Nat := (text.takeWhile (· = mark)).length

/-- Ends a block at three marks.  Of up to five marks the last three are its end. -/
def closeBlock (mark : Char) (text : Text) : Text × Text :=
  let extra := min (leading mark text - 3) 2
  (List.replicate extra mark, text.drop (extra + 3))

/-- Whether only blanks follow on the line. -/
def lineEnds (text : Text) : Bool := (skipSpace text).head? = some '\n'

/-- Reads the rest of a basic block.  After a backslash at the end of a line blanks
and line ends are left out, which the flag tells. -/
def readBasicBlock (skipping : Bool) (text : Text) : Option (Text × Text) :=
  match text with
  | [] => none
  | first :: rest =>
    if skipping && (isSpace first || first = '\n') then readBasicBlock true rest
    else if first = quotationMark && 3 ≤ leading quotationMark (first :: rest) then
      some (closeBlock quotationMark (first :: rest))
    else if first = '\\' && lineEnds rest then readBasicBlock true rest
    else if first = '\\' then
      match _found : escape? rest with
      | some (character, after) => do
        let (body, after) ← readBasicBlock false after
        return (character :: body, after)
      | none => none
    else if isControl first && first ≠ '\n' then none
    else do
      let (body, after) ← readBasicBlock false rest
      return (first :: body, after)
termination_by text.length
decreasing_by
  · exact Nat.lt_succ_self _
  · exact Nat.lt_succ_self _
  · exact Nat.lt_succ_of_lt (length_of_escape? _found)
  · exact Nat.lt_succ_self _

/-- Reads the rest of a literal block. -/
def readLiteralBlock : Reader Text
  | [] => none
  | first :: rest =>
    if first = apostrophe && 3 ≤ leading apostrophe (first :: rest) then
      some (closeBlock apostrophe (first :: rest))
    else if isControl first && first ≠ '\n' then none
    else do
      let (body, after) ← readLiteralBlock rest
      return (first :: body, after)

/-- A block without the newline right after its opening marks. -/
def withoutFirstNewline (text : Text) : Text :=
  if text.head? = some '\n' then text.tail else text

/-- Reads a string that is not a block. -/
def readLine : Reader Text
  | [] => none
  | first :: rest =>
    if first = quotationMark then readBasic rest
    else if first = apostrophe then readLiteral rest
    else none

/-- Reads a string. -/
def readString (text : Text) : Option (Text × Text) :=
  if 3 ≤ leading quotationMark text then
    readBasicBlock false (withoutFirstNewline (text.drop 3))
  else if 3 ≤ leading apostrophe text then
    readLiteralBlock (withoutFirstNewline (text.drop 3))
  else readLine text

/-! ## Writing -/

/-- The four ways of writing a string. -/
inductive Style where
  | basic
  | literal
  | basicBlock
  | literalBlock
deriving DecidableEq

/-- The longest run of a mark, where a run of a given length goes before. -/
def longestRun (mark : Char) (run : Nat) : Text → Nat
  | [] => run
  | first :: rest =>
    if first = mark then longestRun mark (run + 1) rest
    else max run (longestRun mark 0 rest)

/-- The way in which a string is written. -/
def Style.of (text : Text) : Style :=
  let isShown := !text.any fun character => isControl character && character ≠ '\n'
  let hasNewline := text.contains '\n'
  let hasBackslash := text.contains '\\'
  let quotes := longestRun quotationMark 0 text
  let apostrophes := longestRun apostrophe 0 text
  if isShown && !hasBackslash && quotes = 0 && !hasNewline then .basic
  else if isShown && apostrophes = 0 && !hasNewline then .literal
  else if isShown && !hasBackslash && quotes ≤ 2 then .basicBlock
  else if isShown && apostrophes ≤ 2 then .literalBlock
  else if hasNewline then .basicBlock
  else .basic

def hexDigit (value : Nat) : Char := Char.ofNat (if value < 10 then 0x30 + value else 0x37 + value)

/-- A character other than a quotation mark in a string with escapes. -/
def escaped (character : Char) : Text :=
  if character = '\x08' then ['\\', 'b']
  else if character = '\t' then ['\\', 't']
  else if character = '\n' then ['\\', 'n']
  else if character = '\x0c' then ['\\', 'f']
  else if character = '\r' then ['\\', 'r']
  else if character = '\\' then ['\\', '\\']
  else if isControl character then
    ['\\', 'u', '0', '0', hexDigit (character.toNat / 16), hexDigit (character.toNat % 16)]
  else [character]

/-- The body of a basic string or block.  In a block newlines stand for themselves
and so do up to two quotation marks in a row. -/
def basicBody (isBlock : Bool) (run : Nat) : Text → Text
  | [] => []
  | first :: rest =>
    if first = quotationMark then
      if isBlock && run < 2 then first :: basicBody isBlock (run + 1) rest
      else '\\' :: first :: basicBody isBlock 0 rest
    else if isBlock && first = '\n' then first :: basicBody isBlock 0 rest
    else escaped first ++ basicBody isBlock 0 rest

/-- The newline that goes before a block of several lines. -/
def openingNewline (text : Text) : Text := if text.contains '\n' then ['\n'] else []

/-- Writes a string in a given way. -/
def writeAs (style : Style) (text : Text) : Text :=
  match style with
  | .basic => quotationMark :: basicBody false 0 text ++ [quotationMark]
  | .literal => apostrophe :: text ++ [apostrophe]
  | .basicBlock =>
    List.replicate 3 quotationMark ++ openingNewline text ++ basicBody true 0 text ++
      List.replicate 3 quotationMark
  | .literalBlock =>
    List.replicate 3 apostrophe ++ openingNewline text ++ text ++ List.replicate 3 apostrophe

/-- Writes a string. -/
def writeString (text : Text) : Text := writeAs (.of text) text

end Toml
end Retouch
