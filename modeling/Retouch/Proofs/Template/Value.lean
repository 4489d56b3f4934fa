import Retouch.Proofs.Template.Pieces
import Retouch.Toml.Quoted

/-!
# The value of a literal

A value is a row of 16-bit code units.  It is found by going through the letters of a literal:
a plain letter stands for itself and an escaped one for what its character says, a control
character, the end of a line that does not count, or a code in hexadecimal digits, which are
the plain letters after it.  What is `Pending` from one letter to the next is the rest of
such a code, the second half of the end of a line, or that no digit may follow a zero.  A
carriage return, with or without a newline after it, counts as a newline.  There are no octal
escapes, which template literals and strict code do not have.

With substitutions between its letters the content of a template literal has *elements*: code
units and the expressions to insert (`Piece.elements?`).

Nothing of this matters for letters that only change between plain and escaped: a quote, a
backtick and a dollar sign stand for themselves either way.  This is the law of an
`Unescaping`, and the values described here are one (`Unescaping.standard`).
-/

set_option autoImplicit false

namespace Retouch
namespace Template

open TemplateText

/-! ## Code units -/

/-- The code units of a code point. -/
def codeUnits (code : Nat) : List UInt16 :=
  if code < 0x10000 then [.ofNat code]
  else [.ofNat (0xd800 + (code - 0x10000) / 0x400), .ofNat (0xdc00 + (code - 0x10000) % 0x400)]

/-- The control character that an escaped letter stands for. -/
def controlOf? : Char → Option Char
  | 'b' => some '\x08'
  | 't' => some '\t'
  | 'n' => some '\n'
  | 'v' => some '\x0b'
  | 'f' => some '\x0c'
  | 'r' => some '\r'
  | _ => none

/-- What is still to come after a letter. -/
inductive Pending where
  | nothing
  /-- A newline would belong to the end of a line that has been counted. -/
  | newline
  | noDigit
  /-- Four hexadecimal digits, or braces with some. -/
  | code
  | digits (count value : Nat)
  | braced (value : Option Nat)
deriving DecidableEq

namespace Pending

/-- Whether a literal may end here. -/
def isFinal : Pending → Bool
  | nothing | newline | noDigit => true
  | code | digits _ _ | braced _ => false

/-- Takes a digit of a code with so many digits to come. -/
def digit (count value : Nat) (character : Char) : Option (List UInt16 × Pending) := do
  let more ← Toml.hexValue? character
  let value := value * 16 + more
  return if count ≤ 1 then ([.ofNat value], nothing) else ([], digits (count - 1) value)

/-- Takes a letter between the braces of a code. -/
def inBraces (value : Option Nat) (character : Char) : Option (List UInt16 × Pending) :=
  if character = closingBrace then value.map fun code => (codeUnits code, nothing)
  else do
    let more ← Toml.hexValue? character
    let code := value.getD 0 * 16 + more
    if code ≤ 0x10ffff then some ([], braced (some code)) else none

/-- Takes a letter that nothing before it bears on. -/
def start : Letter → Option (List UInt16 × Pending)
  | .plain character =>
    if character = '\r' then some ([10], newline) else some (codeUnits character.toNat, nothing)
  | .escaped character =>
    if character = '\r' then some ([], newline)
    else if ['\n', '\u2028', '\u2029'].contains character then some ([], nothing)
    else if character = '0' then some ([0], noDigit)
    else if character.isDigit then none
    else if character = 'x' then some ([], digits 2 0)
    else if character = 'u' then some ([], code)
    else some (codeUnits ((controlOf? character).getD character).toNat, nothing)

/-- Takes a letter and gives the code units that are then complete. -/
def step : Pending → Letter → Option (List UInt16 × Pending)
  | nothing, letter => start letter
  | newline, letter => if letter = .plain '\n' then some ([], nothing) else start letter
  | noDigit, .plain character =>
    if character.isDigit then none else start (.plain character)
  | noDigit, .escaped character => start (.escaped character)
  | code, .plain character =>
    if character = openingBrace then some ([], braced none) else digit 4 0 character
  | digits count value, .plain character => digit count value character
  | braced value, .plain character => inBraces value character
  | _, .escaped _ => none

end Pending

/-! ## Elements -/

/-- A part of the value of a template literal. -/
inductive Element where
  | unit (unit : UInt16)
  | substitution (expression : Text)
deriving DecidableEq

def Pending.stepPiece (pending : Pending) : Piece → Option (List Element × Pending)
  | .letter letter => (pending.step letter).map fun (units, next) => (units.map .unit, next)
  | .substitution expression =>
    if pending.isFinal then some ([.substitution expression], nothing) else none

/-- The elements of pieces in a row, and what is pending then. -/
def Pending.run : Pending → List Piece → Option (List Element × Pending)
  | pending, [] => some ([], pending)
  | pending, first :: rest => do
    let (elements, next) ← pending.stepPiece first
    let (more, last) ← next.run rest
    return (elements ++ more, last)

/-- **The elements of a template literal.** -/
def Piece.elements? (pieces : List Piece) : Option (List Element) :=
  match Pending.nothing.run pieces with
  | some (elements, last) => if last.isFinal then some elements else none
  | none => none

namespace Pending

variable {pending last : Pending} {pieces others : List Piece} {elements : List Element}
  {first : Piece}

theorem run_cons_eq_some_iff : pending.run (first :: pieces) = some (elements, last) ↔
    ∃ made next more, pending.stepPiece first = some (made, next) ∧
      next.run pieces = some (more, last) ∧ elements = made ++ more := by
  simp only [run, Option.bind_eq_bind, Option.bind_eq_some_iff, Option.pure_def, Option.some.injEq,
    Prod.mk.injEq, Prod.exists]
  constructor
  · rintro ⟨made, next, step, more, final, rest, rfl, rfl⟩
    exact ⟨made, next, more, step, rest, rfl⟩
  · rintro ⟨made, next, more, step, rest, rfl⟩
    exact ⟨made, next, step, more, last, rest, rfl, rfl⟩

theorem run_append (pending : Pending) (pieces others : List Piece) :
    pending.run (pieces ++ others) = do
      let (elements, next) ← pending.run pieces
      let (more, last) ← next.run others
      return (elements ++ more, last) := by
  induction pieces generalizing pending with
  | nil => cases ran : pending.run others <;> simp [run, ran]
  | cons first rest ih => simp [run, ih, Option.bind_assoc, List.append_assoc]

/-- Pieces in a row are run one part after the other. -/
theorem run_append_eq_some_iff : pending.run (pieces ++ others) = some (elements, last) ↔
    ∃ made next more, pending.run pieces = some (made, next) ∧
      next.run others = some (more, last) ∧ elements = made ++ more := by
  rw [run_append]
  simp only [Option.bind_eq_bind, Option.bind_eq_some_iff, Option.pure_def, Option.some.injEq,
    Prod.mk.injEq, Prod.exists]
  constructor
  · rintro ⟨made, next, ran, more, final, ran', rfl, rfl⟩
    exact ⟨made, next, more, ran, ran', rfl⟩
  · rintro ⟨made, next, more, ran, ran', rfl⟩
    exact ⟨made, next, ran, more, last, ran', rfl, rfl⟩

end Pending

theorem Piece.elements?_eq_some_iff {pieces : List Piece} {elements : List Element} :
    Piece.elements? pieces = some elements ↔
      ∃ last, Pending.nothing.run pieces = some (elements, last) ∧ last.isFinal = true := by
  rw [Piece.elements?]
  cases Pending.nothing.run pieces with
  | none => simp
  | some result => cases final : result.2.isFinal <;> grind

/-! ## Unescaping -/

/-- The marks that stand for themselves, escaped or not. -/
def indifferentMarks : List Char := ['\'', '"', backtick, '$']

theorem eq_of_mem_indifferentMarks {mark : Char} (member : mark ∈ indifferentMarks) :
    mark = '\'' ∨ mark = '"' ∨ mark = backtick ∨ mark = '$' := by
  simpa [indifferentMarks] using member

/-- Transcribing changes marks only, and only whether they are escaped. -/
theorem Letter.transcribed_eq_or {quote : Char} (isQuote : quote = '\'' ∨ quote = '"')
    (next : Option Letter) (letter : Letter) : letter.transcribed quote next = letter ∨
      ∃ mark ∈ indifferentMarks,
        (letter = .plain mark ∧ letter.transcribed quote next = .escaped mark) ∨
        (letter = .escaped mark ∧ letter.transcribed quote next = .plain mark) := by
  have quoteMark : quote ∈ indifferentMarks := by rcases isQuote with rfl | rfl <;> decide
  have tickMark : backtick ∈ indifferentMarks := by decide
  have dollarMark : '$' ∈ indifferentMarks := by decide
  cases letter with
  | plain character => grind [transcribed]
  | escaped character => grind [transcribed]

/-- **A reading of letters for which it does not matter whether a quote, a backtick or a dollar
sign is escaped.** -/
structure Unescaping (Value : Type) where
  value : List Letter → Value
  stands : ∀ mark ∈ indifferentMarks, ∀ before after : List Letter,
    value (before ++ .escaped mark :: after) = value (before ++ .plain mark :: after)

theorem Pending.step_escaped_mark {mark : Char} (member : mark ∈ indifferentMarks)
    (pending : Pending) : pending.step (.escaped mark) = pending.step (.plain mark) := by
  have plain : start (.escaped mark) = start (.plain mark) ∧ mark ≠ '\n' ∧ mark.isDigit = false ∧
      mark ≠ openingBrace ∧ mark ≠ closingBrace ∧ Toml.hexValue? mark = none := by
    rcases eq_of_mem_indifferentMarks member with rfl | rfl | rfl | rfl <;> decide
  obtain ⟨same, noNewline, noDigit, noOpening, noClosing, nodigit⟩ := plain
  cases pending with
  | nothing => exact same
  | newline => simp [step, same, noNewline]
  | noDigit => simp [step, same, noDigit]
  | code => simp [step, noOpening, digit, nodigit]
  | digits count value => simp [step, digit, nodigit]
  | braced value => simp [step, inBraces, noClosing, nodigit]

/-- The code units of letters, for an unescaping. -/
def Unescaping.standard : Unescaping (Option (List Element)) where
  value letters := Piece.elements? (letters.map .letter)
  stands := by
    intro mark member before after
    have same (pending : Pending) : pending.stepPiece (.letter (.escaped mark)) =
        pending.stepPiece (.letter (.plain mark)) := by
      simp only [Pending.stepPiece, Pending.step_escaped_mark member]
    simp only [Piece.elements?, List.map_append, List.map_cons, Pending.run_append, Pending.run,
      same]

namespace Unescaping

variable {Value : Type} (unescaping : Unescaping Value) {quote : Char}

/-- A transcribed letter has the value of the letter. -/
theorem value_transcribed (isQuote : quote = '\'' ∨ quote = '"') (next : Option Letter)
    (letter : Letter) (before after : List Letter) :
    unescaping.value (before ++ letter.transcribed quote next :: after) =
      unescaping.value (before ++ letter :: after) := by
  rcases Letter.transcribed_eq_or isQuote next letter with
    same | ⟨mark, member, ⟨rfl, same⟩ | ⟨rfl, same⟩⟩
  · rw [same]
  · rw [same]
    exact unescaping.stands mark member before after
  · rw [same]
    exact (unescaping.stands mark member before after).symm

/-- **Transcribing keeps the value.** -/
theorem value_transcribe (isQuote : quote = '\'' ∨ quote = '"') (letters : List Letter) :
    unescaping.value (Letter.transcribe quote letters) = unescaping.value letters := by
  suffices all : ∀ before, unescaping.value (before ++ Letter.transcribe quote letters) =
      unescaping.value (before ++ letters) from all []
  induction letters with
  | nil => exact fun _ => rfl
  | cons first rest ih =>
    intro before
    rw [Letter.transcribe, unescaping.value_transcribed isQuote]
    simpa using ih (before ++ [first])

end Unescaping
end Template
end Retouch
