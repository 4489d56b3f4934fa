import Mathlib.Data.List.Basic
import Retouch.Catalog.TemplateText

/-!
# Letters of a literal

The body of a literal is read from the left to the right.  A backslash and the character
after it are one letter, an *escaped* one; every other character is a *plain* letter
(`Letter.read?`).  A text that ends with a lone backslash is no body.

In a template literal a letter may have to be written differently
(`Letter.transcribed`): the quote of the literal needs no escape there, but a backtick does,
and so does a dollar sign in front of a brace.  **The content of a template literal is made
letter by letter in this way** (`Letter.ofLiteral_spelled`).  What comes out neither ends a
template literal nor begins a substitution (`Letter.IsInert`).
-/

set_option autoImplicit false

namespace Retouch
namespace Template

open TemplateText

/-- A unit of the body of a literal. -/
inductive Letter where
  | plain (character : Char)
  | escaped (character : Char)
deriving DecidableEq

namespace Letter

def text : Letter → Text
  | plain character => [character]
  | escaped character => ['\\', character]

/-- The text of letters in a row. -/
def spelled (letters : List Letter) : Text := letters.flatMap text

@[simp]
theorem spelled_nil : spelled [] = [] := rfl

@[simp]
theorem spelled_plain (character : Char) (letters : List Letter) :
    spelled (plain character :: letters) = character :: spelled letters := rfl

@[simp]
theorem spelled_escaped (character : Char) (letters : List Letter) :
    spelled (escaped character :: letters) = '\\' :: character :: spelled letters := rfl

/-- The letters of a text, unless it ends with a lone backslash. -/
def read? : Text → Option (List Letter)
  | [] => some []
  | first :: rest =>
    if first = '\\' then
      match rest with
      | [] => none
      | next :: rest => (read? rest).map (escaped next :: ·)
    else (read? rest).map (plain first :: ·)

theorem read?_escaped (next : Char) (rest : Text) :
    read? ('\\' :: next :: rest) = (read? rest).map (escaped next :: ·) := by
  rw [read?.eq_def]
  exact if_pos rfl

theorem read?_plain {first : Char} (other : first ≠ '\\') (rest : Text) :
    read? (first :: rest) = (read? rest).map (plain first :: ·) := by
  rw [read?.eq_def]
  exact if_neg other

/-- A text has the letters that spell it, as long as no backslash is taken for a letter. -/
theorem read?_eq_some_iff {body : Text} {letters : List Letter} :
    read? body = some letters ↔ spelled letters = body ∧ plain '\\' ∉ letters := by
  constructor
  · intro found
    induction body using read?.induct generalizing letters with
    | case1 =>
      obtain rfl := Option.some.inj found
      exact ⟨rfl, List.not_mem_nil⟩
    | case2 => cases found
    | case3 next rest ih =>
      rw [read?_escaped] at found
      obtain ⟨more, inRest, rfl⟩ := Option.map_eq_some_iff.1 found
      obtain ⟨rfl, proper⟩ := ih inRest
      exact ⟨rfl, by simpa using proper⟩
    | case4 first rest other ih =>
      rw [read?_plain other] at found
      obtain ⟨more, inRest, rfl⟩ := Option.map_eq_some_iff.1 found
      obtain ⟨rfl, proper⟩ := ih inRest
      exact ⟨rfl, by simpa [Ne.symm other] using proper⟩
  · rintro ⟨rfl, proper⟩
    induction letters with
    | nil => rfl
    | cons first rest ih =>
      rw [List.mem_cons, not_or] at proper
      cases first with
      | plain character =>
        have other : character ≠ '\\' := fun same => proper.1 (congrArg plain same.symm)
        rw [spelled_plain, read?_plain other, ih proper.2]
        rfl
      | escaped character =>
        rw [spelled_escaped, read?_escaped, ih proper.2]
        rfl

/-- The first character shows whether the first letter is a certain plain one. -/
theorem head?_spelled {letters : List Letter} {character : Char} (other : character ≠ '\\') :
    (spelled letters).head? = some character ↔ letters.head? = some (plain character) := by
  cases letters with
  | nil => simp
  | cons first rest =>
    cases first with
    | plain => simp
    | escaped => simp [Ne.symm other]

/-! ## Letters in a template literal -/

/-- A letter of a literal with the given quote as it is written in a template literal, where
`next` comes after it. -/
def transcribed (quote : Char) (next : Option Letter) : Letter → Letter
  | plain character =>
    if character = backtick ∨ character = '$' ∧ next = some (plain openingBrace) then
      escaped character
    else plain character
  | escaped character => if character = quote then plain character else escaped character

/-- All letters of a literal as they are written in a template literal. -/
def transcribe (quote : Char) : List Letter → List Letter
  | [] => []
  | first :: rest => first.transcribed quote rest.head? :: transcribe quote rest

theorem escape_spelled (quote : Char) {letters : List Letter} (proper : plain '\\' ∉ letters) :
    escape quote (spelled letters) = spelled (transcribe quote letters) := by
  induction letters with
  | nil => rfl
  | cons first rest ih =>
    rw [List.mem_cons, not_or] at proper
    cases first with
    | escaped character =>
      have step : escape quote ('\\' :: character :: spelled rest) = if character = quote then
          character :: escape quote (spelled rest)
          else '\\' :: character :: escape quote (spelled rest) := by
        rw [escape.eq_def]
        exact if_pos rfl
      rw [spelled_escaped, step, transcribe, transcribed, ih proper.2]
      split <;> rfl
    | plain character =>
      have other : character ≠ '\\' := fun same => proper.1 (congrArg plain same.symm)
      have next := @head?_spelled rest openingBrace (by decide)
      have step : escape quote (character :: spelled rest) = if character = backtick then
          '\\' :: backtick :: escape quote (spelled rest)
          else if character = '$' && (spelled rest).head? = some openingBrace then
            '\\' :: '$' :: escape quote (spelled rest)
          else character :: escape quote (spelled rest) := by
        rw [escape.eq_def]
        exact if_neg other
      rw [spelled_plain, step, transcribe, transcribed, ih proper.2]
      by_cases tick : character = backtick
      · simp [tick]
      · by_cases opens : character = '$' ∧ rest.head? = some (plain openingBrace)
        · simp [opens, next, show '$' ≠ backtick by decide]
        · rw [if_neg tick, if_neg (by simpa [next] using opens), if_neg (by simp [tick, opens])]
          rfl

theorem between_quotes (quote : Char) (body : Text) :
    between quote (quote :: body ++ [quote]) = body := by
  simp [between]

/-- **The content for a quoted literal is its body, transcribed letter by letter.** -/
theorem ofLiteral_spelled (quote : Char) {letters : List Letter} (proper : plain '\\' ∉ letters) :
    ofLiteral (quote :: spelled letters ++ [quote]) = spelled (transcribe quote letters) := by
  rw [List.cons_append, ofLiteral, ← List.cons_append, between_quotes, escape_spelled quote proper]

/-- Whether letters stand for themselves in a template literal. -/
structure IsInert (letters : List Letter) : Prop where
  proper : plain '\\' ∉ letters
  unticked : plain backtick ∉ letters
  unopened : ¬ [plain '$', plain openingBrace] <:+: letters

theorem IsInert.tail {first : Letter} {rest : List Letter} (inert : IsInert (first :: rest)) :
    IsInert rest where
  proper member := inert.proper (.tail _ member)
  unticked member := inert.unticked (.tail _ member)
  unopened inside := inert.unopened (inside.trans (List.suffix_cons _ _).isInfix)

section Transcribe

variable {quote : Char} {letters : List Letter}

theorem transcribed_ne_backtick (other : quote ≠ backtick) (next : Option Letter)
    (letter : Letter) : letter.transcribed quote next ≠ plain backtick := by
  cases letter with
  | plain character => grind [transcribed]
  | escaped character => grind [transcribed]

theorem transcribed_ne_backslash (other : quote ≠ '\\') (next : Option Letter) {letter : Letter}
    (proper : letter ≠ plain '\\') : letter.transcribed quote next ≠ plain '\\' := by
  cases letter with
  | plain character => grind [transcribed]
  | escaped character => grind [transcribed]

/-- Only a plain character is transcribed to a plain character that is no quote. -/
theorem transcribed_eq_plain {next : Option Letter} {letter : Letter} {character : Char}
    (same : letter.transcribed quote next = plain character) (other : character ≠ quote) :
    letter = plain character ∧ (character = '$' → next ≠ some (plain openingBrace)) := by
  cases letter with
  | plain character => grind [transcribed]
  | escaped character => grind [transcribed]

theorem head?_transcribe (quote : Char) (letters : List Letter) :
    (transcribe quote letters).head? =
      letters.head?.map (·.transcribed quote letters.tail.head?) := by
  cases letters <;> rfl

/-- The last letter is transcribed as one before nothing. -/
theorem getLast?_transcribe (quote : Char) (letters : List Letter) :
    (transcribe quote letters).getLast? = letters.getLast?.map (·.transcribed quote none) := by
  induction letters with
  | nil => rfl
  | cons first rest ih =>
    cases rest with
    | nil => rfl
    | cons second rest =>
      rw [transcribe, transcribe, List.getLast?_cons_cons, ← transcribe, ih,
        List.getLast?_cons_cons]

/-- **What was transcribed is inert.** -/
theorem isInert_transcribe (isQuote : quote = '\'' ∨ quote = '"') (proper : plain '\\' ∉ letters) :
    IsInert (transcribe quote letters) := by
  have noTick : quote ≠ backtick := by rcases isQuote with rfl | rfl <;> decide
  have noBackslash : quote ≠ '\\' := by rcases isQuote with rfl | rfl <;> decide
  have noDollar : '$' ≠ quote := by rcases isQuote with rfl | rfl <;> decide
  have noBrace : openingBrace ≠ quote := by rcases isQuote with rfl | rfl <;> decide
  induction letters with
  | nil => exact ⟨List.not_mem_nil, List.not_mem_nil, by simp [transcribe]⟩
  | cons first rest ih =>
    rw [List.mem_cons, not_or] at proper
    obtain ⟨properRest, unticked, unopened⟩ := ih proper.2
    refine ⟨?_, ?_, ?_⟩
    · rw [transcribe, List.mem_cons, not_or]
      exact ⟨(transcribed_ne_backslash noBackslash _ (Ne.symm proper.1)).symm, properRest⟩
    · rw [transcribe, List.mem_cons, not_or]
      exact ⟨(transcribed_ne_backtick noTick _ _).symm, unticked⟩
    · rw [transcribe, List.infix_cons_iff, not_or]
      refine ⟨?_, unopened⟩
      -- A dollar sign stays plain only if no plain brace follows, and transcribing the rest
      -- makes no brace plain.
      rintro ⟨more, begins⟩
      rw [List.cons_append, List.cons_append, List.nil_append, List.cons.injEq] at begins
      have next : (transcribe quote rest).head? = some (plain openingBrace) := by
        rw [← begins.2]
        rfl
      rw [head?_transcribe, Option.map_eq_some_iff] at next
      obtain ⟨second, isSecond, same⟩ := next
      obtain ⟨rfl, -⟩ := transcribed_eq_plain same noBrace
      exact (transcribed_eq_plain begins.1.symm noDollar).2 rfl isSecond

end Transcribe
end Letter
end Template
end Retouch
