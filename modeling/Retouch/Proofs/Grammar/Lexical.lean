import Retouch.Text.Blank

/-!
# Tokens

The text of an expression is cut into tokens from left to right, and each token is as
long as it can be.  A token is a word (a name or a keyword), a number, a quoted literal
or a mark, which is punctuation or an operator; which of these it is shows at its
beginning (`Text.kind`).  Between tokens there may be gaps.

Whether a token could have been longer is seen from the character that follows it
(`runsInto`): **a longer token would have that character next**
(`runsInto_of_isToken_append`).  A comment is one more thing that a mark runs into, so a
text that is cut into tokens here has no comments.
-/

set_option autoImplicit false

namespace Retouch
namespace Text

/-! ## Characters -/

/-- The characters that separate tokens and are otherwise without meaning. -/
def isGap (character : Char) : Bool :=
  (isBlank character && character.toNat != 0x85) || character.toNat == 0xfeff

def isQuote (character : Char) : Bool := "\"'`".toList.contains character

/-- The characters of marks. -/
def isMarkCharacter (character : Char) : Bool :=
  "()[]\x7b\x7d<>=!+-*/%&|^~?:;,.".toList.contains character

/-- The characters of names, keywords and numbers. -/
def isWordCharacter (character : Char) : Bool :=
  !isGap character && !isQuote character && !isMarkCharacter character

theorem not_isWordCharacter_of_isMarkCharacter {character : Char}
    (mark : isMarkCharacter character = true) : isWordCharacter character = false := by
  simp [isWordCharacter, mark]

theorem not_isDigit_of_isGap {character : Char} (gap : isGap character = true) :
    character.isDigit = false := by
  refine Bool.eq_false_iff.2 ?_
  intro digit
  have range : 48 ≤ character.toNat ∧ character.toNat ≤ 57 := by
    simp only [Char.isDigit, Bool.and_eq_true, decide_eq_true_eq] at digit
    exact digit
  simp [isGap, isBlank, blankRanges] at gap
  omega

/-! ## Tokens -/

inductive Kind where
  | quoted
  | number
  | word
  | mark
deriving DecidableEq

/-- Whether a text begins like a number. -/
def startsNumber : Text → Bool
  | [] => false
  | first :: rest => first.isDigit || (first == '.' && rest.head?.any Char.isDigit)

/-- What kind of token a text begins with. -/
def kind (text : Text) : Kind :=
  match text with
  | [] => .mark
  | first :: _ =>
    if isQuote first then .quoted
    else if text.startsNumber then .number
    else if isWordCharacter first then .word
    else .mark

/-- Whether a text ends with the given quote and has it nowhere else but in escapes. -/
def endsQuotation (quote : Char) : Text → Bool
  | [] => false
  | [last] => last == quote
  | first :: second :: rest =>
    if first = '\\' then endsQuotation quote rest
    else first != quote && endsQuotation quote (second :: rest)

/-- Operators and punctuation. -/
def marks : List Text :=
  ["(", ")", "[", "]", ".", ",", ";", ":", "?", "=>", "=", "==", "===", "!", "!=", "!==", "<", "<=",
    "<<", "<<=", ">", ">=", ">>", ">>=", ">>>", ">>>=", "+", "++", "+=", "-", "--", "-=", "*", "*=",
    "**", "**=", "/", "/=", "%", "%=", "&", "&&", "&=", "&&=", "|", "||", "|=", "||=", "^", "^=",
    "??", "??=", "~"].map String.toList

/-- Whether a number ends with the letter of an exponent, which a sign can follow. -/
def awaitsSign (number : Text) : Bool :=
  number.getLast?.any "eE".toList.contains &&
    !(number.head? == some '0' && number[1]?.any "xXoObB".toList.contains)

/-- Whether a number, so far, goes on with a character.  Only an integer has a dot next. -/
def continuesNumber (number : Text) (character : Char) : Bool :=
  isWordCharacter character ||
    (character == '.' && number.all fun digit => digit.isDigit || digit == '_') ||
    ("+-".toList.contains character && number.awaitsSign)

/-- Whether a number goes on with all of a text. -/
def isNumberAfter (number : Text) : Text → Bool
  | [] => true
  | first :: rest => number.continuesNumber first && isNumberAfter (number ++ [first]) rest

/-- Whether a text is one token. -/
def isToken (text : Text) : Bool :=
  match text.kind with
  | .quoted => text.head?.any fun quote => endsQuotation quote text.tail
  | .number => isNumberAfter [] text && !text.awaitsSign
  | .word => text.all isWordCharacter
  | .mark => marks.contains text

/-- What a mark can turn out to begin: a longer mark, or a comment. -/
def longerMarks : List Text := "//".toList :: "/*".toList :: marks

/-- The characters that come next after a mark in what it can turn out to begin. -/
def continuations (token : Text) : List Char :=
  longerMarks.filterMap fun longer =>
    if token.isPrefixOf longer then longer[token.length]? else none

/-- Whether a token that a character follows is not a whole token. -/
def runsInto (token : Text) (character : Char) : Bool :=
  match token.kind with
  | .quoted => false
  | .number => token.continuesNumber character
  | .word => isWordCharacter character
  | .mark => token.continuations.contains character || (token == ['.'] && character.isDigit)

/-- Whether a token ends where the given text follows. -/
def endsBefore (token following : Text) : Bool := !following.head?.any token.runsInto

/-! ## The longest token -/

/-- The kind of a token shows at its beginning; only a dot becomes a number. -/
theorem kind_append {text more : Text} (nonempty : text ≠ [])
    (dot : text = ['.'] → more.head?.any Char.isDigit = false) :
    (text ++ more).kind = text.kind := by
  have starts : startsNumber (text ++ more) = startsNumber text := by
    match text with
    | [first] =>
      by_cases point : first = '.'
      · subst point
        simp [startsNumber, dot rfl]
      · simp [startsNumber, point]
    | first :: second :: rest => rfl
  cases text with
  | nil => exact absurd rfl nonempty
  | cons first rest =>
    rw [List.cons_append] at starts ⊢
    rw [kind, kind, starts]

theorem isQuote_of_kind_quoted {first : Char} {rest : Text}
    (quoted : kind (first :: rest) = .quoted) : isQuote first = true := by
  rw [kind] at quoted
  split at quoted
  · assumption
  · split at quoted
    · cases quoted
    · split at quoted <;> cases quoted

theorem not_endsQuotation_append {quote : Char} {rest more : Text} {character : Char}
    (ends : endsQuotation quote rest = true) (unescaped : quote ≠ '\\') :
    endsQuotation quote (rest ++ character :: more) = false := by
  fun_induction endsQuotation quote rest with
  | case1 => cases ends
  | case2 last =>
    have same : last = quote := beq_iff_eq.1 ends
    simp [endsQuotation, same, unescaped]
  | case3 second rest ih => simpa [endsQuotation] using ih ends
  | case4 first second rest plain ih =>
    simp only [Bool.and_eq_true] at ends
    simpa [endsQuotation, plain, ends.1] using ih ends.2

theorem mem_continuations {token more : Text} {character : Char}
    (longer : token ++ character :: more ∈ marks) : character ∈ token.continuations := by
  refine List.mem_filterMap.2 ⟨_, List.mem_cons_of_mem _ (List.mem_cons_of_mem _ longer), ?_⟩
  simp

theorem continuesNumber_of_isNumberAfter {number text more : Text} {character : Char}
    (after : isNumberAfter number (text ++ character :: more) = true) :
    (number ++ text).continuesNumber character = true := by
  induction text generalizing number with
  | nil =>
    rw [List.nil_append, isNumberAfter, Bool.and_eq_true] at after
    rw [List.append_nil]
    exact after.1
  | cons first text ih =>
    rw [List.cons_append, isNumberAfter, Bool.and_eq_true] at after
    have continued := ih after.2
    rwa [List.append_assoc] at continued

theorem ne_nil_of_isToken {token : Text} (whole : token.isToken = true) : token ≠ [] := by
  rintro rfl
  exact absurd whole (by decide)

/-- **A token that could have been longer runs into what follows it.** -/
theorem runsInto_of_isToken_append {token more : Text} {character : Char}
    (short : token.isToken = true) (long : (token ++ character :: more).isToken = true) :
    token.runsInto character = true := by
  by_cases dot : token = ['.'] ∧ character.isDigit = true
  · obtain ⟨rfl, digit⟩ := dot
    have mark : kind ['.'] = .mark := by decide
    simp [runsInto, mark, digit]
  · have same : (token ++ character :: more).kind = token.kind :=
      kind_append (ne_nil_of_isToken short) (by simpa using dot)
    rw [isToken, same] at long
    rw [isToken] at short
    rw [runsInto]
    cases kind_eq : token.kind with
    | quoted =>
      rw [kind_eq] at short long
      cases token with
      | nil => cases short
      | cons quote rest =>
        have unescaped : quote ≠ '\\' := by
          rintro rfl
          exact absurd (isQuote_of_kind_quoted kind_eq) (by decide)
        have closed : endsQuotation quote (rest ++ character :: more) = true := by simpa using long
        rw [not_endsQuotation_append (by simpa using short) unescaped] at closed
        exact closed
    | number =>
      rw [kind_eq] at long
      simp only [Bool.and_eq_true] at long
      exact continuesNumber_of_isNumberAfter long.1
    | word =>
      rw [kind_eq] at long
      simp only [List.all_append, List.all_cons, Bool.and_eq_true] at long
      exact long.2.1
    | mark =>
      rw [kind_eq] at long
      have longer : character ∈ token.continuations :=
        mem_continuations (List.contains_iff_mem.1 long)
      simp [longer]

/-! ## Neighbours

Most seams between tokens are sound for a reason that does not look at both of them. -/

/-- Whether a character ends every token that it follows. -/
def separates (character : Char) : Bool :=
  !isWordCharacter character && character != '.' && !character.isDigit &&
    longerMarks.all fun longer => !longer.tail.contains character

theorem mem_tail_of_mem_continuations {token : Text} {character : Char} (nonempty : token ≠ [])
    (next : character ∈ token.continuations) :
    ∃ longer ∈ longerMarks, character ∈ longer.tail := by
  obtain ⟨longer, member, next⟩ := List.mem_filterMap.1 next
  split at next
  · refine ⟨longer, member, ?_⟩
    obtain ⟨before, rest, rfl⟩ := List.exists_cons_of_ne_nil nonempty
    cases longer with
    | nil => cases next
    | cons first tail => exact List.mem_of_getElem? next
  · cases next

theorem not_runsInto_of_separates {token : Text} {character : Char} (nonempty : token ≠ [])
    (separator : separates character = true) : token.runsInto character = false := by
  simp only [separates, Bool.and_eq_true, Bool.not_eq_true', bne_iff_ne,
    List.all_eq_true] at separator
  obtain ⟨⟨⟨word, dot⟩, digit⟩, tails⟩ := separator
  have next : character ∉ token.continuations := fun found => by
    obtain ⟨longer, member, inTail⟩ := mem_tail_of_mem_continuations nonempty found
    have free := tails longer member
    rw [List.contains_iff_mem.2 inTail] at free
    cases free
  have signs : ("+-".toList.all fun sign =>
      longerMarks.any fun longer => longer.tail.contains sign) = true := by decide
  have sign : "+-".toList.contains character = false := by
    refine Bool.eq_false_iff.2 ?_
    intro found
    have inTail := List.all_eq_true.1 signs character (List.contains_iff_mem.1 found)
    obtain ⟨longer, member, inTail⟩ := List.any_eq_true.1 inTail
    rw [tails longer member] at inTail
    cases inTail
  rw [runsInto]
  cases token.kind with
  | quoted => rfl
  | number =>
    show token.continuesNumber character = false
    rw [continuesNumber, word, sign]
    simp [dot]
  | word => exact word
  | mark => simp [digit, next]

theorem separates_of_isGap {character : Char} (gap : isGap character = true) :
    separates character = true := by
  have tails : ∀ longer ∈ longerMarks, (longer.tail.all fun other => !isGap other) = true := by
    decide
  have dot : character ≠ '.' := by
    rintro rfl
    exact absurd gap (by decide)
  have free : ∀ longer ∈ longerMarks, character ∉ longer.tail := fun longer member inTail => by
    simpa [gap] using List.all_eq_true.1 (tails longer member) character inTail
  simpa [separates, isWordCharacter, gap, dot, not_isDigit_of_isGap gap] using free

/-- Whether a token can be the last of an expression. -/
def closes (token : Text) : Bool := token.kind != .mark || [[')'], [']']].contains token

/-- Whether an expression can begin with a character. -/
def opens (character : Char) : Bool :=
  isWordCharacter character || character.isDigit || isQuote character ||
    ".(!~+-".toList.contains character

/-- The marks after which an expression stands apart without a gap. -/
def dividers : List Text :=
  ["(", "[", "!", "~", ",", "?", ":", "&&", "||", "??", "=", "+=", "-=", "*=", "/=", "%=", "**=",
    "<<=", ">>=", ">>>=", "&=", "^=", "|=", "&&=", "||=", "??="].map String.toList

theorem not_runsInto_of_closes {token : Text} {character : Char}
    (isToken : token.isToken = true) (closer : token.closes = true)
    (mark : isMarkCharacter character = true) (dot : character ≠ '.') :
    token.runsInto character = false := by
  have word := not_isWordCharacter_of_isMarkCharacter mark
  rw [runsInto]
  cases kind_eq : token.kind with
  | quoted => rfl
  | number =>
    rw [Text.isToken, kind_eq] at isToken
    simp only [Bool.and_eq_true, Bool.not_eq_true'] at isToken
    simp [continuesNumber, word, dot, isToken.2]
  | word => exact word
  | mark =>
    have bracket : token ∈ [[')'], [']']] := by simpa [closes, kind_eq] using closer
    have final : ∀ bracket ∈ [[')'], [']']], continuations bracket = [] ∧ bracket ≠ ['.'] := by
      decide
    simp [final token bracket]

theorem not_runsInto_of_opens {token : Text} {character : Char} (divider : token ∈ dividers)
    (opener : opens character = true) : token.runsInto character = false := by
  have apart : ∀ divider ∈ dividers, divider.kind = .mark ∧ divider ≠ ['.'] ∧
      (divider.continuations.all fun next => !opens next) = true := by decide
  obtain ⟨kind_eq, dot, next⟩ := apart token divider
  have free : character ∉ token.continuations := fun found => by
    simpa [opener] using List.all_eq_true.1 next character found
  simp [runsInto, kind_eq, dot, free]

/-- Nothing is joined to a closing parenthesis. -/
theorem endsBefore_parenthesis (following : Text) : endsBefore [')'] following = true := by
  have final : kind [')'] = .mark ∧ continuations [')'] = [] := by decide
  cases following with
  | nil => rfl
  | cons first rest => simp [endsBefore, runsInto, final]

end Text
end Retouch
