import Retouch.Proofs.Grammar.Frame
import Retouch.Proofs.Grammar.Outline

/-!
# Seams

Where a phrase is put in the place of another, its first token comes to stand after what
precedes the place and its last token before what follows it.  The first character of an
expression is one of few (`exists_first`), and so is its last token (`exists_last`).

Where a place lies between dividers, or at an end of what does, no token beside it is
mistaken (`mem_dividers_of_endsWith`, `endsExpression_of_mem_head?`).  So an expression can
stand there without parentheses (`lexed_within_of_isDivided`), and in every place with them
(`lexed_within_of_separates`).
-/

set_option autoImplicit false

namespace Retouch

open Phrase

/-! ## First and last tokens -/

theorem opens_of_kind_ne_mark {first : Char} {rest : Text}
    (plain : Text.kind (first :: rest) ≠ .mark) : Text.opens first = true := by
  cases quote : Text.isQuote first with
  | true => simp [Text.opens, quote]
  | false =>
    cases word : Text.isWordCharacter first with
    | true => simp [Text.opens, word]
    | false =>
      have starts : Text.startsNumber (first :: rest) = true := by
        simpa [Text.kind, quote, word] using plain
      simp only [Text.startsNumber, Bool.or_eq_true, Bool.and_eq_true, beq_iff_eq] at starts
      rcases starts with digit | ⟨rfl, -⟩
      · simp [Text.opens, digit]
      · decide

/-- **The first character of an expression.** -/
theorem exists_first {phrase : Phrase} (grouped : phrase.Grouped)
    (operand : phrase.role ≠ .token) :
    ∃ first rest more, phrase.lexemes = .token (first :: rest) :: more ∧
      Text.opens first = true := by
  induction grouped with
  | gap => exact absurd rfl operand
  | mark => exact absurd rfl operand
  | name => exact absurd rfl operand
  | @atom kind text below isAtom =>
    obtain ⟨first, rest, rfl⟩ := List.exists_cons_of_ne_nil (Text.ne_nil_of_isToken isAtom.isToken)
    exact ⟨first, rest, [], rfl, opens_of_kind_ne_mark isAtom.notMark⟩
  | @apply production parts valid fills grouped ih =>
    obtain ⟨item, later, outline, opening⟩ := exists_opening valid
    rw [Production.items, outline, intersperse_cons] at fills
    cases fills with
    | @cons part _ parts _ fillsItem _ =>
      cases fillsItem with
      | gap => cases opening
      | name => cases opening
      | operand accepted =>
        obtain ⟨first, rest, more, lexemes_eq, opens⟩ :=
          ih part (by simp) (role_ne_token_of_accepts accepted)
        refine ⟨first, rest, more ++ lexemesOf parts, ?_, opens⟩
        rw [lexemes, lexemesOf, lexemes_eq]
        rfl
      | @mark fields text =>
        simp only [Item.isOpening] at opening
        cases characters : text.toList with
        | nil => simp [characters] at opening
        | cons first rest =>
          refine ⟨first, rest, lexemesOf parts, ?_, by simpa [characters] using opening⟩
          rw [lexemes, lexemesOf, lexemes, characters]
          rfl

/-- **The last token of an expression.** -/
theorem exists_last {phrase : Phrase} (grouped : phrase.Grouped)
    (operand : phrase.role ≠ .token) :
    ∃ earlier token, phrase.lexemes = earlier ++ [.token token] ∧ Text.closes token = true := by
  induction grouped with
  | gap => exact absurd rfl operand
  | mark => exact absurd rfl operand
  | name => exact absurd rfl operand
  | @atom kind text below isAtom =>
    exact ⟨[], text, rfl, by simp [Text.closes, isAtom.notMark]⟩
  | @apply production parts valid fills grouped ih =>
    obtain ⟨earlier, item, outline, closing⟩ := exists_closing valid
    rw [Production.items, outline, intersperse_append_cons] at fills
    obtain ⟨first, last, rfl, -, fillsLast⟩ := Frame.exists_parts_append fills
    cases fillsLast with
    | @cons part _ _ _ fillsItem none =>
      cases none
      rw [lexemes, lexemesOf_append, lexemesOf, lexemesOf, List.append_nil]
      cases fillsItem with
      | gap => cases closing
      | name => exact ⟨_, _, rfl, closing⟩
      | mark => exact ⟨_, _, rfl, closing⟩
      | operand accepted =>
        obtain ⟨before, token, lexemes_eq, closes⟩ :=
          ih part (by simp) (role_ne_token_of_accepts accepted)
        exact ⟨lexemesOf first ++ before, token, by rw [lexemes_eq, List.append_assoc], closes⟩

/-! ## Places between dividers -/

theorem eq_of_endsWith {before rest : List Lexeme} {token other : Text} (nonempty : token ≠ [])
    (gaps : ∀ lexeme ∈ rest, ∃ text, lexeme = .gap text)
    (ends : EndsWith (before ++ .token token :: rest) other) : other = token := by
  obtain ⟨earlier, later, lexemes_eq, nothing⟩ := ends
  rcases List.append_eq_append_iff.1 lexemes_eq with ⟨more, rfl, same⟩ | ⟨more, rfl, same⟩
  · cases more with
    | nil =>
      simp only [List.nil_append, List.cons.injEq, Lexeme.token.injEq] at same
      exact same.1.symm
    | cons first more =>
      simp only [List.cons_append, List.cons.injEq] at same
      obtain ⟨text, gap⟩ := gaps (.token other) (by simp [same.2])
      cases gap
  · cases more with
    | nil =>
      simp only [List.nil_append, List.cons.injEq, Lexeme.token.injEq] at same
      exact same.1
    | cons first more =>
      simp only [List.cons_append, List.cons.injEq] at same
      rw [same.2] at nothing
      simp [Lexeme.text, nonempty] at nothing

namespace Frame

/-- Whether a frame leaves open a place between dividers. -/
def IsDivided (frame : Frame) : Prop :=
  ∃ earlier fields slot later,
    frame.Takes (earlier.flatMap fun item => [item, .gap]) fields slot
      (later.flatMap fun item => [.gap, item]) ∧
    frame.production.isDivided earlier later = true

theorem isDivided_of_fill {frame : Frame} {phrase : Phrase} (whole : (frame.fill phrase).Grouped)
    (operand : phrase.role ≠ .token)
    (must : frame.production.divides = true ∨ phrase.role.isLoose = true) :
    frame.IsDivided := by
  obtain ⟨-, before, fields, slot, after, takes, accepted⟩ := exists_takes whole operand
  obtain ⟨earlier, later, outline, rfl, rfl⟩ := exists_outline takes.items (by simp)
  have mustDivide : frame.production.mustDivide (.operand fields slot) = true := by
    rcases must with divides | loose
    · simp [Production.mustDivide, divides]
    · cases role_eq : phrase.role with
      | expression level =>
        rw [role_eq] at accepted loose
        have small : level < 6 := Nat.lt_succ_of_le (of_decide_eq_true loose)
        rw [Production.mustDivide, Bool.or_eq_true]
        exact .inr (List.any_eq_true.2 ⟨level, List.mem_range.2 small, accepted⟩)
      | token => rw [role_eq] at loose; cases loose
      | arguments => rw [role_eq] at loose; cases loose
  exact ⟨earlier, fields, slot, later, takes,
    Production.isDivided_of_mustDivide takes.valid outline mustDivide⟩

/-- What stands before a divided place in its frame. -/
theorem IsDivided.before_eq {frame : Frame} (divided : frame.IsDivided) :
    (frame.before = [] ∧ frame.production.role.isLoose = true) ∨
      ∃ parts text gap, frame.before = parts ++ [.mark text, .gap gap] ∧
        text.toList ∈ Text.dividers := by
  obtain ⟨earlier, fields, slot, later, takes, divided⟩ := divided
  simp only [Production.isDivided, Bool.and_eq_true, Bool.or_eq_true] at divided
  obtain ⟨⟨divider, -⟩, ends⟩ := divided
  have fills := takes.fillsBefore
  rcases List.eq_nil_or_concat earlier with rfl | ⟨earlier, item, rfl⟩
  · exact .inl ⟨List.forall₂_nil_right_iff.1 fills, by simpa using ends⟩
  · rw [List.concat_eq_append, List.getLast?_concat, Option.all_some] at divider
    rw [List.concat_eq_append, List.flatMap_append] at fills
    obtain ⟨parts, last, parts_eq, -, fillsLast⟩ := exists_parts_append fills
    cases fillsLast with
    | cons fillsItem fillsGap =>
      cases fillsGap with
      | cons fillsGap none =>
        cases none
        cases fillsGap
        cases fillsItem with
        | mark => exact .inr ⟨parts, _, _, parts_eq, List.contains_iff_mem.1 divider⟩
        | gap => cases divider
        | name => cases divider
        | operand accepted => cases divider

/-- What stands after a divided place in its frame. -/
theorem IsDivided.after_eq {frame : Frame} (divided : frame.IsDivided) :
    (frame.after = [] ∧ frame.production.role.isLoose = true) ∨
      ∃ gap text parts, frame.after = .gap gap :: .mark text :: parts ∧
        (Item.mark [] text).isTerminator = true := by
  obtain ⟨earlier, fields, slot, later, takes, divided⟩ := divided
  simp only [Production.isDivided, Bool.and_eq_true, Bool.or_eq_true] at divided
  obtain ⟨⟨-, terminator⟩, ends⟩ := divided
  have fills := takes.fillsAfter
  cases later with
  | nil =>
    exact .inl ⟨List.forall₂_nil_right_iff.1 fills, by simpa using ends⟩
  | cons item later =>
    obtain ⟨_, _, fillsGap, fillsRest, rest_eq⟩ := List.forall₂_cons_right_iff.1 fills
    obtain ⟨_, parts, fillsItem, -, rfl⟩ := List.forall₂_cons_right_iff.1 fillsRest
    cases fillsGap
    cases fillsItem with
    | mark => exact .inr ⟨_, _, parts, rest_eq, terminator⟩
    | gap => cases terminator
    | name => cases terminator
    | operand accepted => cases terminator

end Frame

/-- Whether an expression can stand before a character without a gap. -/
def Text.endsExpression (character : Char) : Bool :=
  isGap character || (isMarkCharacter character && character != '.')

/-- The frame outside a divided one is divided too where the inner frame does not itself
provide the dividers. -/
theorem Frame.IsDivided.next {phrase : Phrase} {frame : Frame} {frames : List Frame}
    (whole : ((frame.fill phrase).within frames).Grouped)
    (loose : frame.production.role.isLoose = true) :
    ∀ outer ∈ frames.head?, outer.IsDivided := by
  cases frames with
  | nil => simp
  | cons outer frames =>
    rintro _ ⟨⟩
    exact isDivided_of_fill (grouped_fill_of_within whole) (frame.role_fill_ne_token phrase)
      (.inr loose)

/-- **Before a divided place there is a divider**, a gap or nothing. -/
theorem mem_dividers_of_endsWith {phrase : Phrase} {frames : List Frame}
    (whole : (phrase.within frames).Grouped) (divided : ∀ frame ∈ frames.head?, frame.IsDivided)
    {token : Text} (ends : EndsWith (lexemesBefore frames) token) : token ∈ Text.dividers := by
  induction frames generalizing phrase with
  | nil =>
    obtain ⟨before, rest, nothing, -⟩ := ends
    simp [lexemesBefore] at nothing
  | cons frame frames ih =>
    -- Where a frame has nothing before its place, it is itself loose: the next one divides.
    rcases (divided frame rfl).before_eq with ⟨nothing, loose⟩ | ⟨parts, text, gap, before, member⟩
    · rw [lexemesBefore, nothing, lexemesOf, List.append_nil] at ends
      exact ih whole (Frame.IsDivided.next whole loose) ends
    · have nonempty : text.toList ≠ [] := by
        intro empty
        rw [empty] at member
        revert member
        decide
      rw [lexemesBefore, before, lexemesOf_append, ← List.append_assoc] at ends
      rw [eq_of_endsWith nonempty (by simp [lexemesOf, lexemes]) ends]
      exact member

/-- **After a divided place there is a mark that ends an expression**, a gap or nothing. -/
theorem endsExpression_of_mem_head? {phrase : Phrase} {frames : List Frame}
    (whole : (phrase.within frames).Grouped) (divided : ∀ frame ∈ frames.head?, frame.IsDivided)
    (lexed : Lexed (lexemesAfter frames) []) :
    ∀ character ∈ (written (lexemesAfter frames)).head?, Text.endsExpression character = true := by
  induction frames generalizing phrase with
  | nil => simp [lexemesAfter]
  | cons frame frames ih =>
    rcases (divided frame rfl).after_eq with ⟨nothing, loose⟩ | ⟨gap, text, parts, after, ends⟩
    · rw [lexemesAfter, nothing, lexemesOf, List.nil_append] at lexed ⊢
      exact ih whole (Frame.IsDivided.next whole loose) lexed
    · intro character first
      simp only [lexemesAfter, after, lexemesOf, lexemes, List.cons_append, List.nil_append,
        written_cons, Lexeme.text] at lexed first
      cases gap with
      | nil =>
        have mark : text.toList.head? = some character := by
          cases characters : text.toList with
          | nil => simp [Item.isTerminator, characters] at ends
          | cons head tail => simpa [characters] using first
        simpa [Item.isTerminator, Text.endsExpression, mark] using Or.inr ends
      | cons space gap =>
        obtain rfl : space = character := by simpa using first
        simp [Text.endsExpression, lexed.1 space (by simp)]

/-! ## Putting a phrase in a place -/

theorem endsBefore_of_closes {token following : Text} (isToken : token.isToken = true)
    (closes : Text.closes token = true)
    (ends : ∀ character ∈ following.head?, Text.endsExpression character = true) :
    token.endsBefore following = true := by
  cases following with
  | nil => rfl
  | cons first rest =>
    have nonempty : token ≠ [] := by
      rintro rfl
      exact absurd closes (by decide)
    have apart : token.runsInto first = false := by
      rcases Bool.or_eq_true_iff.1 (ends first rfl) with gap | mark
      · exact Text.not_runsInto_of_separates nonempty (Text.separates_of_isGap gap)
      · simp only [Bool.and_eq_true, bne_iff_ne] at mark
        exact Text.not_runsInto_of_closes isToken closes mark.1 mark.2
    simp [Text.endsBefore, apart]

/-- An expression keeps its tokens where what follows ends an expression. -/
theorem Lexed.of_grouped {phrase : Phrase} {following other : Text}
    (lexed : Lexed phrase.lexemes following) (grouped : phrase.Grouped)
    (operand : phrase.role ≠ .token)
    (ends : ∀ character ∈ other.head?, Text.endsExpression character = true) :
    Lexed phrase.lexemes other := by
  obtain ⟨earlier, last, lexemes_eq, closes⟩ := exists_last grouped operand
  refine lexed.of_endsWith ?_
  intro token isToken endsWith
  rw [lexemes_eq] at endsWith
  have nonempty : last ≠ [] := by
    rintro rfl
    exact absurd closes (by decide)
  have same := eq_of_endsWith nonempty (by simp) endsWith
  rw [same] at isToken ⊢
  exact endsBefore_of_closes isToken closes ends

/-- An expression can stand in every divided place. -/
theorem lexed_within_of_isDivided {phrase other : Phrase} {frames : List Frame}
    (whole : (phrase.within frames).Grouped) (lexed : Lexed (phrase.within frames).lexemes [])
    (divided : ∀ frame ∈ frames.head?, frame.IsDivided) (grouped : other.Grouped)
    (operand : other.role ≠ .token) (otherLexed : Lexed other.lexemes []) :
    Lexed (other.within frames).lexemes [] := by
  rw [lexemes_within, lexed_append, lexed_append] at lexed ⊢
  obtain ⟨before, -, after⟩ := lexed
  obtain ⟨first, rest, more, lexemes_eq, opens⟩ := exists_first grouped operand
  refine ⟨before.of_endsWith fun token _ endsWith => ?_, ?_, after⟩
  · have divider := mem_dividers_of_endsWith whole divided endsWith
    simp [lexemes_eq, Lexeme.text, Text.endsBefore, Text.not_runsInto_of_opens divider opens]
  · refine otherLexed.of_grouped grouped operand ?_
    rw [List.append_nil]
    exact endsExpression_of_mem_head? whole divided after

/-- What begins like a parenthesis and ends with one can stand in every place. -/
theorem lexed_within_of_separates {phrase other : Phrase} {frames : List Frame}
    (lexed : Lexed (phrase.within frames).lexemes []) {first : Char} {rest : Text}
    {more earlier : List Lexeme} (opening : other.lexemes = .token (first :: rest) :: more)
    (separator : Text.separates first = true)
    (closing : other.lexemes = earlier ++ [.token [')']]) (otherLexed : Lexed other.lexemes []) :
    Lexed (other.within frames).lexemes [] := by
  rw [lexemes_within, lexed_append, lexed_append] at lexed ⊢
  obtain ⟨before, -, after⟩ := lexed
  refine ⟨before.of_separates ?_, otherLexed.of_endsWith fun token _ endsWith => ?_, after⟩
  · simpa [opening, Lexeme.text] using separator
  · rw [closing] at endsWith
    rw [eq_of_endsWith (by simp) (by simp) endsWith]
    exact Text.endsBefore_parenthesis _

end Retouch
