import Retouch.Proofs.Toml.Format

/-!
# What is written plainly is in the format

The notation of a string is chosen by its characters.  Those with escapes suit every text; those
without them suit a text that has nothing to escape and does not end them early (`Style.Suits`).
The notation that is chosen suits the text (`Style.suits_of`).

The bodies of blocks are written character by character, and what a mark is written as depends
on the run that it stands in.  The inductions along a block therefore have the marks in front
that have just been written (`blockBody_basicBody`, `blockBody_literal`).

**Result.**  Whatever its characters are, a string is written in the format
(`isString_writeString`), and so is a table of strings and arrays of strings, as a document with
a line for each of its entries (`exists_lines_of_write?`).
-/

set_option autoImplicit false

namespace Retouch
namespace Toml

variable {character : Char} {text body : Text} {run : Nat} {isBlock : Bool}

/-! ## Characters -/

theorem hexValue?_hexDigit : ∀ value < 16, hexValue? (hexDigit value) = some value := by
  decide

/-- A control character has a code point of two digits. -/
theorem isEscape_hexDigits (small : character.toNat < 0x80) :
    IsEscape ['u', '0', '0', hexDigit (character.toNat / 16), hexDigit (character.toNat % 16)]
      character := by
  have upper := hexValue?_hexDigit (character.toNat / 16) (by omega)
  have lower := hexValue?_hexDigit (character.toNat % 16) (by omega)
  refine @IsEscape.digits _ [0, 0, character.toNat / 16, character.toNat % 16] _ rfl ?_ ?_
  · simp only [List.map_cons, List.map_nil, upper, lower]
    rfl
  · simp only [List.foldl_cons, List.foldl_nil]
    omega

/-- A character is written as itself or behind a backslash.  Quotation marks are not seen to
here. -/
theorem isPiece_escaped (other : character ≠ quotationMark) :
    IsPiece quotationMark isBlock (escaped character) character := by
  have short {letter : Char} (agreed : shortEscape? letter = some character) :
      IsPiece quotationMark isBlock ['\\', letter] character := .escaped rfl (.letter agreed)
  unfold escaped
  split
  · subst character
    exact short rfl
  split
  · subst character
    exact short rfl
  split
  · subst character
    exact short rfl
  split
  · subst character
    exact short rfl
  split
  · subst character
    exact short rfl
  split
  · subst character
    exact short rfl
  rename_i backslash
  split
  · rename_i control
    refine .escaped rfl (isEscape_hexDigits ?_)
    simp only [isControl, Bool.and_eq_true, Bool.or_eq_true, decide_eq_true_eq] at control
    omega
  · rename_i shown
    exact .shown other (fun _ => backslash) fun control => absurd control shown

theorem isPiece_quotationMark :
    IsPiece quotationMark isBlock ['\\', quotationMark] quotationMark :=
  .escaped rfl (.letter rfl)

/-! ## Bodies with escapes -/

theorem basicBody_cons_of_full (full : ¬ (isBlock = true ∧ run < 2)) :
    basicBody isBlock run (quotationMark :: text) =
      ['\\', quotationMark] ++ basicBody isBlock 0 text := by
  rw [basicBody, if_pos rfl, if_neg (by simpa using full)]
  rfl

theorem basicBody_cons_of_run (few : run < 2) :
    basicBody true run (quotationMark :: text) =
      quotationMark :: basicBody true (run + 1) text := by
  rw [basicBody, if_pos rfl, if_pos (by simpa using few)]

theorem basicBody_cons_newline :
    basicBody true run ('\n' :: text) = ['\n'] ++ basicBody true 0 text := by
  rw [basicBody, if_neg (by decide), if_pos (by rfl)]
  rfl

theorem basicBody_cons_of_ne (other : character ≠ quotationMark)
    (within : ¬ (isBlock = true ∧ character = '\n')) :
    basicBody isBlock run (character :: text) = escaped character ++ basicBody isBlock 0 text := by
  rw [basicBody, if_neg other, if_neg (by simpa using within)]

theorem lineBody_basicBody : LineBody quotationMark (basicBody false run text) text := by
  induction text generalizing run with
  | nil => exact .nil
  | cons first text ih =>
    by_cases quoted : first = quotationMark
    · rw [quoted, basicBody_cons_of_full (by simp)]
      exact .cons isPiece_quotationMark ih
    · rw [basicBody_cons_of_ne quoted (by simp)]
      exact .cons (isPiece_escaped quoted) ih

/-- A run of marks is gone on with. -/
theorem replicate_append_cons {mark : Char} :
    List.replicate run mark ++ mark :: text = List.replicate (run + 1) mark ++ text := by
  rw [List.replicate_succ', List.append_assoc]
  rfl

/-- **The body of a basic block** is written behind marks that have been written before: a third
one in a row is escaped. -/
theorem blockBody_basicBody (few : run ≤ 2) :
    BlockBody quotationMark (List.replicate run quotationMark ++ basicBody true run text)
      (List.replicate run quotationMark ++ text) := by
  induction text generalizing run with
  | nil =>
    rw [basicBody, List.append_nil]
    exact .last few
  | cons first text ih =>
    have later : BlockBody quotationMark (basicBody true 0 text) text := ih (Nat.zero_le 2)
    by_cases raw : first = quotationMark ∧ run < 2
    · obtain ⟨rfl, fewer⟩ := raw
      rw [basicBody_cons_of_run fewer, replicate_append_cons, replicate_append_cons]
      exact ih fewer
    by_cases quoted : first = quotationMark
    · rw [quoted, basicBody_cons_of_full fun within => raw ⟨quoted, within.2⟩]
      exact .piece few isPiece_quotationMark later
    by_cases newline : first = '\n'
    · subst newline
      rw [basicBody_cons_newline]
      exact .piece few (.shown quoted (fun _ => by decide) fun _ => ⟨rfl, rfl⟩) later
    · rw [basicBody_cons_of_ne quoted fun within => newline within.2]
      exact .piece few (isPiece_escaped quoted) later

/-! ## Notations that suit a text -/

/-- Whether a text has no control characters other than newlines. -/
def IsShown (text : Text) : Prop :=
  ∀ character ∈ text, isControl character = true → character = '\n'

/-- Which texts can be written in a way. -/
def Style.Suits : Style → Text → Prop
  | .basic, _ => True
  | .literal, text => IsShown text ∧ '\n' ∉ text ∧ apostrophe ∉ text
  | .basicBlock, _ => True
  | .literalBlock, text => IsShown text ∧ longestRun apostrophe 0 text ≤ 2

theorem isPiece_apostrophe (other : character ≠ apostrophe)
    (shown : isControl character = true → isBlock = true ∧ character = '\n') :
    IsPiece apostrophe isBlock [character] character :=
  .shown other (fun same => absurd same (by decide)) shown

theorem IsShown.of_cons (shown : IsShown (character :: text)) : IsShown text :=
  fun later member => shown later (List.mem_cons_of_mem _ member)

theorem lineBody_literal (suits : Style.literal.Suits text) : LineBody apostrophe text text := by
  obtain ⟨shown, line, unmarked⟩ := suits
  induction text with
  | nil => exact .nil
  | cons first text ih =>
    rw [List.mem_cons, not_or] at line unmarked
    have control : isControl first ≠ true :=
      fun control => line.1 (shown first List.mem_cons_self control).symm
    exact .cons (isPiece_apostrophe (Ne.symm unmarked.1) (absurd · control))
      (ih shown.of_cons line.2 unmarked.2)

/-- **The body of a literal block** is the text itself, if none of its runs of marks is too
long, those counted that have been written before. -/
theorem blockBody_literal (shown : IsShown text) (short : longestRun apostrophe run text ≤ 2) :
    BlockBody apostrophe (List.replicate run apostrophe ++ text)
      (List.replicate run apostrophe ++ text) := by
  induction text generalizing run with
  | nil =>
    rw [List.append_nil]
    exact .last short
  | cons first text ih =>
    rw [longestRun] at short
    split at short
    case isTrue marked =>
      subst marked
      rw [replicate_append_cons]
      exact ih shown.of_cons short
    case isFalse other =>
      have later : BlockBody apostrophe text text :=
        ih shown.of_cons (Nat.le_trans (Nat.le_max_right _ _) short)
      have control (control : isControl first = true) : true = true ∧ first = '\n' :=
        ⟨rfl, shown first List.mem_cons_self control⟩
      exact .piece (Nat.le_trans (Nat.le_max_left _ _) short) (isPiece_apostrophe other control)
        later

theorem le_longestRun {mark : Char} : run ≤ longestRun mark run text := by
  induction text generalizing run with
  | nil => exact Nat.le_refl _
  | cons first tail ih =>
    rw [longestRun]
    split
    · exact Nat.le_of_succ_le ih
    · exact Nat.le_max_left _ _

theorem notMem_of_longestRun {mark : Char} (none : longestRun mark run text = 0) :
    mark ∉ text := by
  induction text generalizing run with
  | nil => exact List.not_mem_nil
  | cons first tail ih =>
    rw [longestRun] at none
    split at none
    · have counted : run + 1 ≤ longestRun mark (run + 1) tail := le_longestRun
      omega
    · rename_i other
      have later : longestRun mark 0 tail = 0 := by omega
      exact List.not_mem_cons_of_ne_of_not_mem (Ne.symm other) (ih later)

/-- **A text is written in a way that suits it.** -/
theorem Style.suits_of (text : Text) : (Style.of text).Suits text := by
  have shown : (!text.any fun character => isControl character && character ≠ '\n') = true →
      IsShown text := by
    intro none character member control
    simp only [Bool.not_eq_true', List.any_eq_false] at none
    simpa [control] using none character member
  unfold Style.of
  simp only
  split
  · trivial
  split
  · rename_i literal
    simp only [Bool.and_eq_true, decide_eq_true_eq] at literal
    exact ⟨shown literal.1.1, by simpa using literal.2, notMem_of_longestRun literal.1.2⟩
  split
  · trivial
  split
  · rename_i block
    simp only [Bool.and_eq_true, decide_eq_true_eq] at block
    exact ⟨shown block.1, block.2⟩
  split <;> trivial

/-! ## Strings -/

theorem BlockBody.newline_mem {mark : Char} (other : mark ≠ '\n')
    (block : BlockBody mark body text) (newline : body.head? = some '\n') : '\n' ∈ text := by
  cases block with
  | last few => exact List.mem_of_head? newline
  | @piece count code body text character few piece later =>
    cases count with
    | succ count => exact absurd (Option.some.inj newline) other
    | zero =>
      cases piece with
      | shown _ _ _ => exact Option.some.inj newline ▸ List.mem_cons_self
      | escaped _ _ => exact absurd (Option.some.inj newline) (by decide)

/-- A block of several lines begins on a line of its own. -/
theorem isString_block {mark : Char} (marked : mark = quotationMark ∨ mark = apostrophe)
    (block : BlockBody mark body text) :
    IsString (List.replicate 3 mark ++ (openingNewline text ++ (body ++ List.replicate 3 mark)))
      text := by
  have other : mark ≠ '\n' := by rcases marked with rfl | rfl <;> decide
  refine .block marked ?_ block
  rw [openingNewline]
  split
  case isTrue => exact .inl rfl
  case isFalse line =>
    exact .inr ⟨rfl, fun newline => line (by simpa using block.newline_mem other newline)⟩

theorem isString_writeAs {style : Style} (suits : style.Suits text) :
    IsString (writeAs style text) text := by
  cases style with
  | basic => exact .line (.inl rfl) lineBody_basicBody
  | literal => exact .line (.inr rfl) (lineBody_literal suits)
  | basicBlock =>
    simp only [writeAs, List.append_assoc]
    exact isString_block (.inl rfl) (blockBody_basicBody (Nat.zero_le 2))
  | literalBlock =>
    simp only [writeAs, List.append_assoc]
    exact isString_block (.inr rfl) (blockBody_literal suits.1 suits.2)

/-- **A string is written in the format**, whatever its characters are. -/
theorem isString_writeString (text : Text) : IsString (writeString text) text :=
  isString_writeAs (Style.suits_of text)

/-- The last quotation mark of this text stands next to those that end the block. -/
example : writeString "say \"it's\"".toList = "\"\"\"say \"it's\"\"\"\"".toList := by decide

/-! ## Arrays and documents -/

/-- The line of an element in an array of several lines. -/
def elementLine (value : String) : Text :=
  "    ".toList ++ writeString value.toList ++ ",\n".toList

/-- The newline behind the opening bracket, and behind every comma, goes to the gap before the
next element. -/
theorem isElements_lines (values : List String) :
    IsElements ('\n' :: (values.flatMap elementLine ++ [']'])) values := by
  induction values with
  | nil => exact @IsElements.nil ['\n'] (by decide)
  | cons first values ih =>
    have line : '\n' :: ((first :: values).flatMap elementLine ++ [']']) =
        "\n    ".toList ++ (writeString first.toList ++
          ([] ++ ',' :: '\n' :: (values.flatMap elementLine ++ [']']))) := by
      simp [elementLine]
    rw [line]
    exact .next (by decide) (isString_writeString _) (by decide) ih

theorem isValue_writeArray (values : List String) :
    IsValue (writeArray values) (.array (values.map .text)) := by
  match values with
  | [] => exact .array (@IsElements.nil [] (by decide))
  | [single] =>
    exact .array (@IsElements.last [] _ [] _ (by decide) (isString_writeString _) (by decide))
  | first :: second :: values =>
    have lines : writeArray (first :: second :: values) =
        '[' :: '\n' :: ((first :: second :: values).flatMap elementLine ++ [']']) := by
      show "[\n".toList ++ List.flatMap _ (List.map _ _) ++ [']'] = _
      rw [List.flatMap_map]
      rfl
    rw [lines]
    exact .array (isElements_lines _)

theorem mapM_asText?_eq_some_iff {values : List Value} {texts : List String} :
    values.mapM Value.asText? = some texts ↔ values = texts.map .text := by
  induction values generalizing texts with
  | nil => cases texts <;> simp
  | cons first values ih =>
    simp only [List.mapM_cons, Option.bind_eq_bind, Option.bind_eq_some_iff, Option.pure_def,
      Option.some.injEq, ih]
    constructor
    · rintro ⟨text, found, texts, rfl, rfl⟩
      cases first <;> cases found
      rfl
    · intro same
      cases texts with
      | nil => cases same
      | cons text texts =>
        obtain ⟨rfl, rfl⟩ := List.cons.inj same
        exact ⟨text, rfl, texts, rfl, rfl⟩

theorem isValue_of_writeValue? {value : Value} {written : Text}
    (plain : writeValue? value = some written) : IsValue written value := by
  cases value with
  | text value =>
    obtain rfl := Option.some.inj plain
    exact .text (isString_writeString _)
  | array values =>
    obtain ⟨texts, found, rfl⟩ := Option.map_eq_some_iff.1 plain
    rw [mapM_asText?_eq_some_iff.1 found]
    exact isValue_writeArray texts
  | _ => cases plain

/-- **A table that is written plainly is a document of lines**, one for each of its entries. -/
theorem exists_lines_of_write? {entries : List (String × Value)} {document : Text}
    (plain : write? (.table entries) = some document) :
    ∃ lines : List Line, lines.map Line.entry = entries ∧ lines.flatMap Line.text = document := by
  obtain ⟨written, each, rfl⟩ := Option.map_eq_some_iff.1 plain
  clear plain
  induction entries generalizing written with
  | nil =>
    obtain rfl := Option.some.inj each
    exact ⟨[], rfl, rfl⟩
  | cons entry entries ih =>
    simp only [List.mapM_cons, Option.bind_eq_bind, Option.bind_eq_some_iff, Option.pure_def,
      Option.some.injEq] at each
    obtain ⟨line, found, others, later, rfl⟩ := each
    obtain ⟨lines, rfl, same⟩ := ih others later
    unfold writeEntry? at found
    split at found
    case isTrue bare =>
      obtain ⟨value, plain, rfl⟩ := Option.map_eq_some_iff.1 found
      exact ⟨⟨entry.1, value, entry.2, bare, isValue_of_writeValue? plain⟩ :: lines, rfl,
        congrArg (writeLine entry.1 value ++ ·) same⟩
    case isFalse => cases found

end Toml
end Retouch
