import Retouch.Proofs.Toml.Format

/-!
# Strings of the format are read

The plain reader takes the pieces of a string one by one.  At a mark in a block it looks whether
three of them stand there, which end the block.  Marks that stand for themselves are never so
many, as each run of them is followed by a piece that does not begin with one
(`IsPiece.head?_ne`), or by the three at the end (`closeBlock_replicate`).  What both kinds of
blocks share is a reader that ends at three marks, keeps fewer of them and takes pieces
(`IsBlockReader`).

**Result.**  Every string of the format is read, whatever follows other than one more mark
(`readString_of_isString`).
-/

set_option autoImplicit false

namespace Retouch
namespace Toml

variable {mark character : Char} {text body code written rest : Text} {count : Nat}
  {isBlock : Bool}

/-! ## Runs of a mark -/

theorem leading_cons_self : leading mark (mark :: text) = leading mark text + 1 := by
  simp [leading]

theorem leading_of_head? (apart : text.head? ≠ some mark) : leading mark text = 0 := by
  cases text with
  | nil => rfl
  | cons first rest =>
    have other : first ≠ mark := fun same => apart (congrArg some same)
    simp [leading, other]

theorem leading_cons_of_ne (other : character ≠ mark) : leading mark (character :: text) = 0 :=
  leading_of_head? fun same => other (Option.some.inj same)

theorem leading_replicate_append (apart : rest.head? ≠ some mark) :
    leading mark (List.replicate count mark ++ rest) = count := by
  induction count with
  | zero => exact leading_of_head? apart
  | succ count ih => rw [List.replicate_succ, List.cons_append, leading_cons_self, ih]

/-- Three marks end a block, behind up to two that belong to it. -/
theorem closeBlock_replicate (few : count ≤ 2) (apart : rest.head? ≠ some mark) :
    closeBlock mark (List.replicate (count + 3) mark ++ rest) =
      (List.replicate count mark, rest) := by
  rw [closeBlock, leading_replicate_append apart, Nat.add_sub_cancel, Nat.min_eq_left few]
  refine Prod.ext rfl ?_
  exact List.drop_left' List.length_replicate

/-! ## Escapes -/

theorem scalar?_toNat (character : Char) : scalar? character.toNat = some character := by
  have valid : character.toNat < 0xd800 ∨ 0xdfff < character.toNat ∧ character.toNat < 0x110000 :=
    character.valid
  rw [scalar?, if_pos valid, Char.ofNat_toNat]

theorem hexNumber?_append {digits : Text} {values : List Nat} {number : Nat}
    (valued : digits.map hexValue? = values.map some) :
    hexNumber? digits.length number (digits ++ rest) =
      some (values.foldl (fun number value => number * 16 + value) number, rest) := by
  induction digits generalizing values number with
  | nil =>
    cases values with
    | nil => rfl
    | cons => cases valued
  | cons digit digits ih =>
    cases values with
    | nil => cases valued
    | cons value values =>
      obtain ⟨first, later⟩ := List.cons.inj valued
      rw [List.length_cons, List.cons_append, hexNumber?, first]
      exact ih later

theorem IsEscape.read (escape : IsEscape code character) :
    escape? (code ++ rest) = some (character, rest) := by
  cases escape with
  | letter agreed =>
    unfold shortEscape? at agreed
    split at agreed <;> cases agreed <;> rfl
  | @digits digits values _ four valued point =>
    have number : hexNumber? 4 0 (digits ++ rest) = some (character.toNat, rest) := by
      rw [← four, hexNumber?_append valued, point]
    show numericEscape? 4 (digits ++ rest) = _
    simp only [numericEscape?, number, scalar?_toNat, Option.map_some]

/-- What stands behind a backslash is not taken for the end of a line. -/
theorem IsEscape.lineEnds_eq_false (escape : IsEscape code character) :
    lineEnds (code ++ rest) = false := by
  cases escape with
  | letter agreed =>
    unfold shortEscape? at agreed
    split at agreed <;> cases agreed <;> rfl
  | digits => rfl

/-! ## Pieces -/

/-- A piece does not begin with a mark. -/
theorem IsPiece.head?_ne (piece : IsPiece mark isBlock code character) :
    (code ++ text).head? ≠ some mark := by
  cases piece with
  | shown other _ _ => exact fun same => other (Option.some.inj same)
  | escaped escapes _ =>
    rw [escapes]
    exact fun same => absurd (Option.some.inj same) (by decide)

/-- On a line no control character stands for itself. -/
theorem isControl_eq_false
    (shown : isControl character = true → false = true ∧ character = '\n') :
    isControl character = false :=
  Bool.eq_false_iff.2 fun control => Bool.false_ne_true (shown control).1

theorem readBasic_piece (piece : IsPiece quotationMark false code character)
    (read : readBasic text = some (body, rest)) :
    readBasic (code ++ text) = some (character :: body, rest) := by
  cases piece with
  | shown other plain shown =>
    rw [List.singleton_append, readBasic, if_neg other, if_neg (plain rfl),
      isControl_eq_false shown, if_neg Bool.false_ne_true, read]
    rfl
  | escaped _ escape =>
    rw [List.cons_append, readBasic, if_neg (by decide), if_pos rfl]
    split
    · rename_i found
      obtain ⟨rfl, rfl⟩ := Prod.mk.inj (Option.some.inj (found.symm.trans escape.read))
      rw [read]
      rfl
    · rename_i found
      cases found.symm.trans escape.read

theorem readLiteral_piece (piece : IsPiece apostrophe false code character)
    (read : readLiteral text = some (body, rest)) :
    readLiteral (code ++ text) = some (character :: body, rest) := by
  cases piece with
  | shown other _ shown =>
    rw [List.singleton_append, readLiteral, if_neg other, isControl_eq_false shown,
      if_neg Bool.false_ne_true, read]
    rfl
  | escaped escapes _ => exact absurd escapes (by decide)

/-! ## Lines -/

theorem readBasic_of_lineBody (line : LineBody quotationMark body text) :
    readBasic (body ++ quotationMark :: rest) = some (text, rest) := by
  induction line with
  | nil => rw [List.nil_append, readBasic, if_pos rfl]
  | cons piece _ ih =>
    rw [List.append_assoc]
    exact readBasic_piece piece ih

theorem readLiteral_of_lineBody (line : LineBody apostrophe body text) :
    readLiteral (body ++ apostrophe :: rest) = some (text, rest) := by
  induction line with
  | nil => rw [List.nil_append, readLiteral, if_pos rfl]
  | cons piece _ ih =>
    rw [List.append_assoc]
    exact readLiteral_piece piece ih

/-! ## Blocks -/

/-- Whether a reader takes blocks of a mark piece by piece. -/
structure IsBlockReader (mark : Char) (read : Text → Option (Text × Text)) : Prop where
  /-- It ends at three marks, and up to two before them belong to the block. -/
  ended : ∀ {count rest}, count ≤ 2 → rest.head? ≠ some mark →
    read (List.replicate (count + 3) mark ++ rest) = some (List.replicate count mark, rest)
  /-- It keeps a mark where there are fewer than three. -/
  kept : ∀ {text body rest}, leading mark (mark :: text) ≤ 2 → read text = some (body, rest) →
    read (mark :: text) = some (mark :: body, rest)
  /-- It takes a piece for its character. -/
  taken : ∀ {code character text body rest}, IsPiece mark true code character →
    read text = some (body, rest) → read (code ++ text) = some (character :: body, rest)

namespace IsBlockReader

variable {read : Text → Option (Text × Text)}

theorem read_replicate (reader : IsBlockReader mark read) (few : count ≤ 2)
    (apart : text.head? ≠ some mark) (later : read text = some (body, rest)) :
    read (List.replicate count mark ++ text) = some (List.replicate count mark ++ body, rest) := by
  induction count with
  | zero => exact later
  | succ count ih =>
    have run : leading mark (List.replicate (count + 1) mark ++ text) = count + 1 :=
      leading_replicate_append apart
    rw [List.replicate_succ, List.cons_append] at run ⊢
    exact reader.kept (by omega) (ih (Nat.le_of_succ_le few))

/-- **Whatever can stand in a block is read**, up to the marks that end it. -/
theorem read_of_blockBody (reader : IsBlockReader mark read) (block : BlockBody mark body text)
    (apart : rest.head? ≠ some mark) :
    read (body ++ (List.replicate 3 mark ++ rest)) = some (text, rest) := by
  induction block with
  | last few =>
    rw [← List.append_assoc, List.replicate_append_replicate]
    exact reader.ended few apart
  | piece few piece _ ih =>
    rw [List.append_assoc, List.append_assoc]
    exact reader.read_replicate few piece.head?_ne (reader.taken piece ih)

end IsBlockReader

theorem readBasicBlock_shown (plain : character ≠ '\\')
    (shown : isControl character = true → character = '\n')
    (few : leading quotationMark (character :: text) ≤ 2)
    (read : readBasicBlock false text = some (body, rest)) :
    readBasicBlock false (character :: text) = some (character :: body, rest) := by
  rw [readBasicBlock, if_neg (by simp), if_neg (by simp; omega), if_neg (by simp [plain]),
    if_neg plain, if_neg (by simpa using shown), read]
  rfl

theorem isBlockReader_readBasicBlock : IsBlockReader quotationMark (readBasicBlock false) where
  ended {count rest} few apart := by
    have many : leading quotationMark (List.replicate (count + 3) quotationMark ++ rest) =
        count + 3 := leading_replicate_append apart
    have ended := closeBlock_replicate few apart
    rw [List.replicate_succ, List.cons_append] at many ended ⊢
    rw [readBasicBlock, if_neg (by decide), many, ended, if_pos (by simp)]
  kept few read := readBasicBlock_shown (by decide) (by decide) few read
  taken {code character text body rest} piece read := by
    cases piece with
    | shown other plain shown =>
      refine readBasicBlock_shown (plain rfl) (fun control => (shown control).2) ?_ read
      rw [leading_cons_of_ne other]
      exact Nat.zero_le 2
    | @escaped code _ _ escape =>
      have other : '\\' ≠ quotationMark := by decide
      rw [List.cons_append, readBasicBlock, escape.lineEnds_eq_false, if_neg (by simp),
        if_neg (by simp [other]), if_neg (by simp), if_pos rfl]
      split
      · rename_i found
        obtain ⟨rfl, rfl⟩ := Prod.mk.inj (Option.some.inj (found.symm.trans escape.read))
        rw [read]
        rfl
      · rename_i found
        cases found.symm.trans escape.read

theorem readLiteralBlock_shown (shown : isControl character = true → character = '\n')
    (few : leading apostrophe (character :: text) ≤ 2)
    (read : readLiteralBlock text = some (body, rest)) :
    readLiteralBlock (character :: text) = some (character :: body, rest) := by
  rw [readLiteralBlock, if_neg (by simp; omega), if_neg (by simpa using shown), read]
  rfl

theorem isBlockReader_readLiteralBlock : IsBlockReader apostrophe readLiteralBlock where
  ended {count rest} few apart := by
    have many : leading apostrophe (List.replicate (count + 3) apostrophe ++ rest) = count + 3 :=
      leading_replicate_append apart
    have ended := closeBlock_replicate few apart
    rw [List.replicate_succ, List.cons_append] at many ended ⊢
    rw [readLiteralBlock, many, ended, if_pos (by simp)]
  kept few read := readLiteralBlock_shown (by decide) few read
  taken piece read := by
    cases piece with
    | shown other _ shown =>
      refine readLiteralBlock_shown (fun control => (shown control).2) ?_ read
      rw [leading_cons_of_ne other]
      exact Nat.zero_le 2
    | escaped escapes _ => exact absurd escapes (by decide)

/-! ## Strings -/

/-- Whether a text does not begin with a mark, so that it can follow a string. -/
def IsApart (text : Text) : Prop :=
  text.head? ≠ some quotationMark ∧ text.head? ≠ some apostrophe

theorem isApart_cons (other : character ≠ quotationMark) (other' : character ≠ apostrophe) :
    IsApart (character :: text) :=
  ⟨fun same => other (Option.some.inj same), fun same => other' (Option.some.inj same)⟩

theorem IsApart.head?_ne (apart : IsApart rest)
    (marked : mark = quotationMark ∨ mark = apostrophe) : rest.head? ≠ some mark := by
  rcases marked with rfl | rfl
  · exact apart.1
  · exact apart.2

theorem readString_of_few (few : leading quotationMark text ≤ 2)
    (few' : leading apostrophe text ≤ 2) : readString text = readLine text := by
  rw [readString, if_neg (by omega), if_neg (by omega)]

/-- A string on a line has at most two marks at its front. -/
theorem LineBody.leading_le (line : LineBody mark body text) (apart : rest.head? ≠ some mark) :
    leading mark (mark :: (body ++ mark :: rest)) ≤ 2 := by
  rw [leading_cons_self]
  cases line with
  | nil => exact Nat.le_of_eq (by rw [List.nil_append, leading_cons_self, leading_of_head? apart])
  | cons piece _ =>
    rw [List.append_assoc, leading_of_head? piece.head?_ne]
    exact Nat.le_succ 1

/-- A newline that opens a block is left out, and no other. -/
theorem withoutFirstNewline_opening {opening : Text} (other : mark ≠ '\n')
    (opened : opening = ['\n'] ∨ opening = [] ∧ body.head? ≠ some '\n') :
    withoutFirstNewline (opening ++ (body ++ (List.replicate 3 mark ++ rest))) =
      body ++ (List.replicate 3 mark ++ rest) := by
  rcases opened with rfl | ⟨rfl, shown⟩
  · rfl
  · rw [List.nil_append, withoutFirstNewline, if_neg]
    cases body with
    | nil => exact fun same => other (Option.some.inj same)
    | cons => exact shown

theorem readString_replicate_quotationMark :
    readString (List.replicate 3 quotationMark ++ text) =
      readBasicBlock false (withoutFirstNewline text) := by
  have many : 3 ≤ leading quotationMark (List.replicate 3 quotationMark ++ text) := by
    simp only [List.replicate, List.cons_append, leading_cons_self]
    omega
  rw [readString, if_pos many, List.drop_left' List.length_replicate]

theorem readString_replicate_apostrophe :
    readString (List.replicate 3 apostrophe ++ text) =
      readLiteralBlock (withoutFirstNewline text) := by
  have none : leading quotationMark (List.replicate 3 apostrophe ++ text) = 0 :=
    leading_cons_of_ne (by decide)
  have many : 3 ≤ leading apostrophe (List.replicate 3 apostrophe ++ text) := by
    simp only [List.replicate, List.cons_append, leading_cons_self]
    omega
  rw [readString, none, if_neg (by decide), if_pos many, List.drop_left' List.length_replicate]

/-- **Every string of the format is read**, if no mark follows. -/
theorem readString_of_isString (string : IsString written text) (apart : IsApart rest) :
    readString (written ++ rest) = some (text, rest) := by
  cases string with
  | @line mark body _ marked line =>
    have few := line.leading_le (apart.head?_ne marked)
    rw [List.cons_append, List.append_assoc, List.singleton_append]
    rcases marked with rfl | rfl
    · rw [readString_of_few few (by rw [leading_cons_of_ne (by decide)]; exact Nat.zero_le 2)]
      exact readBasic_of_lineBody line
    · rw [readString_of_few (by rw [leading_cons_of_ne (by decide)]; exact Nat.zero_le 2) few]
      exact readLiteral_of_lineBody line
  | @block mark opening body _ marked opened block =>
    simp only [List.append_assoc]
    rcases marked with rfl | rfl
    · rw [readString_replicate_quotationMark, withoutFirstNewline_opening (by decide) opened]
      exact isBlockReader_readBasicBlock.read_of_blockBody block apart.1
    · rw [readString_replicate_apostrophe, withoutFirstNewline_opening (by decide) opened]
      exact isBlockReader_readLiteralBlock.read_of_blockBody block apart.2

/-- A string begins with a mark. -/
theorem IsString.exists_mark (string : IsString written text) :
    ∃ mark tail, written = mark :: tail ∧ (mark = quotationMark ∨ mark = apostrophe) := by
  cases string with
  | line marked _ => exact ⟨_, _, rfl, marked⟩
  | block marked _ _ => exact ⟨_, _, rfl, marked⟩

/-! ## Carriage returns -/

theorem IsEscape.return_notMem (escape : IsEscape code character) : '\r' ∉ code := by
  cases escape with
  | letter agreed =>
    unfold shortEscape? at agreed
    split at agreed <;> cases agreed <;> decide
  | @digits digits values _ _ valued _ =>
    have none : '\r' ∉ digits := fun member => by
      have valued : hexValue? '\r' ∈ values.map some := valued ▸ List.mem_map_of_mem member
      obtain ⟨value, -, same⟩ := List.mem_map.1 valued
      cases same
    exact List.not_mem_cons_of_ne_of_not_mem (by decide) none

theorem IsPiece.return_notMem (piece : IsPiece mark isBlock code character) : '\r' ∉ code := by
  cases piece with
  | shown _ _ shown =>
    rw [List.mem_singleton]
    rintro rfl
    exact absurd (shown rfl).2 (by decide)
  | escaped _ escape => exact List.not_mem_cons_of_ne_of_not_mem (by decide) escape.return_notMem

theorem LineBody.return_notMem (line : LineBody mark body text) : '\r' ∉ body := by
  induction line with
  | nil => exact List.not_mem_nil
  | cons piece _ ih => exact List.not_mem_append piece.return_notMem ih

theorem BlockBody.return_notMem (other : mark ≠ '\r') (block : BlockBody mark body text) :
    '\r' ∉ body := by
  have marks (count : Nat) : '\r' ∉ List.replicate count mark :=
    fun member => other (List.eq_of_mem_replicate member).symm
  induction block with
  | last => exact marks _
  | piece _ piece _ ih =>
    exact List.not_mem_append (marks _) (List.not_mem_append piece.return_notMem ih)

/-- A string has no carriage returns, so that no line end is changed before it is read. -/
theorem IsString.return_notMem (string : IsString written text) : '\r' ∉ written := by
  cases string with
  | @line mark _ _ marked line =>
    have other : mark ≠ '\r' := by rcases marked with rfl | rfl <;> decide
    simp [line.return_notMem, Ne.symm other]
  | @block mark opening _ _ marked opened block =>
    have other : mark ≠ '\r' := by rcases marked with rfl | rfl <;> decide
    have opening : '\r' ∉ opening := by rcases opened with rfl | ⟨rfl, -⟩ <;> decide
    simp [block.return_notMem other, opening, Ne.symm other]

end Toml
end Retouch
