import Retouch.Proofs.Template.Letters

/-!
# Reading a template literal

The content of a template literal is read from the left to the right as letters and
substitutions (`Piece`).  A plain letter is neither a backtick nor a backslash, nor a dollar
sign in front of a brace; there a substitution begins, which goes on to the brace that closes
its expression (`Reads`).

What an expression is, is left open (`Expressions`), but wherever one is followed by a closing
brace it must be clear where it ends.  Then **a text is read as a template literal in one way
at most**, and no template literal begins another (`IsTemplate.unique`).  The readings of two
contents together are the reading of both, unless a dollar sign comes to stand before a brace
(`Reads.append`); if it does, a substitution begins there (`Reads.split`).
-/

set_option autoImplicit false

namespace Retouch
namespace Template

open TemplateText

/-- **The texts of expressions.**  The brace after one of them closes its substitution. -/
structure Expressions where
  holds : Text → Prop
  closes : ∀ {first second rest rest' : Text}, holds first → holds second →
    first ++ closingBrace :: rest = second ++ closingBrace :: rest' → first = second

/-- Texts in which no closing brace occurs: there the first one ends the substitution. -/
def Expressions.braceless (holds : Text → Prop)
    (noBrace : ∀ text, holds text → closingBrace ∉ text) : Expressions where
  holds := holds
  closes := by
    intro first second rest rest' inFirst inSecond same
    have without := noBrace first inFirst
    have without' := noBrace second inSecond
    rcases List.append_eq_append_iff.1 same with ⟨more, rfl, next⟩ | ⟨more, rfl, next⟩
    · cases more with
      | nil => exact (List.append_nil first).symm
      | cons character more =>
        obtain ⟨rfl, -⟩ := List.cons.inj next
        exact absurd (by simp) without'
    · cases more with
      | nil => exact List.append_nil second
      | cons character more =>
        obtain ⟨rfl, -⟩ := List.cons.inj next
        exact absurd (by simp) without

/-- A part of the content of a template literal. -/
inductive Piece where
  | letter (letter : Letter)
  | substitution (expression : Text)
deriving DecidableEq

/-- **Whether a text reads as the given pieces.** -/
inductive Reads (expressions : Expressions) : Text → List Piece → Prop where
  | nil : Reads expressions [] []
  | plain {character : Char} {rest : Text} {pieces : List Piece}
      (noTick : character ≠ backtick) (noBackslash : character ≠ '\\')
      (unopened : character = '$' → rest.head? ≠ some openingBrace)
      (reads : Reads expressions rest pieces) :
      Reads expressions (character :: rest) (.letter (.plain character) :: pieces)
  | escaped {character : Char} {rest : Text} {pieces : List Piece}
      (reads : Reads expressions rest pieces) :
      Reads expressions ('\\' :: character :: rest) (.letter (.escaped character) :: pieces)
  | substitution {expression rest : Text} {pieces : List Piece}
      (holds : expressions.holds expression) (reads : Reads expressions rest pieces) :
      Reads expressions ('$' :: openingBrace :: (expression ++ closingBrace :: rest))
        (.substitution expression :: pieces)

/-- Whether a text is one template literal with the given pieces. -/
def IsTemplate (expressions : Expressions) (text : Text) (pieces : List Piece) : Prop :=
  ∃ content, text = quoted content ∧ Reads expressions content pieces

namespace Reads

variable {expressions : Expressions} {content following : Text} {pieces others : List Piece}

/-- The first character of a content is a certain one when its first piece is. -/
theorem head?_eq (reads : Reads expressions content pieces) {character : Char}
    (noDollar : character ≠ '$') (noBackslash : character ≠ '\\') :
    content.head? = some character ↔ pieces.head? = some (.letter (.plain character)) := by
  cases reads with
  | nil => simp
  | plain => simp
  | escaped => simp [Ne.symm noBackslash]
  | substitution => simp [Ne.symm noDollar]

/-- Whether a dollar sign at the end of a content begins a substitution with what follows. -/
def Opens (pieces : List Piece) (following : Text) : Prop :=
  pieces.getLast? = some (.letter (.plain '$')) ∧ following.head? = some openingBrace

theorem opens_cons {piece : Piece} (more : pieces ≠ []) :
    Opens (piece :: pieces) following ↔ Opens pieces following := by
  obtain ⟨first, rest, rfl⟩ := List.exists_cons_of_ne_nil more
  rw [Opens, Opens, List.getLast?_cons_cons]

theorem eq_nil (reads : Reads expressions content pieces) (empty : pieces = []) : content = [] := by
  cases reads with
  | nil => rfl
  | plain | escaped | substitution => cases empty

/-- **Contents are read together as they are read alone**, if no substitution begins
between them. -/
theorem append (reads : Reads expressions content pieces)
    (reads' : Reads expressions following others) (unopened : ¬ Opens pieces following) :
    Reads expressions (content ++ following) (pieces ++ others) := by
  induction reads with
  | nil => exact reads'
  | @plain character rest pieces noTick noBackslash alone reads ih =>
    refine .plain noTick noBackslash ?_ (ih fun opens => unopened ?_)
    · rintro rfl brace
      cases rest with
      | nil =>
        cases reads
        exact unopened ⟨rfl, brace⟩
      | cons first rest => exact alone rfl brace
    · exact (opens_cons (by rintro rfl; cases opens.1)).2 opens
  | escaped reads ih =>
    exact .escaped (ih fun opens =>
      unopened ((opens_cons (by rintro rfl; cases opens.1)).2 opens))
  | @substitution expression rest pieces holds reads ih =>
    have both := ih fun opens => unopened ((opens_cons (by rintro rfl; cases opens.1)).2 opens)
    have whole : '$' :: openingBrace :: (expression ++ closingBrace :: rest) ++ following =
        '$' :: openingBrace :: (expression ++ closingBrace :: (rest ++ following)) := by simp
    rw [whole]
    exact .substitution holds both

/-- Whether a reading of a content and what follows it reads the content as it is read alone.
Otherwise a substitution begins where they meet. -/
def Splits (expressions : Expressions) (pieces : List Piece) (following : Text)
    (others : List Piece) : Prop :=
  (¬ Opens pieces following ∧
    ∃ later, others = pieces ++ later ∧ Reads expressions following later) ∨
  (Opens pieces following ∧ ∃ earlier expression later,
    pieces = earlier ++ [.letter (.plain '$')] ∧
      others = earlier ++ .substitution expression :: later)

theorem Splits.cons {piece : Piece} (splits : Splits expressions pieces following others)
    (unopened : pieces = [] → ¬ Opens [piece] following) :
    Splits expressions (piece :: pieces) following (piece :: others) := by
  by_cases last : pieces = []
  · subst last
    rcases splits with ⟨-, later, same, reads⟩ | ⟨opens, -⟩
    · exact .inl ⟨unopened rfl, later, congrArg (piece :: ·) same, reads⟩
    · cases opens.1
  · rcases splits with ⟨apart, later, rfl, reads⟩ | ⟨opens, earlier, expression, later, rfl, rfl⟩
    · exact .inl ⟨mt (opens_cons last).1 apart, later, rfl, reads⟩
    · exact .inr ⟨(opens_cons last).2 opens, piece :: earlier, expression, later, rfl, rfl⟩

/-- **A reading of two contents** reads the first as it is read alone and then the second, or a
substitution begins where they meet. -/
theorem split (reads : Reads expressions content pieces)
    (whole : Reads expressions (content ++ following) others) :
    Splits expressions pieces following others := by
  induction reads generalizing others with
  | nil => exact .inl ⟨nofun, others, rfl, whole⟩
  | @plain character rest pieces noTick noBackslash alone reads ih =>
    rw [List.cons_append] at whole
    generalize text_eq : character :: (rest ++ following) = text at whole
    cases whole with
    | nil => cases text_eq
    | escaped => exact absurd (List.cons.inj text_eq).1 noBackslash
    | substitution holds _ =>
      -- The brace is not in the first content, so that ends with the dollar sign.
      obtain ⟨rfl, next⟩ := List.cons.inj text_eq
      cases rest with
      | cons first rest => exact absurd (congrArg some (List.cons.inj next).1) (alone rfl)
      | nil =>
        cases reads
        refine .inr ⟨⟨rfl, ?_⟩, [], _, _, rfl, rfl⟩
        rw [← List.nil_append following, next]
        rfl
    | plain _ _ apart later =>
      obtain ⟨rfl, rfl⟩ := List.cons.inj text_eq
      refine (ih later).cons ?_
      rintro rfl ⟨dollar, brace⟩
      cases dollar
      rw [reads.eq_nil rfl] at apart
      exact apart rfl brace
  | @escaped character rest pieces reads ih =>
    rw [List.cons_append, List.cons_append] at whole
    generalize text_eq : '\\' :: character :: (rest ++ following) = text at whole
    cases whole with
    | nil => cases text_eq
    | plain _ noBackslash => exact absurd (List.cons.inj text_eq).1.symm noBackslash
    | substitution => exact absurd (List.cons.inj text_eq).1 (by decide)
    | escaped later =>
      obtain ⟨-, text_eq⟩ := List.cons.inj text_eq
      obtain ⟨rfl, rfl⟩ := List.cons.inj text_eq
      exact (ih later).cons (by rintro - ⟨escape, -⟩; cases escape)
  | @substitution expression rest pieces holds reads ih =>
    have same : '$' :: openingBrace :: (expression ++ closingBrace :: rest) ++ following =
        '$' :: openingBrace :: (expression ++ closingBrace :: (rest ++ following)) := by simp
    rw [same] at whole
    generalize text_eq :
      '$' :: openingBrace :: (expression ++ closingBrace :: (rest ++ following)) = text at whole
    cases whole with
    | nil => cases text_eq
    | plain _ _ apart =>
      obtain ⟨rfl, rfl⟩ := List.cons.inj text_eq
      exact absurd rfl (apart rfl)
    | escaped => exact absurd (List.cons.inj text_eq).1 (by decide)
    | substitution holds' later =>
      obtain ⟨-, text_eq⟩ := List.cons.inj text_eq
      obtain ⟨-, text_eq⟩ := List.cons.inj text_eq
      obtain rfl := expressions.closes holds holds' text_eq
      obtain ⟨-, rfl⟩ := List.cons.inj (List.append_cancel_left text_eq)
      exact (ih later).cons (by rintro - ⟨letter, -⟩; cases letter)

/-- A content is read in one way. -/
theorem unique (reads : Reads expressions content pieces)
    (reads' : Reads expressions content others) : others = pieces := by
  have whole : Reads expressions (content ++ []) others := by rwa [List.append_nil]
  rcases reads.split whole with ⟨-, later, rfl, nothing⟩ | ⟨opens, -⟩
  · cases nothing
    exact List.append_nil pieces
  · cases opens.2

/-- A content does not go on over a backtick. -/
theorem not_over_backtick (reads : Reads expressions content pieces)
    (longer : Reads expressions (content ++ backtick :: following) others) : False := by
  rcases reads.split longer with ⟨-, later, rfl, tick⟩ | ⟨opens, -⟩
  · generalize text_eq : backtick :: following = text at tick
    cases tick with
    | nil => cases text_eq
    | plain noTick => exact noTick (List.cons.inj text_eq).1.symm
    | escaped => exact absurd (List.cons.inj text_eq).1 (by decide)
    | substitution => exact absurd (List.cons.inj text_eq).1 (by decide)
  · exact absurd (Option.some.inj opens.2) (by decide)

/-- Inert letters are read as they are spelled. -/
theorem of_isInert {letters : List Letter} (inert : Letter.IsInert letters) :
    Reads expressions (Letter.spelled letters) (letters.map .letter) := by
  induction letters with
  | nil => exact .nil
  | cons first rest ih =>
    cases first with
    | escaped character => exact .escaped (ih inert.tail)
    | plain character =>
      refine .plain ?_ ?_ ?_ (ih inert.tail)
      · rintro rfl
        exact inert.unticked List.mem_cons_self
      · rintro rfl
        exact inert.proper List.mem_cons_self
      · rintro rfl brace
        obtain ⟨more, rfl⟩ := List.head?_eq_some_iff.1
          ((Letter.head?_spelled (by decide : openingBrace ≠ '\\')).1 brace)
        exact inert.unopened (List.prefix_append [.plain '$', .plain openingBrace] more).isInfix

end Reads

namespace IsTemplate

variable {expressions : Expressions} {text other : Text} {pieces others : List Piece}

/-- **No template literal begins another, and none is read in two ways.** -/
theorem unique (isTemplate : IsTemplate expressions text pieces)
    (isTemplate' : IsTemplate expressions other others) {rest rest' : Text}
    (same : text ++ rest = other ++ rest') : text = other ∧ pieces = others := by
  obtain ⟨content, rfl, reads⟩ := isTemplate
  obtain ⟨content', rfl, reads'⟩ := isTemplate'
  have inner : content ++ backtick :: rest = content' ++ backtick :: rest' := by
    simpa [quoted] using same
  have content_eq : content = content' := by
    rcases List.append_eq_append_iff.1 inner with ⟨more, rfl, next⟩ | ⟨more, rfl, next⟩
    · cases more with
      | nil => exact (List.append_nil content).symm
      | cons first more =>
        obtain ⟨rfl, -⟩ := List.cons.inj next
        exact (reads.not_over_backtick reads').elim
    · cases more with
      | nil => exact List.append_nil content'
      | cons first more =>
        obtain ⟨rfl, -⟩ := List.cons.inj next
        exact (reads'.not_over_backtick reads).elim
  subst content_eq
  exact ⟨rfl, reads'.unique reads⟩

end IsTemplate
end Template
end Retouch
