import Mathlib.Data.List.Chain
import Retouch.Proofs.Template.Value

/-!
# Contents in a row

The contents of several template literals are put into one.  Each of them has pieces and
elements of its own (`Content`).  Where two of them meet, three things can go wrong
(`Piece.clash`): a dollar sign before a brace begins a substitution, a digit after an escaped zero
makes an escape that template literals do not have, and a newline after a carriage return is
no end of a line any more.

**Contents in a row have the elements of each of them in turn exactly if nothing of this happens**
(`Content.joined_iff`).  It is not enough to look at each place where two contents meet, since
what goes wrong at one of them might be made good at another.  It is not: the row never has more
code units before its first substitution than its contents have
(`Content.lead_le`), and it has fewer once a newline is lost.
-/

set_option autoImplicit false

namespace Retouch
namespace Template

open TemplateText

namespace Piece

/-- Whether a substitution begins with the last of these pieces and the first. -/
def opens (last first : Piece) : Bool :=
  last = .letter (.plain '$') && first = .letter (.plain openingBrace)

/-- Whether a piece means something else after another one. -/
def disturbs : Piece → Piece → Bool
  | .letter last, .letter (.plain first) =>
    (last = .escaped '0' && first.isDigit) ||
      ((last = .plain '\r' || last = .escaped '\r') && first = '\n')
  | _, _ => false

/-- What a test says of the pieces where two rows of them meet. -/
def atSeam (test : Piece → Piece → Bool) (before after : List Piece) : Bool :=
  match before.getLast?, after.head? with
  | some last, some first => test last first
  | _, _ => false

/-- Whether pieces are read or understood differently directly after other pieces. -/
def clash (before after : List Piece) : Bool :=
  atSeam opens before after || atSeam disturbs before after

end Piece

namespace Pending

/-- What is pending after a piece where a literal may end. -/
def afterPiece : Piece → Pending
  | .letter letter =>
    if letter = .plain '\r' ∨ letter = .escaped '\r' then newline
    else if letter = .escaped '0' then noDigit
    else nothing
  | .substitution _ => nothing

/-- What is pending after pieces where a literal may end. -/
def after (pieces : List Piece) : Pending :=
  match pieces.getLast? with
  | some last => afterPiece last
  | none => nothing

variable {pending next last : Pending} {piece : Piece} {pieces : List Piece}
  {elements made : List Element}

theorem isFinal_afterPiece (piece : Piece) : (afterPiece piece).isFinal = true := by
  cases piece with
  | substitution => rfl
  | letter letter =>
    rw [afterPiece]
    split
    · rfl
    · split <;> rfl

theorem isFinal_after (pieces : List Piece) : (after pieces).isFinal = true := by
  rw [after]
  split
  · exact isFinal_afterPiece _
  · rfl

theorem start_eq_some {letter : Letter} {units : List UInt16}
    (started : start letter = some (units, next)) (final : next.isFinal = true) :
    next = afterPiece (.letter letter) := by
  cases letter with
  | plain character => grind [start, afterPiece]
  | escaped character => grind [start, afterPiece, isFinal]

/-- A digit of a code, where the code is complete. -/
theorem digit_eq_some {count value : Nat} {character : Char} {units : List UInt16}
    (taken : digit count value character = some (units, next)) (final : next.isFinal = true) :
    next = afterPiece (.letter (.plain character)) := by
  have noReturn : Toml.hexValue? '\r' = none := by decide
  simp only [digit, Option.bind_eq_bind, Option.bind_eq_some_iff] at taken
  obtain ⟨more, hex, taken⟩ := taken
  grind [afterPiece, isFinal]

theorem step_eq_some {letter : Letter} {units : List UInt16}
    (taken : pending.step letter = some (units, next)) (final : next.isFinal = true) :
    next = afterPiece (.letter letter) := by
  cases pending with
  | nothing => exact start_eq_some taken final
  | newline =>
    rw [step] at taken
    split at taken
    · grind [afterPiece]
    · exact start_eq_some taken final
  | noDigit =>
    cases letter with
    | escaped character => exact start_eq_some taken final
    | plain character =>
      rw [step] at taken
      split at taken
      · cases taken
      · exact start_eq_some taken final
  | code =>
    cases letter with
    | escaped character => cases taken
    | plain character =>
      rw [step] at taken
      split at taken
      · grind [isFinal]
      · exact digit_eq_some taken final
  | digits count value =>
    cases letter with
    | escaped character => cases taken
    | plain character => exact digit_eq_some taken final
  | braced value =>
    cases letter with
    | escaped character => cases taken
    | plain character =>
      rw [step, inBraces] at taken
      split at taken
      · obtain ⟨code, -, same⟩ := Option.map_eq_some_iff.1 taken
        grind [afterPiece, closingBrace]
      · simp only [Option.bind_eq_bind, Option.bind_eq_some_iff] at taken
        grind [isFinal]

/-- Where a literal may end, what is pending is seen from the last piece. -/
theorem eq_afterPiece (taken : pending.stepPiece piece = some (elements, next))
    (final : next.isFinal = true) : next = afterPiece piece := by
  cases piece with
  | substitution expression => grind [stepPiece, afterPiece]
  | letter letter =>
    obtain ⟨⟨units, other⟩, stepped, same⟩ := Option.map_eq_some_iff.1 taken
    obtain ⟨-, rfl⟩ := Prod.mk.inj same
    exact step_eq_some stepped final

/-- **What is pending after pieces** where a literal may end. -/
theorem eq_after (ran : pending.run pieces = some (elements, last)) (final : last.isFinal = true)
    (more : pieces ≠ []) : last = after pieces := by
  induction pieces generalizing pending elements with
  | nil => exact absurd rfl more
  | cons first rest ih =>
    obtain ⟨made, next, later, taken, ran, -⟩ := run_cons_eq_some_iff.1 ran
    cases rest with
    | nil =>
      cases ran
      exact eq_afterPiece taken final
    | cons second rest =>
      rw [ih ran (by simp), after, after, List.getLast?_cons_cons]

/-! ### Pieces after others -/

theorem stepPiece_of_calm {before : Piece} (calm : before.disturbs piece = false) :
    (afterPiece before).stepPiece piece = nothing.stepPiece piece := by
  cases before with
  | substitution => rfl
  | letter last =>
    cases piece with
    | substitution => grind [stepPiece, isFinal, afterPiece]
    | letter first =>
      suffices same : (afterPiece (.letter last)).step first = nothing.step first by
        rw [stepPiece, stepPiece, same]
      cases first with
      | plain character => grind [afterPiece, step, Piece.disturbs]
      | escaped character => grind [afterPiece, step]

/-- A disturbed piece cannot follow, or it is a newline that is lost. -/
theorem stepPiece_of_disturbs {before : Piece} (disturbed : before.disturbs piece = true) :
    (afterPiece before).stepPiece piece = none ∨
      ((afterPiece before).stepPiece piece = some ([], nothing) ∧
        nothing.stepPiece piece = some ([.unit 10], nothing)) := by
  match before, piece with
  | .letter last, .letter (.plain first) =>
    rw [Piece.disturbs, Bool.or_eq_true, Bool.and_eq_true, Bool.and_eq_true] at disturbed
    rcases disturbed with ⟨zero, digit⟩ | ⟨return_, newline⟩
    · obtain rfl := of_decide_eq_true zero
      left
      grind [afterPiece, stepPiece, step]
    · obtain rfl := of_decide_eq_true newline
      right
      refine ⟨?_, rfl⟩
      grind [afterPiece, stepPiece, step]
  | .letter _, .letter (.escaped _) | .letter _, .substitution _ | .substitution _, _ =>
    cases disturbed

/-- **Pieces after others** have the elements that they have alone, unless they are disturbed. -/
theorem run_after (ran : nothing.run pieces = some (elements, last)) (more : pieces ≠ [])
    (before : List Piece) :
    (Piece.atSeam Piece.disturbs before pieces = false ∧
      (after before).run pieces = some (elements, last)) ∨
    (Piece.atSeam Piece.disturbs before pieces = true ∧ ((after before).run pieces = none ∨
      ∃ made, elements = .unit 10 :: made ∧ (after before).run pieces = some (made, last))) := by
  obtain ⟨first, rest, rfl⟩ := List.exists_cons_of_ne_nil more
  rw [after, Piece.atSeam]
  cases before.getLast? with
  | none => exact .inl ⟨rfl, ran⟩
  | some other =>
    obtain ⟨alone, next, later, taken, ranRest, rfl⟩ := run_cons_eq_some_iff.1 ran
    cases calm : other.disturbs first with
    | false =>
      rw [← stepPiece_of_calm calm] at taken
      exact .inl ⟨calm, run_cons_eq_some_iff.2 ⟨alone, next, later, taken, ranRest, rfl⟩⟩
    | true =>
      refine .inr ⟨calm, ?_⟩
      rcases stepPiece_of_disturbs calm with refused | ⟨lost, whole⟩
      · left
        rw [run, refused]
        rfl
      · right
        obtain ⟨rfl, rfl⟩ := Prod.mk.inj (Option.some.inj (taken.symm.trans whole))
        exact ⟨later, rfl, run_cons_eq_some_iff.2 ⟨[], nothing, later, lost, ranRest, rfl⟩⟩

end Pending

/-! ## Contents -/

namespace Element

/-- How many code units there are before the first substitution. -/
def lead : List Element → Nat
  | .unit _ :: rest => lead rest + 1
  | _ => 0

/-- Whether elements are kept, but for a newline at the beginning. -/
def Kept (elements made : List Element) : Prop := made = elements ∨ elements = .unit 10 :: made

variable {elements made more others : List Element}

theorem lead_append_le (made : List Element) (le : lead more ≤ lead others) :
    lead (made ++ more) ≤ lead (made ++ others) := by
  induction made with
  | nil => exact le
  | cons first rest ih =>
    cases first with
    | unit => exact Nat.succ_le_succ ih
    | substitution => exact Nat.le_refl 0

theorem Kept.lead_le (kept : Kept elements made) (le : lead more ≤ lead others) :
    lead (made ++ more) ≤ lead (elements ++ others) := by
  rcases kept with rfl | rfl
  · exact lead_append_le made le
  · exact Nat.le_succ_of_le (lead_append_le made le)

/-- A newline that is lost is not made good by what comes later. -/
theorem Kept.eq_of_append_eq (kept : Kept elements made) (le : lead more ≤ lead others)
    (same : made ++ more = elements ++ others) : made = elements ∧ more = others := by
  rcases kept with rfl | rfl
  · exact ⟨rfl, List.append_cancel_left same⟩
  · have less := lead_append_le made le
    rw [same] at less
    exact absurd less (Nat.not_succ_le_self _)

end Element

namespace Pending

/-- Where pieces can follow others they keep their elements, but for a newline. -/
theorem kept_of_run_after {pieces before : List Piece} {elements made : List Element}
    {last last' : Pending} (ran : nothing.run pieces = some (elements, last))
    (ran' : (after before).run pieces = some (made, last')) :
    Element.Kept elements made ∧ last'.isFinal = last.isFinal := by
  by_cases more : pieces = []
  · subst more
    cases ran
    cases ran'
    exact ⟨.inl rfl, isFinal_after before⟩
  · rcases run_after ran more before with ⟨-, same⟩ | ⟨-, refused | ⟨lost, whole, same⟩⟩
    · cases ran'.symm.trans same
      exact ⟨.inl rfl, rfl⟩
    · cases ran'.symm.trans refused
    · cases ran'.symm.trans same
      exact ⟨.inr whole, rfl⟩

theorem step_dollar {pending : Pending} (final : pending.isFinal = true) :
    pending.stepPiece (.letter (.plain '$')) = some ([.unit 36], nothing) := by
  cases pending with
  | nothing | newline | noDigit => rfl
  | code | digits | braced => cases final

end Pending

/-- **The content of a template literal**, with its pieces and its elements. -/
structure Content (expressions : Expressions) where
  text : Text
  pieces : List Piece
  elements : List Element
  reads : Reads expressions text pieces
  means : Piece.elements? pieces = some elements

namespace Content

variable {expressions : Expressions} {content : Content expressions}
  {contents : List (Content expressions)} {before others : List Piece} {following : Text}
  {made : List Element} {last : Pending}

def textOf (contents : List (Content expressions)) : Text := contents.flatMap text

def elementsOf (contents : List (Content expressions)) : List Element := contents.flatMap elements

/-- The pieces of the contents that are not empty. -/
def rows (contents : List (Content expressions)) : List (List Piece) :=
  (contents.map pieces).filter (!·.isEmpty)

theorem run (content : Content expressions) :
    Pending.nothing.run content.pieces = some (content.elements, Pending.after content.pieces) := by
  obtain ⟨last, ran, final⟩ := Piece.elements?_eq_some_iff.1 content.means
  by_cases empty : content.pieces = []
  · rw [empty] at ran ⊢
    rw [← (Prod.mk.inj (Option.some.inj ran)).1]
    rfl
  · rw [ran, Pending.eq_after ran final empty]

/-- A content without pieces is empty. -/
theorem eq_nil (empty : content.pieces = []) : content.text = [] ∧ content.elements = [] := by
  have ran := content.run
  rw [empty] at ran
  exact ⟨content.reads.eq_nil empty, (Prod.mk.inj (Option.some.inj ran)).1.symm⟩

theorem opens_iff (more : content.pieces ≠ []) :
    Reads.Opens before (content.text ++ following) ↔
      Piece.atSeam Piece.opens before content.pieces = true := by
  have filled : content.text ≠ [] := by
    intro empty
    have reads := content.reads
    rw [empty] at reads
    generalize content.pieces = pieces at more reads
    cases reads
    exact more rfl
  rw [Reads.Opens, List.head?_append_of_ne_nil _ filled,
    content.reads.head?_eq (by decide) (by decide), Piece.atSeam]
  obtain ⟨first, rest, split⟩ := List.exists_cons_of_ne_nil more
  rw [split]
  cases before.getLast? with
  | none => simp
  | some last => simp [Piece.opens]

/-- **What follows other pieces** is read content by content, or a substitution begins at the
end of the first. -/
theorem split (more : content.pieces ≠ [])
    (whole : Reads expressions (content.text ++ following) others)
    (ran : (Pending.after before).run others = some (made, last)) :
    (¬ Reads.Opens content.pieces following ∧ ∃ later kept rest,
      Reads expressions following later ∧
      (Pending.after before).run content.pieces = some (kept, Pending.after content.pieces) ∧
      (Pending.after content.pieces).run later = some (rest, last) ∧ made = kept ++ rest ∧
      Element.Kept content.elements kept) ∨
    ∃ earlier kept expression rest, content.elements = earlier ++ [.unit 36] ∧
      made = kept ++ .substitution expression :: rest ∧ Element.Kept earlier kept := by
  rcases content.reads.split whole with
    ⟨apart, later, rfl, reads⟩ | ⟨-, earlier, expression, later, split, rfl⟩
  · obtain ⟨kept, next, rest, ranFirst, ranLater, rfl⟩ := Pending.run_append_eq_some_iff.1 ran
    have keeps := (Pending.kept_of_run_after content.run ranFirst).1
    have same : next = Pending.after content.pieces := by
      rcases Pending.run_after content.run more before with
        ⟨-, same⟩ | ⟨-, refused | ⟨lost, -, same⟩⟩
      · cases ranFirst.symm.trans same
        rfl
      · cases ranFirst.symm.trans refused
      · cases ranFirst.symm.trans same
        rfl
    subst same
    exact .inl ⟨apart, later, kept, rest, reads, ranFirst, ranLater, rfl, keeps⟩
  · obtain ⟨kept, next, rest, ranEarlier, ranLater, rfl⟩ := Pending.run_append_eq_some_iff.1 ran
    have ranAlone := content.run
    rw [split] at ranAlone
    obtain ⟨alone, next', dollar, ranEarlier', ranDollar, whole'⟩ :=
      Pending.run_append_eq_some_iff.1 ranAlone
    obtain ⟨keeps, final⟩ := Pending.kept_of_run_after ranEarlier' ranEarlier
    obtain ⟨units, after, rest', inserted, ranRest, rfl⟩ := Pending.run_cons_eq_some_iff.1 ranLater
    have isFinal : next.isFinal = true := by
      by_contra open_
      rw [Pending.stepPiece, if_neg open_] at inserted
      cases inserted
    rw [Pending.stepPiece, if_pos isFinal] at inserted
    cases inserted
    rw [final] at isFinal
    obtain ⟨units, after, none_, taken, ended, rfl⟩ := Pending.run_cons_eq_some_iff.1 ranDollar
    rw [Pending.step_dollar isFinal] at taken
    cases taken
    obtain ⟨rfl, -⟩ := Prod.mk.inj (Option.some.inj ended)
    exact .inr ⟨alone, kept, expression, rest', whole', rfl, keeps⟩

theorem textOf_cons (content : Content expressions) (contents : List (Content expressions)) :
    textOf (content :: contents) = content.text ++ textOf contents := rfl

theorem elementsOf_cons (content : Content expressions) (contents : List (Content expressions)) :
    elementsOf (content :: contents) = content.elements ++ elementsOf contents := rfl

theorem rows_cons_of_empty (empty : content.pieces = []) :
    rows (content :: contents) = rows contents := by
  simp [rows, empty]

theorem rows_cons (more : content.pieces ≠ []) :
    rows (content :: contents) = content.pieces :: rows contents := by
  simp [rows, more]

/-- **Contents in a row never have more code units before the first substitution than they
have apart.** -/
theorem lead_le (reads : Reads expressions (textOf contents) others)
    (ran : (Pending.after before).run others = some (made, last)) :
    Element.lead made ≤ Element.lead (elementsOf contents) := by
  induction contents generalizing before others made with
  | nil =>
    cases reads
    cases ran
    exact Nat.le_refl _
  | cons content rest ih =>
    rw [textOf_cons] at reads
    rw [elementsOf_cons]
    by_cases empty : content.pieces = []
    · rw [(eq_nil empty).1, List.nil_append] at reads
      rw [(eq_nil empty).2]
      exact ih reads ran
    · rcases split empty reads ran with
        ⟨-, later, kept, others, readsLater, -, ranLater, rfl, keeps⟩ |
        ⟨earlier, kept, expression, others, whole, rfl, keeps⟩
      · exact keeps.lead_le (ih readsLater ranLater)
      · rw [whole, List.append_assoc]
        exact keeps.lead_le (Nat.zero_le _)

theorem not_opens_of_isChain
    (chain : (before :: rows contents).IsChain fun before after =>
      Piece.clash before after = false) : ¬ Reads.Opens before (textOf contents) := by
  induction contents with
  | nil => exact fun opens => nomatch opens.2
  | cons content rest ih =>
    rw [textOf_cons]
    by_cases empty : content.pieces = []
    · rw [(eq_nil empty).1, List.nil_append]
      rw [rows_cons_of_empty empty] at chain
      exact ih chain
    · rw [rows_cons empty, List.isChain_cons_cons, Piece.clash, Bool.or_eq_false_iff] at chain
      rw [opens_iff empty, chain.1.1]
      exact Bool.false_ne_true

/-- **Contents after other pieces** have their own elements, all together, exactly if nothing
clashes. -/
theorem joined_after_iff (apart : ¬ Reads.Opens before (textOf contents)) :
    (∃ others last, Reads expressions (textOf contents) others ∧
      (Pending.after before).run others = some (elementsOf contents, last) ∧
        last.isFinal = true) ↔
    (before :: rows contents).IsChain fun before after => Piece.clash before after = false := by
  induction contents generalizing before with
  | nil =>
    exact iff_of_true ⟨[], _, .nil, rfl, Pending.isFinal_after before⟩ (List.isChain_singleton _)
  | cons content rest ih =>
    rw [textOf_cons] at apart ⊢
    rw [elementsOf_cons]
    by_cases empty : content.pieces = []
    · rw [(eq_nil empty).1, (eq_nil empty).2, rows_cons_of_empty empty]
      rw [(eq_nil empty).1, List.nil_append] at apart
      exact ih apart
    · rw [rows_cons empty, List.isChain_cons_cons, Piece.clash, Bool.or_eq_false_iff]
      have unopened : Piece.atSeam Piece.opens before content.pieces = false :=
        Bool.eq_false_iff.2 fun opens => apart ((opens_iff empty).2 opens)
      constructor
      · rintro ⟨others, last, reads, ran, final⟩
        rcases split empty reads ran with
          ⟨apart', later, kept, more, readsLater, ranFirst, ranLater, whole, keeps⟩ |
          ⟨earlier, kept, expression, more, ended, whole, keeps⟩
        · obtain ⟨rfl, rfl⟩ := keeps.eq_of_append_eq (lead_le readsLater ranLater) whole.symm
          refine ⟨⟨unopened, ?_⟩, (ih apart').1 ⟨later, last, readsLater, ranLater, final⟩⟩
          rcases Pending.run_after content.run empty before with
            ⟨calm, -⟩ | ⟨-, refused | ⟨lost, shorter, same⟩⟩
          · exact calm
          · cases ranFirst.symm.trans refused
          · obtain ⟨rfl, -⟩ := Prod.mk.inj (Option.some.inj (ranFirst.symm.trans same))
            exact absurd (congrArg List.length shorter) (by simp)
        · rw [ended, List.append_assoc] at whole
          have same := (keeps.eq_of_append_eq (Nat.zero_le _) whole.symm).2
          cases same
      · rintro ⟨⟨-, calm⟩, chain⟩
        have apart' := not_opens_of_isChain chain
        obtain ⟨later, last, readsLater, ranLater, final⟩ := (ih apart').2 chain
        refine ⟨content.pieces ++ later, last, content.reads.append readsLater apart', ?_, final⟩
        rcases Pending.run_after content.run empty before with ⟨-, same⟩ | ⟨disturbed, -⟩
        · exact Pending.run_append_eq_some_iff.2 ⟨_, _, _, same, ranLater, rfl⟩
        · rw [calm] at disturbed
          cases disturbed

/-- **Contents in a row make one template literal with the elements of each of them in turn
exactly if no two neighbours clash**, the empty ones left out. -/
theorem joined_iff (contents : List (Content expressions)) :
    (∃ pieces, IsTemplate expressions (quoted (textOf contents)) pieces ∧
      Piece.elements? pieces = some (elementsOf contents)) ↔
    (rows contents).IsChain fun before after => Piece.clash before after = false := by
  have whole := @joined_after_iff expressions contents [] (fun opens => nomatch opens.1)
  constructor
  · rintro ⟨pieces, ⟨content, same, reads⟩, means⟩
    obtain ⟨last, ran, final⟩ := Piece.elements?_eq_some_iff.1 means
    have same : textOf contents = content := by simpa [quoted] using same
    subst same
    exact (whole.1 ⟨pieces, last, reads, ran, final⟩).tail
  · intro chain
    obtain ⟨pieces, last, reads, ran, final⟩ := whole.2
      (chain.cons fun _ _ => rfl)
    exact ⟨pieces, ⟨_, rfl, reads⟩, Piece.elements?_eq_some_iff.2 ⟨last, ran, final⟩⟩

end Content
end Template
end Retouch
