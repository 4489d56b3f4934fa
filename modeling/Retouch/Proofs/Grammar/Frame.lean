import Retouch.Proofs.Grammar.Phrase

/-!
# Phrases in phrases

What stands around a phrase is a list of frames, from the innermost one outwards: a frame
is a production with all of its parts but one.  The text around the phrase does not
depend on the phrase (`lexemes_within`), and the grouping depends on it only through the
slot of the innermost frame (`grouped_within`, `Frame.Takes.grouped_within`).
-/

set_option autoImplicit false

namespace Retouch

open Phrase

/-- A phrase without one of its parts. -/
structure Frame where
  production : Production
  before : List Phrase
  after : List Phrase

/-- The phrase with the missing part put in. -/
def Frame.fill (frame : Frame) (phrase : Phrase) : Phrase :=
  .apply frame.production (frame.before ++ phrase :: frame.after)

/-- A phrase with all that stands around it. -/
def Phrase.within (phrase : Phrase) : List Frame → Phrase
  | [] => phrase
  | frame :: frames => within (frame.fill phrase) frames

/-! ## Text -/

/-- What stands before the place that frames leave open. -/
def lexemesBefore : List Frame → List Lexeme
  | [] => []
  | frame :: frames => lexemesBefore frames ++ lexemesOf frame.before

/-- What stands after the place that frames leave open. -/
def lexemesAfter : List Frame → List Lexeme
  | [] => []
  | frame :: frames => lexemesOf frame.after ++ lexemesAfter frames

theorem lexemes_fill (frame : Frame) (phrase : Phrase) :
    (frame.fill phrase).lexemes =
      lexemesOf frame.before ++ (phrase.lexemes ++ lexemesOf frame.after) := by
  rw [Frame.fill, lexemes, lexemesOf_append, lexemesOf]

theorem lexemes_within (phrase : Phrase) (frames : List Frame) :
    (phrase.within frames).lexemes =
      lexemesBefore frames ++ (phrase.lexemes ++ lexemesAfter frames) := by
  induction frames generalizing phrase with
  | nil => simp [within, lexemesBefore, lexemesAfter]
  | cons frame frames ih =>
    simp only [within, ih, lexemes_fill, lexemesBefore, lexemesAfter, List.append_assoc]

/-- A part has its own tokens. -/
theorem Lexed.part {production : Production} (before : List Phrase) {after : List Phrase}
    {part : Phrase} {following : Text}
    (lexed : Lexed (apply production (before ++ part :: after)).lexemes following) :
    Lexed part.lexemes [] := by
  rw [lexemes, lexemesOf_append, lexemesOf, lexed_append, lexed_append] at lexed
  exact lexed.2.1.of_separates (by simp)

theorem text_within (phrase : Phrase) (frames : List Frame) :
    (phrase.within frames).text =
      written (lexemesBefore frames) ++ (phrase.text ++ written (lexemesAfter frames)) := by
  rw [text, lexemes_within, written_append, written_append]
  rfl

/-! ## Grouping -/

namespace Frame

/-- **The slot that a frame leaves open**, with the items before and after it. -/
structure Takes (frame : Frame) (before : List Item) (fields : List String) (slot : Slot)
    (after : List Item) : Prop where
  valid : frame.production.isValid = true
  items : frame.production.items = before ++ .operand fields slot :: after
  fillsBefore : List.Forall₂ Fills frame.before before
  fillsAfter : List.Forall₂ Fills frame.after after
  groupedBefore : ∀ part ∈ frame.before, part.Grouped
  groupedAfter : ∀ part ∈ frame.after, part.Grouped

/-- A frame takes what its slot accepts. -/
theorem Takes.grouped_fill {frame : Frame} {before after : List Item} {fields : List String}
    {slot : Slot} (takes : frame.Takes before fields slot after) {phrase : Phrase}
    (grouped : phrase.Grouped) (accepted : slot.accepts phrase.role = true) :
    (frame.fill phrase).Grouped := by
  refine .apply takes.valid ?_ ?_
  · rw [takes.items]
    exact List.rel_append takes.fillsBefore (.cons (.operand accepted) takes.fillsAfter)
  · intro part member
    rcases List.mem_append.1 member with member | member
    · exact takes.groupedBefore part member
    · rcases List.mem_cons.1 member with rfl | member
      · exact grouped
      · exact takes.groupedAfter part member

theorem exists_items_append {parts more : List Phrase} {items : List Item}
    (fills : List.Forall₂ Fills (parts ++ more) items) :
    ∃ before after, items = before ++ after ∧ List.Forall₂ Fills parts before ∧
      List.Forall₂ Fills more after := by
  induction parts generalizing items with
  | nil => exact ⟨[], items, rfl, .nil, fills⟩
  | cons part parts ih =>
    cases fills with
    | cons first rest =>
      obtain ⟨before, after, rfl, fillsBefore, fillsAfter⟩ := ih rest
      exact ⟨_ :: before, after, rfl, .cons first fillsBefore, fillsAfter⟩

theorem exists_parts_append {parts : List Phrase} {before after : List Item}
    (fills : List.Forall₂ Fills parts (before ++ after)) :
    ∃ first last, parts = first ++ last ∧ List.Forall₂ Fills first before ∧
      List.Forall₂ Fills last after :=
  ⟨_, _, (List.take_append_drop before.length parts).symm,
    List.forall₂_take_append parts before after fills,
    List.forall₂_drop_append parts before after fills⟩

/-- What stands in a frame has been accepted by its slot. -/
theorem exists_takes {frame : Frame} {phrase : Phrase} (whole : (frame.fill phrase).Grouped)
    (operand : phrase.role ≠ .token) :
    phrase.Grouped ∧ ∃ before fields slot after,
      frame.Takes before fields slot after ∧ slot.accepts phrase.role = true := by
  cases whole with
  | apply valid fills grouped =>
    obtain ⟨before, rest, items, fillsBefore, fillsRest⟩ := exists_items_append fills
    refine ⟨grouped phrase (by simp), ?_⟩
    cases fillsRest with
    | cons fillsPhrase fillsAfter =>
      cases fillsPhrase with
      | gap => exact absurd rfl operand
      | mark => exact absurd rfl operand
      | name => exact absurd rfl operand
      | operand accepted =>
        exact ⟨before, _, _, _, ⟨valid, items, fillsBefore, fillsAfter,
          fun part member => grouped part (by simp [member]),
          fun part member => grouped part (by simp [member])⟩, accepted⟩

theorem role_fill_ne_token (frame : Frame) (phrase : Phrase) :
    (frame.fill phrase).role ≠ .token := frame.production.role_ne_token

end Frame

/-- What stands around a phrase takes every other one of the same role. -/
theorem grouped_within {phrase : Phrase} {frames : List Frame}
    (whole : (phrase.within frames).Grouped) (operand : phrase.role ≠ .token) :
    phrase.Grouped ∧ ∀ other : Phrase, other.Grouped → other.role = phrase.role →
      (other.within frames).Grouped := by
  induction frames generalizing phrase with
  | nil => exact ⟨whole, fun other grouped _ => grouped⟩
  | cons frame frames ih =>
    obtain ⟨filled, others⟩ := ih whole (frame.role_fill_ne_token phrase)
    obtain ⟨grouped, before, fields, slot, after, takes, accepted⟩ :=
      Frame.exists_takes filled operand
    exact ⟨grouped, fun other otherGrouped same =>
      others _ (takes.grouped_fill otherGrouped (same ▸ accepted)) rfl⟩

theorem grouped_fill_of_within {phrase : Phrase} {frame : Frame} {frames : List Frame}
    (whole : (phrase.within (frame :: frames)).Grouped) : (frame.fill phrase).Grouped := by
  have filled : ((frame.fill phrase).within frames).Grouped := whole
  exact (grouped_within filled (frame.role_fill_ne_token phrase)).1

/-- What stands around a phrase takes every other one that the innermost slot accepts. -/
theorem Frame.Takes.grouped_within {phrase other : Phrase} {frame : Frame} {frames : List Frame}
    {before after : List Item} {fields : List String} {slot : Slot}
    (takes : frame.Takes before fields slot after)
    (whole : (phrase.within (frame :: frames)).Grouped) (grouped : other.Grouped)
    (accepted : slot.accepts other.role = true) :
    (other.within (frame :: frames)).Grouped := by
  have filled : ((frame.fill phrase).within frames).Grouped := whole
  exact (Retouch.grouped_within filled (frame.role_fill_ne_token phrase)).2 _
    (takes.grouped_fill grouped accepted) rfl

/-- A place that takes something takes what binds more tightly. -/
theorem grouped_within_of_le {phrase other : Phrase} {frames : List Frame} {level level' : Nat}
    (whole : (phrase.within frames).Grouped) (expression : phrase.role = .expression level)
    (grouped : other.Grouped) (expression' : other.role = .expression level')
    (logical : 4 ≤ level) (tighter : level ≤ level') : (other.within frames).Grouped := by
  cases frames with
  | nil => exact grouped
  | cons frame frames =>
    obtain ⟨-, before, fields, slot, after, takes, accepted⟩ :=
      Frame.exists_takes (grouped_fill_of_within whole) (ne_token_of_expression expression)
    rw [expression] at accepted
    refine takes.grouped_within whole grouped ?_
    rw [expression']
    exact Slot.accepts_of_le accepted logical tighter

/-- What stands around a phrase decides what the whole is. -/
theorem role_within (phrase other : Phrase) (frame : Frame) (frames : List Frame) :
    (other.within (frame :: frames)).role = (phrase.within (frame :: frames)).role := by
  induction frames generalizing phrase other frame with
  | nil => rfl
  | cons outer frames ih => exact ih _ _ outer

theorem isExpression_within {phrase other : Phrase} {frames : List Frame}
    (whole : (phrase.within frames).IsExpression) (expression : other.IsExpression) :
    (other.within frames).IsExpression := by
  cases frames with
  | nil => exact expression
  | cons frame frames =>
    obtain ⟨level, role⟩ := whole
    exact ⟨level, (role_within phrase other frame frames).trans role⟩

/-! ## Expressions -/

theorem expression_fill {frame : Frame} {phrase : Phrase} (operand : phrase.role ≠ .token) :
    (frame.fill phrase).expression = .apply frame.production
      (operandsOf frame.before ++ phrase.expression :: operandsOf frame.after) := by
  rw [Frame.fill, expression, operandsOf_append, operandsOf_cons operand]

end Retouch
