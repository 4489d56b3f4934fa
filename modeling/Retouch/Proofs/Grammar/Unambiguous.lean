import Retouch.Proofs.Grammar.Frame
import Retouch.Proofs.Grammar.Reading
import Retouch.Proofs.Grammar.Tokens

/-!
# Grouping is unambiguous

From the tokens of a phrase its expression is read, as far as what follows does not
continue an operand at its end (`Phrase.isRead`).  As a reading has one result, **a text
groups to at most one expression** (`Text.Groups.unique`).
-/

set_option autoImplicit false

namespace Retouch

open Phrase

/-! ## Levels -/

/-- How loosely a token may bind to continue the last operand of an expression instead of
the whole. -/
def edge (level : Nat) : Nat :=
  if level = 0 then 0
  else if level ≤ 2 then 1
  else if level = 3 then 6
  else if level ≤ 13 then level + 1
  else if level ≤ 15 then level
  else 18

theorem le_edge {bound level : Nat} (low : bound ≤ level) (single : bound ≠ 2) (high : level ≤ 18) :
    bound ≤ edge level := by
  unfold edge
  split_ifs <;> omega

theorem le_of_role {phrase : Phrase} {level : Nat} (role : phrase.role = .expression level) :
    level ≤ 18 := by
  cases phrase with
  | gap => cases role
  | mark => cases role
  | name => cases role
  | atom => cases role; decide
  | apply production parts =>
    cases production with
    | binary operator =>
      cases found : fixity? operator with
      | none =>
        simp only [Phrase.role, Production.role, found, Role.expression.injEq] at role
        subst role
        decide
      | some fixity =>
        have levels : ∀ entry ∈ binaryOperators, entry.2.level ≤ 18 := by decide
        simp only [Phrase.role, Production.role, found, Role.expression.injEq] at role
        subst role
        exact levels _ (mem_binaryOperators found)
    | arguments count => cases role
    | _ => cases role; decide

/-- What stands before a joint is not continued by it in its last operand. -/
theorem lt_edge_of_accepts {token : Text} {joint : Joint} {level : Nat}
    (joins : joint? token = some joint) (accepted : joint.left.accepts (.expression level) = true)
    (high : level ≤ 18) : joint.level ≤ level ∧ joint.level < edge level := by
  have levels : ∀ entry ∈ joints, ∀ level < 19,
      entry.2.left.accepts (.expression level) = true →
        entry.2.level ≤ level ∧ entry.2.level < edge level := by decide
  exact levels _ (mem_joints joins) level (Nat.lt_succ_of_le high) accepted

theorem joint?_binary {operator : String} {fixity : Fixity}
    (found : fixity? operator = some fixity) :
    joint? operator.toList = some (.operator (.binary operator) fixity) ∧
      edge fixity.level = fixity.right ∧ fixity.right ≠ 2 := by
  have all : ∀ entry ∈ binaryOperators,
      joint? entry.1.toList = some (.operator (.binary entry.1) entry.2) ∧
        edge entry.2.level = entry.2.right ∧ entry.2.right ≠ 2 := by decide
  exact all _ (mem_binaryOperators found)

theorem joint?_assignment : ∀ operator ∈ assignmentOperators,
    joint? operator.toList =
      some (.operator (.assignment operator) ⟨1, .least 17, 1⟩) := by
  decide

theorem joint?_comma : joint? ",".toList = some .comma := by decide

theorem joint?_closing : joint? ")".toList = none := by decide

/-! ## Parts without gaps -/

@[simp]
theorem tokens_lexemesOf_cons (part : Phrase) (parts : List Phrase) :
    tokens (lexemesOf (part :: parts)) = tokens part.lexemes ++ tokens (lexemesOf parts) := by
  rw [lexemesOf, tokens_append]

@[simp]
theorem tokens_lexemesOf_nil : tokens (lexemesOf []) = [] := rfl

@[simp]
theorem tokens_name (text : Text) : tokens (name text).lexemes = [text] := rfl

@[simp]
theorem tokens_mark (text : String) : tokens (mark text).lexemes = [text.toList] := rfl

theorem Phrase.Fills.accepts {phrase : Phrase} {fields : List String} {slot : Slot}
    (fills : Fills phrase (.operand fields slot)) : slot.accepts phrase.role = true := by
  cases fills with
  | operand accepted => exact accepted

/-- Gaps are neither tokens nor operands. -/
theorem exists_parts_of_outline {outline : List Item} {parts : List Phrase}
    (fills : List.Forall₂ Fills parts (outline.intersperse .gap)) :
    ∃ parts', List.Forall₂ Fills parts' outline ∧
      tokens (lexemesOf parts') = tokens (lexemesOf parts) ∧ operandsOf parts' = operandsOf parts ∧
      ∀ part ∈ parts', part ∈ parts := by
  induction outline generalizing parts with
  | nil => exact ⟨parts, fills, rfl, rfl, fun _ member => member⟩
  | cons first outline ih =>
    cases outline with
    | nil => exact ⟨parts, fills, rfl, rfl, fun _ member => member⟩
    | cons second outline =>
      cases fills with
      | @cons part _ _ _ fillsPart fills =>
        cases fills with
        | @cons gap _ rest _ fillsGap fills =>
          obtain ⟨parts', fills', tokens_eq, operands_eq, members⟩ := ih fills
          cases fillsGap
          refine ⟨part :: parts', .cons fillsPart fills', ?_, ?_, ?_⟩
          · simp only [tokens_lexemesOf_cons, tokens_eq]
            rfl
          · rw [operandsOf, operandsOf, operandsOf_gap, operands_eq]
          · intro other member
            rcases List.mem_cons.1 member with rfl | member
            · simp
            · simp [members other member]

/-! ## Readings of phrases -/

theorem stops_of_joint {token : Text} {joint : Joint} {bound : Nat} {rest : List Text}
    (joins : joint? token = some joint) (loose : joint.level < bound) :
    Stops bound (token :: rest) := by
  rintro _ ⟨⟩ joint' joins'
  obtain rfl := Option.some.inj (joins.symm.trans joins')
  exact loose

theorem stops_of_none {token : Text} {bound : Nat} {rest : List Text}
    (closed : joint? token = none) : Stops bound (token :: rest) := by
  rintro _ ⟨⟩ joint joins
  rw [closed] at joins
  cases joins

theorem stops_nil (bound : Nat) : Stops bound [] := nofun

theorem Stops.mono {bound bound' : Nat} {rest : List Text} (stops : Stops bound rest)
    (le : bound ≤ bound') : Stops bound' rest :=
  fun token first joint joins => Nat.lt_of_lt_of_le (stops token first joint joins) le

/-- **What is read from the tokens of a phrase**: a reading that comes to an expression
comes past it, and one that comes to an argument list makes a call. -/
def Phrase.IsRead (phrase : Phrase) : Prop :=
  match phrase.role with
  | .token => True
  | .expression level => ∀ (bound : Nat) (rest rest' : List Text) (expressions : List Expression),
    bound ≤ level → Stops (edge level) rest →
      Reads (.read bound phrase.expression level rest) expressions rest' →
        Reads (.operand bound (tokens phrase.lexemes ++ rest)) expressions rest'
  | .arguments => ∃ after, tokens phrase.lexemes = "(".toList :: after ∧ ∀ function rest,
    Reads (.joined .call function (after ++ rest))
      [.apply .call [function, phrase.expression]] rest

namespace Phrase

/-- Only the tokens and the operands of parts matter. -/
theorem IsRead.of_parts {production : Production} {parts parts' : List Phrase}
    (isRead : (apply production parts').IsRead)
    (tokens_eq : tokens (lexemesOf parts') = tokens (lexemesOf parts))
    (operands_eq : operandsOf parts' = operandsOf parts) : (apply production parts).IsRead := by
  simp only [IsRead, role, lexemes, expression, tokens_eq, operands_eq] at isRead ⊢
  exact isRead

theorem isRead_of_reads {phrase : Phrase} {level : Nat} (role : phrase.role = .expression level)
    (reads : ∀ (bound : Nat) (rest rest' : List Text) (expressions : List Expression),
      bound ≤ level → Stops (edge level) rest →
        Reads (.read bound phrase.expression level rest) expressions rest' →
          Reads (.operand bound (tokens phrase.lexemes ++ rest)) expressions rest') :
    phrase.IsRead := by
  rw [IsRead, role]
  exact reads

theorem IsRead.reads {phrase : Phrase} {level : Nat} (isRead : phrase.IsRead)
    (role : phrase.role = .expression level) {bound : Nat} {rest rest' : List Text}
    {expressions : List Expression} (low : bound ≤ level) (stops : Stops (edge level) rest)
    (more : Reads (.read bound phrase.expression level rest) expressions rest') :
    Reads (.operand bound (tokens phrase.lexemes ++ rest)) expressions rest' := by
  rw [IsRead, role] at isRead
  exact isRead bound rest rest' expressions low stops more

/-- An operand is read up to what cannot continue it. -/
theorem IsRead.operand {phrase : Phrase} (isRead : phrase.IsRead) {bound : Nat}
    (accepted : (Slot.least bound).accepts phrase.role = true) (single : bound ≠ 2)
    {rest : List Text} (stops : Stops bound rest) :
    Reads (.operand bound (tokens phrase.lexemes ++ rest)) [phrase.expression] rest := by
  obtain ⟨level, role⟩ := isExpression_of_accepts accepted nofun
  rw [role] at accepted
  have low : bound ≤ level := of_decide_eq_true accepted
  have high := le_edge low single (le_of_role role)
  exact isRead.reads role low (stops.mono high) (.stop stops)

/-- A left operand is read up to the joint, and the joint continues it. -/
theorem IsRead.extend {left : Phrase} (isRead : left.IsRead) {token : Text} {joint : Joint}
    (joins : joint? token = some joint) (accepted : joint.left.accepts left.role = true)
    {bound : Nat} (tight : bound ≤ joint.level) {tokens' rest rest' : List Text}
    {longer : Expression} {expressions : List Expression}
    (joined : Reads (.joined joint left.expression tokens') [longer] rest)
    (more : Reads (.read bound longer joint.level rest) expressions rest') :
    Reads (.operand bound (tokens left.lexemes ++ token :: tokens')) expressions rest' := by
  -- The left operand may itself end with an operand; the joint has to be too loose for that.
  have proper : ∀ entry ∈ joints, entry.2.left ≠ .arguments := by decide
  obtain ⟨level, role⟩ := isExpression_of_accepts accepted (proper _ (mem_joints joins))
  rw [role] at accepted
  obtain ⟨low, loose⟩ := lt_edge_of_accepts joins accepted (le_of_role role)
  exact isRead.reads role (Nat.le_trans tight low) (stops_of_joint joins loose)
    (.extend joins tight accepted joined more)

/-! ## Productions -/

theorem isRead_atom {kind : String} {text : Text} {below : List Node}
    (isAtom : IsAtom kind text below) : (atom kind text below).IsRead := by
  have others : ∀ entry ∈ openings, entry.1.kind = .mark ∨ entry.1 ∈ keywords := by decide
  have none : openings.lookup text = none := by
    refine List.lookup_eq_none_iff.2 fun entry member => bne_iff_ne.2 ?_
    rintro rfl
    rcases others entry member with mark | keyword
    · exact isAtom.notMark mark
    · exact isAtom.notKeyword keyword
  have opens : opening? text = some (.atom text) := by
    rw [opening?, none]
    simp [isAtom.notMark, isAtom.notKeyword]
  refine isRead_of_reads rfl ?_
  intro bound rest rest' expressions low stops more
  exact .operand opens .atom more

section Productions

variable {production : Production} {parts : List Phrase}

theorem isRead_prefixed {token : String} {fields fields' : List String}
    (outline : production.outline = [.mark fields token, .operand fields' (.least 15)])
    (opens : opening? token.toList = some (.prefixed production))
    (role : production.role = .expression 15)
    (fills : List.Forall₂ Fills parts production.outline) (isRead : ∀ part ∈ parts, part.IsRead) :
    (apply production parts).IsRead := by
  simp only [outline, List.forall₂_cons_right_iff, List.forall₂_nil_right_iff] at fills
  obtain ⟨_, _, ⟨⟩, ⟨operand, _, fillsOperand, rfl, rfl⟩, rfl⟩ := fills
  have accepted := fillsOperand.accepts
  refine isRead_of_reads role ?_
  intro bound rest rest' expressions low stops more
  have reads := (isRead operand (by simp)).operand accepted (by decide) stops
  rw [expression, operandsOf_mark, operandsOf_cons (role_ne_token_of_accepts accepted)] at more
  have tokens_eq : tokens (lexemesOf [mark token, operand]) ++ rest =
      token.toList :: (tokens operand.lexemes ++ rest) := by simp
  rw [lexemes, tokens_eq]
  exact .operand opens (.prefixed reads) more

theorem isRead_infix {token : String} {fixity : Fixity} {fields fields' fields'' : List String}
    (outline : production.outline = [.operand fields fixity.left, .mark fields' token,
      .operand fields'' (.least fixity.right)])
    (joins : joint? token.toList = some (.operator production fixity))
    (role : production.role = .expression fixity.level)
    (right : edge fixity.level = fixity.right) (single : fixity.right ≠ 2)
    (fills : List.Forall₂ Fills parts production.outline) (isRead : ∀ part ∈ parts, part.IsRead) :
    (apply production parts).IsRead := by
  simp only [outline, List.forall₂_cons_right_iff, List.forall₂_nil_right_iff] at fills
  obtain ⟨left, _, fillsLeft, ⟨_, _, ⟨⟩, ⟨operand, _, fillsOperand, rfl, rfl⟩, rfl⟩, rfl⟩ := fills
  have acceptedLeft := fillsLeft.accepts
  have accepted := fillsOperand.accepts
  refine isRead_of_reads role ?_
  intro bound rest rest' expressions low stops more
  rw [right] at stops
  have reads := (isRead operand (by simp)).operand accepted single stops
  rw [expression, operandsOf_cons (role_ne_token_of_accepts acceptedLeft), operandsOf_mark,
    operandsOf_cons (role_ne_token_of_accepts accepted)] at more
  have tokens_eq : tokens (lexemesOf [left, mark token, operand]) ++ rest =
      tokens left.lexemes ++ token.toList :: (tokens operand.lexemes ++ rest) := by
    simp
  rw [lexemes, tokens_eq]
  exact (isRead left (by simp)).extend joins acceptedLeft low (.operator reads) more

theorem isRead_parentheses (fills : List.Forall₂ Fills parts Production.parentheses.outline)
    (isRead : ∀ part ∈ parts, part.IsRead) : (apply .parentheses parts).IsRead := by
  simp only [Production.outline, List.forall₂_cons_right_iff, List.forall₂_nil_right_iff] at fills
  obtain ⟨_, _, ⟨⟩, ⟨inner, _, fillsInner, ⟨_, _, ⟨⟩, rfl, rfl⟩, rfl⟩, rfl⟩ := fills
  have accepted := fillsInner.accepts
  refine isRead_of_reads rfl ?_
  intro bound rest rest' expressions low stops more
  have reads := (isRead inner (by simp)).operand accepted (by decide)
    (@stops_of_none _ _ rest joint?_closing)
  rw [expression, operandsOf_mark, operandsOf_cons (role_ne_token_of_accepts accepted)] at more
  have tokens_eq : tokens (lexemesOf [mark "(", inner, mark ")"]) ++ rest =
      "(".toList :: (tokens inner.lexemes ++ ")".toList :: rest) := by simp
  have opens : opening? "(".toList = some .parentheses := by decide
  rw [lexemes, tokens_eq]
  exact .operand opens (.parentheses reads) more

theorem isRead_conditional (fills : List.Forall₂ Fills parts Production.conditional.outline)
    (isRead : ∀ part ∈ parts, part.IsRead) : (apply .conditional parts).IsRead := by
  simp only [Production.outline, List.forall₂_cons_right_iff, List.forall₂_nil_right_iff] at fills
  obtain ⟨condition, _, fillsCondition, ⟨_, _, ⟨⟩, ⟨consequence, _, fillsConsequence, ⟨_, _, ⟨⟩,
    ⟨alternative, _, fillsAlternative, rfl, rfl⟩, rfl⟩, rfl⟩, rfl⟩, rfl⟩ := fills
  have accepted := fillsCondition.accepts
  have accepted' := fillsConsequence.accepts
  have accepted'' := fillsAlternative.accepts
  refine isRead_of_reads rfl ?_
  intro bound rest rest' expressions low stops more
  have colon : joint? ":".toList = none := by decide
  have last := (isRead alternative (by simp)).operand accepted'' (by decide) stops
  have middle := (isRead consequence (by simp)).operand accepted' (by decide)
    (@stops_of_none _ _ (tokens alternative.lexemes ++ rest) colon)
  rw [expression, operandsOf_cons (role_ne_token_of_accepts accepted), operandsOf_mark,
    operandsOf_cons (role_ne_token_of_accepts accepted'), operandsOf_mark,
    operandsOf_cons (role_ne_token_of_accepts accepted'')] at more
  have tokens_eq : tokens (lexemesOf [condition, mark "?", consequence, mark ":", alternative]) ++
      rest = tokens condition.lexemes ++ "?".toList :: (tokens consequence.lexemes ++
        ":".toList :: (tokens alternative.lexemes ++ rest)) := by simp
  have joins : joint? "?".toList = some .conditional := by decide
  rw [lexemes, tokens_eq]
  exact (isRead condition (by simp)).extend joins accepted low (.conditional middle last) more

theorem isRead_member {property : Text}
    (fills : List.Forall₂ Fills parts (Production.member property).outline)
    (isRead : ∀ part ∈ parts, part.IsRead) : (apply (.member property) parts).IsRead := by
  simp only [Production.outline, List.forall₂_cons_right_iff, List.forall₂_nil_right_iff] at fills
  obtain ⟨object, _, fillsObject, ⟨_, _, ⟨⟩, ⟨_, _, ⟨⟩, rfl, rfl⟩, rfl⟩, rfl⟩ := fills
  have accepted := fillsObject.accepts
  refine isRead_of_reads rfl ?_
  intro bound rest rest' expressions low stops more
  rw [expression, operandsOf_cons (role_ne_token_of_accepts accepted), operandsOf_mark] at more
  have tokens_eq : tokens (lexemesOf [object, mark ".", name property]) ++ rest =
      tokens object.lexemes ++ ".".toList :: property :: rest := by simp
  have joins : joint? ".".toList = some .member := by decide
  rw [lexemes, tokens_eq]
  exact (isRead object (by simp)).extend joins accepted low .member more

theorem isRead_subscript (fills : List.Forall₂ Fills parts Production.subscript.outline)
    (isRead : ∀ part ∈ parts, part.IsRead) : (apply .subscript parts).IsRead := by
  simp only [Production.outline, List.forall₂_cons_right_iff, List.forall₂_nil_right_iff] at fills
  obtain ⟨object, _, fillsObject, ⟨_, _, ⟨⟩, ⟨index, _, fillsIndex, ⟨_, _, ⟨⟩, rfl, rfl⟩, rfl⟩,
    rfl⟩, rfl⟩ := fills
  have accepted := fillsObject.accepts
  have accepted' := fillsIndex.accepts
  refine isRead_of_reads rfl ?_
  intro bound rest rest' expressions low stops more
  have closing : joint? "]".toList = none := by decide
  have reads := (isRead index (by simp)).operand accepted' (by decide)
    (@stops_of_none _ _ rest closing)
  rw [expression, operandsOf_cons (role_ne_token_of_accepts accepted), operandsOf_mark,
    operandsOf_cons (role_ne_token_of_accepts accepted')] at more
  have tokens_eq : tokens (lexemesOf [object, mark "[", index, mark "]"]) ++ rest =
      tokens object.lexemes ++ "[".toList :: (tokens index.lexemes ++ "]".toList :: rest) := by
    simp
  have joins : joint? "[".toList = some .subscript := by decide
  rw [lexemes, tokens_eq]
  exact (isRead object (by simp)).extend joins accepted low (.subscript reads) more

/-- Operands are read as far as there are commas. -/
theorem reads_list {count : Nat} (fills : List.Forall₂ Fills parts (commaSeparated (count + 1)))
    (isRead : ∀ part ∈ parts, part.IsRead) {rest : List Text} (stops : Stops 1 rest)
    (last : rest.head? ≠ some ",".toList) :
    Reads (.list (tokens (lexemesOf parts) ++ rest)) (operandsOf parts) rest ∧
      (operandsOf parts).length = count + 1 := by
  induction count generalizing parts with
  | zero =>
    simp only [commaSeparated, List.forall₂_cons_right_iff, List.forall₂_nil_right_iff] at fills
    obtain ⟨operand, _, fillsOperand, rfl, rfl⟩ := fills
    have accepted := fillsOperand.accepts
    have reads := (isRead operand (by simp)).operand accepted (by decide) stops
    rw [operandsOf_cons (role_ne_token_of_accepts accepted), tokens_lexemesOf_cons,
      tokens_lexemesOf_nil, List.append_nil]
    exact ⟨.single reads last, rfl⟩
  | succ count ih =>
    simp only [commaSeparated, List.forall₂_cons_right_iff] at fills
    obtain ⟨operand, _, fillsOperand, ⟨_, others, ⟨⟩, fills, rfl⟩, rfl⟩ := fills
    obtain ⟨others_read, length⟩ := ih fills (fun part member => isRead part (by simp [member]))
    have accepted := fillsOperand.accepts
    have reads := (isRead operand (by simp)).operand accepted (by decide)
      (@stops_of_joint _ _ 1 (tokens (lexemesOf others) ++ rest) joint?_comma (by decide))
    have tokens_eq : tokens (lexemesOf (operand :: mark "," :: others)) ++ rest =
        tokens operand.lexemes ++ ",".toList :: (tokens (lexemesOf others) ++ rest) := by simp
    rw [operandsOf_cons (role_ne_token_of_accepts accepted), operandsOf_mark, tokens_eq]
    exact ⟨.several reads others_read, congrArg Nat.succ length⟩

theorem isRead_sequence {count : Nat} (several : 2 ≤ count)
    (fills : List.Forall₂ Fills parts (Production.sequence count).outline)
    (isRead : ∀ part ∈ parts, part.IsRead) : (apply (.sequence count) parts).IsRead := by
  obtain ⟨count, rfl⟩ := Nat.exists_eq_add_of_le' several
  simp only [Production.outline, commaSeparated, List.forall₂_cons_right_iff] at fills
  obtain ⟨first, _, fillsFirst, ⟨_, others, ⟨⟩, fills, rfl⟩, rfl⟩ := fills
  have accepted := fillsFirst.accepts
  refine isRead_of_reads rfl ?_
  intro bound rest rest' expressions low stops more
  -- A sequence takes in every comma, so none may follow it.
  have last : rest.head? ≠ some ",".toList := by
    intro head
    exact absurd (stops _ head _ joint?_comma) (by decide)
  obtain ⟨reads, length⟩ := reads_list fills
    (fun part member => isRead part (by simp [member])) (stops.mono (by decide)) last
  have tokens_eq : tokens (lexemesOf (first :: mark "," :: others)) ++ rest =
      tokens first.lexemes ++ ",".toList :: (tokens (lexemesOf others) ++ rest) := by simp
  have count_eq : count + 2 = (operandsOf others).length + 1 := by rw [length]
  rw [expression, operandsOf_cons (role_ne_token_of_accepts accepted), operandsOf_mark,
    count_eq] at more
  rw [lexemes, tokens_eq]
  exact (isRead first (by simp)).extend joint?_comma accepted low (.comma reads) more

theorem isRead_arguments {count : Nat}
    (fills : List.Forall₂ Fills parts (Production.arguments count).outline)
    (isRead : ∀ part ∈ parts, part.IsRead) : (apply (.arguments count) parts).IsRead := by
  simp only [Production.outline, List.cons_append, List.forall₂_cons_right_iff] at fills
  obtain ⟨_, inner, ⟨⟩, fills, rfl⟩ := fills
  obtain ⟨operands, last, rfl, fillsOperands, fillsLast⟩ := Frame.exists_parts_append fills
  simp only [List.forall₂_cons_right_iff, List.forall₂_nil_right_iff] at fillsLast
  obtain ⟨_, _, ⟨⟩, rfl, rfl⟩ := fillsLast
  refine ⟨tokens (lexemesOf operands) ++ [")".toList], ?_, ?_⟩
  · rw [lexemes]
    simp
  intro function rest
  have operands_eq : operandsOf (mark "(" :: (operands ++ [mark ")"])) = operandsOf operands := by
    rw [operandsOf_mark, operandsOf_append, operandsOf_mark]
    exact List.append_nil _
  rw [expression, operands_eq, List.append_assoc]
  cases count with
  | zero =>
    obtain rfl := List.forall₂_nil_right_iff.1 fillsOperands
    exact .empty
  | succ count =>
    obtain ⟨reads, length⟩ := reads_list fillsOperands
      (fun part member => isRead part (by simp [member]))
      (@stops_of_none _ _ rest joint?_closing) (by simp)
    rw [← length]
    exact .call reads

theorem isRead_call (fills : List.Forall₂ Fills parts Production.call.outline)
    (isRead : ∀ part ∈ parts, part.IsRead) : (apply .call parts).IsRead := by
  simp only [Production.outline, List.forall₂_cons_right_iff, List.forall₂_nil_right_iff] at fills
  obtain ⟨function, _, fillsFunction, ⟨arguments, _, fillsArguments, rfl, rfl⟩, rfl⟩ := fills
  have accepted := fillsFunction.accepts
  have accepted' := fillsArguments.accepts
  have role : arguments.role = .arguments := by
    cases role : arguments.role with
    | arguments => rfl
    | token => rw [role] at accepted'; cases accepted'
    | expression level => rw [role] at accepted'; cases accepted'
  have joined := isRead arguments (by simp)
  rw [IsRead, role] at joined
  obtain ⟨after, tokens_eq, joined⟩ := joined
  refine isRead_of_reads rfl ?_
  intro bound rest rest' expressions low stops more
  rw [expression, operandsOf_cons (role_ne_token_of_accepts accepted),
    operandsOf_cons (role_ne_token_of_accepts accepted')] at more
  have joins : joint? "(".toList = some .call := by decide
  have all_eq : tokens (lexemesOf [function, arguments]) ++ rest =
      tokens function.lexemes ++ "(".toList :: (after ++ rest) := by simp [tokens_eq]
  rw [lexemes, all_eq]
  exact (isRead function (by simp)).extend joins accepted low (joined _ _) more

end Productions

/-- **Every phrase is read from its tokens.** -/
theorem isRead {phrase : Phrase} (grouped : phrase.Grouped) : phrase.IsRead := by
  induction grouped with
  | gap => trivial
  | mark => trivial
  | name => trivial
  | atom isAtom => exact isRead_atom isAtom
  | @apply production parts valid fills _ ih =>
    obtain ⟨parts', fills', tokens_eq, operands_eq, members⟩ := exists_parts_of_outline fills
    have isRead : ∀ part ∈ parts', part.IsRead := fun part member => ih part (members part member)
    refine IsRead.of_parts ?_ tokens_eq operands_eq
    -- From here on the parts are those of the outline.
    cases production with
    | parentheses => exact isRead_parentheses fills' isRead
    | unary operator =>
      have opens : ∀ operator ∈ unaryOperators,
          opening? operator.toList = some (.prefixed (.unary operator)) := by decide
      exact isRead_prefixed rfl (opens operator (List.contains_iff_mem.1 valid)) rfl fills' isRead
    | await => exact isRead_prefixed rfl (by decide) rfl fills' isRead
    | binary operator =>
      obtain ⟨fixity, found⟩ := Option.isSome_iff_exists.1 valid
      obtain ⟨joins, right, single⟩ := joint?_binary found
      exact isRead_infix (by rw [Production.outline, found]) joins (Production.role_binary found)
        right single fills' isRead
    | conditional => exact isRead_conditional fills' isRead
    | assignment operator =>
      have joins := joint?_assignment operator (List.contains_iff_mem.1 valid)
      exact isRead_infix rfl joins rfl (by decide) (by decide) fills' isRead
    | sequence count => exact isRead_sequence (of_decide_eq_true valid) fills' isRead
    | call => exact isRead_call fills' isRead
    | arguments count => exact isRead_arguments fills' isRead
    | member property => exact isRead_member fills' isRead
    | subscript => exact isRead_subscript fills' isRead

/-- An expression is read from its tokens alone. -/
theorem IsRead.all {phrase : Phrase} (isRead : phrase.IsRead) (expression : phrase.IsExpression) :
    Reads (.operand 0 (tokens phrase.lexemes)) [phrase.expression] [] := by
  obtain ⟨level, role⟩ := expression
  have accepted : (Slot.least 0).accepts phrase.role = true := by
    rw [role]
    exact decide_eq_true (Nat.zero_le level)
  have reads := isRead.operand accepted (by decide) (stops_nil 0)
  rwa [List.append_nil] at reads

end Phrase

/-- **A text groups to at most one expression.** -/
theorem Text.Groups.unique {text : Text} {expression expression' : Expression}
    (groups : text.Groups expression) (groups' : text.Groups expression') :
    expression = expression' := by
  obtain ⟨phrase, grouped, isExpression, lexed, rfl, rfl⟩ := groups
  obtain ⟨phrase', grouped', isExpression', lexed', text_eq, rfl⟩ := groups'
  have reads := (isRead grouped).all isExpression
  have reads' := (isRead grouped').all isExpression'
  rw [← tokens_eq_of_written_eq lexed lexed' text_eq.symm] at reads'
  exact List.singleton_inj.1 (reads.unique reads').1

end Retouch
