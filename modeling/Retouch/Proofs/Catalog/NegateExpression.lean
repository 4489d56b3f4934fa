import Retouch.Catalog.NegateExpression
import Retouch.Proofs.Catalog.Negation
import Retouch.Proofs.Grammar.Descent
import Retouch.Proofs.Grammar.Unambiguous
import Retouch.Proofs.Tree.Replacement

/-!
# Negating in place keeps the value

A comparison, a conjunction or a disjunction in an expression is negated in its place.
**The text of the expression then groups to an expression of the same value.**

What is put into the text takes the place of a phrase, its target.  Three cases are told
apart: the target is the negated phrase itself; it is a `!` with the phrase in
parentheses, and the negation takes its place in parentheses; or without them.  In the
last case the place lies between dividers, so that the negation groups there as it does
alone.
-/

set_option autoImplicit false

namespace Retouch

universe u

open Phrase

/-! ## Replacements -/

/-- **A replacement of one phrase by another in its frames** that keeps the grouping, the
tokens and the value. -/
structure Replaces (frames : List Frame) (phrase other : Phrase) : Prop where
  operand : phrase.role ≠ .token
  isExpression : other.IsExpression
  grouped : (other.within frames).Grouped
  lexed : Lexed (other.within frames).lexemes []
  value_eq : ∀ {Value : Type u} (valuation : Valuation Value),
    valuation.IsProper phrase.expression →
      valuation.value other.expression = valuation.value phrase.expression

namespace NegateExpression

/-! ## What encloses an expression -/

theorem enclosingNot?_eq_some_iff {site unary : Site} :
    enclosingNot? site = some unary ↔ ∃ bracket, site.parent? = some bracket ∧
      bracket.is "parenthesized_expression" = true ∧ bracket.parent? = some unary ∧
      unary.node.isUnaryNot = true := by
  unfold enclosingNot?
  constructor
  · intro found
    obtain ⟨bracket, bracketFound, found⟩ := Option.bind_eq_some_iff.1 found
    split at found
    · rename_i isBracket
      obtain ⟨outer, outerFound, found⟩ := Option.bind_eq_some_iff.1 found
      split at found
      · rename_i isNot
        obtain rfl := Option.some.inj found
        exact ⟨bracket, bracketFound, isBracket, outerFound, isNot⟩
      · cases found
    · cases found
  · rintro ⟨bracket, bracketFound, isBracket, outerFound, isNot⟩
    simp [bracketFound, isBracket, outerFound, isNot]

/-- Whether no `!` outside an expression is taken in with a part of it. -/
structure StandsAlone (whole : Site) : Prop where
  notEnclosed : enclosingNot? whole = none
  notNegated : ∀ parent ∈ whole.parent?, parent.node.isUnaryNot = false

theorem parent?_child (site : Site) (node : Node) (number : Nat) :
    (site.child node number).parent? = some site := rfl

variable {root phrase : Phrase} {whole site : Site} {offset : Nat} {frames : List Frame}
  {fields : List String}

/-- What fills the only slot of a production is its only operand. -/
theorem expression_fill_of_single {frame : Frame} {phrase : Phrase} {operand : Expression}
    (proper : phrase.role ≠ .token)
    (single : (frame.fill phrase).expression = .apply frame.production [operand]) :
    (frame.fill phrase).expression = .apply frame.production [phrase.expression] := by
  rw [expression_fill proper] at single ⊢
  obtain ⟨-, operands⟩ := Expression.apply.inj single
  rcases List.append_eq_cons_iff.1 operands with ⟨before, rest⟩ | ⟨more, -, none⟩
  · obtain ⟨-, after⟩ := List.cons.inj rest
    rw [before, after]
    rfl
  · simp at none

theorem expression_fill_of_parentheses {frame : Frame} {phrase : Phrase}
    (grouped : (frame.fill phrase).Grouped) (proper : phrase.role ≠ .token)
    (parentheses : frame.production = .parentheses) :
    (frame.fill phrase).expression = .apply frame.production [phrase.expression] := by
  rw [Frame.fill, parentheses] at grouped
  obtain ⟨space, inner, space', parts, accepted, -⟩ := exists_parts_parentheses grouped
  refine @expression_fill_of_single _ _ inner.expression proper ?_
  rw [Frame.fill, parentheses, parts]
  exact expression_parentheses (role_ne_token_of_accepts accepted) space space'

theorem expression_fill_of_unary {frame : Frame} {phrase : Phrase} {operator : String}
    (grouped : (frame.fill phrase).Grouped) (proper : phrase.role ≠ .token)
    (unary : frame.production = .unary operator) :
    (frame.fill phrase).expression = .apply frame.production [phrase.expression] := by
  rw [Frame.fill, unary] at grouped
  obtain ⟨space, argument, parts, accepted, -⟩ := exists_parts_unary grouped
  refine @expression_fill_of_single _ _ argument.expression proper ?_
  rw [Frame.fill, unary, parts]
  exact expression_unary (role_ne_token_of_accepts accepted) space

/-- **The `!` that is taken in stands in the expression**, with the parentheses. -/
theorem exists_enclosing {unary : Site} (alone : StandsAlone whole) (grouped : root.Grouped)
    (node : whole.node = root.node offset fields) (isAt : IsAt root whole offset frames phrase site)
    (operand : phrase.role ≠ .token) (enclosed : enclosingNot? site = some unary) :
    ∃ inner outer rest, frames = inner :: outer :: rest ∧
      IsAt root whole offset rest (outer.fill (inner.fill phrase)) unary ∧
      outer.production = .unary "!" ∧ (outer.fill (inner.fill phrase)).expression =
        .apply (.unary "!") [.apply .parentheses [phrase.expression]] := by
  obtain ⟨bracket, bracketFound, isBracket, unaryFound, isNot⟩ :=
    enclosingNot?_eq_some_iff.1 enclosed
  cases isAt with
  | root => rw [alone.notEnclosed] at enclosed; cases enclosed
  | @part inner frames _ site fields number within =>
    rw [parent?_child] at bracketFound
    obtain rfl := Option.some.inj bracketFound
    cases within with
    | root => rw [alone.notNegated unary unaryFound] at isNot; cases isNot
    | @part outer rest _ site fields number within =>
      rw [parent?_child] at unaryFound
      obtain rfl := Option.some.inj unaryFound
      have outerGrouped : (outer.fill (inner.fill phrase)).Grouped := by
        rw [← within.within_eq] at grouped
        exact (grouped_within grouped (outer.role_fill_ne_token _)).1
      have innerOperand := inner.role_fill_ne_token phrase
      obtain ⟨innerGrouped, -⟩ := Frame.exists_takes outerGrouped innerOperand
      have innerProduction : inner.production = .parentheses :=
        Production.eq_parentheses_of_kind (beq_iff_eq.1 isBracket)
      have outerProduction : outer.production = .unary "!" := by
        obtain ⟨fields, node_eq⟩ := within.exists_node_eq node
        rw [node_eq] at isNot
        exact (isUnaryNot_apply outerGrouped).1 isNot
      refine ⟨inner, outer, rest, rfl, within, outerProduction, ?_⟩
      rw [← outerProduction, ← innerProduction,
        ← expression_fill_of_parentheses innerGrouped operand innerProduction]
      exact expression_fill_of_unary outerGrouped innerOperand outerProduction

/-! ## Places for a bare negation -/

/-- Without parentheses a negation takes the place of a `!` only between dividers. -/
theorem divides_of_bare {expression : Site} (grouped : root.Grouped)
    (node : whole.node = root.node offset fields) (isAt : IsAt root whole offset frames phrase site)
    (bare : needsParentheses expression site = false) :
    ∀ frame ∈ frames.head?, frame.production.divides = true ∧
      ∀ operator, frame.production = .binary operator → expression.node.isLogical = false := by
  rw [← isAt.within_eq] at grouped
  cases isAt with
  | root => simp
  | @part frame frames _ site fields number within =>
    rintro _ ⟨⟩
    have fillGrouped := grouped_fill_of_within grouped
    obtain ⟨fields, node_eq⟩ := within.exists_node_eq node
    have kind : site.kind = frame.production.kind := by
      rw [Site.kind, node_eq]
      rfl
    rw [needsParentheses, parent?_child] at bare
    have tight (member : ["unary_expression", "await_expression", "member_expression",
        "subscript_expression", "call_expression"].contains frame.production.kind = true) :
        False := by
      have notBinary : site.is "binary_expression" = false := by
        refine beq_eq_false_iff_ne.2 ?_
        intro binary
        rw [← kind, Site.kind, binary] at member
        exact absurd member (by decide)
      simp only [notBinary, kind, member] at bare
      cases bare
    cases production : frame.production with
    | binary operator =>
      have binary : site.is "binary_expression" = true := by
        rw [Site.is, Node.is, ← Site.kind, kind, production]
        rfl
      simp only [binary, if_true, Bool.or_eq_false_iff, Bool.not_eq_false'] at bare
      obtain ⟨notLogical, logical⟩ := bare
      refine ⟨?_, fun _ _ => notLogical⟩
      rw [Frame.fill, production] at fillGrouped node_eq
      rw [Node.isLogical, node_eq, operator?_binary fillGrouped, Bool.and_eq_true,
        Option.bind_some] at logical
      have dual : ∀ operator, (flippedConnective? operator).isSome = true →
          (Production.binary operator).divides = true := by
        intro operator some
        unfold flippedConnective? at some
        split at some
        · rfl
        · rfl
        · cases some
      exact dual operator logical.2
    | parentheses => exact ⟨rfl, fun _ same => by cases same⟩
    | conditional => exact ⟨rfl, fun _ same => by cases same⟩
    | assignment operator => exact ⟨rfl, fun _ same => by cases same⟩
    | sequence count => exact ⟨rfl, fun _ same => by cases same⟩
    | arguments count => exact ⟨rfl, fun _ same => by cases same⟩
    | unary operator => exact (tight (by rw [production]; rfl)).elim
    | await => exact (tight (by rw [production]; rfl)).elim
    | call => exact (tight (by rw [production]; rfl)).elim
    | member property => exact (tight (by rw [production]; rfl)).elim
    | subscript => exact (tight (by rw [production]; rfl)).elim

/-! ## What is negated -/

/-- What is negated binds more tightly than `??` and more loosely than a prefix operator. -/
theorem level_of_isNegatable {operator : String} {parts : List Phrase}
    (grouped : (apply (.binary operator) parts).Grouped)
    (negatable : isNegatableOperator operator = true) :
    ∃ level, (apply (.binary operator) parts).role = .expression level ∧ 4 ≤ level ∧
      level ≤ 15 := by
  have levels : ∀ entry ∈ binaryOperators, isNegatableOperator entry.1 = true →
      4 ≤ entry.2.level ∧ entry.2.level ≤ 15 := by decide
  obtain ⟨fixity, -, -, -, -, found, -⟩ := exists_parts_binary grouped
  exact ⟨fixity.level, Production.role_binary found,
    levels _ (mem_binaryOperators found) negatable⟩

/-- What is negated has a truth value. -/
theorem isBoolean_of_isNegatable {Value : Type u} {valuation : Valuation Value}
    {operator : String} {parts : List Phrase} (grouped : (apply (.binary operator) parts).Grouped)
    (negatable : isNegatableOperator operator = true)
    (proper : valuation.IsProper (apply (.binary operator) parts).expression) :
    valuation.IsBoolean (apply (.binary operator) parts).expression := by
  obtain ⟨fixity, left, space, space', right, -, rfl, acceptedLeft, acceptedRight, -⟩ :=
    exists_parts_binary grouped
  rw [expression_binary (role_ne_token_of_accepts acceptedLeft)
    (role_ne_token_of_accepts acceptedRight)] at proper ⊢
  rcases Bool.or_eq_true_iff.1 negatable with comparison | connective
  · obtain ⟨negated, complementary⟩ := Option.isSome_iff_exists.1 comparison
    obtain ⟨truth, truth_eq, -⟩ := valuation.comparison operator negated complementary
      (valuation.value left.expression) (valuation.value right.expression)
    exact ⟨truth, truth_eq⟩
  · obtain ⟨flipped, dual⟩ := Option.isSome_iff_exists.1 connective
    cases proper with
    | apply booleans operands =>
      obtain ⟨first, first_eq⟩ := booleans connective left.expression (by simp)
      obtain ⟨second, second_eq⟩ := booleans connective right.expression (by simp)
      obtain ⟨truth, truth_eq, -⟩ := @Valuation.apply_flipped _ valuation _ _ dual first second
      refine ⟨truth, ?_⟩
      simp only [Valuation.value, Valuation.values, first_eq, second_eq]
      exact truth_eq

/-! ## The three cases -/

/-- Whether two expressions have opposite truth values wherever the first is proper. -/
def Opposes (expression negated : Expression) : Prop :=
  ∀ {Value : Type u} (valuation : Valuation Value), valuation.IsProper expression →
    ∃ truth, valuation.value expression = valuation.truth truth ∧
      valuation.value negated = valuation.truth (!truth)

/-- What is opposite has the value of a `!` with parentheses. -/
theorem Opposes.value_eq {expression negated : Expression}
    (opposes : Opposes.{u} expression negated) {Value : Type u} (valuation : Valuation Value)
    (proper : valuation.IsProper (.apply (.unary "!") [.apply .parentheses [expression]])) :
    valuation.value negated =
      valuation.value (.apply (.unary "!") [.apply .parentheses [expression]]) := by
  cases proper with
  | apply _ operands =>
    cases operands _ (List.mem_singleton.2 rfl) with
    | apply _ operands =>
      obtain ⟨truth, truth_eq, negated_eq⟩ :=
        opposes valuation (operands expression (List.mem_singleton.2 rfl))
      simp only [Valuation.value, Valuation.values, valuation.parentheses, truth_eq,
        valuation.not, negated_eq]

section Cases

variable {target negated : Phrase} {text : Text} {level negatedLevel : Nat}

/-- No `!` is taken in: the negation gets a `!` and parentheses. -/
theorem replaces_withNot (whole : (phrase.within frames).Grouped)
    (lexed : Lexed (phrase.within frames).lexemes []) (expression : phrase.role = .expression level)
    (logical : 4 ≤ level) (loose : level ≤ 15) (isNegation : phrase.IsNegation text negated)
    (negatedExpression : negated.role = .expression negatedLevel)
    (opposes : Opposes.{u} phrase.expression negated.expression) :
    Replaces.{u} frames phrase negated.wrapped.withNot where
  operand := ne_token_of_expression expression
  isExpression := ⟨15, rfl⟩
  grouped := by
    have wrapped := isNegation.wrapped negatedExpression
    exact grouped_within_of_le whole expression (grouped_withNot wrapped.grouped rfl) rfl logical
      loose
  lexed := by
    have wrapped := isNegation.wrapped negatedExpression
    have operand := ne_token_of_expression (@role_wrapped negated)
    have opening := @lexemes_withNot negated.wrapped
    have closing : negated.wrapped.withNot.lexemes = .token ['!'] :: .gap [] :: .token ['('] ::
        .gap [] :: (negated.lexemes ++ [.gap []]) ++ [.token [')']] := by
      simp [lexemes_withNot, lexemes_wrapped]
    exact lexed_within_of_separates lexed opening (by decide) closing
      (lexed_withNot wrapped.grouped operand wrapped.lexed)
  value_eq := by
    intro Value valuation proper
    obtain ⟨truth, truth_eq, negated_eq⟩ := opposes valuation proper
    rw [withNot, expression_unary (ne_token_of_expression (@role_wrapped negated)), wrapped,
      expression_parentheses (ne_token_of_expression negatedExpression)]
    simp only [Valuation.value, Valuation.values, valuation.parentheses, negated_eq, valuation.not,
      truth_eq, Bool.not_not]

/-- A `!` is taken in, and the negation keeps its parentheses. -/
theorem replaces_wrapped (whole : (target.within frames).Grouped)
    (lexed : Lexed (target.within frames).lexemes []) (prefixed : target.role = .expression 15)
    (expression : target.expression = .apply (.unary "!") [.apply .parentheses [phrase.expression]])
    (isNegation : phrase.IsNegation text negated)
    (negatedExpression : negated.role = .expression negatedLevel)
    (opposes : Opposes.{u} phrase.expression negated.expression) :
    Replaces.{u} frames target negated.wrapped where
  operand := ne_token_of_expression prefixed
  isExpression := ⟨18, rfl⟩
  grouped := by
    have wrapped := isNegation.wrapped negatedExpression
    exact grouped_within_of_le whole prefixed wrapped.grouped rfl (by decide) (by decide)
  lexed := by
    have wrapped := isNegation.wrapped negatedExpression
    have closing : negated.wrapped.lexemes =
        .token ['('] :: .gap [] :: (negated.lexemes ++ [.gap []]) ++ [.token [')']] := by
      simp [lexemes_wrapped]
    exact lexed_within_of_separates lexed lexemes_wrapped (by decide) closing wrapped.lexed
  value_eq := by
    intro Value valuation proper
    rw [expression] at proper ⊢
    rw [wrapped, expression_parentheses (ne_token_of_expression negatedExpression),
      ← opposes.value_eq valuation proper]
    exact valuation.parentheses _

/-- A `!` is taken in, and the negation stands there without parentheses. -/
theorem replaces_bare (whole : (target.within frames).Grouped)
    (lexed : Lexed (target.within frames).lexemes []) (prefixed : target.role = .expression 15)
    (expression : target.expression = .apply (.unary "!") [.apply .parentheses [phrase.expression]])
    (isNegation : phrase.IsNegation text negated)
    (negatedExpression : negated.role = .expression negatedLevel)
    (logical : 4 ≤ negatedLevel) (divides : ∀ frame ∈ frames.head?,
      frame.production.divides = true ∧
        ∀ operator, frame.production = .binary operator → 6 ≤ negatedLevel)
    (opposes : Opposes.{u} phrase.expression negated.expression) :
    Replaces.{u} frames target negated where
  operand := ne_token_of_expression prefixed
  isExpression := ⟨negatedLevel, negatedExpression⟩
  grouped := by
    cases frames with
    | nil => exact isNegation.grouped
    | cons frame frames =>
      obtain ⟨divides, connected⟩ := divides frame rfl
      obtain ⟨-, before, fields, slot, after, takes, accepted⟩ :=
        Frame.exists_takes (grouped_fill_of_within whole) (ne_token_of_expression prefixed)
      obtain ⟨earlier, later, outline, -, -⟩ := exists_outline takes.items (by simp)
      have member : .operand fields slot ∈ frame.production.outline := by simp [outline]
      rw [prefixed] at accepted
      refine takes.grouped_within whole isNegation.grouped ?_
      rw [negatedExpression]
      exact Production.accepts_of_divides takes.valid divides member accepted logical connected
  lexed := by
    have operand := ne_token_of_expression negatedExpression
    refine lexed_within_of_isDivided whole lexed ?_ isNegation.grouped operand isNegation.lexed
    intro frame first
    cases frames with
    | nil => cases first
    | cons frame frames =>
      cases first
      exact Frame.isDivided_of_fill (grouped_fill_of_within whole)
        (ne_token_of_expression prefixed) (.inl (divides frame rfl).1)
  value_eq := by
    intro Value valuation proper
    rw [expression] at proper ⊢
    exact opposes.value_eq valuation proper

end Cases

/-- The negation of what is negated, with how tightly it binds and what it means. -/
theorem exists_opposing {operator : String} {parts : List Phrase} {level : Nat} {source : Text}
    {node : Node} (grouped : (apply (.binary operator) parts).Grouped)
    (lexed : Lexed (apply (.binary operator) parts).lexemes [])
    (expression : (apply (.binary operator) parts).role = .expression level)
    (stands : (apply (.binary operator) parts).StandsAt source offset)
    (node_eq : node = (apply (.binary operator) parts).node offset fields)
    (negatable : isNegatableOperator operator = true) :
    ∃ negated negatedLevel,
      (apply (.binary operator) parts).IsNegation (node.negation source) negated ∧
      negated.role = .expression negatedLevel ∧ 4 ≤ negatedLevel ∧
      (node.isLogical = false → 6 ≤ negatedLevel) ∧
      Opposes.{u} (apply (.binary operator) parts).expression negated.expression := by
  have notNot : node.isUnaryNot = false := by
    rw [node_eq, Node.isUnaryNot, Bool.and_eq_false_iff]
    exact .inl rfl
  have negation : HasNegation (apply (.binary operator) parts) node source := by
    rw [node_eq]
    exact hasNegation grouped lexed expression stands
  obtain ⟨negated, negatedLevel, isNegation, negatedExpression, tight, connected⟩ := negation
  rw [Node.negationIsLoose, notNot] at tight
  have comparison (notLogical : node.isLogical = false) : 6 ≤ negatedLevel := tight notLogical
  refine ⟨negated, negatedLevel, isNegation, negatedExpression, ?_, comparison, ?_⟩
  · cases isLogical : node.isLogical with
    | true => exact connected isLogical
    | false => exact Nat.le_trans (by decide) (comparison isLogical)
  · intro Value valuation proper
    exact Valuation.value_of_negates isNegation.negates proper
      (isBoolean_of_isNegatable grouped negatable proper)

/-- **What is edited is a phrase, and it keeps its value.** -/
theorem exists_replaces {before after : Text} (alone : StandsAlone whole) (grouped : root.Grouped)
    (lexed : Lexed root.lexemes []) (source : whole.source = before ++ (root.text ++ after))
    (node : whole.node = root.node before.byteLength fields)
    (isAt : IsAt root whole before.byteLength frames phrase site) (operand : phrase.role ≠ .token)
    (binary : site.is "binary_expression" = true)
    (negatable : site.operator?.any isNegatableOperator = true) :
    ∃ frames target targetSite other, IsAt root whole before.byteLength frames target targetSite ∧
      Replaces.{u} frames target other ∧ edit site = ⟨other.text, targetSite.range⟩ := by
  have stands := isAt.standsAt source rfl
  obtain ⟨fields, node_eq⟩ := isAt.exists_node_eq node
  have placed : (phrase.within frames).Grouped := isAt.within_eq ▸ grouped
  have placedLexed : Lexed (phrase.within frames).lexemes [] := isAt.within_eq ▸ lexed
  have phraseGrouped := (grouped_within placed operand).1
  have phraseLexed : Lexed phrase.lexemes [] := by
    rw [lexemes_within, lexed_append, lexed_append] at placedLexed
    exact placedLexed.2.1.of_separates (by simp)
  rw [Site.is, node_eq] at binary
  obtain ⟨production, parts, rfl, kind⟩ :=
    exists_apply_of_is phraseGrouped operand (by decide) binary
  obtain ⟨operator, rfl⟩ := Production.exists_binary_of_kind kind
  rw [Site.operator?, node_eq, operator?_binary phraseGrouped, Option.any_some] at negatable
  obtain ⟨level, expression, logical, loose⟩ := level_of_isNegatable phraseGrouped negatable
  obtain ⟨negated, negatedLevel, isNegation, negatedExpression, four, comparison, opposes⟩ :=
    exists_opposing.{u} phraseGrouped phraseLexed expression stands node_eq negatable
  cases enclosed : enclosingNot? site with
  | none =>
    refine ⟨frames, _, site, _, isAt, replaces_withNot placed placedLexed expression logical loose
      isNegation negatedExpression opposes, ?_⟩
    simp only [edit, enclosed, text_withNot, text_wrapped, isNegation.text_eq]
  | some unary =>
    -- The target is two frames further out, at the `!`.
    obtain ⟨inner, outer, rest, rfl, unaryAt, production, expression_eq⟩ :=
      exists_enclosing alone grouped node isAt operand enclosed
    have prefixed : (outer.fill (inner.fill (apply (.binary operator) parts))).role =
        .expression 15 := by
      rw [Frame.fill, Phrase.role, production]
      rfl
    cases needed : needsParentheses site unary with
    | true =>
      refine ⟨rest, _, unary, _, unaryAt, replaces_wrapped placed placedLexed prefixed
        expression_eq isNegation negatedExpression opposes, ?_⟩
      simp only [edit, enclosed, needed, text_wrapped, isNegation.text_eq, if_true]
    | false =>
      refine ⟨rest, _, unary, _, unaryAt, replaces_bare placed placedLexed prefixed
        expression_eq isNegation negatedExpression four ?_ opposes, ?_⟩
      · intro frame first
        obtain ⟨divides, notLogical⟩ := divides_of_bare grouped node unaryAt needed frame first
        exact ⟨divides, fun operator production => comparison (notLogical operator production)⟩
      · simp [edit, enclosed, needed, isNegation.text_eq]

/-! ## The whole text -/

/-- **An expression in a source**: the text of a phrase that is cut into tokens and grouped
as the grammar says, with the tree of the phrase. -/
structure Parsed (root : Phrase) (whole : Site) (before after : Text) : Prop where
  grouped : root.Grouped
  isExpression : root.IsExpression
  lexed : Lexed root.lexemes []
  source_eq : whole.source = before ++ (root.text ++ after)
  node_eq : ∃ fields, whole.node = root.node before.byteLength fields

/-- **What it is for an edit to keep the value of an expression**, which stands between
two texts in a source: a part of the text of the expression is replaced, what comes out
groups to one expression, and that has the value of the old one under every valuation. -/
def KeepsValue (root : Phrase) (source before after : Text) (edit : Edit) : Prop :=
  ∃ left middle right edited, root.text = left ++ (middle ++ right) ∧
    edit.selection = .between (Node.place source (before ++ left).byteLength)
      (Node.place source (before ++ left ++ middle).byteLength) ∧
    (Text.Fits source → (Grid.ofText source).apply [edit] =
      (.ok (), Grid.ofText (before ++ (left ++ (edit.code ++ right)) ++ after))) ∧
    (∀ expression, Text.Groups (left ++ (edit.code ++ right)) expression ↔
      expression = edited) ∧
    ∀ {Value : Type u} (valuation : Valuation Value), valuation.IsProper root.expression →
      valuation.value edited = valuation.value root.expression

/-- **Negating in place keeps the value of the whole expression.**  This holds of every
comparison, conjunction and disjunction in it. -/
theorem edit_keepsValue {before after : Text} (parsed : Parsed root whole before after)
    (alone : StandsAlone whole) (member : site ∈ whole :: whole.descendants)
    (binary : site.is "binary_expression" = true)
    (negatable : site.operator?.any isNegatableOperator = true) :
    KeepsValue.{u} root whole.source before after (edit site) := by
  obtain ⟨fields, node⟩ := parsed.node_eq
  obtain ⟨rootLevel, rootRole⟩ := parsed.isExpression
  have reached : root.Reaches whole before.byteLength site := by
    have wholeReached : ∀ other ∈ [whole], root.Reaches whole before.byteLength other := by
      intro other only
      rw [List.mem_singleton.1 only]
      exact .inl ⟨[], root, .root, ne_token_of_expression rootRole⟩
    refine exists_isAt_of_mem_preorder parsed.grouped node wholeReached site ?_
    rw [Site.preorder, List.append_nil]
    exact member
  rcases reached with ⟨frames, phrase, isAt, operand⟩ | ⟨-, notBinary⟩
  · obtain ⟨frames, target, targetSite, other, targetAt, replaces, edit_eq⟩ :=
      exists_replaces.{u} alone parsed.grouped parsed.lexed parsed.source_eq node isAt operand
        binary negatable
    have range := targetAt.range_eq node replaces.operand
    have text_eq : root.text = written (lexemesBefore frames) ++
        (target.text ++ written (lexemesAfter frames)) := by
      rw [← targetAt.within_eq, text_within]
    have edited_eq : (other.within frames).text = written (lexemesBefore frames) ++
        (other.text ++ written (lexemesAfter frames)) := text_within other frames
    have groups : Text.Groups (other.within frames).text (other.within frames).expression := by
      have whole : (target.within frames).IsExpression := by
        rw [targetAt.within_eq]
        exact parsed.isExpression
      exact ⟨_, replaces.grouped, isExpression_within whole replaces.isExpression,
        replaces.lexed, rfl, rfl⟩
    rw [edited_eq] at groups
    refine ⟨_, _, _, (other.within frames).expression, text_eq, ?_, fun fits => ?_, ?_, ?_⟩
    · rw [edit_eq]
      exact range
    · have source_eq : whole.source = before ++ written (lexemesBefore frames) ++
          (target.text ++ (written (lexemesAfter frames) ++ after)) := by
        rw [parsed.source_eq, text_eq]
        simp only [List.append_assoc]
      rw [edit_eq, range, Grid.apply_range source_eq fits]
      simp only [List.append_assoc]
    · rw [edit_eq]
      intro expression
      constructor
      · intro groups'
        exact groups'.unique groups
      · rintro rfl
        exact groups
    · intro Value valuation proper
      obtain ⟨level, role⟩ := replaces.isExpression
      rw [← targetAt.within_eq] at proper ⊢
      exact Valuation.value_within replaces.operand (ne_token_of_expression role)
        (replaces.value_eq valuation (proper.of_within replaces.operand))
  · rw [notBinary] at binary
    cases binary

/-- A name of one letter. -/
def letter (character : Char) : Phrase := atom "identifier" [character] []

theorem grouped_letter {character : Char} (isToken : Text.isToken [character] = true)
    (word : Text.kind [character] = .word) : (letter character).Grouped := by
  refine .atom ⟨isToken, ?_, ?_, by decide, by simp, by simp, by simp⟩
  · rw [word]
    decide
  · simp [keywords]

theorem lexed_letter {character : Char} (isToken : Text.isToken [character] = true) :
    Lexed (letter character).lexemes [] :=
  ⟨isToken, rfl, trivial⟩

/-- The expression `!(a < b) && c`. -/
def absorbing : Phrase :=
  ((letter 'a').spaced "<" (letter 'b')).wrapped.withNot.spaced "&&" (letter 'c')

def absorbingSite : Site := ⟨absorbing.text, absorbing.node 0 [], []⟩

/-- The site of `!(a < b)`. -/
def negationSite : Site := absorbingSite.child absorbingSite.node.children[0]! 0

/-- The site of `(a < b)`. -/
def bracketSite : Site := negationSite.child negationSite.node.children[1]! 1

/-- The site of `a < b`. -/
def comparisonSite : Site := bracketSite.child bracketSite.node.children[1]! 1

theorem parsed_absorbing : Parsed absorbing absorbingSite [] [] := by
  have less : fixity? "<" = some (.leftToRight 10) := by decide
  have and : fixity? "&&" = some (.leftToRight 5) := by decide
  have first : (letter 'a').Grouped := grouped_letter (by decide) (by decide)
  have second : (letter 'b').Grouped := grouped_letter (by decide) (by decide)
  have third : (letter 'c').Grouped := grouped_letter (by decide) (by decide)
  have firstLexed : Lexed (letter 'a').lexemes [] := lexed_letter (by decide)
  have secondLexed : Lexed (letter 'b').lexemes [] := lexed_letter (by decide)
  have thirdLexed : Lexed (letter 'c').lexemes [] := lexed_letter (by decide)
  have comparison := grouped_spaced less first second (by decide) (by decide)
  have comparisonLexed := lexed_spaced less firstLexed secondLexed
  have bracket := grouped_wrapped comparison (by decide)
  have bracketLexed := lexed_wrapped comparison (by decide) comparisonLexed []
  refine ⟨?_, ⟨5, rfl⟩, ?_, rfl, [], rfl⟩
  · exact grouped_spaced and (grouped_withNot bracket (by decide)) third (by decide) (by decide)
  · exact lexed_spaced and (lexed_withNot bracket (by decide) bracketLexed) thirdLexed

theorem edit_keepsValue_absorbing :
    Parsed absorbing absorbingSite [] [] ∧ StandsAlone absorbingSite ∧
      comparisonSite ∈ absorbingSite :: absorbingSite.descendants ∧
      comparisonSite.is "binary_expression" = true ∧
      comparisonSite.operator?.any isNegatableOperator = true ∧
      KeepsValue.{0} absorbing absorbingSite.source [] [] (edit comparisonSite) := by
  have alone : StandsAlone absorbingSite := ⟨rfl, nofun⟩
  have member : comparisonSite ∈ absorbingSite :: absorbingSite.descendants := by
    have first : negationSite ∈ absorbingSite.namedChildren := .head _
    have second : bracketSite ∈ negationSite.namedChildren := .head _
    have third : comparisonSite ∈ bracketSite.namedChildren := .head _
    have below := (Site.mem_descendants_of_mem_namedChildren third).1
    have below := (Site.mem_descendants_of_mem_namedChildren second).2 _ below
    exact .tail _ ((Site.mem_descendants_of_mem_namedChildren first).2 _ below)
  have binary : comparisonSite.is "binary_expression" = true := by decide
  have negatable : comparisonSite.operator?.any isNegatableOperator = true := by decide
  exact ⟨parsed_absorbing, alone, member, binary, negatable,
    edit_keepsValue parsed_absorbing alone member binary negatable⟩

end NegateExpression
end Retouch
