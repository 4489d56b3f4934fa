import Retouch.Proofs.Grammar.Layout
import Retouch.Proofs.Grammar.Meaning
import Retouch.Proofs.Grammar.Seam

/-!
# The text of a negation

The negation of an expression is written as text.  **That text groups to an expression
that negates it** (`Phrase.hasNegation`): the operands that stand without parentheses beside
the connective of a negation keep their grouping.
-/

set_option autoImplicit false

namespace Retouch
namespace Node

variable {node : Node}

/-! ## Forms -/

/-- The text of a negation, read off the form. -/
theorem negation_eq (source : Text) (node : Node) :
    node.negation source = match node.form with
      | .constant value => (if value then "false" else "true").toList
      | .comparison left negated right =>
        left.textIn source ++ ' ' :: negated.toList ++ ' ' :: right.textIn source
      | .logical left flipped right =>
        besideConnective left (left.negation source) ++ ' ' :: flipped.toList ++
          ' ' :: besideConnective right (right.negation source)
      | .negation (some operand) => operand.textIn source
      | .negation none => '!' :: node.textIn source
      | .tight => '!' :: node.textIn source
      | .loose => '!' :: parenthesized (node.textIn source) := by
  rw [negation]
  split <;> simp_all

/-- The form of what is neither a constant, a binary operation nor a negation. -/
theorem form_of_plain (notTrue : node.is "true" = false) (notFalse : node.is "false" = false)
    (notBinary : node.is "binary_expression" = false) (notNot : node.isUnaryNot = false) :
    (node.form = .tight ∧ tightKinds.contains node.kind = true) ∨ node.form = .loose := by
  rw [form, notTrue, notFalse, notBinary, notNot]
  cases tight : tightKinds.contains node.kind with
  | true => exact .inl ⟨rfl, rfl⟩
  | false => exact .inr rfl

theorem form_of_binary {left right : Node} {operator : String}
    (binary : node.kind = "binary_expression") (leftFound : node.field? "left" = some left)
    (operatorFound : node.operator? = some operator)
    (rightFound : node.field? "right" = some right) :
    node.form = binaryForm left operator right := by
  simp [form, is, binary, leftFound, operatorFound, rightFound]

/-- What has the form of a conjunction or a disjunction is a binary operation with a connective. -/
theorem exists_of_form_logical {left right : Node} {flipped : String}
    (form : node.form = .logical left flipped right) :
    node.is "binary_expression" = true ∧ node.field? "left" = some left ∧
      node.field? "right" = some right ∧
      ∃ operator, node.operator? = some operator ∧ flippedConnective? operator = some flipped := by
  unfold Node.form at form
  split at form
  · cases form
  split at form
  · cases form
  split at form
  · rename_i binary
    split at form
    · rename_i first operator last inLeft operatorFound inRight
      unfold binaryForm at form
      split at form
      · cases form
      · rename_i dual
        cases form
        exact ⟨binary, inLeft, inRight, operator, operatorFound, dual⟩
      · cases form
    · cases form
  split at form
  · cases form
  split at form <;> cases form

theorem form_of_not (unary : node.kind = "unary_expression")
    (operatorFound : node.operator? = some "!") : node.form = .negation node.negatedOperand? := by
  simp [form, is, isUnaryNot, unary, operatorFound]

theorem negatedOperand?_of_bare {argument : Node} (found : node.field? "argument" = some argument)
    (bare : argument.is "parenthesized_expression" = false) :
    node.negatedOperand? = some argument := by
  simp [negatedOperand?, found, bare]

theorem negatedOperand?_of_parenthesized {argument inner : Node}
    (found : node.field? "argument" = some argument)
    (parenthesized : argument.is "parenthesized_expression" = true)
    (first : argument.namedChildren.head? = some inner) : node.negatedOperand? = some inner := by
  simp [negatedOperand?, found, parenthesized, first]

end Node

namespace Phrase

/-! ## Building blocks -/

/-- A `!` in front of a phrase. -/
def withNot (phrase : Phrase) : Phrase := apply (.unary "!") [mark "!", gap [], phrase]

/-- A phrase in parentheses. -/
def wrapped (phrase : Phrase) : Phrase :=
  apply .parentheses [mark "(", gap [], phrase, gap [], mark ")"]

/-- An operation with spaces beside its operator. -/
def spaced (left : Phrase) (operator : String) (right : Phrase) : Phrase :=
  apply (.binary operator) [left, gap [' '], mark operator, gap [' '], right]

section Blocks

variable {phrase left right : Phrase} {operator : String}

theorem role_wrapped : phrase.wrapped.role = .expression 18 := rfl

theorem text_withNot : phrase.withNot.text = '!' :: phrase.text := by
  simp [withNot]

theorem text_wrapped : phrase.wrapped.text = Node.parenthesized phrase.text := by
  simp [wrapped, Node.parenthesized]

theorem text_spaced : (left.spaced operator right).text =
    left.text ++ ' ' :: operator.toList ++ ' ' :: right.text := by
  simp [spaced]

theorem lexemes_withNot :
    phrase.withNot.lexemes = .token ['!'] :: .gap [] :: phrase.lexemes := by
  simp [withNot, lexemes, lexemesOf]

theorem lexemes_wrapped : phrase.wrapped.lexemes =
    .token ['('] :: .gap [] :: (phrase.lexemes ++ [.gap [], .token [')']]) := by
  simp [wrapped, lexemes, lexemesOf]

theorem grouped_withNot (grouped : phrase.Grouped)
    (accepted : (Slot.least 15).accepts phrase.role = true) : phrase.withNot.Grouped := by
  refine .apply (by decide) ?_ ?_
  · exact .cons .mark (.cons .gap (.cons (.operand accepted) .nil))
  · simp [Grouped.mark, Grouped.gap, grouped]

theorem grouped_wrapped (grouped : phrase.Grouped)
    (accepted : (Slot.least 0).accepts phrase.role = true) : phrase.wrapped.Grouped := by
  refine .apply rfl ?_ ?_
  · exact .cons .mark (.cons .gap (.cons (.operand accepted) (.cons .gap (.cons .mark .nil))))
  · simp [Grouped.mark, Grouped.gap, grouped]

theorem grouped_spaced {fixity : Fixity} (found : fixity? operator = some fixity)
    (groupedLeft : left.Grouped) (groupedRight : right.Grouped)
    (acceptedLeft : fixity.left.accepts left.role = true)
    (acceptedRight : (Slot.least fixity.right).accepts right.role = true) :
    (left.spaced operator right).Grouped := by
  refine .apply (by rw [Production.isValid, found]; rfl) ?_ ?_
  · rw [Production.items, Production.outline, found]
    exact .cons (.operand acceptedLeft) (.cons .gap (.cons .mark (.cons .gap
      (.cons (.operand acceptedRight) .nil))))
  · simp [Grouped.mark, Grouped.gap, groupedLeft, groupedRight]

theorem lexed_withNot (grouped : phrase.Grouped) (operand : phrase.role ≠ .token)
    {following : Text} (lexed : Lexed phrase.lexemes following) :
    Lexed phrase.withNot.lexemes following := by
  obtain ⟨first, rest, more, lexemes_eq, opens⟩ := exists_first grouped operand
  have divider : ['!'] ∈ Text.dividers := by decide
  have apart := Text.not_runsInto_of_opens divider opens
  refine ⟨by decide, ?_, by simp, ?_⟩
  · simp [lexemesOf, lexemes, lexemes_eq, Lexeme.text, Text.endsBefore, apart]
  · simpa [lexemesOf] using lexed

theorem lexed_wrapped (grouped : phrase.Grouped) (operand : phrase.role ≠ .token)
    (lexed : Lexed phrase.lexemes []) (following : Text) :
    Lexed phrase.wrapped.lexemes following := by
  obtain ⟨first, rest, more, lexemes_eq, opens⟩ := exists_first grouped operand
  have divider : ['('] ∈ Text.dividers := by decide
  have apart := Text.not_runsInto_of_opens divider opens
  refine ⟨by decide, ?_, by simp, ?_⟩
  · simp [lexemesOf, lexemes, lexemes_eq, Lexeme.text, Text.endsBefore, apart]
  · show Lexed (phrase.lexemes ++ lexemesOf [gap [], mark ")"]) following
    rw [lexed_append]
    refine ⟨lexed.of_grouped grouped operand ?_, by simp, by decide, ?_, trivial⟩
    · have ends : Text.endsExpression ')' = true := by decide
      simpa [lexemesOf, lexemes, Lexeme.text] using ends
    · exact Text.endsBefore_parenthesis _

theorem isToken_of_fixity? {fixity : Fixity} (found : fixity? operator = some fixity) :
    Text.isToken operator.toList = true := by
  have tokens : ∀ entry ∈ binaryOperators, Text.isToken entry.1.toList = true := by decide
  exact tokens _ (mem_binaryOperators found)

theorem lexed_spaced {fixity : Fixity} (found : fixity? operator = some fixity)
    (lexedLeft : Lexed left.lexemes []) {following : Text}
    (lexedRight : Lexed right.lexemes following) :
    Lexed (left.spaced operator right).lexemes following := by
  have space : Text.isGap ' ' = true := by decide
  have separates := Text.separates_of_isGap space
  have isToken := isToken_of_fixity? found
  simp only [spaced, lexemes, lexemesOf, List.cons_append, List.nil_append, List.append_nil,
    lexed_append]
  refine ⟨lexedLeft.of_separates ?_, ?_, isToken, ?_, ?_, lexedRight⟩
  · simpa [Lexeme.text] using separates
  · simpa using space
  · simp [Lexeme.text, Text.endsBefore,
      Text.not_runsInto_of_separates (Text.ne_nil_of_isToken isToken) separates]
  · simpa using space

theorem expression_unary (operand : phrase.role ≠ .token) (space : Text) :
    (apply (.unary operator) [mark operator, gap space, phrase]).expression =
      .apply (.unary operator) [phrase.expression] := by
  rw [expression, operandsOf_mark, operandsOf_gap, operandsOf_cons operand]
  rfl

theorem expression_parentheses (operand : phrase.role ≠ .token) (space space' : Text) :
    (apply .parentheses [mark "(", gap space, phrase, gap space', mark ")"]).expression =
      .apply .parentheses [phrase.expression] := by
  rw [expression, operandsOf_mark, operandsOf_gap, operandsOf_cons operand]
  rfl

theorem expression_binary (operandLeft : left.role ≠ .token)
    (operandRight : right.role ≠ .token) (space space' : Text) :
    (apply (.binary operator) [left, gap space, mark operator, gap space', right]).expression =
      .apply (.binary operator) [left.expression, right.expression] := by
  rw [expression, operandsOf_cons operandLeft, operandsOf_gap, operandsOf_mark, operandsOf_gap,
    operandsOf_cons operandRight]
  rfl

end Blocks

/-! ## Negations of phrases -/

/-- What a phrase has to be in order to spell, as a given text, the negation of another. -/
structure IsNegation (phrase : Phrase) (text : Text) (negated : Phrase) : Prop where
  grouped : negated.Grouped
  lexed : Lexed negated.lexemes []
  text_eq : negated.text = text
  negates : phrase.expression.Negates negated.expression

section IsNegation

variable {phrase : Phrase} {level : Nat}

/-- What binds tightly takes a `!` as it is. -/
theorem isNegation_withNot (grouped : phrase.Grouped) (lexed : Lexed phrase.lexemes [])
    (expression : phrase.role = .expression level) (tight : 15 ≤ level) :
    phrase.IsNegation ('!' :: phrase.text) phrase.withNot where
  grouped := grouped_withNot grouped (by simp [expression, Slot.accepts, tight])
  lexed := lexed_withNot grouped (ne_token_of_expression expression) lexed
  text_eq := text_withNot
  negates := by
    rw [withNot, expression_unary (ne_token_of_expression expression)]
    exact .prefixed

/-- Everything takes a `!` in parentheses. -/
theorem isNegation_wrapped_withNot (grouped : phrase.Grouped) (lexed : Lexed phrase.lexemes [])
    (expression : phrase.role = .expression level) :
    phrase.IsNegation ('!' :: Node.parenthesized phrase.text) phrase.wrapped.withNot where
  grouped := by
    refine grouped_withNot (grouped_wrapped grouped ?_) rfl
    simp [expression, Slot.accepts]
  lexed := by
    have operand := ne_token_of_expression expression
    have wrapped : phrase.wrapped.Grouped :=
      grouped_wrapped grouped (by simp [expression, Slot.accepts])
    exact lexed_withNot wrapped (ne_token_of_expression role_wrapped)
      (lexed_wrapped grouped operand lexed [])
  text_eq := by rw [text_withNot, text_wrapped]
  negates := by
    rw [withNot, expression_unary (ne_token_of_expression role_wrapped), Phrase.wrapped,
      expression_parentheses (ne_token_of_expression expression)]
    exact .bracketed

/-- A negation that is loose for its place is put in parentheses. -/
theorem IsNegation.wrapped {text : Text} {negated : Phrase}
    (isNegation : phrase.IsNegation text negated) (expression : negated.role = .expression level) :
    phrase.IsNegation (Node.parenthesized text) negated.wrapped where
  grouped := grouped_wrapped isNegation.grouped (by simp [expression, Slot.accepts])
  lexed := lexed_wrapped isNegation.grouped (ne_token_of_expression expression) isNegation.lexed []
  text_eq := by rw [text_wrapped, isNegation.text_eq]
  negates := by
    rw [Phrase.wrapped, expression_parentheses (ne_token_of_expression expression)]
    exact .parenthesized isNegation.negates

end IsNegation

/-! ## Levels of operands -/

/-- What does not bind loosely stands beside every connective. -/
theorem le_of_not_bindsLoosely {phrase : Phrase} {level offset : Nat} {fields : List String}
    (grouped : phrase.Grouped) (expression : phrase.role = .expression level)
    (tight : (phrase.node offset fields).bindsLoosely = false) : 6 ≤ level := by
  cases phrase with
  | gap => cases expression
  | mark => cases expression
  | name => cases expression
  | atom kind token below =>
    cases expression
    decide
  | apply production parts =>
    cases production with
    | binary operator =>
      obtain ⟨fixity, -, -, -, -, found, -⟩ := exists_parts_binary grouped
      obtain rfl := Role.expression.inj ((Production.role_binary found).symm.trans expression)
      have levels : ∀ entry ∈ binaryOperators, ["&&", "||", "??"].contains entry.1 = false →
          6 ≤ entry.2.level := by decide
      have binary : ((apply (.binary operator) parts).node offset fields).is "binary_expression" :=
        rfl
      rw [Node.bindsLoosely, if_pos binary, operator?_binary grouped] at tight
      exact levels _ (mem_binaryOperators found) tight
    | conditional => simp [Node.bindsLoosely, Node.is, kind_node_apply, Production.kind] at tight
    | assignment operator =>
      by_cases plain : operator = "=" <;>
        simp [Node.bindsLoosely, Node.is, kind_node_apply, Production.kind, plain] at tight
    | sequence count => simp [Node.bindsLoosely, Node.is, kind_node_apply, Production.kind] at tight
    | arguments count => cases expression
    | parentheses => cases expression; decide
    | unary operator => cases expression; decide
    | await => cases expression; decide
    | call => cases expression; decide
    | member property => cases expression; decide
    | subscript => cases expression; decide

/-! ## The negation of a phrase -/

/-- What is shown of a phrase and the negation of its node: the negation is spelled, and
it is loose beside a connective only where it is taken to be. -/
def HasNegation (phrase : Phrase) (node : Node) (source : Text) : Prop :=
  ∃ negated level, phrase.IsNegation (node.negation source) negated ∧
    negated.role = .expression level ∧ (node.negationIsLoose = false → 6 ≤ level) ∧
    (node.isLogical = true → 4 ≤ level)

section HasNegation

variable {phrase : Phrase} {level : Nat} {source : Text} {node : Node}

theorem hasNegation_of_loose (grouped : phrase.Grouped) (lexed : Lexed phrase.lexemes [])
    (expression : phrase.role = .expression level) (text_eq : node.textIn source = phrase.text)
    (form : node.form = .loose) : phrase.HasNegation node source := by
  refine ⟨phrase.wrapped.withNot, 15, ?_, rfl, by omega, by omega⟩
  rw [Node.negation_eq, form, text_eq]
  exact isNegation_wrapped_withNot grouped lexed expression

theorem hasNegation_of_plain (grouped : phrase.Grouped) (lexed : Lexed phrase.lexemes [])
    (expression : phrase.role = .expression level) (text_eq : node.textIn source = phrase.text)
    (tight : Node.tightKinds.contains node.kind = true → 15 ≤ level)
    (notTrue : node.is "true" = false) (notFalse : node.is "false" = false)
    (notBinary : node.is "binary_expression" = false) (notNot : node.isUnaryNot = false) :
    phrase.HasNegation node source := by
  rcases Node.form_of_plain notTrue notFalse notBinary notNot with ⟨form, isTight⟩ | form
  · refine ⟨phrase.withNot, 15, ?_, rfl, by omega, by omega⟩
    rw [Node.negation_eq, form, text_eq]
    exact isNegation_withNot grouped lexed expression (tight isTight)
  · exact hasNegation_of_loose grouped lexed expression text_eq form

/-- Beside a connective the negation of an operand has the parentheses it needs. -/
theorem HasNegation.beside (negation : phrase.HasNegation node source) :
    ∃ negated level, phrase.IsNegation (node.besideConnective (node.negation source)) negated ∧
      negated.role = .expression level ∧ 6 ≤ level := by
  obtain ⟨negated, level, isNegation, expression, tight, -⟩ := negation
  cases loose : node.negationIsLoose with
  | true =>
    refine ⟨negated.wrapped, 18, ?_, rfl, by decide⟩
    rw [Node.besideConnective, if_pos loose]
    exact isNegation.wrapped expression
  | false =>
    refine ⟨negated, level, ?_, expression, tight loose⟩
    rw [Node.besideConnective, loose]
    exact isNegation

end HasNegation

/-- A comparison groups like its negation. -/
theorem fixity?_of_negatedComparison? {operator negated : String}
    (complementary : negatedComparison? operator = some negated) :
    fixity? negated = fixity? operator ∧ ∀ fixity ∈ fixity? operator, 6 ≤ fixity.level := by
  unfold negatedComparison? at complementary
  split at complementary <;> cases complementary <;> decide

/-- What is written beside a flipped connective keeps its grouping. -/
theorem fixity?_of_flippedConnective? {operator flipped : String}
    (dual : flippedConnective? operator = some flipped) :
    negatedComparison? operator = none ∧ ∃ fixity, fixity? flipped = some fixity ∧
      4 ≤ fixity.level ∧ ∀ level, 6 ≤ level → fixity.left.accepts (.expression level) = true ∧
        (Slot.least fixity.right).accepts (.expression level) = true := by
  unfold flippedConnective? at dual
  split at dual
  · cases dual
    refine ⟨rfl, .leftToRight 4, rfl, by decide, ?_⟩
    intro level high
    have left : 4 ≤ level := by omega
    have right : 5 ≤ level := by omega
    exact ⟨decide_eq_true left, decide_eq_true right⟩
  · cases dual
    refine ⟨rfl, .leftToRight 5, rfl, by decide, ?_⟩
    intro level high
    have left : 5 ≤ level := by omega
    exact ⟨decide_eq_true left, decide_eq_true high⟩
  · cases dual

section Operations

variable {left right : Phrase} {space space' : Text} {operator : String} {source : Text}
  {node leftNode rightNode : Node}

/-- The negation of a comparison. -/
theorem hasNegation_comparison {negated : String} {fixity : Fixity}
    (complementary : negatedComparison? operator = some negated)
    (found : fixity? operator = some fixity) (groupedLeft : left.Grouped)
    (groupedRight : right.Grouped) (acceptedLeft : fixity.left.accepts left.role = true)
    (acceptedRight : (Slot.least fixity.right).accepts right.role = true)
    (lexedLeft : Lexed left.lexemes []) (lexedRight : Lexed right.lexemes [])
    (form : node.form = .comparison leftNode negated rightNode)
    (textLeft : leftNode.textIn source = left.text)
    (textRight : rightNode.textIn source = right.text) :
    (apply (.binary operator) [left, gap space, mark operator, gap space', right]).HasNegation
      node source := by
  have operandLeft := role_ne_token_of_accepts acceptedLeft
  have operandRight := role_ne_token_of_accepts acceptedRight
  obtain ⟨sameFixity, high⟩ := fixity?_of_negatedComparison? complementary
  have foundNegated : fixity? negated = some fixity := sameFixity.trans found
  have six := high fixity found
  refine ⟨left.spaced negated right, fixity.level, ⟨?_, ?_, ?_, ?_⟩,
    Production.role_binary foundNegated, ?_, ?_⟩
  · exact grouped_spaced foundNegated groupedLeft groupedRight acceptedLeft acceptedRight
  · exact lexed_spaced foundNegated lexedLeft lexedRight
  · rw [Node.negation_eq, form, text_spaced]
    dsimp only
    rw [textLeft, textRight]
  · rw [spaced, expression_binary operandLeft operandRight,
      expression_binary operandLeft operandRight]
    exact .comparison complementary
  · intro _
    exact six
  · intro _
    exact Nat.le_trans (by decide) six

/-- **The negations of two operands group beside the flipped connective**, with the parentheses
that they are given there. -/
theorem exists_spaced_flipped {flipped : String}
    (dual : flippedConnective? operator = some flipped)
    (form : node.form = .logical leftNode flipped rightNode)
    (negationLeft : left.HasNegation leftNode source)
    (negationRight : right.HasNegation rightNode source) :
    ∃ first second, first.IsExpression ∧ second.IsExpression ∧
      left.IsNegation (leftNode.besideConnective (leftNode.negation source)) first ∧
      right.IsNegation (rightNode.besideConnective (rightNode.negation source)) second ∧
      (first.spaced flipped second).Grouped ∧ Lexed (first.spaced flipped second).lexemes [] ∧
      (first.spaced flipped second).text = node.negation source := by
  obtain ⟨-, fixity, found, -, accepts⟩ := fixity?_of_flippedConnective? dual
  obtain ⟨first, firstLevel, firstNegation, firstExpression, firstSix⟩ := negationLeft.beside
  obtain ⟨second, secondLevel, secondNegation, secondExpression, secondSix⟩ :=
    negationRight.beside
  refine ⟨first, second, ⟨_, firstExpression⟩, ⟨_, secondExpression⟩, firstNegation,
    secondNegation, ?_, lexed_spaced found firstNegation.lexed secondNegation.lexed, ?_⟩
  · refine grouped_spaced found firstNegation.grouped secondNegation.grouped ?_ ?_
    · rw [firstExpression]
      exact (accepts firstLevel firstSix).1
    · rw [secondExpression]
      exact (accepts secondLevel secondSix).2
  · rw [Node.negation_eq, form, text_spaced, firstNegation.text_eq, secondNegation.text_eq]

/-- The negation of a conjunction or a disjunction, from those of its operands. -/
theorem hasNegation_connective {flipped : String}
    (dual : flippedConnective? operator = some flipped) (operandLeft : left.role ≠ .token)
    (operandRight : right.role ≠ .token)
    (form : node.form = .logical leftNode flipped rightNode)
    (loose : node.negationIsLoose = true) (negationLeft : left.HasNegation leftNode source)
    (negationRight : right.HasNegation rightNode source) :
    (apply (.binary operator) [left, gap space, mark operator, gap space', right]).HasNegation
      node source := by
  obtain ⟨-, fixity, found, four, -⟩ := fixity?_of_flippedConnective? dual
  obtain ⟨first, second, ⟨firstLevel, firstExpression⟩, ⟨secondLevel, secondExpression⟩,
    firstNegation, secondNegation, grouped, lexed, text_eq⟩ :=
    exists_spaced_flipped dual form negationLeft negationRight
  refine ⟨first.spaced flipped second, fixity.level, ⟨grouped, lexed, text_eq, ?_⟩,
    Production.role_binary found, ?_, ?_⟩
  · rw [spaced, expression_binary operandLeft operandRight,
      expression_binary (ne_token_of_expression firstExpression)
        (ne_token_of_expression secondExpression)]
    exact .connective dual firstNegation.negates secondNegation.negates
  · simp [loose]
  · intro _
    exact four

end Operations

/-- The negation of a binary operation, from the negations of its operands. -/
theorem hasNegation_binary {operator : String} {parts : List Phrase} {level offset : Nat}
    {fields : List String} {source : Text}
    (grouped : (apply (.binary operator) parts).Grouped)
    (lexed : Lexed (apply (.binary operator) parts).lexemes [])
    (expression : (apply (.binary operator) parts).role = .expression level)
    (stands : (apply (.binary operator) parts).StandsAt source offset)
    (operands : ∀ part ∈ parts, ∀ level, part.role = .expression level → ∀ offset fields,
      Lexed part.lexemes [] → part.StandsAt source offset →
        part.HasNegation (part.node offset fields) source) :
    (apply (.binary operator) parts).HasNegation
      ((apply (.binary operator) parts).node offset fields) source := by
  obtain ⟨fixity, left, space, space', right, found, rfl, acceptedLeft, acceptedRight,
    groupedLeft, groupedRight, ⟨levelLeft, expressionLeft⟩, levelRight, expressionRight⟩ :=
    exists_parts_binary grouped
  have operandLeft := ne_token_of_expression expressionLeft
  have operandRight := ne_token_of_expression expressionRight
  have properLeft := ne_gap_of_role operandLeft
  have properRight := ne_gap_of_role operandRight
  have lexedLeft : Lexed left.lexemes [] := lexed.part []
  have lexedRight : Lexed right.lexemes [] :=
    lexed.part [left, gap space, mark operator, gap space']
  have standsLeft : left.StandsAt source offset := stands.part []
  have standsRight := stands.part [left, gap space, mark operator, gap space']
  have whole_text := textIn_node (ne_gap_of_role (ne_token_of_expression expression)) stands fields
  generalize node_eq : (apply (.binary operator)
    [left, gap space, mark operator, gap space', right]).node offset fields = node at whole_text ⊢
  obtain ⟨leftFound, operatorFound, rightFound⟩ :=
    fields_binary found properLeft properRight node_eq.symm
  have kind : node.kind = "binary_expression" := by rw [← node_eq]; rfl
  have form := Node.form_of_binary kind leftFound operatorFound rightFound
  cases comparison : negatedComparison? operator with
  | some negated =>
    rw [Node.binaryForm, comparison] at form
    exact hasNegation_comparison comparison found groupedLeft groupedRight acceptedLeft
      acceptedRight lexedLeft lexedRight form (textIn_node properLeft standsLeft _)
      (textIn_node properRight standsRight _)
  | none =>
    cases connective : flippedConnective? operator with
    | some flipped =>
      rw [Node.binaryForm, comparison, connective] at form
      have logical : node.isLogical = true := by
        simp [Node.isLogical, Node.is, kind, operatorFound, connective]
      have loose : node.negationIsLoose = true := by
        simp [Node.negationIsLoose, Node.isUnaryNot, Node.is, kind, logical]
      exact hasNegation_connective connective operandLeft operandRight form loose
        (operands left (by simp) _ expressionLeft offset ["left"] lexedLeft standsLeft)
        (operands right (by simp) _ expressionRight _ ["right"] lexedRight standsRight)
    | none =>
      refine hasNegation_of_loose grouped lexed expression whole_text ?_
      rw [form, Node.binaryForm, comparison, connective]

/-- What the `!` of a phrase is dropped from is its negation, where that is what its node
finds under the `!`. -/
theorem hasNegation_dropped {argument bare : Phrase} {space source : Text} {level offset : Nat}
    {fields : List String} {node : Node} (kind : node.kind = "unary_expression")
    (operatorFound : node.operator? = some "!")
    (found : node.negatedOperand? = some (bare.node offset fields)) (grouped : bare.Grouped)
    (lexed : Lexed bare.lexemes []) (stands : bare.StandsAt source offset)
    (expression : bare.role = .expression level) (operand : argument.role ≠ .token)
    (negates : (Expression.apply (.unary "!") [argument.expression]).Negates bare.expression) :
    (apply (.unary "!") [mark "!", gap space, argument]).HasNegation node source := by
  have isNot : node.isUnaryNot = true := by simp [Node.isUnaryNot, Node.is, kind, operatorFound]
  have form := Node.form_of_not kind operatorFound
  rw [found] at form
  refine ⟨bare, level, ⟨grouped, lexed, ?_, ?_⟩, expression, ?_, ?_⟩
  · rw [Node.negation_eq, form]
    exact (textIn_node (ne_gap_of_role (ne_token_of_expression expression)) stands _).symm
  · rw [expression_unary operand]
    exact negates
  · intro tight
    rw [Node.negationIsLoose, if_pos isNot, found] at tight
    exact le_of_not_bindsLoosely grouped expression tight
  · simp [Node.isLogical, Node.is, kind]

/-- The negation of a negation is what stands under the `!`. -/
theorem hasNegation_not {parts : List Phrase} {offset : Nat} {fields : List String} {source : Text}
    (grouped : (apply (.unary "!") parts).Grouped)
    (lexed : Lexed (apply (.unary "!") parts).lexemes [])
    (stands : (apply (.unary "!") parts).StandsAt source offset) :
    (apply (.unary "!") parts).HasNegation
      ((apply (.unary "!") parts).node offset fields) source := by
  obtain ⟨space, argument, rfl, accepted, groupedArgument⟩ := exists_parts_unary grouped
  obtain ⟨level, expression⟩ := isExpression_of_accepts accepted (by simp)
  have operand := ne_token_of_expression expression
  have lexedArgument : Lexed argument.lexemes [] := lexed.part [mark "!", gap space]
  have standsArgument := stands.part [mark "!", gap space]
  generalize node_eq :
    (apply (.unary "!") [mark "!", gap space, argument]).node offset fields = node
  obtain ⟨operatorFound, argumentFound⟩ := fields_unary (ne_gap_of_role operand) node_eq.symm
  have kind : node.kind = "unary_expression" := by rw [← node_eq]; rfl
  cases parenthesized : (argument.node (offset + (written (lexemesOf
      [mark "!", gap space])).byteLength) ["argument"]).is "parenthesized_expression" with
  | false =>
    exact hasNegation_dropped kind operatorFound
      (Node.negatedOperand?_of_bare argumentFound parenthesized) groupedArgument lexedArgument
      standsArgument expression operand .dropped
  | true =>
    obtain ⟨production, parts, rfl, bracket⟩ :=
      exists_apply_of_is groupedArgument operand (by decide) parenthesized
    obtain rfl := Production.eq_parentheses_of_kind bracket
    obtain ⟨before, inner, after, rfl, acceptedInner, groupedInner⟩ :=
      exists_parts_parentheses groupedArgument
    obtain ⟨innerLevel, innerExpression⟩ := isExpression_of_accepts acceptedInner (by simp)
    have innerOperand := ne_token_of_expression innerExpression
    refine hasNegation_dropped kind operatorFound
      (Node.negatedOperand?_of_parenthesized argumentFound parenthesized
        (namedChildren_parentheses innerOperand rfl)) groupedInner
      (lexedArgument.part [mark "(", gap before]) (standsArgument.part [mark "(", gap before])
      innerExpression operand ?_
    rw [expression_parentheses innerOperand]
    exact .unwrapped

theorem isUnaryNot_apply {production : Production} {parts : List Phrase}
    (grouped : (apply production parts).Grouped) {offset : Nat} {fields : List String} :
    ((apply production parts).node offset fields).isUnaryNot = true ↔ production = .unary "!" := by
  rw [Node.isUnaryNot, Bool.and_eq_true]
  constructor
  · rintro ⟨unary, operatorFound⟩
    obtain ⟨operator, rfl⟩ := Production.exists_unary_of_kind (beq_iff_eq.1 unary)
    rw [operator?_unary grouped] at operatorFound
    rw [Option.some.inj (beq_iff_eq.1 operatorFound)]
  · rintro rfl
    rw [operator?_unary grouped]
    exact ⟨rfl, rfl⟩

/-- The name of a truth value as a phrase. -/
def constant (value : Bool) : Phrase :=
  atom (if value then "true" else "false") (if value then "true" else "false").toList []

theorem grouped_constant (value : Bool) : (constant value).Grouped := by
  cases value
  · exact .atom ⟨by decide, by decide, by decide, by decide, by decide, by decide, by simp⟩
  · exact .atom ⟨by decide, by decide, by decide, by decide, by decide, by decide, by simp⟩

theorem hasNegation_constant {value : Bool} {phrase : Phrase} {node : Node} {source : Text}
    (form : node.form = .constant value)
    (expression : phrase.expression = (constant value).expression) :
    phrase.HasNegation node source := by
  refine ⟨constant (!value), 18, ⟨grouped_constant _, ?_, ?_, ?_⟩, rfl, by omega, by omega⟩
  · cases value
    · exact ⟨by decide, by decide, trivial⟩
    · exact ⟨by decide, by decide, trivial⟩
  · rw [Node.negation_eq, form]
    cases value <;> rfl
  · rw [expression]
    cases value
    · exact .constant false
    · exact .constant true

/-- The negation of an atom. -/
theorem hasNegation_atom {kind : String} {token : Text} {below : List Node} {offset : Nat}
    {fields : List String} {source : Text} (isAtom : IsAtom kind token below)
    (lexed : Lexed (atom kind token below).lexemes [])
    (stands : (atom kind token below).StandsAt source offset) :
    (atom kind token below).HasNegation ((atom kind token below).node offset fields) source := by
  have kind_eq : ((atom kind token below).node offset fields).kind = kind := rfl
  have text_eq := textIn_node (by simp) stands fields
  generalize (atom kind token below).node offset fields = node at kind_eq text_eq ⊢
  have compound {other : String} (member : other ∈ compoundKinds) : node.is other = false := by
    refine beq_eq_false_iff_ne.2 ?_
    rw [kind_eq]
    rintro rfl
    exact isAtom.notCompound member
  have notBinary := @compound "binary_expression" (by decide)
  have notUnary := @compound "unary_expression" (by decide)
  by_cases isTrue : kind = "true"
  · have form : node.form = .constant true := by simp [Node.form, Node.is, kind_eq, isTrue]
    exact hasNegation_constant form (by rw [isAtom.isTrue.1 isTrue]; rfl)
  by_cases isFalse : kind = "false"
  · have form : node.form = .constant false := by simp [Node.form, Node.is, kind_eq, isFalse]
    exact hasNegation_constant form (by rw [isAtom.isFalse.1 isFalse]; rfl)
  · exact hasNegation_of_plain (.atom isAtom) lexed rfl text_eq (fun _ => by decide)
      (by simp [Node.is, kind_eq, isTrue]) (by simp [Node.is, kind_eq, isFalse]) notBinary
      (by simp [Node.isUnaryNot, notUnary])

theorem le_of_tight {production : Production} {level : Nat}
    (tight : Node.tightKinds.contains production.kind = true)
    (expression : production.role = .expression level) : 15 ≤ level := by
  cases production with
  | binary operator => simp [Node.tightKinds, Production.kind] at tight
  | conditional => simp [Node.tightKinds, Production.kind] at tight
  | assignment operator =>
    by_cases plain : operator = "=" <;> simp [Node.tightKinds, Production.kind, plain] at tight
  | sequence count => simp [Node.tightKinds, Production.kind] at tight
  | arguments count => cases expression
  | _ => cases expression; decide

/-- **The text of a negation groups to an expression that negates the phrase.** -/
theorem hasNegation {phrase : Phrase} {level offset : Nat} {fields : List String} {source : Text}
    (grouped : phrase.Grouped) (lexed : Lexed phrase.lexemes [])
    (expression : phrase.role = .expression level) (stands : phrase.StandsAt source offset) :
    phrase.HasNegation (phrase.node offset fields) source := by
  induction grouped generalizing level offset fields with
  | gap => cases expression
  | mark => cases expression
  | name => cases expression
  | atom isAtom => exact hasNegation_atom isAtom lexed stands
  | @apply production parts valid fills grouped ih =>
    have whole : (apply production parts).Grouped := .apply valid fills grouped
    by_cases binary : ((apply production parts).node offset fields).is "binary_expression" = true
    · obtain ⟨operator, rfl⟩ := Production.exists_binary_of_kind (beq_iff_eq.1 binary)
      exact hasNegation_binary whole lexed expression stands
        fun part member level expression offset fields lexed stands =>
          ih part member lexed expression stands
    by_cases negation : ((apply production parts).node offset fields).isUnaryNot = true
    · obtain rfl := (isUnaryNot_apply whole).1 negation
      exact hasNegation_not whole lexed stands
    · have proper := ne_gap_of_role (ne_token_of_expression expression)
      obtain ⟨notTrue, notFalse⟩ := production.kind_ne_constant
      refine hasNegation_of_plain whole lexed expression (textIn_node proper stands fields) ?_
        (beq_eq_false_iff_ne.2 notTrue) (beq_eq_false_iff_ne.2 notFalse)
        (Bool.eq_false_iff.2 binary) (Bool.eq_false_iff.2 negation)
      exact fun tight => le_of_tight tight expression

end Phrase
end Retouch
