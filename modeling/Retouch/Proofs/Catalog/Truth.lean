import Retouch.Proofs.Catalog.NegateExpression

/-!
# Negation under truth valuations

A truth valuation tells of each expression whether it holds.  It follows the rules of `!`, `&&`,
`||` and parentheses, and of two operators that negate each other exactly one holds between any
two expressions; about everything else it decides as it likes, and no expression has to be a
boolean (`TruthValuation`).  Every assignment of truth values to the other expressions extends
to one (`TruthValuation.extending`).

**The negation of an expression groups to its logical negation** (`Node.negation_is_opposite`).
Beside the connective of the negation stand the negations of the operands, grouped as they are by
themselves, whether or not they were put in parentheses.
-/

set_option autoImplicit false

namespace Retouch

open Phrase NegateExpression

/-! ## Truth -/

/-- **A reading of expressions as true or false.** -/
structure TruthValuation where
  holds : Expression → Bool
  constant : ∀ value, holds (.atom (if value then "true" else "false").toList) = value
  parentheses : ∀ inner, holds (.apply .parentheses [inner]) = holds inner
  not : ∀ operand, holds (.apply (.unary "!") [operand]) = !holds operand
  and : ∀ left right, holds (.apply (.binary "&&") [left, right]) = (holds left && holds right)
  or : ∀ left right, holds (.apply (.binary "||") [left, right]) = (holds left || holds right)
  /-- A comparison and its negation are complementary. -/
  comparison : ∀ operator negated, negatedComparison? operator = some negated →
    ∀ left right, holds (.apply (.binary negated) [left, right]) =
      !holds (.apply (.binary operator) [left, right])

/-- Whether an expression holds when its other parts hold as given: those that are neither made
of connectives and parentheses nor one half of a complementary pair of comparisons. -/
def Expression.holdsGiven (given : Expression → Bool) : Expression → Bool
  | .atom text =>
    if text = "true".toList then true else if text = "false".toList then false
    else given (.atom text)
  | .apply .parentheses [inner] => inner.holdsGiven given
  | .apply (.unary "!") [operand] => !operand.holdsGiven given
  | .apply (.binary "&&") [left, right] => left.holdsGiven given && right.holdsGiven given
  | .apply (.binary "||") [left, right] => left.holdsGiven given || right.holdsGiven given
  | .apply (.binary "!=") [left, right] => !given (.apply (.binary "==") [left, right])
  | .apply (.binary "!==") [left, right] => !given (.apply (.binary "===") [left, right])
  | .apply (.binary ">=") [left, right] => !given (.apply (.binary "<") [left, right])
  | .apply (.binary "<=") [left, right] => !given (.apply (.binary ">") [left, right])
  | other => given other

namespace TruthValuation

/-- **Every assignment of truth values extends to a valuation.** -/
def extending (given : Expression → Bool) : TruthValuation where
  holds := Expression.holdsGiven given
  constant value := by cases value <;> rfl
  parentheses inner := rfl
  not operand := rfl
  and left right := rfl
  or left right := rfl
  comparison := by
    intro operator negated complementary left right
    unfold negatedComparison? at complementary
    split at complementary <;> cases complementary <;> simp [Expression.holdsGiven]

variable (valuation : TruthValuation)

/-- **What negates an expression holds when it does not.** -/
theorem holds_of_negates {expression negated : Expression} (negates : expression.Negates negated) :
    valuation.holds negated = !valuation.holds expression := by
  induction negates with
  | constant value =>
    have negated := valuation.constant (!value)
    rw [valuation.constant, ← negated]
    cases value <;> rfl
  | comparison complementary => exact valuation.comparison _ _ complementary _ _
  | connective dual first second ihLeft ihRight =>
    unfold flippedConnective? at dual
    split at dual
    · obtain rfl := Option.some.inj dual
      rw [valuation.and, valuation.or, ihLeft, ihRight, Bool.not_and]
    · obtain rfl := Option.some.inj dual
      rw [valuation.and, valuation.or, ihLeft, ihRight, Bool.not_or]
    · cases dual
  | dropped => rw [valuation.not, Bool.not_not]
  | unwrapped => rw [valuation.not, valuation.parentheses, Bool.not_not]
  | prefixed => exact valuation.not _
  | bracketed => rw [valuation.not, valuation.parentheses]
  | parenthesized inner ih => rw [valuation.parentheses, ih]

end TruthValuation

/-! ## Operands beside a connective -/

theorem Phrase.IsNegation.groups {phrase negated : Phrase} {text : Text}
    (isNegation : phrase.IsNegation text negated) (expression : negated.IsExpression) :
    text.Groups negated.expression :=
  ⟨negated, isNegation.grouped, expression, isNegation.lexed, isNegation.text_eq, rfl⟩

/-- **The negations of the operands keep their grouping beside the flipped connective.** -/
theorem Phrase.exists_groups_flipped {phrase : Phrase} {level offset : Nat}
    {fields : List String} {source : Text} {left right : Node} {flipped : String}
    (grouped : phrase.Grouped) (lexed : Lexed phrase.lexemes [])
    (expression : phrase.role = .expression level) (stands : phrase.StandsAt source offset)
    (form : (phrase.node offset fields).form = .logical left flipped right) :
    ∃ first second,
      (left.besideConnective (left.negation source)).Groups first ∧
      (right.besideConnective (right.negation source)).Groups second ∧
      ((phrase.node offset fields).negation source).Groups
        (.apply (.binary flipped) [first, second]) := by
  obtain ⟨binary, inLeft, inRight, operator, operatorFound, dual⟩ :=
    Node.exists_of_form_logical form
  obtain ⟨production, parts, rfl, kind⟩ :=
    exists_apply_of_is grouped (ne_token_of_expression expression) (by decide) binary
  obtain ⟨symbol, rfl⟩ := Production.exists_binary_of_kind kind
  obtain ⟨fixity, leftPart, space, space', rightPart, found, rfl, -, -, groupedLeft, groupedRight,
    ⟨levelLeft, expressionLeft⟩, levelRight, expressionRight⟩ := exists_parts_binary grouped
  generalize node_eq : (apply (.binary symbol)
    [leftPart, gap space, mark symbol, gap space', rightPart]).node offset fields = node at *
  obtain ⟨leftFound, -, rightFound⟩ := fields_binary found
    (ne_gap_of_role (ne_token_of_expression expressionLeft))
    (ne_gap_of_role (ne_token_of_expression expressionRight)) node_eq.symm
  obtain rfl := Option.some.inj (leftFound.symm.trans inLeft)
  obtain rfl := Option.some.inj (rightFound.symm.trans inRight)
  have negationLeft : leftPart.HasNegation (leftPart.node offset ["left"]) source :=
    hasNegation groupedLeft (lexed.part []) expressionLeft (stands.part [])
  have negationRight : rightPart.HasNegation (rightPart.node _ ["right"]) source :=
    hasNegation groupedRight (lexed.part [leftPart, gap space, mark symbol, gap space'])
      expressionRight (stands.part [leftPart, gap space, mark symbol, gap space'])
  obtain ⟨first, second, ⟨firstLevel, firstExpression⟩, ⟨secondLevel, secondExpression⟩,
    firstNegation, secondNegation, spacedGrouped, spacedLexed, text_eq⟩ :=
    exists_spaced_flipped dual form negationLeft negationRight
  refine ⟨_, _, firstNegation.groups ⟨_, firstExpression⟩,
    secondNegation.groups ⟨_, secondExpression⟩, _, spacedGrouped, ?_, spacedLexed, text_eq, ?_⟩
  · obtain ⟨-, fixity, found, -⟩ := fixity?_of_flippedConnective? dual
    exact ⟨_, Production.role_binary found⟩
  · rw [spaced, expression_binary (ne_token_of_expression firstExpression)
      (ne_token_of_expression secondExpression)]

/-! ## The negation of an expression -/

/-- **The text of a negation groups to the logical negation.**  Given is an expression in a
source, parsed as the grammar groups it.  The text of its negation groups to exactly one
expression, and that holds under a truth valuation exactly where the expression does not.  If the
expression is a conjunction or a disjunction, what stands on either side of the flipped connective
groups as it does alone, with the parentheses of an operand that was given some and without them
otherwise. -/
theorem Node.negation_is_opposite {root : Phrase} {whole : Site} {before after : Text}
    (parsed : NegateExpression.Parsed root whole before after) :
    ∃ negated,
      (∀ expression, (whole.node.negation whole.source).Groups expression ↔
        expression = negated) ∧
      (∀ valuation : TruthValuation,
        valuation.holds negated = !valuation.holds root.expression) ∧
      ∀ left flipped right, whole.node.form = .logical left flipped right →
        ∃ first second, negated = .apply (.binary flipped) [first, second] ∧
          (left.besideConnective (left.negation whole.source)).Groups first ∧
          (right.besideConnective (right.negation whole.source)).Groups second := by
  obtain ⟨fields, node_eq⟩ := parsed.node_eq
  obtain ⟨level, expression⟩ := parsed.isExpression
  have stands : root.StandsAt whole.source before.byteLength :=
    ⟨before, after, parsed.source_eq, rfl⟩
  have negation : root.HasNegation whole.node whole.source := by
    rw [node_eq]
    exact hasNegation parsed.grouped parsed.lexed expression stands
  obtain ⟨negated, negatedLevel, isNegation, negatedExpression, -⟩ := negation
  have groups := isNegation.groups ⟨_, negatedExpression⟩
  -- The text groups in one way only, so the operands found apart are those of this grouping.
  refine ⟨negated.expression, fun other => ⟨fun groups' => groups'.unique groups, ?_⟩,
    fun valuation => valuation.holds_of_negates isNegation.negates, ?_⟩
  · rintro rfl
    exact groups
  · intro left flipped right form
    rw [node_eq] at form
    obtain ⟨first, second, firstGroups, secondGroups, groups'⟩ :=
      exists_groups_flipped parsed.grouped parsed.lexed expression stands form
    rw [← node_eq] at groups'
    exact ⟨first, second, groups.unique groups', firstGroups, secondGroups⟩

/-- The expression `!(a ?? b) && c < d`. -/
def fallback : Phrase :=
  ((letter 'a').spaced "??" (letter 'b')).wrapped.withNot.spaced "&&"
    ((letter 'c').spaced "<" (letter 'd'))

def fallbackSite : Site := ⟨fallback.text, fallback.node 0 [], []⟩

theorem parsed_fallback : Parsed fallback fallbackSite [] [] := by
  have coalesce : fixity? "??" = some ⟨3, .coalesced, 6⟩ := by decide
  have less : fixity? "<" = some (.leftToRight 10) := by decide
  have and : fixity? "&&" = some (.leftToRight 5) := by decide
  have first : (letter 'a').Grouped := grouped_letter (by decide) (by decide)
  have second : (letter 'b').Grouped := grouped_letter (by decide) (by decide)
  have third : (letter 'c').Grouped := grouped_letter (by decide) (by decide)
  have fourth : (letter 'd').Grouped := grouped_letter (by decide) (by decide)
  have default := grouped_spaced coalesce first second (by decide) (by decide)
  have defaultLexed : Lexed ((letter 'a').spaced "??" (letter 'b')).lexemes [] :=
    lexed_spaced coalesce (lexed_letter (by decide)) (lexed_letter (by decide))
  have bracket := grouped_wrapped default (by decide)
  have bracketLexed := lexed_wrapped default (by decide) defaultLexed []
  have comparison := grouped_spaced less third fourth (by decide) (by decide)
  have comparisonLexed : Lexed ((letter 'c').spaced "<" (letter 'd')).lexemes [] :=
    lexed_spaced less (lexed_letter (by decide)) (lexed_letter (by decide))
  refine ⟨?_, ⟨5, rfl⟩, ?_, rfl, [], rfl⟩
  · exact grouped_spaced and (grouped_withNot bracket (by decide)) comparison (by decide)
      (by decide)
  · exact lexed_spaced and (lexed_withNot bracket (by decide) bracketLexed) comparisonLexed

theorem Node.negation_is_opposite_fallback :
    let left := fallbackSite.node.children[0]!
    let right := fallbackSite.node.children[2]!
    Parsed fallback fallbackSite [] [] ∧ fallbackSite.node.form = .logical left "||" right ∧
      fallbackSite.node.negation fallbackSite.source = "(a ?? b) || c >= d".toList ∧
      ∃ first second,
        (∀ valuation : TruthValuation, valuation.holds (.apply (.binary "||") [first, second]) =
          !valuation.holds fallback.expression) ∧
        Text.Groups "(a ?? b) || c >= d".toList (.apply (.binary "||") [first, second]) ∧
        Text.Groups "(a ?? b)".toList first ∧ Text.Groups "c >= d".toList second := by
  intro left right
  have form : fallbackSite.node.form = .logical left "||" right := by rfl
  have besideLeft : left.besideConnective (left.negation fallbackSite.source) =
      "(a ?? b)".toList := by
    rw [Node.negation_eq]
    decide
  have besideRight : right.besideConnective (right.negation fallbackSite.source) =
      "c >= d".toList := by
    rw [Node.negation_eq]
    decide
  have text_eq : fallbackSite.node.negation fallbackSite.source = "(a ?? b) || c >= d".toList := by
    rw [Node.negation_eq, form]
    simp only [besideLeft, besideRight]
    decide
  obtain ⟨negated, unique, opposite, operands⟩ := Node.negation_is_opposite parsed_fallback
  obtain ⟨first, second, rfl, groupsLeft, groupsRight⟩ := operands left "||" right form
  rw [besideLeft] at groupsLeft
  rw [besideRight] at groupsRight
  rw [text_eq] at unique
  exact ⟨parsed_fallback, form, text_eq, first, second, opposite, (unique _).2 rfl, groupsLeft,
    groupsRight⟩

end Retouch
