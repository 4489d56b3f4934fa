import Retouch.Catalog.Negation
import Retouch.Refactoring.Basic

/-!
# Negating an expression in place

A comparison, a conjunction or a disjunction is written as the negation of its
negation, so that its value stays.  A `!` with parentheses that already stands around
it is taken in: then the negation alone takes the place of both, in parentheses where
the surroundings would otherwise group it differently.
-/

set_option autoImplicit false

namespace Retouch
namespace NegateExpression

/-- Whether an operator can be negated. -/
def isNegatableOperator (operator : String) : Bool :=
  (negatedComparison? operator).isSome || (flippedConnective? operator).isSome

def accepts (selection : Selection) (site : Site) : Bool :=
  site.is "binary_expression" && site.operator?.any isNegatableOperator &&
    selection.isInside site.range

/-- The `!` whose parentheses a site stands in. -/
def enclosingNot? (site : Site) : Option Site := do
  let parentheses ← site.parent?
  if parentheses.is "parenthesized_expression" then
    let outer ← parentheses.parent?
    if outer.node.isUnaryNot then some outer else none
  else none

/-- Whether the negation of an expression needs parentheses in the place of a `!`. -/
def needsParentheses (expression unary : Site) : Bool :=
  match unary.parent? with
  | none => false
  | some parent =>
    if parent.is "binary_expression" then
      expression.node.isLogical || !parent.node.isLogical
    else
      ["unary_expression", "await_expression", "member_expression", "subscript_expression",
        "call_expression"].contains parent.kind

/-- What takes the place of which range. -/
def edit (expression : Site) : Edit :=
  let negated := expression.node.negation expression.source
  match enclosingNot? expression with
  | some unary =>
    if needsParentheses expression unary then ⟨Node.parenthesized negated, unary.range⟩
    else ⟨negated, unary.range⟩
  | none => ⟨'!' :: Node.parenthesized negated, expression.range⟩

/-- The title that shows a replacement. -/
def titleFor (replacement : Text) : String :=
  "Negate the expression (" ++ String.ofList replacement ++ ")"

/-- Claims an expression under a title that shows its replacement. -/
def visit (site : Site) : Claiming Unit Unit := do
  if accepts (← Claiming.selection) site then
    Claiming.claim (some (titleFor (edit site).code))

def plan? (tree : Tree) (selection : Selection) : Option Plan := do
  let expression ← tree.innermost? (accepts selection)
  return .single (edit expression)

end NegateExpression

def negateExpression : Refactoring Unit where
  id := "negate-expression"
  title := "Negate the expression"
  kind := .reshape
  isPreferred := false
  memory := ()
  visitor := ⟨[(.category .expression, .onEnter NegateExpression.visit)]⟩
  execute := Plan.execution .noNegatableExpression NegateExpression.plan?

end Retouch
