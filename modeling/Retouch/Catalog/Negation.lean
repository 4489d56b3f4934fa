import Retouch.Tree.Site

/-!
# Negations

The negation of an expression as source text.  A comparison has its operator turned
round; a conjunction or disjunction is negated operand by operand, with the other
operator between them; a leading `!` is dropped.  Whatever else there is gets a `!`
in front, in parentheses unless it binds tightly enough.

Which of these an expression is, its *form*, is read off the node first; the text is
then built from the form.
-/

set_option autoImplicit false

namespace Retouch

/-! ## Operators -/

/-- The comparison that holds when the given one does not. -/
def negatedComparison? : String → Option String
  | "===" => some "!=="
  | "!==" => some "==="
  | "==" => some "!="
  | "!=" => some "=="
  | "<" => some ">="
  | ">=" => some "<"
  | ">" => some "<="
  | "<=" => some ">"
  | _ => none

/-- The connective that stands between negated operands. -/
def flippedConnective? : String → Option String
  | "&&" => some "||"
  | "||" => some "&&"
  | _ => none

namespace Node

def isUnaryNot (node : Node) : Bool :=
  node.is "unary_expression" && node.operator? == some "!"

/-- A conjunction or a disjunction. -/
def isLogical (node : Node) : Bool :=
  node.is "binary_expression" && (node.operator?.bind flippedConnective?).isSome

/-- The operand of a `!`, without the parentheses around it. -/
def negatedOperand? (node : Node) : Option Node := do
  let operand ← node.field? "argument"
  if operand.is "parenthesized_expression" then
    return operand.namedChildren.head?.getD operand
  else return operand

/-- Whether an expression binds more loosely than `&&`, or may not stand beside it
without parentheses. -/
def bindsLoosely (node : Node) : Bool :=
  if node.is "binary_expression" then
    node.operator?.any (["&&", "||", "??"].contains ·)
  else
    ["ternary_expression", "assignment_expression", "augmented_assignment_expression",
      "sequence_expression", "arrow_function", "yield_expression"].contains node.kind

/-! ## Forms -/

/-- What an expression is as far as its negation is concerned. -/
inductive Form where
  | constant (value : Bool)
  | comparison (left : Node) (negated : String) (right : Node)
  | logical (left : Node) (flipped : String) (right : Node)
  | negation (operand : Option Node)
  | tight
  | loose

/-- The form of a binary expression with its parts. -/
def binaryForm (left : Node) (operator : String) (right : Node) : Form :=
  match negatedComparison? operator, flippedConnective? operator with
  | some negated, _ => .comparison left negated right
  | none, some flipped => .logical left flipped right
  | none, none => .loose

/-- The kinds before which a `!` can stand. -/
def tightKinds : List String :=
  ["identifier", "this", "member_expression", "subscript_expression", "call_expression",
    "parenthesized_expression"]

def form (node : Node) : Form :=
  if node.is "true" then .constant true
  else if node.is "false" then .constant false
  else if node.is "binary_expression" then
    match node.field? "left", node.operator?, node.field? "right" with
    | some left, some operator, some right => binaryForm left operator right
    | _, _, _ => .loose
  else if node.isUnaryNot then .negation node.negatedOperand?
  else if tightKinds.contains node.kind then .tight
  else .loose

theorem binaryForm_eq_logical {left right first second : Node} {operator flipped : String}
    (same : binaryForm left operator right = .logical first flipped second) :
    left = first ∧ right = second := by
  unfold binaryForm at same
  split at same <;> simp_all

theorem size_of_form_logical {node left right : Node} {flipped : String}
    (same : node.form = .logical left flipped right) :
    left.size < node.size ∧ right.size < node.size := by
  unfold form at same
  split at same
  · cases same
  split at same
  · cases same
  split at same
  · split at same
    · rename_i foundLeft _ foundRight
      obtain ⟨rfl, rfl⟩ := binaryForm_eq_logical same
      exact ⟨size_field foundLeft, size_field foundRight⟩
    · cases same
  split at same
  · cases same
  split at same
  · cases same
  · cases same

/-! ## Texts -/

def parenthesized (text : Text) : Text := '(' :: text ++ [')']

/-- Whether the negation of an operand needs parentheses beside a connective. -/
def negationIsLoose (node : Node) : Bool :=
  if node.isUnaryNot then node.negatedOperand?.any bindsLoosely else node.isLogical

/-- The negation of an operand, as it stands beside a connective. -/
def besideConnective (operand : Node) (negated : Text) : Text :=
  if operand.negationIsLoose then parenthesized negated else negated

/-- The negation of an expression of a source. -/
def negation (source : Text) (node : Node) : Text :=
  match _same : node.form with
  | .constant value => (if value then "false" else "true").toList
  | .comparison left negated right =>
    left.textIn source ++ ' ' :: negated.toList ++ ' ' :: right.textIn source
  | .logical left flipped right =>
    besideConnective left (negation source left) ++ ' ' :: flipped.toList ++
      ' ' :: besideConnective right (negation source right)
  | .negation (some operand) => operand.textIn source
  | .negation none => '!' :: node.textIn source
  | .tight => '!' :: node.textIn source
  | .loose => '!' :: parenthesized (node.textIn source)
termination_by node.size
decreasing_by
  · exact (size_of_form_logical _same).1
  · exact (size_of_form_logical _same).2

end Node
end Retouch
