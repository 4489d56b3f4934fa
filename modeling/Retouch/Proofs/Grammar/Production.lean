import Retouch.Proofs.Grammar.Lexical

/-!
# Productions

The grammar of expressions.  A production puts operands together with marks and
keywords, in an order that its items list.  An expression has a *level*, which says how
tightly it binds, and each slot of a production takes the expressions of certain levels:
this is how precedence and associativity decide the grouping of a text.

| level | expression | level | expression |
|-------|------------|-------|------------|
| 0 | sequence | 9 | equality |
| 1 | assignment | 10 | relation |
| 2 | conditional | 11 | shift |
| 3 | `??` | 12 | sum |
| 4 | `\|\|` | 13 | product |
| 5 | `&&` | 14 | power |
| 6 to 8 | `\|`, `^`, `&` | 15 | prefix operator |
| 17 | call, member, subscript | 18 | atom, parentheses |
-/

set_option autoImplicit false

namespace Retouch

/-! ## Slots -/

/-- What a phrase is to the phrase around it. -/
inductive Role where
  | token
  | arguments
  | expression (level : Nat)
deriving DecidableEq

/-- What a place for an operand takes. -/
inductive Slot where
  | least (level : Nat)
  /-- The left operand of `??`: another `??`, or what binds more tightly than `&&`. -/
  | coalesced
  | arguments
deriving DecidableEq

def Slot.accepts : Slot → Role → Bool
  | .least bound, .expression level => bound ≤ level
  | .coalesced, .expression level => level == 3 || 6 ≤ level
  | .arguments, .arguments => true
  | _, _ => false

/-- From `||` upwards, what binds more tightly may stand wherever something may. -/
theorem Slot.accepts_of_le {slot : Slot} {level other : Nat}
    (accepted : slot.accepts (.expression level) = true) (logical : 4 ≤ level)
    (tighter : level ≤ other) : slot.accepts (.expression other) = true := by
  cases slot with
  | least bound =>
    simp only [accepts, decide_eq_true_eq] at accepted ⊢
    omega
  | coalesced =>
    simp only [accepts, Bool.or_eq_true, beq_iff_eq, decide_eq_true_eq] at accepted ⊢
    omega
  | arguments => cases accepted

/-! ## Operators -/

/-- How a binary operator groups: the level of what it makes, and what it takes on
either side. -/
structure Fixity where
  level : Nat
  left : Slot
  right : Nat
deriving DecidableEq

def Fixity.leftToRight (level : Nat) : Fixity := ⟨level, .least level, level + 1⟩

def binaryOperators : List (String × Fixity) :=
  [("??", ⟨3, .coalesced, 6⟩), ("||", .leftToRight 4), ("&&", .leftToRight 5),
    ("|", .leftToRight 6), ("^", .leftToRight 7), ("&", .leftToRight 8),
    ("==", .leftToRight 9), ("!=", .leftToRight 9), ("===", .leftToRight 9),
    ("!==", .leftToRight 9), ("<", .leftToRight 10), (">", .leftToRight 10),
    ("<=", .leftToRight 10), (">=", .leftToRight 10), ("in", .leftToRight 10),
    ("instanceof", .leftToRight 10), ("<<", .leftToRight 11), (">>", .leftToRight 11),
    (">>>", .leftToRight 11), ("+", .leftToRight 12), ("-", .leftToRight 12),
    ("*", .leftToRight 13), ("/", .leftToRight 13), ("%", .leftToRight 13),
    ("**", ⟨14, .least 16, 14⟩)]

def fixity? (operator : String) : Option Fixity := binaryOperators.lookup operator

theorem mem_binaryOperators {operator : String} {fixity : Fixity}
    (found : fixity? operator = some fixity) : (operator, fixity) ∈ binaryOperators := by
  obtain ⟨before, after, operators, -⟩ := List.lookup_eq_some_iff.1 found
  rw [operators]
  exact List.mem_append_right _ (.head _)

def unaryOperators : List String := ["!", "~", "+", "-", "typeof", "void", "delete"]

def assignmentOperators : List String :=
  ["=", "+=", "-=", "*=", "/=", "%=", "**=", "<<=", ">>=", ">>>=", "&=", "^=", "|=", "&&=", "||=",
    "??="]

/-! ## Items -/

/-- A part of a phrase: a gap, a mark or keyword, the name of a member, or an operand.
The field names are those under which the phrase finds the part. -/
inductive Item where
  | gap
  | mark (fields : List String) (text : String)
  | name (text : Text)
  | operand (fields : List String) (slot : Slot)
deriving DecidableEq

def Item.fields : Item → List String
  | gap => []
  | mark fields _ => fields
  | name _ => ["property"]
  | operand fields _ => fields

/-- Operands with commas between them. -/
def commaSeparated : Nat → List Item
  | 0 => []
  | 1 => [.operand [] (.least 1)]
  | count + 2 => .operand [] (.least 1) :: .mark [] "," :: commaSeparated (count + 1)

/-! ## Productions -/

/-- The ways of making an expression from others.  An argument list is made in the same
way but only stands in a call. -/
inductive Production where
  | parentheses
  | unary (operator : String)
  | await
  | binary (operator : String)
  | conditional
  | assignment (operator : String)
  | sequence (count : Nat)
  | call
  | arguments (count : Nat)
  | member (property : Text)
  | subscript
deriving DecidableEq

namespace Production

/-- The parts in order, without the gaps. -/
def outline : Production → List Item
  | parentheses => [.mark [] "(", .operand [] (.least 0), .mark [] ")"]
  | unary operator => [.mark ["operator"] operator, .operand ["argument"] (.least 15)]
  | await => [.mark [] "await", .operand [] (.least 15)]
  | binary operator =>
    match fixity? operator with
    | some fixity =>
      [.operand ["left"] fixity.left, .mark ["operator"] operator,
        .operand ["right"] (.least fixity.right)]
    | none => []
  | conditional =>
    [.operand ["condition"] (.least 3), .mark [] "?", .operand ["consequence"] (.least 1),
      .mark [] ":", .operand ["alternative"] (.least 1)]
  | assignment operator =>
    [.operand ["left"] (.least 17), .mark (if operator = "=" then [] else ["operator"]) operator,
      .operand ["right"] (.least 1)]
  | sequence count => commaSeparated count
  | call => [.operand ["function"] (.least 17), .operand ["arguments"] .arguments]
  | arguments count => .mark [] "(" :: commaSeparated count ++ [.mark [] ")"]
  | member property => [.operand ["object"] (.least 17), .mark [] ".", .name property]
  | subscript =>
    [.operand ["object"] (.least 17), .mark [] "[", .operand ["index"] (.least 0), .mark [] "]"]

/-- The parts in order, with a place for a gap between any two. -/
def items (production : Production) : List Item := production.outline.intersperse .gap

/-- What a production makes. -/
def role : Production → Role
  | parentheses => .expression 18
  | unary _ => .expression 15
  | await => .expression 15
  | binary operator => .expression (((fixity? operator).map Fixity.level).getD 0)
  | conditional => .expression 2
  | assignment _ => .expression 1
  | sequence _ => .expression 0
  | call => .expression 17
  | arguments _ => .arguments
  | member _ => .expression 17
  | subscript => .expression 17

theorem role_ne_token (production : Production) : production.role ≠ .token := by
  cases production <;> simp [role]

theorem role_binary {operator : String} {fixity : Fixity}
    (found : fixity? operator = some fixity) :
    (binary operator).role = .expression fixity.level := by
  rw [role, found]
  rfl

/-- The kind of node that a production makes. -/
def kind : Production → String
  | parentheses => "parenthesized_expression"
  | unary _ => "unary_expression"
  | await => "await_expression"
  | binary _ => "binary_expression"
  | conditional => "ternary_expression"
  | assignment operator =>
    if operator = "=" then "assignment_expression" else "augmented_assignment_expression"
  | sequence _ => "sequence_expression"
  | call => "call_expression"
  | arguments _ => "arguments"
  | member _ => "member_expression"
  | subscript => "subscript_expression"

/-- Whether a production is one of the language. -/
def isValid : Production → Bool
  | unary operator => unaryOperators.contains operator
  | binary operator => (fixity? operator).isSome
  | assignment operator => assignmentOperators.contains operator
  | sequence count => 2 ≤ count
  | member property => property.isToken && property.kind == .word
  | _ => true

/-! ## Kinds -/

variable {production : Production}

theorem eq_parentheses_of_kind (same : production.kind = "parenthesized_expression") :
    production = parentheses := by
  cases production with
  | parentheses => rfl
  | assignment operator => by_cases plain : operator = "=" <;> simp [kind, plain] at same
  | _ => simp [kind] at same

theorem exists_unary_of_kind (same : production.kind = "unary_expression") :
    ∃ operator, production = unary operator := by
  cases production with
  | unary operator => exact ⟨operator, rfl⟩
  | assignment operator => by_cases plain : operator = "=" <;> simp [kind, plain] at same
  | _ => simp [kind] at same

theorem exists_binary_of_kind (same : production.kind = "binary_expression") :
    ∃ operator, production = binary operator := by
  cases production with
  | binary operator => exact ⟨operator, rfl⟩
  | assignment operator => by_cases plain : operator = "=" <;> simp [kind, plain] at same
  | _ => simp [kind] at same

theorem kind_ne_constant (production : Production) :
    production.kind ≠ "true" ∧ production.kind ≠ "false" := by
  cases production with
  | assignment operator => by_cases plain : operator = "=" <;> simp [kind, plain]
  | _ => simp [kind]

end Production
end Retouch
