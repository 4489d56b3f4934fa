import Retouch.Catalog.Negation
import Retouch.Proofs.Grammar.Frame

/-!
# Meaning

A valuation gives every expression a value.  It may read atoms and operations as it
likes, as long as parentheses change nothing, `!`, `&&` and `||` compute with truth
values, and a comparison and its negation come out opposite.

One expression *negates* another (`Expression.Negates`) when it is made from it by
turning comparisons round, by De Morgan's laws, and by putting on or taking off a `!`.
**Its value is then the opposite one** wherever the connectives have booleans as their
operands (`Valuation.value_of_negates`).
-/

set_option autoImplicit false

namespace Retouch

universe u

/-! ## Values -/

/-- A reading of expressions as values. -/
structure Valuation (Value : Type u) where
  atom : Text → Value
  apply : Production → List Value → Value
  truth : Bool → Value
  parentheses : ∀ value, apply .parentheses [value] = value
  constant : ∀ value, atom (if value then "true" else "false").toList = truth value
  not : ∀ value, apply (.unary "!") [truth value] = truth (!value)
  and : ∀ left right, apply (.binary "&&") [truth left, truth right] = truth (left && right)
  or : ∀ left right, apply (.binary "||") [truth left, truth right] = truth (left || right)
  /-- A comparison and its negation are complementary. -/
  comparison : ∀ operator negated, negatedComparison? operator = some negated →
    ∀ left right, ∃ value, apply (.binary operator) [left, right] = truth value ∧
      apply (.binary negated) [left, right] = truth (!value)

/-- The reading by truth values alone: every atom but `true` is false, and a comparison
compares them with `false` below `true`. -/
instance : Inhabited (Valuation Bool) where
  default :=
    { atom := fun text => text == "true".toList
      apply := fun
        | .parentheses, [value] => value
        | .unary "!", [value] => !value
        | .binary "&&", [left, right] => left && right
        | .binary "||", [left, right] => left || right
        | .binary "==", [left, right] | .binary "===", [left, right] => left == right
        | .binary "!=", [left, right] | .binary "!==", [left, right] => left != right
        | .binary "<", [left, right] => !left && right
        | .binary ">=", [left, right] => left || !right
        | .binary ">", [left, right] => left && !right
        | .binary "<=", [left, right] => !left || right
        | _, _ => false
      truth := id
      parentheses := fun _ => rfl
      constant := by decide
      not := fun _ => rfl
      and := fun _ _ => rfl
      or := fun _ _ => rfl
      comparison := by
        intro operator negated complementary left right
        unfold negatedComparison? at complementary
        split at complementary <;> cases complementary <;>
          exact ⟨_, rfl, by cases left <;> cases right <;> rfl⟩ }

/-- The operations that compute with truth values. -/
def Production.isConnective : Production → Bool
  | unary operator => operator == "!"
  | binary operator => (flippedConnective? operator).isSome
  | _ => false

namespace Valuation

variable {Value : Type u} (valuation : Valuation Value)

mutual

/-- The value of an expression. -/
def value : Expression → Value
  | .atom text => valuation.atom text
  | .apply production operands => valuation.apply production (values operands)

def values : List Expression → List Value
  | [] => []
  | first :: rest => value first :: values rest

end

def IsBoolean (expression : Expression) : Prop :=
  ∃ truth, valuation.value expression = valuation.truth truth

/-- Whether everywhere in an expression the operands of `!`, `&&` and `||` are booleans. -/
inductive IsProper : Expression → Prop where
  | atom {text : Text} : IsProper (.atom text)
  | apply {production : Production} {operands : List Expression}
      (booleans : production.isConnective = true →
        ∀ operand ∈ operands, valuation.IsBoolean operand)
      (proper : ∀ operand ∈ operands, IsProper operand) :
      IsProper (.apply production operands)

variable {valuation}

theorem values_append (expressions more : List Expression) :
    valuation.values (expressions ++ more) =
      valuation.values expressions ++ valuation.values more := by
  induction expressions with
  | nil => rfl
  | cons first expressions ih => simp only [List.cons_append, values, ih]

/-! ## Values in place -/

/-- What stands around an expression sees only its value. -/
theorem value_within {phrase other : Phrase} {frames : List Frame}
    (operand : phrase.role ≠ .token) (otherOperand : other.role ≠ .token)
    (same : valuation.value other.expression = valuation.value phrase.expression) :
    valuation.value (other.within frames).expression =
      valuation.value (phrase.within frames).expression := by
  induction frames generalizing phrase other with
  | nil => exact same
  | cons frame frames ih =>
    refine ih (frame.role_fill_ne_token _) (frame.role_fill_ne_token _) ?_
    rw [expression_fill operand, expression_fill otherOperand]
    simp only [value, values_append, values, same]

theorem IsProper.of_within {phrase : Phrase} {frames : List Frame}
    (operand : phrase.role ≠ .token)
    (proper : valuation.IsProper (phrase.within frames).expression) :
    valuation.IsProper phrase.expression := by
  induction frames generalizing phrase with
  | nil => exact proper
  | cons frame frames ih =>
    have filled := ih (frame.role_fill_ne_token _) proper
    rw [expression_fill operand] at filled
    cases filled with
    | apply booleans operands => exact operands _ (by simp)

end Valuation

/-! ## Negations -/

/-- **Being made into the opposite.** -/
inductive Expression.Negates : Expression → Expression → Prop where
  | constant (value : Bool) :
      Negates (.atom (if value then "true" else "false").toList)
        (.atom (if value then "false" else "true").toList)
  | comparison {operator negated : String} {left right : Expression}
      (complementary : negatedComparison? operator = some negated) :
      Negates (.apply (.binary operator) [left, right]) (.apply (.binary negated) [left, right])
  | connective {operator flipped : String} {left right left' right' : Expression}
      (dual : flippedConnective? operator = some flipped) (first : Negates left left')
      (second : Negates right right') :
      Negates (.apply (.binary operator) [left, right]) (.apply (.binary flipped) [left', right'])
  | dropped {operand : Expression} : Negates (.apply (.unary "!") [operand]) operand
  | unwrapped {operand : Expression} :
      Negates (.apply (.unary "!") [.apply .parentheses [operand]]) operand
  | prefixed {expression : Expression} : Negates expression (.apply (.unary "!") [expression])
  | bracketed {expression : Expression} :
      Negates expression (.apply (.unary "!") [.apply .parentheses [expression]])
  | parenthesized {expression negated : Expression} (inner : Negates expression negated) :
      Negates expression (.apply .parentheses [negated])

namespace Valuation

variable {Value : Type u} {valuation : Valuation Value}

/-- De Morgan's laws. -/
theorem apply_flipped {operator flipped : String}
    (dual : flippedConnective? operator = some flipped) (left right : Bool) :
    ∃ value, valuation.apply (.binary operator) [valuation.truth left, valuation.truth right] =
        valuation.truth value ∧
      valuation.apply (.binary flipped) [valuation.truth (!left), valuation.truth (!right)] =
        valuation.truth (!value) := by
  unfold flippedConnective? at dual
  split at dual
  · obtain rfl := Option.some.inj dual
    exact ⟨left && right, valuation.and left right, by rw [valuation.or, Bool.not_and]⟩
  · obtain rfl := Option.some.inj dual
    exact ⟨left || right, valuation.or left right, by rw [valuation.and, Bool.not_or]⟩
  · cases dual

/-- **What negates an expression has the opposite value.** -/
theorem value_of_negates {expression negated : Expression} (negates : expression.Negates negated)
    (proper : valuation.IsProper expression) (boolean : valuation.IsBoolean expression) :
    ∃ value, valuation.value expression = valuation.truth value ∧
      valuation.value negated = valuation.truth (!value) := by
  induction negates with
  | constant value =>
    refine ⟨value, valuation.constant value, ?_⟩
    cases value
    · exact valuation.constant true
    · exact valuation.constant false
  | comparison complementary => exact valuation.comparison _ _ complementary _ _
  | @connective operator flipped left right left' right' dual first second ihLeft ihRight =>
    cases proper with
    | apply booleans operands =>
      have connective : (Production.binary operator).isConnective = true := by
        rw [Production.isConnective, dual]
        rfl
      obtain ⟨first, first_eq, first_eq'⟩ :=
        ihLeft (operands left (by simp)) (booleans connective left (by simp))
      obtain ⟨second, second_eq, second_eq'⟩ :=
        ihRight (operands right (by simp)) (booleans connective right (by simp))
      simp only [value, values, first_eq, first_eq', second_eq, second_eq']
      exact apply_flipped dual first second
  | dropped =>
    cases proper with
    | apply booleans operands =>
      obtain ⟨truth, truth_eq⟩ := booleans rfl _ (List.mem_singleton.2 rfl)
      refine ⟨!truth, ?_, by rw [truth_eq, Bool.not_not]⟩
      rw [value, values, values, truth_eq, valuation.not]
  | unwrapped =>
    cases proper with
    | apply booleans operands =>
      obtain ⟨truth, truth_eq⟩ := booleans rfl _ (List.mem_singleton.2 rfl)
      refine ⟨!truth, ?_, ?_⟩
      · rw [value, values, values, truth_eq, valuation.not]
      · simp only [value, values, valuation.parentheses] at truth_eq
        rw [truth_eq, Bool.not_not]
  | prefixed =>
    obtain ⟨truth, truth_eq⟩ := boolean
    exact ⟨truth, truth_eq, by rw [value, values, values, truth_eq, valuation.not]⟩
  | bracketed =>
    obtain ⟨truth, truth_eq⟩ := boolean
    refine ⟨truth, truth_eq, ?_⟩
    simp only [value, values, valuation.parentheses]
    rw [truth_eq, valuation.not]
  | parenthesized inner ih =>
    obtain ⟨truth, truth_eq, negated_eq⟩ := ih proper boolean
    exact ⟨truth, truth_eq, by rw [value, values, values, valuation.parentheses, negated_eq]⟩

end Valuation
end Retouch
