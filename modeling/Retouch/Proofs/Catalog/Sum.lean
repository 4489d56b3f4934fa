import Retouch.Proofs.Catalog.Concatenation

/-!
# The value of a chain

A sum of two numbers is a number, and every other sum is the text of its left side and then that of
its right side.  What the operands of a chain are may therefore decide its value: `1 + 2 + 'a'` is
the text `3a`, and not `12a`.

The operands of a chain are its right sides from some place on and what stands to the left of them
(`Concatenation.Spine`).  Only the first of them can hold sums with a string.  **So a chain with
a string among its operands has as its value their texts in order, and a chain in which all
strings are at the right has two operands** (`Concatenation.value_eq_operands`).

How numbers are added and written is left open, and so is what the values of expressions that
are neither sums nor strings are (`Concatenation.Meaning`).
-/

set_option autoImplicit false

namespace Retouch
namespace Concatenation

theorem not_isSum_of_isString {node : Node} (string : isString node = true) :
    isSum node = false := by
  rw [isString, Bool.or_eq_true] at string
  rw [isSum, Bool.and_eq_false_iff]
  left
  rcases string with string | string <;> rw [Node.is, eq_of_beq string] <;> rfl

/-- A string is its only operand. -/
theorem any_operands_of_isString {node : Node} (string : isString node = true) :
    (operands node).any isString = true := by
  rw [operands_of_not_isSum (not_isSum_of_isString string)]
  simpa using string

/-- A value that sums are made of. -/
inductive Primitive (Number : Type) where
  | number (number : Number)
  | text (text : Text)

/-- **What expressions mean**, apart from sums.  A string is some text, and everything else is a
number or a text. -/
structure Meaning (Number : Type) where
  add : Number → Number → Number
  written : Number → Text
  ofString : Node → Text
  ofOther : Node → Primitive Number

namespace Meaning

variable {Number : Type} (meaning : Meaning Number)

/-- The text for a value. -/
def textOf : Primitive Number → Text
  | .number number => meaning.written number
  | .text text => text

@[simp]
theorem textOf_text (text : Text) : meaning.textOf (.text text) = text := rfl

/-- Numbers are added, and with a text there is a text. -/
def sum : Primitive Number → Primitive Number → Primitive Number
  | .number left, .number right => .number (meaning.add left right)
  | left, right => .text (meaning.textOf left ++ meaning.textOf right)

@[simp]
theorem sum_text_left (left : Text) (right : Primitive Number) :
    meaning.sum (.text left) right = .text (left ++ meaning.textOf right) := rfl

@[simp]
theorem sum_text_right (left : Primitive Number) (right : Text) :
    meaning.sum left (.text right) = .text (meaning.textOf left ++ right) := by
  cases left <;> rfl

/-- The value of what is no sum. -/
def ofOperand (node : Node) : Primitive Number :=
  if isString node then .text (meaning.ofString node) else meaning.ofOther node

/-- **The value of an expression.** -/
def value (node : Node) : Primitive Number :=
  match _left : node.field? "left", _right : node.field? "right" with
  | some left, some right =>
    if isSum node then meaning.sum (value left) (value right) else meaning.ofOperand node
  | _, _ => meaning.ofOperand node
termination_by node.size
decreasing_by
  · exact Node.size_field _left
  · exact Node.size_field _right

theorem value_of_isSum {node left right : Node} (isSum : isSum node = true)
    (inLeft : node.field? "left" = some left) (inRight : node.field? "right" = some right) :
    meaning.value node = meaning.sum (meaning.value left) (meaning.value right) := by
  rw [value]
  split
  · rename_i first last inLeft' inRight'
    obtain rfl := Option.some.inj (inLeft.symm.trans inLeft')
    obtain rfl := Option.some.inj (inRight.symm.trans inRight')
    rw [if_pos isSum]
  · rename_i incomplete
    exact absurd inRight (incomplete left right inLeft)

theorem value_of_not_isSum {node : Node} (other : Concatenation.isSum node = false) :
    meaning.value node = meaning.ofOperand node := by
  rw [value]
  split
  · rw [if_neg (by rw [other]; decide)]
  · rfl

theorem value_of_isString {node : Node} (string : isString node = true) :
    meaning.value node = .text (meaning.ofString node) := by
  rw [value_of_not_isSum meaning (not_isSum_of_isString string), ofOperand, if_pos string]

end Meaning

/-- **How a chain is made of its operands**: a first one, and those added to it from the left to
the right. -/
inductive Spine (first : Node) : List Node → Node → Prop where
  | first : Spine first [] first
  | sum {chain left right : Node} {added : List Node} (isSum : isSum chain = true)
      (inLeft : chain.field? "left" = some left) (inRight : chain.field? "right" = some right)
      (spine : Spine first added left) : Spine first (added ++ [right]) chain

/-- What holds of everything that is its only operand, and of a sum if of its left side, holds of
every node. -/
theorem chain_induction {motive : Node → Prop}
    (single : ∀ node, operands node = [node] → motive node)
    (sum : ∀ chain left right, isSum chain = true → chain.field? "left" = some left →
      chain.field? "right" = some right → motive left → motive chain) (node : Node) :
    motive node := by
  induction node using operands.induct with
  | case1 chain left right inLeft inRight isSum ih =>
    exact sum chain left right isSum inLeft inRight ih
  | case2 node _ _ _ _ other => exact single node (operands_of_not_isSum (by simpa using other))
  | case3 node incomplete =>
    refine single node ?_
    rw [operands]
    split
    · rename_i inLeft inRight
      exact absurd inRight (incomplete _ _ inLeft)
    · rfl

/-- A sum whose left side builds no string has two operands. -/
theorem operands_of_stringless {chain left right : Node} (isSum : isSum chain = true)
    (inLeft : chain.field? "left" = some left) (inRight : chain.field? "right" = some right)
    (stringless : (operands left).any isString = false) : operands chain = [left, right] := by
  rw [operands_of_isSum isSum inLeft inRight, if_neg (by rw [stringless]; decide)]
  rfl

theorem operands_of_strings {chain left right : Node} (isSum : isSum chain = true)
    (inLeft : chain.field? "left" = some left) (inRight : chain.field? "right" = some right)
    (strings : (operands left).any isString = true) :
    operands chain = operands left ++ [right] := by
  rw [operands_of_isSum isSum inLeft inRight, if_pos strings]

/-- **The operands of a chain** are a first one, in which no string is seen unless it is one, and
those added to it. -/
theorem exists_spine (chain : Node) : ∃ first added, operands chain = first :: added ∧
    Spine first added chain ∧ (operands first).any isString = isString first := by
  induction chain using chain_induction with
  | single node alone => exact ⟨node, [], alone, .first, by simp [alone]⟩
  | sum chain left right isSum inLeft inRight ih =>
    cases strings : (operands left).any isString with
    | true =>
      obtain ⟨first, added, whole, spine, seen⟩ := ih
      refine ⟨first, added ++ [right], ?_, .sum isSum inLeft inRight spine, seen⟩
      rw [operands_of_strings isSum inLeft inRight strings, whole]
      rfl
    | false =>
      have noString : isString left = false := by
        cases string : isString left with
        | false => rfl
        | true => exact (any_operands_of_isString string).symm.trans strings
      exact ⟨left, [right], operands_of_stringless isSum inLeft inRight strings,
        .sum isSum inLeft inRight .first, strings.trans noString.symm⟩

/-- A chain with a string among its operands has their texts as its value. -/
theorem Meaning.value_of_strings {Number : Type} (meaning : Meaning Number) (chain : Node)
    (strings : (operands chain).any isString = true) : meaning.value chain =
      .text ((operands chain).flatMap fun operand => meaning.textOf (meaning.value operand)) := by
  induction chain using chain_induction with
  | single node alone =>
    rw [alone] at strings ⊢
    simp [meaning.value_of_isString (by simpa using strings)]
  | sum chain left right isSum inLeft inRight ih =>
    rw [meaning.value_of_isSum isSum inLeft inRight]
    cases earlier : (operands left).any isString with
    | true =>
      rw [ih earlier, operands_of_strings isSum inLeft inRight earlier, List.flatMap_append,
        sum_text_left]
      simp
    | false =>
      -- The left side may be a number, but then the string is on the right.
      have whole := operands_of_stringless isSum inLeft inRight earlier
      rw [whole] at strings ⊢
      have string : isString right = true := by
        rw [List.any_cons, Bool.or_eq_true] at strings
        rcases strings with inLeft | inRight
        · rw [any_operands_of_isString inLeft] at earlier
          cases earlier
        · simpa using inRight
      simp [meaning.value_of_isString string]

/-- **The operands of a chain keep its value.**  If there is a string among them, the value is the
text of the operands in order.  If the left side has none, there are two operands.  In any case
they are a first one and those added to it on the way to the whole chain, each of them once. -/
theorem value_eq_operands {Number : Type} (meaning : Meaning Number) (chain : Node) :
    ((operands chain).any isString = true → meaning.value chain =
      .text ((operands chain).flatMap fun operand => meaning.textOf (meaning.value operand))) ∧
    (∀ left right, isSum chain = true → chain.field? "left" = some left →
      chain.field? "right" = some right → (operands left).any isString = false →
        operands chain = [left, right]) ∧
    ∃ first added, operands chain = first :: added ∧ Spine first added chain ∧
      (operands first).any isString = isString first :=
  ⟨meaning.value_of_strings chain,
    fun _ _ isSum inLeft inRight => operands_of_stringless isSum inLeft inRight,
    exists_spine chain⟩

/-- The chain `1 + 2 + 'a'`. -/
def threeAsText : Node :=
  .named "binary_expression" 0 11 []
    [.named "binary_expression" 0 5 ["left"]
      [.named "number" 0 1 ["left"] [], .mark "+" 2 3 ["operator"],
        .named "number" 4 5 ["right"] []],
      .mark "+" 6 7 ["operator"],
      .named "string" 8 11 ["right"]
        [.mark "'" 8 9 [], .named "string_fragment" 9 10 [] [], .mark "'" 10 11 []]]

/-- Numerals that are written with bars, the first of them one and the other two. -/
def bars : Meaning Nat where
  add := (· + ·)
  written number := List.replicate number '|'
  ofString _ := ['a']
  ofOther node := .number (if node.label.start = 0 then 1 else 2)

theorem value_eq_operands_threeAsText :
    let left := threeAsText.children[0]!
    let last := threeAsText.children[2]!
    (operands left).any isString = false ∧ operands threeAsText = [left, last] ∧
      (operands threeAsText).any isString = true ∧
      bars.value threeAsText = .text ['|', '|', '|', 'a'] := by
  intro left last
  have stringless : (operands left).any isString = false := by
    rw [@operands_of_isSum left left.children[0]! left.children[2]! rfl rfl rfl,
      operands_of_not_isSum rfl]
    rfl
  obtain ⟨texts, alone, -⟩ := value_eq_operands bars threeAsText
  have whole := alone left last rfl rfl rfl stringless
  have strings : (operands threeAsText).any isString = true := by
    rw [whole]
    rfl
  have numbers : bars.value left = .number 3 := by
    rw [@Meaning.value_of_isSum _ bars left left.children[0]! left.children[2]! rfl rfl rfl,
      bars.value_of_not_isSum rfl, bars.value_of_not_isSum rfl]
    rfl
  have string : bars.value last = .text ['a'] := bars.value_of_isString rfl
  refine ⟨stringless, whole, strings, ?_⟩
  rw [texts strings, whole, List.flatMap_cons, List.flatMap_singleton, numbers, string]
  rfl

end Concatenation
end Retouch
