import Retouch.Refactoring.Basic
import Retouch.Text.Blank

/-!
# Braces of arrow functions

The body of an arrow function is an expression or a block.  An expression can be
made a block that returns it, indented like the line on which the function starts.
A block that does nothing but return a value can be made that value; an object or a
sequence then needs parentheses.
-/

set_option autoImplicit false

namespace Retouch

/-! ## Adding braces -/

namespace AddBraces

def accepts (selection : Selection) (site : Site) : Bool :=
  site.is "arrow_function" && selection.isInside site.range &&
    (site.field? "body").any (!·.is "statement_block")

/-- A block, at an indentation, that returns an expression. -/
def block (indentation expression : Text) : Text :=
  "\x7b\n".toList ++ indentation ++ "  return ".toList ++ expression ++ ";\n".toList ++
    indentation ++ "\x7d".toList

def plan? (tree : Tree) (selection : Selection) : Option Plan := do
  let function ← tree.innermost? (accepts selection)
  let body ← function.field? "body"
  let indentation := tree.source.indentation function.range.start.line.toNat
  return .single ⟨block indentation body.text, body.range⟩

end AddBraces

def addBraces : Refactoring Unit where
  id := "add-braces-to-arrow-function"
  title := "Add braces to arrow function"
  kind := .reshape
  isPreferred := false
  memory := ()
  visitor := ⟨[(.kind "arrow_function", .onEnter (Claiming.claimIf AddBraces.accepts))]⟩
  execute := Plan.execution .noArrowFunction AddBraces.plan?

/-! ## Removing braces -/

namespace RemoveBraces

/-- What a function returns whose body is a block with a return statement only. -/
def returnedValue? (function : Site) : Option Site := do
  let body ← function.field? "body"
  if body.is "statement_block" then
    match body.namedChildren with
    | [statement] =>
      if statement.is "return_statement" then statement.namedChildren.head? else none
    | _ => none
  else none

def accepts (selection : Selection) (site : Site) : Bool :=
  site.is "arrow_function" && selection.isInside site.range && (returnedValue? site).isSome

/-- A value as the body of an arrow function. -/
def bodyOf (value : Site) : Text :=
  if value.is "object" || value.is "sequence_expression" then '(' :: value.text ++ [')']
  else value.text

def plan? (tree : Tree) (selection : Selection) : Option Plan := do
  let function ← tree.innermost? (accepts selection)
  let body ← function.field? "body"
  let value ← returnedValue? function
  return .single ⟨bodyOf value, body.range⟩

end RemoveBraces

def removeBraces : Refactoring Unit where
  id := "remove-braces-from-arrow-function"
  title := "Remove braces from arrow function"
  kind := .reshape
  isPreferred := false
  memory := ()
  visitor := ⟨[(.kind "arrow_function", .onEnter (Claiming.claimIf RemoveBraces.accepts))]⟩
  execute := Plan.execution .noRemovableBraces RemoveBraces.plan?

end Retouch
