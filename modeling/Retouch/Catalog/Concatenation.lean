import Retouch.Catalog.TemplateText
import Retouch.Refactoring.Basic

/-!
# Concatenations as template literals

A chain of `+` that builds a string becomes one template literal.  Additions before
the first string of the chain may be additions of numbers, so what stands before it
is one operand.  A chain is offered when a string is among its operands, or when the
first operand is known to be of the type string.
-/

set_option autoImplicit false

namespace Retouch
namespace Concatenation

def isSum (node : Node) : Bool :=
  node.is "binary_expression" && node.operator? == some "+"

def isString (node : Node) : Bool := node.is "string" || node.is "template_string"

/-- Whether a site is the whole of a chain around a selection. -/
def accepts (selection : Selection) (site : Site) : Bool :=
  isSum site.node && selection.isInside site.range && !site.parent?.any (isSum ·.node)

/-- The operands of a chain, from the left to the right. -/
def operands (node : Node) : List Node :=
  match _left : node.field? "left", node.field? "right" with
  | some first, some last =>
    if isSum node then
      let earlier := operands first
      (if earlier.any isString then earlier else [first]) ++ [last]
    else [node]
  | _, _ => [node]
termination_by node.size
decreasing_by exact Node.size_field _left

/-- What an operand contributes to the content of a template literal. -/
def contribution (source : Text) (operand : Node) : Text :=
  let text := operand.textIn source
  if operand.is "string" then TemplateText.ofLiteral text
  else if operand.is "template_string" then TemplateText.between TemplateText.backtick text
  else TemplateText.substitution text

def template (source : Text) (all : List Node) : Text :=
  TemplateText.quoted (all.flatMap (contribution source))

/-- Claims a chain that builds a string. -/
def visit (site : Site) : Claiming Unit Unit := do
  if accepts (← Claiming.selection) site then
    let all := operands site.node
    if all.any isString then Claiming.claim none
    else
      match all with
      | [] => return
      | first :: _ =>
        if (← Claiming.typeAt (first.rangeIn site.source).start) = some "string" then
          Claiming.claim none

def plan? (tree : Tree) (selection : Selection) : Option Plan := do
  let chain ← tree.innermost? (accepts selection)
  return .single ⟨template tree.source (operands chain.node), chain.range⟩

end Concatenation

def convertConcatenation : Refactoring Unit where
  id := "convert-concatenation-to-template"
  title := "Convert concatenation to template literal"
  kind := .reshape
  isPreferred := true
  memory := ()
  visitor := ⟨[(.kind "binary_expression", .onEnter Concatenation.visit)]⟩
  execute := Plan.execution .noConcatenation Concatenation.plan?

end Retouch
