import Retouch.Catalog.Negation
import Retouch.Refactoring.Basic

/-!
# Flipping an if/else

The branches of an if/else change places and its condition is negated.  An `else`
that chains another `if` is left alone.
-/

set_option autoImplicit false

namespace Retouch
namespace FlipIfElse

/-- The statement of the else branch, unless it is another `if`. -/
def elseStatement? (statement : Site) : Option Site := do
  let alternative ← statement.field? "alternative"
  let branch ← alternative.namedChildren.find? (!·.is "comment")
  if branch.is "if_statement" then none else some branch

def accepts (selection : Selection) (site : Site) : Bool :=
  site.is "if_statement" && selection.isInside site.range && (elseStatement? site).isSome

def plan? (tree : Tree) (selection : Selection) : Option Plan := do
  let statement ← tree.innermost? (accepts selection)
  let condition ← statement.field? "condition"
  let test ← condition.namedChildren.head?
  let consequence ← statement.field? "consequence"
  let alternative ← elseStatement? statement
  return {
    scope := statement.range
    edits := fun _ =>
      [⟨test.node.negation tree.source, test.range⟩, ⟨alternative.text, consequence.range⟩,
        ⟨consequence.text, alternative.range⟩] }

end FlipIfElse

def flipIfElse : Refactoring Unit where
  id := "flip-if-else"
  title := "Flip if/else"
  kind := .reshape
  isPreferred := false
  memory := ()
  visitor := ⟨[(.kind "if_statement", .onEnter (Claiming.claimIf FlipIfElse.accepts))]⟩
  execute := Plan.execution .noIfElse FlipIfElse.plan?

end Retouch
