import Retouch.Refactoring.Action
import Retouch.Visitor

/-!
# Refactorings

A refactoring can be discovered and executed.  For discovery it has a visitor, which
is called on the nodes of a tree and claims those at which the refactoring applies.
A visitor may remember things from one node to the next.  The refactorings of one
list agree in the type of their memories, but each has a memory of its own.
-/

set_option autoImplicit false

namespace Retouch

/-- Tells the type at a position of a text, where it is known.  A query may fail. -/
abbrev TypeChecker := Text → Position → Except String (Option String)

/-- Knows no type. -/
def TypeChecker.ignorant : TypeChecker := fun _ _ => .ok none

/-- What discovery is about: a selection in a code. -/
structure Inquiry where
  selection : Selection
  code : Text
  typeChecker : TypeChecker

/-- The claim of a node, perhaps with a title of its own. -/
structure Claim where
  title : Option String
deriving DecidableEq

/-- What a visitor with a memory does at a node: it knows the inquiry, may fail, and
changes its memory and its claim.  What it remembers outlives a failure. -/
abbrev Claiming (Memory : Type) :=
  ReaderT Inquiry (ExceptT String (StateM (Memory × Option Claim)))

namespace Claiming

variable {Memory : Type}

/-- Claims the node, in place of an earlier claim. -/
def claim (title : Option String) : Claiming Memory Unit :=
  modify fun (remembered, _) => (remembered, some ⟨title⟩)

/-- The selection for which refactorings are looked for. -/
def selection : Claiming Memory Selection := return (← read).selection

/-- The type at a position of the code. -/
def typeAt (position : Position) : Claiming Memory (Option String) := do
  let inquiry ← read
  match inquiry.typeChecker inquiry.code position with
  | .ok known => return known
  | .error message => throw message

/-- Claims a site under its usual title if a test accepts it for the selection. -/
def claimIf (accepts : Selection → Site → Bool) (site : Site) : Claiming Memory Unit := do
  if accepts (← selection) site then claim none

end Claiming

/-- A way of changing code, with the memory that its visitor has at the beginning. -/
structure Refactoring (Memory : Type) where
  id : String
  title : String
  kind : ActionKind
  isPreferred : Bool
  memory : Memory
  visitor : Visitor (Claiming Memory)
  execute : Parse → Execution Unit

namespace Refactoring

/-- The action under which a refactoring is offered by itself. -/
def action {Memory : Type} (refactoring : Refactoring Memory) : Action :=
  ⟨refactoring.id, refactoring.title, refactoring.kind, refactoring.isPreferred⟩

end Refactoring

/-! ## Plans -/

/-- A range to read and the edits that follow from what is read. -/
structure Plan where
  scope : Selection
  edits : Text → List Edit

namespace Plan

/-- A single edit that does not depend on the text in its range. -/
def single (edit : Edit) : Plan := ⟨edit.selection, fun _ => [edit]⟩

/-- Carries out a plan on an editor, leaving its selection where it is. -/
def perform (plan : Plan) : Execution Unit :=
  let compute (read : Text) : Id (List Edit) := pure (plan.edits read)
  ExceptT.mk do
    match ← Editor.readThenWrite plan.scope compute none with
    | .ok done => return .ok done
    | .error error => return .error (.editor error)

/-- Plans at the selection of an editor and carries the plan out.  Without a plan
there is nothing to refactor, for the given reason. -/
def execution (reason : Reason) (plan? : Tree → Selection → Option Plan) (parse : Parse) :
    Execution Unit := do
  let editor ← get
  match parse editor.code with
  | .error error => throw (.parse error)
  | .ok tree =>
    match plan? tree editor.selection with
    | some plan => plan.perform
    | none => throw (.notApplicable reason)

end Plan
end Retouch
