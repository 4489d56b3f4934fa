import Retouch.Refactoring.Basic

/-!
# Refactorings given by rules

A refactoring can be described by data: rules that say at which nodes it is claimed,
and a script that says what it does.  A rule looks at how the range of a node lies to
the selection and then claims the node, asks for a type, or fails.
-/

set_option autoImplicit false

namespace Retouch

/-- How the range of a node must lie to the selection. -/
inductive Placement where
  | inside
  | intersects
  | around
  | always
deriving DecidableEq

/-- Whether a node with a range is placed so. -/
def Placement.holds (placement : Placement) (range selection : Selection) : Bool :=
  match placement with
  | inside => selection.isInside range
  | intersects => range.intersects selection
  | around => range.isInside selection
  | always => true

/-- What a rule does with a node that is placed right. -/
inductive Deed where
  | claim
  | label
  | type
  | claimThenFail
  | fail
deriving DecidableEq

/-- What is said by a rule that fails on purpose. -/
def Deed.refusal : String := "The rule fails"

def Deed.perform (deed : Deed) (site : Site) : Claiming Unit Unit := do
  match deed with
  | claim => Claiming.claim none
  | label => Claiming.claim (some (site.kind ++ " " ++ String.ofList site.text))
  | type =>
    match ← Claiming.typeAt site.range.start with
    | some name => Claiming.claim (some name)
    | none => return
  | claimThenFail =>
    Claiming.claim none
    throw refusal
  | fail => throw refusal

/-- What is done with which nodes, when they are entered or when they are left. -/
structure Rule where
  pattern : NodePattern
  placement : Placement
  deed : Deed
  onLeave : Bool

namespace Rule

def visit (rule : Rule) (site : Site) : Claiming Unit Unit := do
  if rule.placement.holds site.range (← Claiming.selection) then rule.deed.perform site

/-- The entry of a visitor that follows a rule. -/
def entry (rule : Rule) : NodePattern × Handler (Claiming Unit) :=
  (rule.pattern, if rule.onLeave then .hooks none (some rule.visit) else .onEnter rule.visit)

end Rule

/-- Executes a script: parses the code and, if there is a plan, performs it. -/
def scripted (plan : Option Plan) (parse : Parse) : Execution Unit := do
  let editor ← get
  match parse editor.code with
  | .error error => throw (.parse error)
  | .ok _ =>
    match plan with
    | some plan => plan.perform
    | none => return

/-- The refactoring that rules and a script describe, under the given action. -/
def Refactoring.ofRules (action : Action) (rules : List Rule) (plan : Option Plan) :
    Refactoring Unit where
  id := action.id
  title := action.title
  kind := action.kind
  isPreferred := action.isPreferred
  memory := ()
  visitor := ⟨rules.map Rule.entry⟩
  execute := scripted plan

end Retouch
