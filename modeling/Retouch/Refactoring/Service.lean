import Retouch.Refactoring.Discovery
import Retouch.Settings

/-!
# The service

The service holds the registered refactorings, finds those that apply at a selection
and carries them out on an editor, all as the settings of the user say.  What fails
in execution is shown to the user once and told to the caller.
-/

set_option autoImplicit false

namespace Retouch

structure Service (Memory : Type) where
  refactorings : List (Refactoring Memory)
  parse : Parse
  typeChecker : TypeChecker
  settings : Settings

namespace Service

variable {Memory : Type}

/-- The first registered refactoring with an identifier. -/
def find? (service : Service Memory) (id : String) : Option (Refactoring Memory) :=
  service.refactorings.find? (·.id = id)

/-- The refactorings that the settings let through. -/
def candidates (service : Service Memory) : List (Refactoring Memory) :=
  service.refactorings.filter fun refactoring => service.settings.isEnabled refactoring.id

/-- Marks an action as preferred if the settings say so. -/
def marked (service : Service Memory) (action : Action) : Action :=
  { action with isPreferred := service.settings.isPreferred action.id action.isPreferred }

/-- The refactorings that apply at a selection of a code. -/
def discover (service : Service Memory) (code : Text) (selection : Selection) :
    Except Failure (List Action) :=
  match service.parse code with
  | .error error => .error (.parse error)
  | .ok tree =>
    .ok ((Retouch.discover tree selection service.candidates service.typeChecker).map
      service.marked)

/-- The same, where code that cannot be parsed offers nothing. -/
def codeActions (service : Service Memory) (code : Text) (selection : Selection) : List Action :=
  match service.discover code selection with
  | .ok actions => actions
  | .error _ => []

def codeActionsFor (service : Service Memory) (editor : Editor) : List Action :=
  service.codeActions editor.code editor.selection

/-- Shows a failure to the user and fails. -/
def report (failure : Failure) : Execution Unit := do
  modify (·.showError failure.reason)
  throw failure

/-- Carries out a refactoring at the selection of an editor. -/
def execute (service : Service Memory) (id : String) : Execution Unit :=
  match (service.find? id).filter fun _ => service.settings.isEnabled id with
  | none => report (.unknown id)
  | some refactoring => tryCatch (refactoring.execute service.parse) report

end Service
end Retouch
