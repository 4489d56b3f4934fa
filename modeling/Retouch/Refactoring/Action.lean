import Retouch.Workspace.Editor
import Retouch.Workspace.Parser

/-!
# Actions and failures

An action is what a user is offered: a refactoring under a title.  Carrying it out
can fail, and every failure has a reason that the user is shown.
-/

set_option autoImplicit false

namespace Retouch

/-- The family under which an editor lists an action. -/
inductive ActionKind where
  | quickFix
  | refactor
  | extract
  | inlining
  | reshape
deriving DecidableEq

def ActionKind.text : ActionKind → String
  | .quickFix => "quickfix"
  | .refactor => "refactor"
  | .extract => "refactor.extract"
  | .inlining => "refactor.inline"
  | .reshape => "refactor.rewrite"

/-- A refactoring as it is offered. -/
structure Action where
  id : String
  title : String
  kind : ActionKind
  isPreferred : Bool
deriving DecidableEq

/-- Gives an action another title, if there is one. -/
def Action.retitled (action : Action) (title : Option String) : Action :=
  { action with title := title.getD action.title }

/-- Why a refactoring was not carried out. -/
inductive Failure where
  | parse (error : ParseError)
  | editor (error : EditorError)
  | unknown (id : String)
  | notApplicable (reason : Reason)
deriving DecidableEq

namespace Failure

def message : Failure → String
  | parse error => "Parse failure: " ++ error.text
  | editor error => error.message
  | unknown id => "Unknown refactoring: " ++ id
  | notApplicable reason => "Nothing to refactor: " ++ reason.text

/-- The reason that the user is shown. -/
def reason : Failure → Reason
  | parse error => .parsingFailed error.text
  | editor error => .writingFailed error.message
  | unknown id => .unknownRefactoring id
  | notApplicable reason => reason

end Failure

/-- Work on an editor that may fail. -/
abbrev Execution := ExceptT Failure (StateM Editor)

end Retouch
