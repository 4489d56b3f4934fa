/-!
# Reasons shown to the user

Why an action of the user could not be completed, as an editor shows it.
-/

set_option autoImplicit false

namespace Retouch

inductive Reason where
  | noIfElse
  | noArrowFunction
  | noRemovableBraces
  | noString
  | noNegatableExpression
  | noConcatenation
  | unknownRefactoring (id : String)
  | parsingFailed (details : String)
  | writingFailed (details : String)
deriving DecidableEq

namespace Reason

/-- What the user reads. -/
def text : Reason → String
  | noIfElse => "I didn't find an if/else to flip"
  | noArrowFunction => "I didn't find an arrow function to add braces to"
  | noRemovableBraces => "I didn't find braces that can be removed"
  | noString => "I didn't find a string to convert into a template literal"
  | noNegatableExpression => "I didn't find an expression to negate"
  | noConcatenation => "I didn't find a string concatenation to convert"
  | unknownRefactoring id => "Unknown refactoring: " ++ id
  | parsingFailed details => "I couldn't parse the code: " ++ details
  | writingFailed details => "I couldn't write the changes: " ++ details

end Reason
end Retouch
