import Retouch.Buffer.Edit
import Retouch.Data.Value

/-!
# Positions, selections and edits as values

The forms in which they are exchanged with other programs.  A selection is read with
its ends in either order.
-/

set_option autoImplicit false

namespace Retouch

namespace Position

def toValue (position : Position) : Value :=
  .table [("line", .integer position.line.toNat), ("character", .integer position.character.toNat)]

def ofValue? (value : Value) : Option Position := do
  match ← value.fields? ["line", "character"] with
  | [some line, some character] => return ⟨← line.asWord?, ← character.asWord?⟩
  | _ => none

end Position

namespace Selection

def toValue (selection : Selection) : Value :=
  .table [("start", selection.start.toValue), ("end", selection.stop.toValue)]

def ofValue? (value : Value) : Option Selection := do
  match ← value.fields? ["start", "end"] with
  | [some start, some stop] =>
    return between (← Position.ofValue? start) (← Position.ofValue? stop)
  | _ => none

end Selection

namespace Edit

def toValue (edit : Edit) : Value :=
  .table [("code", .text (String.ofList edit.code)), ("selection", edit.selection.toValue)]

def ofValue? (value : Value) : Option Edit := do
  match ← value.fields? ["code", "selection"] with
  | [some code, some selection] =>
    return ⟨(← code.asText?).toList, ← Selection.ofValue? selection⟩
  | _ => none

end Edit
end Retouch
