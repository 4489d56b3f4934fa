import Retouch.Settings
import Retouch.Toml.Library

/-!
# Settings as a document

A library keeps settings in a TOML document with the keys `disabled`, `preferred` and
`log_level`.  Whatever is missing is as in the standard settings, and other keys do
not matter.  Written settings always have all three keys in this order.
-/

set_option autoImplicit false

namespace Retouch

/-- The level that a value names.  A level may also be the only key of a table, above
a value without content. -/
def Level.ofValue? (isEmpty : Value → Bool) : Value → Option Level
  | .text name => ofName? name
  | .table [(name, content)] => if isEmpty content then ofName? name else none
  | _ => none

namespace Settings

def keys : List String := ["disabled", "preferred", "log_level"]

/-- The settings of a value.  What counts as a value without content depends on the
format. -/
def ofValue? (isEmpty : Value → Bool) (value : Value) : Option Settings := do
  match ← value.fields? keys with
  | [disabled, preferred, level] =>
    let names (field : Option Value) : Option (List String) :=
      match field with
      | some value => value.asArrayOf? Value.asText?
      | none => some []
    return {
      disabled := ← names disabled
      preferred := ← names preferred
      level := ← match level with
        | some value => Level.ofValue? isEmpty value
        | none => some standard.level }
  | _ => none

/-- The settings that a document describes. -/
def ofToml? (library : Toml.Library) (document : Text) : Option Settings := do
  ofValue? library.isEmpty (← library.read document)

/-! ## Writing -/

def entries (settings : Settings) : List (String × Value) :=
  [("disabled", .array (settings.disabled.map .text)),
    ("preferred", .array (settings.preferred.map .text)),
    ("log_level", .text settings.level.name)]

/-- The document of settings. -/
def toToml (library : Toml.Library) (settings : Settings) : Option Text :=
  library.write (.table settings.entries)

end Settings
end Retouch
