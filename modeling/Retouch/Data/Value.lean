/-!
# Structured values

What data formats have in common: values that are plain, or lists of values, or
tables of values under keys.  Of numbers with a fraction and of dates only that they
are there is kept, since nothing that is read from a value can be one of them.
-/

set_option autoImplicit false

namespace Retouch

inductive Value where
  | null
  | boolean (value : Bool)
  | integer (value : Int)
  | fraction
  | moment
  | text (value : String)
  | array (values : List Value)
  | table (entries : List (String × Value))

namespace Value

instance : Inhabited Value := ⟨null⟩

/-- The value under a key of a list of entries. -/
def find? (entries : List (String × Value)) (key : String) : Option Value :=
  (entries.find? (·.1 = key)).map Prod.snd

def asText? : Value → Option String
  | text value => some value
  | _ => none

/-- The values of an array, each read in the same way. -/
def asArrayOf? {α : Type} (read : Value → Option α) : Value → Option (List α)
  | array values => values.mapM read
  | _ => none

/-- A coordinate: an integer that a 32-bit word holds. -/
def asWord? : Value → Option UInt32
  | integer value =>
    if 0 ≤ value ∧ value < 4294967296 then some (UInt32.ofNat value.toNat) else none
  | _ => none

/-- The fields of a record, in the order of their names.  A record is a table, of
which other entries do not matter, or an array of its fields in order, which may be
too short but not too long. -/
def fields? (names : List String) : Value → Option (List (Option Value))
  | table entries => some (names.map (find? entries))
  | array values =>
    if values.length ≤ names.length then some ((List.range names.length).map (values[·]?))
    else none
  | _ => none

end Value
end Retouch
