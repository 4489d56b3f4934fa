import Retouch.Data.Value

/-!
# Tables of TOML

A table is put together piece by piece, and what a later piece may still add depends
on how a table came about.  A table made by a header is closed to dotted keys.  A
table that exists only because a header leads through it can still be opened by a
header of its own, and one made by a dotted key can take more dotted keys.  A value
is never added to, and no key is given twice.
-/

set_option autoImplicit false

namespace Retouch
namespace Toml

/-- What stands under a key: a value; a table, with how it came about; or a series
of tables, of which the last is open. -/
inductive Item where
  | value (value : Value)
  | table (isImplicit isDotted : Bool) (entries : List (String × Item))
  | series (tables : List (List (String × Item)))

/-- Entries in the order in which their keys came up. -/
structure Table where
  entries : List (String × Item)

namespace Table

def empty : Table := ⟨[]⟩

/-- Changes what stands under a key, or puts something there; the change may be
refused. -/
def alter (name : String) (change : Option Item → Option Item) :
    List (String × Item) → Option (List (String × Item))
  | [] => (change none).map fun item => [(name, item)]
  | (known, item) :: rest =>
    if known = name then (change (some item)).map fun item => (known, item) :: rest
    else (alter name change rest).map ((known, item) :: ·)

/-- Goes down a path, making the tables that are missing, and acts on the table it
leads to.  The action is told whether a dotted key made that table. -/
def descend (isDotted : Bool) (path : List String)
    (act : Bool → List (String × Item) → Option (List (String × Item))) (madeByDot : Bool)
    (entries : List (String × Item)) : Option (List (String × Item)) :=
  match path with
  | [] => act madeByDot entries
  | name :: rest =>
    alter name
      (fun
        | none => (descend isDotted rest act isDotted []).map (.table true isDotted)
        | some (.value _) => none
        | some (.table isImplicit wasDotted inner) =>
          if isDotted && !isImplicit then none
          else (descend isDotted rest act wasDotted inner).map (.table isImplicit wasDotted)
        | some (.series tables) => do
          let last ← descend isDotted rest act false (← tables.getLast?)
          return .series (tables.dropLast ++ [last]))
      entries

/-- Gives a name that is still free its value. -/
def place (name : String) (value : Value) (entries : List (String × Item)) :
    Option (List (String × Item)) :=
  alter name
    (fun
      | none => some (.value value)
      | some _ => none)
    entries

/-- Enters a value under a dotted key of the table to which a path leads.  A dotted
key may only end in a table that a dotted key made. -/
def enterAt (table : Table) (header path : List String) (name : String) (value : Value) :
    Option Table :=
  (descend false header
    (fun _ entries =>
      descend true path
        (fun madeByDot entries =>
          if madeByDot = path.isEmpty then none else place name value entries)
        false entries)
    false table.entries).map Table.mk

/-- Enters a value under a dotted key of the table itself. -/
def enter (table : Table) (path : List String) (name : String) (value : Value) :
    Option Table :=
  table.enterAt [] path name value

/-- Opens a table by a header. -/
def openTable (table : Table) (path : List String) (name : String) : Option Table :=
  (descend false path
    (fun _ => alter name fun
      | none => some (.table false false [])
      | some (.table true false inner) => some (.table false false inner)
      | some _ => none)
    false table.entries).map Table.mk

/-- Opens one more table of a series by a header. -/
def openNext (table : Table) (path : List String) (name : String) : Option Table :=
  (descend false path
    (fun _ => alter name fun
      | none => some (.series [[]])
      | some (.series tables) => some (.series (tables ++ [[]]))
      | some _ => none)
    false table.entries).map Table.mk

/-! ## Values of tables -/

mutual

def valueOfItem : Item → Value
  | .value value => value
  | .table _ _ entries => .table (valuesOfEntries entries)
  | .series tables => .array (valuesOfTables tables)

def valuesOfEntries : List (String × Item) → List (String × Value)
  | [] => []
  | (name, item) :: rest => (name, valueOfItem item) :: valuesOfEntries rest

def valuesOfTables : List (List (String × Item)) → List Value
  | [] => []
  | entries :: rest => .table (valuesOfEntries entries) :: valuesOfTables rest

end

def toValue (table : Table) : Value := .table (valuesOfEntries table.entries)

end Table
end Toml
end Retouch
