/-!
# Paths

A path is kept as it was spelled and compared by its components.  Repeated slashes,
a slash at the end and inner dots make no component; a dot at the beginning does.
Components are ordered with the root first, then the dot, then the step up, then
names by their code points, and paths are ordered component by component.
-/

set_option autoImplicit false

namespace Retouch

/-- A step of a path. -/
inductive Component where
  | root
  | here
  | up
  | name (name : List Char)
deriving DecidableEq

namespace Component

/-- The place of a component among the kinds of components. -/
def rank : Component → Nat
  | root => 0
  | here => 1
  | up => 2
  | name _ => 3

/-- Compares names by their code points. -/
def compareNames : List Char → List Char → Ordering
  | [], [] => .eq
  | [], _ :: _ => .lt
  | _ :: _, [] => .gt
  | first :: rest, other :: others =>
    (compare first.toNat other.toNat).then (compareNames rest others)

def compareWith : Component → Component → Ordering
  | name first, name second => compareNames first second
  | first, second => compare first.rank second.rank

end Component

/-- A path with its spelling. -/
structure Path where
  spelling : String
deriving DecidableEq

namespace Path

/-- The parts of a spelling between slashes. -/
def parts (spelling : List Char) : List (List Char) :=
  spelling.foldr
    (fun character parts => match parts with
      | [] => [[character]]
      | first :: rest => if character = '/' then [] :: parts else (character :: first) :: rest)
    [[]]

/-- The component of a part that is not the first, if it makes one. -/
def component? : List Char → Option Component
  | [] => none
  | ['.'] => none
  | ['.', '.'] => some .up
  | part => some (.name part)

def components (path : Path) : List Component :=
  match parts path.spelling.toList with
  | [] => []
  | [[]] => []
  | [] :: rest => .root :: rest.filterMap component?
  | ['.'] :: rest => .here :: rest.filterMap component?
  | first :: rest => (first :: rest).filterMap component?

/-- Compares lists of components from the left. -/
def compareComponents : List Component → List Component → Ordering
  | [], [] => .eq
  | [], _ :: _ => .lt
  | _ :: _, [] => .gt
  | first :: rest, other :: others =>
    (first.compareWith other).then (compareComponents rest others)

def compareWith (path other : Path) : Ordering :=
  compareComponents path.components other.components

/-- Whether two spellings name the same path. -/
def same (path other : Path) : Bool := path.components == other.components

/-- The name that a path ends with, if it ends with one. -/
def fileName? (path : Path) : Option (List Char) :=
  match path.components.getLast? with
  | some (.name name) => some name
  | _ => none

/-- What follows the last dot of the file name.  A dot at the very beginning of the
name does not count. -/
def extension? (path : Path) : Option String := do
  let name ← path.fileName?
  match name.reverse.span (· ≠ '.') with
  | (ending, _ :: _ :: _) => some (String.ofList ending.reverse)
  | _ => none

end Path
end Retouch
