import Retouch.Text.Lines
import Retouch.Workspace.Path

/-!
# Files of a workspace

The files beside the one being edited, each with its text, in the order of their
paths.  Two spellings of one path are the same file; a file that is written again
keeps the spelling under which it was written first.
-/

set_option autoImplicit false

namespace Retouch

abbrev Files := List (Path × Text)

namespace Files

/-- The text of a file. -/
def find? (files : Files) (path : Path) : Option Text :=
  match files with
  | [] => none
  | (known, text) :: rest => if known.same path then some text else find? rest path

/-- Gives a file its text. -/
def put (files : Files) (path : Path) (text : Text) : Files :=
  match files with
  | [] => [(path, text)]
  | (known, old) :: rest =>
    match path.compareWith known with
    | .lt => (path, text) :: (known, old) :: rest
    | .eq => (known, text) :: rest
    | .gt => (known, old) :: put rest path text

def paths (files : Files) : List Path := files.map Prod.fst

/-- Puts a path in its place in a list in order, after the paths equal to it. -/
def placePath (path : Path) : List Path → List Path
  | [] => [path]
  | known :: rest =>
    if path.compareWith known = .lt then path :: known :: rest
    else known :: placePath path rest

end Files
end Retouch
