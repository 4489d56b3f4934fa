import Retouch.Buffer.Decorated
import Retouch.Buffer.Grid
import Retouch.Buffer.Marked
import Retouch.Workspace.Files
import Retouch.Workspace.Reason
import Retouch.Workspace.Reference

/-!
# Editors

An editor holds the buffer of one file with its selection and highlights, the texts
of the other files of the workspace, and what passes between it and its user: the
errors it has shown, the commands it was asked to carry out, and the answers that
the user is going to give.

Reading and then writing is the operation on which refactorings are built.  It
reads a range, computes edits from what it read, and commits them all or none of
them.  When it fails, the editor is as it was before.
-/

set_option autoImplicit false

namespace Retouch

/-- Why an editor could not do what it was asked to. -/
inductive EditorError where
  | buffer (error : BufferError)
  | noFile (path : Path)
deriving DecidableEq

namespace EditorError

def message : EditorError → String
  | buffer error => error.message
  | noFile path => "Host I/O failed: No file at " ++ path.spelling

end EditorError

/-- A command that an editor may know how to carry out by itself. -/
inductive Command where
  | renameSymbol
deriving DecidableEq

def Command.name : Command → String
  | .renameSymbol => "editor.action.rename"

/-- An option offered to the user. -/
structure Choice where
  label : String
  value : String
  description : Option String
deriving DecidableEq

/-- An item of a list that the user may put in another order. -/
structure PlacedItem where
  label : String
  start : Nat
  stop : Nat
deriving DecidableEq

structure Editor where
  path : Path
  grid : Grid
  selection : Selection
  files : Files
  highlights : Highlights
  shownErrors : List Reason
  delegated : List Command
  choiceAnswers : List (Option Nat)
  inputAnswers : List (Option String)

namespace Editor

def defaultPath : Path := ⟨"in-memory.ts"⟩

/-- An editor of a code and nothing else. -/
def ofCode (code : Text) (selection : Selection) : Editor where
  path := defaultPath
  grid := .ofText code
  selection := selection
  files := []
  highlights := .empty
  shownErrors := []
  delegated := []
  choiceAnswers := []
  inputAnswers := []

/-- An editor of a marked text; see `Sample.decode` for its markers. -/
def ofMarked (marked : Text) (unmarked : Position) : Editor :=
  let sample := Sample.decode marked unmarked
  ofCode sample.code sample.selection

instance : Inhabited Editor := ⟨ofCode [] default⟩

def withPath (editor : Editor) (path : Path) : Editor := { editor with path }

/-- Adds another file of the workspace. -/
def withFile (editor : Editor) (path : Path) (text : Text) : Editor :=
  { editor with files := editor.files.put path text }

def code (editor : Editor) : Text := editor.grid.text

def highlightedCode (editor : Editor) : Text := editor.highlights.render editor.code

/-! ## Writing -/

/-- Moves the cursor to a position.  Without one the selection stays, with its ends
brought into the buffer. -/
def placeCursor (editor : Editor) (cursor : Option Position) : Editor :=
  { editor with
    selection := match cursor with
      | some position => .cursorAt position
      | none =>
        .between (editor.grid.clamp editor.selection.start)
          (editor.grid.clamp editor.selection.stop) }

/-- Replaces the whole code. -/
def write (editor : Editor) (code : Text) (cursor : Option Position) : Editor :=
  { editor with grid := .ofText code }.placeCursor cursor

/-- Reads a range, computes edits from the text, and commits them, all in the places
of the code as it was. -/
def readThenWrite {m : Type → Type} [Monad m] (selection : Selection)
    (compute : Text → m (List Edit)) (cursor : Option Position) :
    ExceptT EditorError (StateT Editor m) Unit := do
  let editor ← get
  match editor.grid.read selection with
  | .error error => throw (.buffer error)
  | .ok read =>
    let edits ← (compute read : m (List Edit))
    match editor.grid.apply edits with
    | (.error error, grid) =>
      set { editor with grid }
      throw (.buffer error)
    | (.ok (), grid) => set ({ editor with grid }.placeCursor cursor)

def moveCursorTo (editor : Editor) (position : Position) : Editor :=
  { editor with selection := .cursorAt position }

/-! ## Files -/

/-- Replaces the text of a file, which may be the one being edited. -/
def writeIn (editor : Editor) (path : Path) (code : Text) : Editor :=
  if path.same editor.path then { editor with grid := .ofText code }
  else { editor with files := editor.files.put path code }

def codeOf (editor : Editor) (path : Path) : Except EditorError Text :=
  if path.same editor.path then .ok editor.code
  else
    match editor.files.find? path with
    | some text => .ok text
    | none => .error (.noFile path)

/-- The paths of all files, in order. -/
def workspaceFiles (editor : Editor) : List Path :=
  Files.placePath editor.path editor.files.paths

/-- The places that refer to what a selection holds, first in the file being edited
and then in the others.  What is empty or goes beyond a line is only referred to
where it stands. -/
def references (editor : Editor) (selection : Selection) : Except EditorError (List Reference) :=
  match editor.grid.read selection with
  | .error error => .error (.buffer error)
  | .ok word =>
    if word.isEmpty || word.contains '\n' then .ok [⟨editor.path, selection⟩]
    else
      .ok (Reference.inFile editor.path editor.code word ++
        editor.files.flatMap fun (path, text) => Reference.inFile path text word)

/-! ## Highlights -/

def highlight (editor : Editor) (source : Selection) (bindings : List Selection) :
    Nat × Editor :=
  let (color, highlights) := editor.highlights.highlight source bindings
  (color, { editor with highlights })

def removeHighlight (editor : Editor) (source : Selection) : Editor :=
  { editor with highlights := (editor.highlights.remove source).2 }

def removeAllHighlights (editor : Editor) : Editor := { editor with highlights := .empty }

/-! ## The user -/

def showError (editor : Editor) (reason : Reason) : Editor :=
  { editor with shownErrors := editor.shownErrors ++ [reason] }

/-- Asks the surroundings to carry out a command, which this editor never does by
itself.  Tells whether it was carried out. -/
def delegate (editor : Editor) (command : Command) : Bool × Editor :=
  (false, { editor with delegated := editor.delegated ++ [command] })

/-- Lays up the number that the user picks at a later choice; none cancels it. -/
def answerChoice (editor : Editor) (number : Option Nat) : Editor :=
  { editor with choiceAnswers := editor.choiceAnswers ++ [number] }

/-- Lays up what the user types at a later question; none cancels it. -/
def answerInput (editor : Editor) (input : Option String) : Editor :=
  { editor with inputAnswers := editor.inputAnswers ++ [input] }

/-- Lets the user pick an option.  A user without an answer picks the first. -/
def askChoice (editor : Editor) (choices : List Choice) : Option Choice × Editor :=
  match editor.choiceAnswers with
  | [] => (choices.head?, editor)
  | answer :: rest => (answer >>= (choices[·]?), { editor with choiceAnswers := rest })

/-- Lets the user type a text.  A user without an answer leaves what is proposed. -/
def askInput (editor : Editor) (proposed : Option String) : Option String × Editor :=
  match editor.inputAnswers with
  | [] => (proposed, editor)
  | answer :: rest => (answer, { editor with inputAnswers := rest })

/-- Lets the user put items in another order; this editor's user leaves them. -/
def askPositions (_editor : Editor) (items : List PlacedItem) : List PlacedItem := items

end Editor
end Retouch
