import Retouch.Proofs.Workspace.Writing

/-!
# Runs of an editor

Whatever an editor is asked to do, its buffer stays that of a text
(`Editor.reachable_perform`).  Its selection stays in the text as well, with one exception:
a file may be given a new text by its path, and when that is the file being edited, the
selection is not brought into the new text, as it is when the whole code is replaced.

**Result.** A run that moves the cursor only to places of the text keeps the selection in
the text if and only if every text that it writes to the edited file by its path has the
ends that the selection has at that moment (`Editor.selectionInside_steps_iff`).
-/

set_option autoImplicit false

namespace Retouch

/-- What an editor can be asked to do, apart from what only looks at it. -/
inductive Operation where
  | write (code : Text) (cursor : Option Position)
  | readThenWrite (selection : Selection) (edits : Text → List Edit) (cursor : Option Position)
  | writeIn (path : Path) (code : Text)
  | moveCursorTo (position : Position)
  | highlight (source : Selection) (bindings : List Selection)
  | removeHighlight (source : Selection)
  | removeAllHighlights
  | askChoice (choices : List Choice)
  | askInput (proposed : Option String)
  | askPositions (items : List PlacedItem)
  | delegate (command : Command)
  | showError (reason : Reason)

/-- The position at which an operation is asked to place the cursor. -/
def Operation.cursor? : Operation → Option Position
  | .write _ cursor => cursor
  | .readThenWrite _ _ cursor => cursor
  | .moveCursorTo position => some position
  | _ => none

namespace Editor

/-- The editor after an operation, which may have failed. -/
def perform (editor : Editor) : Operation → Editor
  | .write code cursor => editor.write code cursor
  | .readThenWrite selection edits cursor =>
    ((Editor.readThenWrite selection (fun read => (pure (edits read) : Id _)) cursor).run.run
      editor).run.2
  | .writeIn path code => editor.writeIn path code
  | .moveCursorTo position => editor.moveCursorTo position
  | .highlight source bindings => (editor.highlight source bindings).2
  | .removeHighlight source => editor.removeHighlight source
  | .removeAllHighlights => editor.removeAllHighlights
  | .askChoice choices => (editor.askChoice choices).2
  | .askInput proposed => (editor.askInput proposed).2
  | .askPositions _ => editor
  | .delegate command => (editor.delegate command).2
  | .showError reason => editor.showError reason

/-- Both ends of the selection are places of the text. -/
def SelectionInside (editor : Editor) : Prop :=
  editor.code.HasPlace editor.selection.start ∧ editor.code.HasPlace editor.selection.stop

instance (editor : Editor) : Decidable editor.SelectionInside :=
  inferInstanceAs (Decidable (_ ∧ _))

variable {editor : Editor}

/-! ## One operation -/

theorem perform_writeIn {path : Path} (own : path.same editor.path = true) (code : Text) :
    editor.perform (.writeIn path code) = editor.withCode code :=
  if_pos own

/-- Reading and then writing leaves the editor, or places the cursor in a new text. -/
theorem perform_readThenWrite (reachable : editor.grid.Reachable) (selection : Selection)
    (edits : Text → List Edit) (cursor : Option Position) :
    editor.perform (.readThenWrite selection edits cursor) = editor ∨
      ∃ code, editor.perform (.readThenWrite selection edits cursor) =
        (editor.withCode code).placeCursor cursor := by
  have ran := editor.run_readThenWrite selection (fun read => (pure (edits read) : Id _)) cursor
  rw [perform, ran]
  cases editor.grid.read selection with
  | error error => exact .inl rfl
  | ok read =>
    show (editor.commit cursor (edits read)).2 = editor ∨
      ∃ code, (editor.commit cursor (edits read)).2 = (editor.withCode code).placeCursor cursor
    by_cases admits : editor.code.Admits (edits read)
    · exact .inr ⟨_, by rw [commit_of_admits reachable admits]⟩
    · obtain ⟨error, refused⟩ := commit_of_not_admits reachable admits cursor
      exact .inl (by rw [refused])

/-- **All that an operation can do to the text and the selection**: place the cursor in a new
text, move it, give a new text to the file by its path, or leave both. -/
theorem perform_cases (reachable : editor.grid.Reachable) (operation : Operation) :
    (∃ code, editor.perform operation = (editor.withCode code).placeCursor operation.cursor?) ∨
    (∃ position, operation.cursor? = some position ∧
      editor.perform operation = editor.moveCursorTo position) ∨
    (∃ path code, operation = .writeIn path code ∧ path.same editor.path = true ∧
      editor.perform operation = editor.withCode code) ∨
    (editor.perform operation).grid = editor.grid ∧
      (editor.perform operation).selection = editor.selection := by
  cases operation with
  | write code cursor => exact .inl ⟨code, rfl⟩
  | readThenWrite selection edits cursor =>
    rcases perform_readThenWrite reachable selection edits cursor with left | written
    · exact .inr (.inr (.inr (by rw [left]; exact ⟨rfl, rfl⟩)))
    · exact .inl written
  | writeIn path code =>
    by_cases own : path.same editor.path = true
    · exact .inr (.inr (.inl ⟨path, code, rfl, own, perform_writeIn own code⟩))
    · have other : editor.perform (.writeIn path code) =
          { editor with files := editor.files.put path code } := if_neg own
      exact .inr (.inr (.inr (by rw [other]; exact ⟨rfl, rfl⟩)))
  | moveCursorTo position => exact .inr (.inl ⟨position, rfl, rfl⟩)
  | askChoice choices =>
    refine .inr (.inr (.inr ?_))
    rw [perform, askChoice]
    split <;> exact ⟨rfl, rfl⟩
  | askInput proposed =>
    refine .inr (.inr (.inr ?_))
    rw [perform, askInput]
    split <;> exact ⟨rfl, rfl⟩
  | highlight | removeHighlight | removeAllHighlights | askPositions | delegate | showError =>
    exact .inr (.inr (.inr ⟨rfl, rfl⟩))

theorem reachable_perform (reachable : editor.grid.Reachable) (operation : Operation) :
    (editor.perform operation).grid.Reachable := by
  rcases perform_cases reachable operation with
    ⟨code, done⟩ | ⟨position, -, done⟩ | ⟨path, code, -, -, done⟩ | ⟨grid, -⟩
  · rw [done]
    exact .ofText code
  · rw [done]
    exact reachable
  · rw [done]
    exact .ofText code
  · rw [grid]
    exact reachable

/-- Placing the cursor leaves the selection in the new text, however short that is. -/
theorem selectionInside_placeCursor {code : Text} {cursor : Option Position}
    (given : ∀ position, cursor = some position → code.HasPlace position) :
    ((editor.withCode code).placeCursor cursor).SelectionInside := by
  rw [SelectionInside, code_placeCursor, code_withCode]
  cases cursor with
  | some position => exact ⟨given position rfl, given position rfl⟩
  | none =>
    -- Both clamped ends are places, so their order does not matter.
    show code.HasPlace (Selection.between _ _).start ∧ code.HasPlace (Selection.between _ _).stop
    have first := Grid.hasPlace_clamp code editor.selection.start
    have second := Grid.hasPlace_clamp code editor.selection.stop
    rw [Selection.between]
    split
    · exact ⟨first, second⟩
    · exact ⟨second, first⟩

end Editor

/-! ## Steps -/

/-- An operation with the editor that carries it out. -/
structure Step where
  before : Editor
  operation : Operation

namespace Step

def after (step : Step) : Editor := step.before.perform step.operation

/-- A cursor that is asked for is a place of the text as it is then. -/
def CursorInside (step : Step) : Prop :=
  ∀ position, step.operation.cursor? = some position → step.after.code.HasPlace position

/-- A text that is written to the edited file by its path has the ends of the selection. -/
def KeepsEnds (step : Step) : Prop :=
  ∀ path code, step.operation = .writeIn path code → path.same step.before.path = true →
    code.HasPlace step.before.selection.start ∧ code.HasPlace step.before.selection.stop

/-- **Which operations keep the selection in the text.** -/
theorem selectionInside_after_iff {step : Step} (reachable : step.before.grid.Reachable)
    (inside : step.before.SelectionInside) (given : step.CursorInside) :
    step.after.SelectionInside ↔ step.KeepsEnds := by
  obtain ⟨before, operation⟩ := step
  constructor
  · rintro stays path code rfl own
    rw [after, Editor.perform_writeIn own, Editor.SelectionInside, Editor.code_withCode] at stays
    exact stays
  · intro ends
    rw [CursorInside, after] at given
    rw [after]
    rcases Editor.perform_cases reachable operation with
      ⟨code, done⟩ | ⟨position, moved, done⟩ | ⟨path, code, asked, own, done⟩ | ⟨grid, selection⟩
    · rw [done, Editor.code_placeCursor, Editor.code_withCode] at given
      rw [done]
      exact Editor.selectionInside_placeCursor given
    · rw [done] at given ⊢
      exact ⟨given position moved, given position moved⟩
    · rw [done, Editor.SelectionInside, Editor.code_withCode]
      exact ends path code asked own
    · rw [Editor.SelectionInside, Editor.code, grid, selection]
      exact inside

end Step

/-! ## Runs -/

namespace Editor

/-- The steps of a run, each operation on the editor that those before have left. -/
def steps (editor : Editor) : List Operation → List Step
  | [] => []
  | operation :: rest => ⟨editor, operation⟩ :: (editor.perform operation).steps rest

/-- **When a run keeps the selection in the text.**  It does after each of its operations if
and only if each text that it writes to the edited file by its path has the ends of the
selection. -/
theorem selectionInside_steps_iff {editor : Editor} (reachable : editor.grid.Reachable)
    (inside : editor.SelectionInside) (operations : List Operation)
    (given : ∀ step ∈ editor.steps operations, step.CursorInside) :
    (∀ step ∈ editor.steps operations, step.after.SelectionInside) ↔
      ∀ step ∈ editor.steps operations, step.KeepsEnds := by
  induction operations generalizing editor with
  | nil => simp [steps]
  | cons operation rest ih =>
    rw [steps, List.forall_mem_cons, List.forall_mem_cons]
    rw [steps, List.forall_mem_cons] at given
    have first := Step.selectionInside_after_iff reachable inside given.1
    constructor
    · rintro ⟨stays, staysLater⟩
      exact ⟨first.1 stays, (ih (reachable_perform reachable operation) stays given.2).1 staysLater⟩
    · rintro ⟨ends, endsLater⟩
      have stays := first.2 ends
      exact ⟨stays, (ih (reachable_perform reachable operation) stays given.2).2 endsLater⟩

/-- A cursor at the end of a line. -/
def endOfLine : Editor := .ofCode "abc".toList (.cursorAt ⟨0, 3⟩)

/-- The cursor is moved to where the text that follows still reaches. -/
def shrinkAfterMove : List Operation :=
  [.write "longer".toList none, .moveCursorTo ⟨0, 2⟩, .writeIn defaultPath "ab".toList]

theorem selectionInside_steps_iff_shrinkAfterMove :
    endOfLine.grid.Reachable ∧ endOfLine.SelectionInside ∧
      (∀ step ∈ endOfLine.steps shrinkAfterMove, step.CursorInside) ∧
      ∀ step ∈ endOfLine.steps shrinkAfterMove, step.after.SelectionInside := by
  have reachable : endOfLine.grid.Reachable := .ofText _
  have inside : endOfLine.SelectionInside := by decide
  have given : ∀ step ∈ endOfLine.steps shrinkAfterMove, step.CursorInside := by
    simp only [shrinkAfterMove, steps, List.forall_mem_cons]
    refine ⟨nofun, ?_, nofun, nofun⟩
    rintro position ⟨⟩
    decide
  have ends : ∀ step ∈ endOfLine.steps shrinkAfterMove, step.KeepsEnds := by
    simp only [shrinkAfterMove, steps, List.forall_mem_cons]
    refine ⟨nofun, nofun, ?_, nofun⟩
    rintro path code ⟨⟩ -
    decide
  exact ⟨reachable, inside, given, (selectionInside_steps_iff reachable inside _ given).2 ends⟩

/-- **An operation can leave the selection outside the text.**  An empty text that is written
to the edited file by its path leaves the cursor where the line was. -/
theorem writeIn_leaves_selectionInside :
    ¬ ∀ (editor : Editor) (operations : List Operation), editor.grid.Reachable →
      editor.SelectionInside → (∀ step ∈ editor.steps operations, step.CursorInside) →
      ∀ step ∈ editor.steps operations, step.after.SelectionInside := by
  intro stays
  have given : ∀ step ∈ endOfLine.steps [.writeIn defaultPath []], step.CursorInside := by
    simp only [steps, List.forall_mem_cons]
    exact ⟨nofun, nofun⟩
  have left := stays endOfLine [.writeIn defaultPath []] (.ofText _) (by decide) given _
    (List.mem_singleton_self _)
  exact absurd left (by decide)

end Editor
end Retouch
