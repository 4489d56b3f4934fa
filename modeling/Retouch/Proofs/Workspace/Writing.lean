import Retouch.Proofs.Buffer.Clamp
import Retouch.Proofs.Buffer.Read
import Retouch.Workspace.Editor

/-!
# Reading and then writing

Reading a range and then writing is a read, one call of what computes the edits, and a
commit of the edits (`Editor.run_readThenWrite`).  What computes them may have effects of
any kind.  They are its effects on the text that is read, once, and there are none when the
range is not in the buffer.

**Result.** A read or a commit that fails leaves the whole editor as it was.  One that
succeeds changes the text, as the batch says, and the selection: to a cursor where one is
asked for, else only as far as the new text requires
(`Editor.readThenWrite_reads_then_commits`).
-/

set_option autoImplicit false

namespace Retouch
namespace Editor

open Text

/-! ## The run -/

/-- Makes a batch of edits and then places the cursor, if the batch is accepted. -/
def commit (editor : Editor) (cursor : Option Position) (edits : List Edit) :
    Except EditorError Unit × Editor :=
  match editor.grid.apply edits with
  | (.error error, grid) => (.error (.buffer error), { editor with grid })
  | (.ok (), grid) => (.ok (), { editor with grid }.placeCursor cursor)

section Effects

variable {m : Type → Type} [Monad m] [LawfulMonad m] {Failure State Value Result : Type}

theorem run_lift (act : StateT State m Value) (state : State) :
    (ExceptT.lift act : ExceptT Failure (StateT State m) Value).run.run state =
      (fun done => (.ok done.1, done.2)) <$> act.run state := by
  rw [ExceptT.run_lift, StateT.run_map]

theorem run_bind_lift (act : StateT State m Value)
    (next : Value → ExceptT Failure (StateT State m) Result) (state : State) :
    (ExceptT.lift act >>= next).run.run state =
      act.run state >>= fun done => (next done.1).run.run done.2 := by
  rw [ExceptT.run_bind_lift, StateT.run_bind]

/-- **What comes of reading and then writing**, with the effects of what computes the
edits. -/
theorem run_readThenWrite (editor : Editor) (selection : Selection)
    (compute : Text → m (List Edit)) (cursor : Option Position) :
    (readThenWrite selection compute cursor).run.run editor =
      match editor.grid.read selection with
      | .error error => pure (.error (.buffer error), editor)
      | .ok read => editor.commit cursor <$> compute read := by
  rw [readThenWrite]
  refine (run_bind_lift get _ editor).trans ?_
  rw [StateT.run_get, pure_bind]
  dsimp only
  cases editor.grid.read selection with
  | error error => rfl
  | ok read =>
    refine (run_bind_lift (StateT.lift (compute read)) _ editor).trans ?_
    rw [StateT.run_lift, bind_assoc]
    refine Eq.trans (bind_congr fun edits => ?_) (bind_pure_comp (editor.commit cursor) _)
    rw [pure_bind, commit]
    rcases editor.grid.apply edits with ⟨error | _, grid⟩
    · refine (run_bind_lift (set _) _ editor).trans ?_
      rw [StateT.run_set, pure_bind]
      rfl
    · refine (run_lift (set _) editor).trans ?_
      rw [StateT.run_set, map_pure]

end Effects

/-! ## The commit -/

/-- The editor with another text, and everything else as it is. -/
def withCode (editor : Editor) (code : Text) : Editor := { editor with grid := .ofText code }

@[simp] theorem code_withCode (editor : Editor) (code : Text) :
    (editor.withCode code).code = code :=
  Grid.text_ofText code

@[simp] theorem code_placeCursor (editor : Editor) (cursor : Option Position) :
    (editor.placeCursor cursor).code = editor.code :=
  rfl

/-- A selection whose ends are places of a new text stays. -/
theorem selection_placeCursor_of_hasPlace {editor : Editor} {code : Text} (fits : Fits code)
    (start : code.HasPlace editor.selection.start) (stop : code.HasPlace editor.selection.stop) :
    ((editor.withCode code).placeCursor none).selection = editor.selection := by
  show Selection.between ((Grid.ofText code).clamp editor.selection.start)
    ((Grid.ofText code).clamp editor.selection.stop) = editor.selection
  rw [Grid.clamp_of_hasPlace fits start, Grid.clamp_of_hasPlace fits stop,
    Selection.between_start_stop]

/-- **What an accepted batch makes of an editor.** -/
structure IsCommit (before : Editor) (cursor : Option Position) (edits : List Edit)
    (after : Editor) : Prop where
  /-- All edits are made in the places of the text as it was. -/
  code : ∃ ordered, Edit.InDocumentOrder edits ordered ∧
    after.code = before.code.spliced ordered
  moved : ∀ position, cursor = some position → after.selection = .cursorAt position
  brought : cursor = none →
    after.selection = .between (after.grid.clamp before.selection.start)
      (after.grid.clamp before.selection.stop)
  /-- The coordinates of the new text have to be words, as a position can hold no other. -/
  kept : cursor = none → Fits after.code → after.code.HasPlace before.selection.start →
    after.code.HasPlace before.selection.stop → after.selection = before.selection
  others : after =
    { before with grid := .ofText after.code, selection := after.selection }

variable {editor : Editor} {edits : List Edit}

theorem commit_of_admits (reachable : editor.grid.Reachable) (admits : editor.code.Admits edits)
    (cursor : Option Position) :
    editor.commit cursor edits =
      (.ok (), (editor.withCode (editor.code.spliced (edits.mergeSort Edit.comesBefore))).placeCursor
        cursor) := by
  rw [commit, reachable.apply_of_admits admits]
  rfl

theorem commit_of_not_admits (reachable : editor.grid.Reachable)
    (refuses : ¬ editor.code.Admits edits) (cursor : Option Position) :
    ∃ error, editor.commit cursor edits = (.error (.buffer error), editor) := by
  obtain ⟨error, refused⟩ := reachable.apply_of_not_admits refuses
  exact ⟨error, by rw [commit, refused]⟩

/-- Placing the cursor in a new text, as a commit does. -/
theorem isCommit_placeCursor {ordered : List Edit} (order : Edit.InDocumentOrder edits ordered)
    (cursor : Option Position) :
    editor.IsCommit cursor edits
      ((editor.withCode (editor.code.spliced ordered)).placeCursor cursor) where
  code := ⟨ordered, order, by rw [code_placeCursor, code_withCode]⟩
  moved := by
    rintro position rfl
    rfl
  brought := by
    rintro rfl
    rfl
  kept := by
    rintro rfl fits start stop
    rw [code_placeCursor, code_withCode] at fits start stop
    exact selection_placeCursor_of_hasPlace fits start stop
  others := by
    rw [code_placeCursor, code_withCode]
    rfl

/-- **Reading and then writing is atomic.**  The edits are computed only when the range is
in the buffer, and then once, from the text that the buffer holds there.  A range that is
not in the buffer and a batch that the buffer refuses leave the editor as it was.  A batch
that it accepts is made, and the cursor is placed. -/
theorem readThenWrite_reads_then_commits {m : Type → Type} [Monad m] [LawfulMonad m]
    (reachable : editor.grid.Reachable) (selection : Selection) (compute : Text → m (List Edit))
    (cursor : Option Position) :
    (¬ (editor.code.HasPlace selection.start ∧ editor.code.HasPlace selection.stop) →
      ∃ error, (readThenWrite selection compute cursor).run.run editor =
        pure (.error (.buffer error), editor)) ∧
    (editor.code.HasPlace selection.start ∧ editor.code.HasPlace selection.stop →
      (readThenWrite selection compute cursor).run.run editor =
        editor.commit cursor <$> compute (editor.code.between selection.start selection.stop)) ∧
    ∀ edits,
      (¬ editor.code.Admits edits →
        ∃ error, editor.commit cursor edits = (.error (.buffer error), editor)) ∧
      (editor.code.Admits edits →
        ∃ after, editor.commit cursor edits = (.ok (), after) ∧
          editor.IsCommit cursor edits after) := by
  have ran := editor.run_readThenWrite selection compute cursor
  obtain ⟨text, laidOut⟩ := reachable.eq_ofText
  have code : editor.code = text := by rw [Editor.code, laidOut, Grid.text_ofText]
  refine ⟨?_, ?_, ?_⟩
  · intro outside
    rw [code] at outside
    obtain ⟨position, refused⟩ := Grid.read_of_outside outside
    exact ⟨.outOfBounds position, by rw [ran, laidOut, refused]⟩
  · rintro ⟨start, stop⟩
    rw [code] at start stop ⊢
    rw [ran, laidOut, Grid.read_ofText start stop]
  · intro edits
    exact ⟨fun refuses => commit_of_not_admits reachable refuses cursor,
      fun admits => ⟨_, commit_of_admits reachable admits cursor,
        isCommit_placeCursor (Edit.inDocumentOrder_mergeSort edits) cursor⟩⟩

/-- Two lines with both selected in part. -/
def twoLines : Editor := .ofCode "one\ntwo".toList (.between ⟨0, 1⟩ ⟨1, 2⟩)

/-- The range around the newline. -/
def aroundNewline : Selection := .between ⟨0, 2⟩ ⟨1, 1⟩

/-- Takes the newline out of a text, and notes the text down. -/
def joinLines (read : Text) : StateM (List Text) (List Edit) := do
  modify (· ++ [read])
  return [⟨read.filter (· ≠ '\n'), aroundNewline⟩]

/-- The selection loses its second line, and the text is noted down once. -/
theorem readThenWrite_reads_then_commits_joinLines :
    twoLines.grid.Reachable ∧
      ∃ after, ((readThenWrite aroundNewline joinLines none).run.run twoLines).run [] =
          ((.ok (), after), ["e\nt".toList]) ∧
        twoLines.IsCommit none [⟨"et".toList, aroundNewline⟩] after ∧
        after.code = "onetwo".toList ∧ after.selection = .between ⟨0, 1⟩ ⟨0, 6⟩ := by
  have reachable : twoLines.grid.Reachable := .ofText _
  obtain ⟨-, inside, commits⟩ :=
    readThenWrite_reads_then_commits reachable aroundNewline joinLines none
  have places : twoLines.code.HasPlace aroundNewline.start ∧
      twoLines.code.HasPlace aroundNewline.stop := by decide
  have admits : twoLines.code.Admits [⟨"et".toList, aroundNewline⟩] := by decide
  obtain ⟨after, committed, isCommit⟩ := (commits _).2 admits
  have result : after = (twoLines.withCode "onetwo".toList).placeCursor none := by
    have done := commit_of_admits reachable admits none
    rw [committed, List.mergeSort_singleton] at done
    exact (Prod.mk.inj done).2
  refine ⟨reachable, after, ?_, isCommit, ?_, ?_⟩
  · rw [inside places]
    have read : twoLines.code.between aroundNewline.start aroundNewline.stop =
        "e\nt".toList := by decide
    rw [read]
    exact congrArg (·, ["e\nt".toList]) committed
  · rw [result, code_placeCursor, code_withCode]
  · rw [result]
    decide

end Editor
end Retouch
