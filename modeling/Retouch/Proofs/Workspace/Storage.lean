import Retouch.Proofs.Workspace.Files
import Retouch.Proofs.Workspace.Operation

/-!
# The workspace as a map

An editor keeps the text of its own file in its buffer and the texts of the others in a list.
Together they are a map from paths to texts.  Each operation puts at most one text under one
path: an accepted batch of edits puts what it makes of the own text, a refused one nothing
(`Step.put?`).  As far as paths and texts go, an operation does no more than write what it puts
(`Step.storage_after`), so it changes what is found under the path that it puts and nothing else
(`Step.codeOf_after`).

**Result.**  After any run each path has the text that was put last under it, or the one that it
had before the run, and the paths with a text are listed in order, each once
(`Editor.workspace_is_map`).
-/

set_option autoImplicit false

namespace Retouch

/-! ## What an operation puts -/

/-- What an accepted batch of edits makes of a text.  The edits are computed from the text of a
range; nothing is made where the range or an edit is not in the text, or edits overlap. -/
def Text.rewritten? (text : Text) (range : Selection) (edits : Text → List Edit) : Option Text :=
  if text.HasPlace range.start ∧ text.HasPlace range.stop then
    let batch := edits (text.between range.start range.stop)
    if text.Admits batch then some (text.spliced (batch.mergeSort Edit.comesBefore)) else none
  else none

namespace Step

/-- **The path and the text that an operation puts.** -/
def put? (step : Step) : Option (Path × Text) :=
  match step.operation with
  | .write code _ => some (step.before.path, code)
  | .readThenWrite selection edits _ =>
    (step.before.code.rewritten? selection edits).map (step.before.path, ·)
  | .writeIn path code => some (path, code)
  | _ => none

end Step

namespace Editor

/-- What an editor holds of a workspace: its own path and text, and the other files. -/
def storage (editor : Editor) : Path × Text × Files := (editor.path, editor.code, editor.files)

variable {editor : Editor}

theorem perform_readThenWrite_eq (reachable : editor.grid.Reachable) (selection : Selection)
    (edits : Text → List Edit) (cursor : Option Position) :
    editor.perform (.readThenWrite selection edits cursor) =
      match editor.code.rewritten? selection edits with
      | some code => (editor.withCode code).placeCursor cursor
      | none => editor := by
  have ran := editor.run_readThenWrite selection (fun read => (pure (edits read) : Id _)) cursor
  have grid : editor.grid = .ofText editor.code := reachable.eq_ofText_text
  rw [perform, ran, grid]
  by_cases places : editor.code.HasPlace selection.start ∧ editor.code.HasPlace selection.stop
  · rw [Grid.read_ofText places.1 places.2]
    by_cases admits : editor.code.Admits (edits (editor.code.between selection.start selection.stop))
    · have made : editor.code.rewritten? selection edits = some _ :=
        (if_pos places).trans (if_pos admits)
      rw [made]
      exact congrArg Prod.snd (commit_of_admits reachable admits cursor)
    · have nothing : editor.code.rewritten? selection edits = none :=
        (if_pos places).trans (if_neg admits)
      obtain ⟨error, refused⟩ := commit_of_not_admits reachable admits cursor
      rw [nothing]
      exact congrArg Prod.snd refused
  · have nothing : editor.code.rewritten? selection edits = none := if_neg places
    obtain ⟨position, refused⟩ := Grid.read_of_outside places
    rw [nothing, refused]
    rfl

theorem codeOf_of_storage_eq {other : Editor} (same : editor.storage = other.storage)
    (path : Path) : editor.codeOf path = other.codeOf path := by
  obtain ⟨paths, rest⟩ := Prod.mk.inj same
  obtain ⟨codes, files⟩ := Prod.mk.inj rest
  rw [codeOf, codeOf, paths, codes, files]

/-- **What is written under a path is found there**, and what is found elsewhere stays. -/
theorem codeOf_writeIn (editor : Editor) (path : Path) (text : Text) (other : Path) :
    (editor.writeIn path text).codeOf other =
      if path.same other then .ok text else editor.codeOf other := by
  rw [writeIn]
  by_cases own : path.same editor.path = true
  · rw [if_pos own]
    have same : other.same editor.path = path.same other := by
      rw [Path.same_congr own, Path.same_comm]
    rw [codeOf, codeOf, same]
    split
    · exact congrArg Except.ok (Grid.text_ofText text)
    · rfl
  · rw [if_neg own, codeOf, codeOf, Files.find?_put]
    by_cases here : path.same other = true
    · rw [← Path.same_congr here, if_neg own, if_pos here, if_pos here]
    · rw [if_neg here, if_neg here]
      rfl

end Editor

namespace Step

variable {step : Step}

/-- **An operation stores what it puts**, as if that were written under its path. -/
theorem storage_after (reachable : step.before.grid.Reachable) :
    step.after.storage =
      match step.put? with
      | some (path, text) => (step.before.writeIn path text).storage
      | none => step.before.storage := by
  obtain ⟨before, operation⟩ := step
  have ownText (code : Text) :
      (before.writeIn before.path code).storage = (before.withCode code).storage := by
    rw [Editor.writeIn, if_pos (Path.same_refl _)]
    rfl
  rw [after, put?]
  cases operation with
  | write code cursor => exact (ownText code).symm
  | readThenWrite selection edits cursor =>
    show (before.perform _).storage =
      match (before.code.rewritten? selection edits).map (before.path, ·) with
      | some (path, text) => (before.writeIn path text).storage
      | none => before.storage
    rw [Editor.perform_readThenWrite_eq reachable]
    cases before.code.rewritten? selection edits with
    | none => rfl
    | some code => exact (ownText code).symm
  | writeIn path code => rfl
  | askChoice choices =>
    rw [Editor.perform, Editor.askChoice]
    split <;> rfl
  | askInput proposed =>
    rw [Editor.perform, Editor.askInput]
    split <;> rfl
  | moveCursorTo | highlight | removeHighlight | removeAllHighlights | askPositions | delegate
  | showError => rfl

/-- **An operation changes what is found under the path that it puts**, and nothing else. -/
theorem codeOf_after (reachable : step.before.grid.Reachable) (path : Path) :
    step.after.codeOf path =
      match step.put? with
      | some put => if put.1.same path then .ok put.2 else step.before.codeOf path
      | none => step.before.codeOf path := by
  have stored := storage_after reachable
  cases put : step.put? with
  | none =>
    rw [put] at stored
    exact Editor.codeOf_of_storage_eq stored path
  | some put' =>
    rw [put] at stored
    exact (Editor.codeOf_of_storage_eq stored path).trans (step.before.codeOf_writeIn _ _ path)

end Step

/-! ## Files of their own -/

namespace Editor

/-- **Whether the other files are stored well**: in order, and without the editor's own
path. -/
structure KeepsApart (editor : Editor) : Prop where
  ordered : editor.files.IsOrdered
  others : ∀ known ∈ editor.files.paths, known.same editor.path = false

theorem KeepsApart.of_storage_eq {editor other : Editor} (same : editor.storage = other.storage)
    (apart : other.KeepsApart) : editor.KeepsApart := by
  obtain ⟨paths, rest⟩ := Prod.mk.inj same
  obtain ⟨-, files⟩ := Prod.mk.inj rest
  exact ⟨files ▸ apart.ordered, fun known member => paths ▸ apart.others known (files ▸ member)⟩

variable {editor : Editor}

/-- Writing under a path keeps the own path apart, whether or not it is that path. -/
theorem KeepsApart.writeIn (apart : editor.KeepsApart) (path : Path) (text : Text) :
    (editor.writeIn path text).KeepsApart := by
  rw [Editor.writeIn]
  by_cases own : path.same editor.path = true
  · rw [if_pos own]
    exact ⟨apart.ordered, apart.others⟩
  · rw [if_neg own]
    refine ⟨apart.ordered.put path text, fun known member => ?_⟩
    rcases Files.mem_paths_put member with rfl | earlier
    · exact Bool.not_eq_true _ ▸ own
    · exact apart.others known earlier

theorem path_writeIn (path : Path) (text : Text) :
    (editor.writeIn path text).path = editor.path := by
  rw [writeIn]
  split <;> rfl

/-- One operation keeps the own path, and keeps it apart. -/
theorem KeepsApart.perform (apart : editor.KeepsApart) (reachable : editor.grid.Reachable)
    (operation : Operation) :
    (editor.perform operation).path = editor.path ∧ (editor.perform operation).KeepsApart := by
  have stored := @Step.storage_after ⟨editor, operation⟩ reachable
  rw [Step.after] at stored
  split at stored
  · exact ⟨(Prod.mk.inj stored).1.trans (path_writeIn _ _),
      .of_storage_eq stored (apart.writeIn _ _)⟩
  · exact ⟨(Prod.mk.inj stored).1, .of_storage_eq stored apart⟩

/-! ## What is listed -/

/-- Nothing is found exactly under the paths that are neither the own nor that of a file. -/
theorem codeOf_eq_error_iff {path : Path} :
    editor.codeOf path = .error (.noFile path) ↔ path.same editor.path = false ∧
      ∀ known ∈ editor.files.paths, known.same path = false := by
  rw [← Files.find?_eq_none_iff, codeOf]
  cases path.same editor.path with
  | true => simp
  | false => cases editor.files.find? path <;> simp

/-- What is not found is told to be no file. -/
theorem codeOf_cases (editor : Editor) (path : Path) :
    (∃ text, editor.codeOf path = .ok text) ∨ editor.codeOf path = .error (.noFile path) := by
  rw [codeOf]
  split
  · exact .inl ⟨_, rfl⟩
  · cases editor.files.find? path with
    | some text => exact .inl ⟨text, rfl⟩
    | none => exact .inr rfl

/-- **The paths with a text are listed**, each under one spelling. -/
theorem exists_mem_workspaceFiles_iff {path : Path} :
    (∃ known ∈ editor.workspaceFiles, known.same path = true) ↔
      ∃ text, editor.codeOf path = .ok text := by
  have unlisted : editor.codeOf path = .error (.noFile path) ↔
      ∀ known ∈ editor.workspaceFiles, known.same path = false := by
    rw [codeOf_eq_error_iff, Path.same_comm]
    simp only [workspaceFiles, Files.mem_placePath, forall_eq_or_imp]
  constructor
  · rintro ⟨known, listed, same⟩
    rcases editor.codeOf_cases path with found | missing
    · exact found
    · rw [unlisted.1 missing known listed] at same
      cases same
  · rintro ⟨text, found⟩
    by_contra nowhere
    have missing := unlisted.2 fun known listed =>
      Bool.eq_false_iff.2 fun same => nowhere ⟨known, listed, same⟩
    rw [missing] at found
    cases found

/-! ## Runs -/

/-- The editor after a run. -/
def performAll (editor : Editor) (operations : List Operation) : Editor :=
  operations.foldl perform editor

/-- What the operations of a run put, from the first to the last. -/
def puts (editor : Editor) (operations : List Operation) : List (Path × Text) :=
  (editor.steps operations).filterMap Step.put?

/-- The text that was put last under a path. -/
def lastPut? (path : Path) (puts : List (Path × Text)) : Option Text :=
  ((puts.filter (·.1.same path)).getLast?).map Prod.snd

theorem lastPut?_cons (path : Path) (put : Path × Text) (puts : List (Path × Text)) :
    lastPut? path (put :: puts) =
      (lastPut? path puts).or (if put.1.same path then some put.2 else none) := by
  rw [lastPut?, lastPut?, List.filter_cons]
  split
  · rw [List.getLast?_cons]
    cases (puts.filter (·.1.same path)).getLast? <;> rfl
  · rw [Option.or_none]

theorem lastPut?_eq_none_iff {path : Path} {puts : List (Path × Text)} :
    lastPut? path puts = none ↔ ∀ put ∈ puts, put.1.same path = false := by
  rw [lastPut?, Option.map_eq_none_iff, List.getLast?_eq_none_iff, List.filter_eq_nil_iff]
  simp only [Bool.not_eq_true]

theorem reachable_performAll (reachable : editor.grid.Reachable) (operations : List Operation) :
    (editor.performAll operations).grid.Reachable := by
  induction operations generalizing editor with
  | nil => exact reachable
  | cons operation rest ih => exact ih (reachable_perform reachable operation)

/-- A run keeps the own path, and keeps it apart. -/
theorem KeepsApart.performAll (apart : editor.KeepsApart) (reachable : editor.grid.Reachable)
    (operations : List Operation) :
    (editor.performAll operations).path = editor.path ∧
      (editor.performAll operations).KeepsApart := by
  induction operations generalizing editor with
  | nil => exact ⟨rfl, apart⟩
  | cons operation rest ih =>
    obtain ⟨path, apart'⟩ := apart.perform reachable operation
    obtain ⟨path', apart''⟩ := ih apart' (reachable_perform reachable operation)
    exact ⟨path'.trans path, apart''⟩

/-- **After a run each path has the text put last under it**, or what it had before. -/
theorem codeOf_performAll (reachable : editor.grid.Reachable) (operations : List Operation)
    (path : Path) :
    (editor.performAll operations).codeOf path =
      match lastPut? path (editor.puts operations) with
      | some text => .ok text
      | none => editor.codeOf path := by
  induction operations generalizing editor with
  | nil => rfl
  | cons operation rest ih =>
    have first := @Step.codeOf_after ⟨editor, operation⟩ reachable path
    have later := ih (reachable_perform reachable operation)
    rw [Step.after] at first
    show ((editor.perform operation).performAll rest).codeOf path =
      match lastPut? path (List.filterMap Step.put?
        (⟨editor, operation⟩ :: (editor.perform operation).steps rest)) with
      | some text => .ok text
      | none => editor.codeOf path
    rw [later, List.filterMap_cons, ← puts]
    cases put : Step.put? ⟨editor, operation⟩ with
    | none =>
      rw [put] at first
      rw [first]
    | some put' =>
      rw [put] at first
      -- What a later operation puts under the path stands over what the first one put there.
      simp only [lastPut?_cons]
      cases lastPut? path ((editor.perform operation).puts rest) with
      | some text => rfl
      | none =>
        simp only [first, Option.none_or]
        split <;> rfl

/-- **The files of an editor are a map from paths to texts.**  Spellings of one path count as
one.  The editor starts with other files in order, without its own path among them.  After any
run, whether or not its operations were refused, its path is the same and still not among the
others.  The text of a path is the one that was put last under it, by a write, by an accepted
batch of edits or by its path, and without one the text from before the run; there is none
exactly for the paths that were never given one.  A further operation changes at most the text
of the path that it puts.  The paths with a text are listed in strictly increasing order. -/
theorem workspace_is_map {editor : Editor} (reachable : editor.grid.Reachable)
    (ordered : editor.files.IsOrdered)
    (others : ∀ known ∈ editor.files.paths, known.same editor.path = false)
    (operations : List Operation) :
    let after := editor.performAll operations
    let puts := editor.puts operations
    (after.path = editor.path ∧ ∀ known ∈ after.files.paths, known.same editor.path = false) ∧
    (∀ path, after.codeOf path =
      match lastPut? path puts with
      | some text => .ok text
      | none => editor.codeOf path) ∧
    (∀ path, after.codeOf path = .error (.noFile path) ↔
      path.same editor.path = false ∧ (∀ known ∈ editor.files.paths, known.same path = false) ∧
        ∀ put ∈ puts, put.1.same path = false) ∧
    (∀ operation path,
      (∀ put, Step.put? ⟨after, operation⟩ = some put → put.1.same path = false) →
        (after.perform operation).codeOf path = after.codeOf path) ∧
    after.workspaceFiles.Pairwise Path.IsBefore ∧
    ∀ path, (∃ known ∈ after.workspaceFiles, known.same path = true) ↔
      ∃ text, after.codeOf path = .ok text := by
  intro after puts
  have apart : editor.KeepsApart := ⟨ordered, others⟩
  obtain ⟨path, apart'⟩ := apart.performAll reachable operations
  have others' : ∀ known ∈ after.files.paths, known.same editor.path = false := by
    rw [← path]
    exact apart'.others
  have texts := codeOf_performAll reachable operations
  refine ⟨⟨path, others'⟩, texts, fun path => ?_, fun operation path elsewhere => ?_, ?_,
    fun path => exists_mem_workspaceFiles_iff⟩
  · rw [← lastPut?_eq_none_iff, ← and_assoc, ← codeOf_eq_error_iff, texts path]
    cases lastPut? path puts <;> simp
  · refine (@Step.codeOf_after ⟨after, operation⟩
      (reachable_performAll reachable operations) path).trans ?_
    cases put : Step.put? ⟨after, operation⟩ with
    | none => rfl
    | some put' =>
      show (if put'.1.same path = true then _ else _) = _
      rw [if_neg (by rw [elsewhere put' put]; decide)]
  · exact Files.pairwise_placePath apart'.ordered apart'.others

/-- An editor of `main();` with another file. -/
def withLibrary : Editor :=
  (Editor.ofCode "main();".toList default).withFile ⟨"lib.ts"⟩ "export {};".toList

/-- A qualifier before the call. -/
def qualifier : Edit := ⟨"x.".toList, .cursorAt ⟨0, 0⟩⟩

def qualify : Operation := .readThenWrite qualifier.selection (fun _ => [qualifier]) none

/-- A path is spelled in two ways, and the own file is edited, once outside its text. -/
def severalWrites : List Operation :=
  [qualify, .readThenWrite (.cursorAt ⟨7, 0⟩) (fun _ => []) none,
    .writeIn ⟨"src/util.ts"⟩ "let u;".toList, .writeIn ⟨"src//util.ts"⟩ "let v;".toList,
    .writeIn ⟨"./lib.ts"⟩ []]

theorem puts_severalWrites : withLibrary.puts severalWrites =
    [(defaultPath, "x.main();".toList), (⟨"src/util.ts"⟩, "let u;".toList),
      (⟨"src//util.ts"⟩, "let v;".toList), (⟨"./lib.ts"⟩, [])] := by
  have made : withLibrary.code.rewritten? qualifier.selection (fun _ => [qualifier]) =
      some "x.main();".toList := by
    simp only [Text.rewritten?, List.mergeSort_singleton]
    decide
  have edited : withLibrary.perform qualify =
      (withLibrary.withCode "x.main();".toList).placeCursor none := by
    rw [qualify, perform_readThenWrite_eq (.ofText _), made]
  have put : Step.put? ⟨withLibrary, qualify⟩ = some (defaultPath, "x.main();".toList) :=
    congrArg (Option.map (withLibrary.path, ·)) made
  rw [puts, severalWrites, steps, List.filterMap_cons_some put, edited]
  rfl

theorem workspace_is_map_severalWrites :
    let after := withLibrary.performAll severalWrites
    withLibrary.grid.Reachable ∧ withLibrary.files.IsOrdered ∧
      (∀ known ∈ withLibrary.files.paths, known.same withLibrary.path = false) ∧
      after.codeOf defaultPath = .ok "x.main();".toList ∧
      after.codeOf ⟨"src/util.ts"⟩ = .ok "let v;".toList ∧
      after.codeOf ⟨"lib.ts"⟩ = .ok "export {};".toList ∧
      after.codeOf ⟨"util.ts"⟩ = .error (.noFile ⟨"util.ts"⟩) ∧
      after.workspaceFiles.Pairwise Path.IsBefore := by
  intro after
  have reachable : withLibrary.grid.Reachable := .ofText _
  have ordered : withLibrary.files.IsOrdered := by decide
  have others : ∀ known ∈ withLibrary.files.paths, known.same withLibrary.path = false := by decide
  obtain ⟨-, texts, missing, -, increasing, -⟩ :=
    workspace_is_map reachable ordered others severalWrites
  simp only [puts_severalWrites] at texts missing
  exact ⟨reachable, ordered, others, texts _, texts _, texts _, (missing _).2 (by decide),
    increasing⟩

end Editor
end Retouch
