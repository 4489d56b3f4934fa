import Mathlib.Data.List.Nodup
import Retouch.Proofs.Refactoring.Summary
import Retouch.Proofs.Workspace.Writing
import Retouch.Refactoring.Service

/-!
# Carrying out refactorings

A plan suits a text when its ranges are ranges of the text and its edits do not overlap,
whatever is read.  Such a plan succeeds, and all that it changes of an editor is the text,
and the selection where that is no longer in the text (`Plan.Suits.outcome_perform`).

A service carries out the refactoring of an identifier and shows what fails
(`Service.outcome_execute`).  What it offers are the refactorings, among those that the
settings let through, that claim some site (`Service.mem_ids_codeActionsFor`).
-/

set_option autoImplicit false

namespace Retouch

open Text

/-- What comes of an execution on an editor. -/
def Execution.outcome (act : Execution Unit) (editor : Editor) : Except Failure Unit × Editor :=
  act.run.run editor

/-- A failure is handled on the editor that it leaves. -/
theorem Execution.outcome_tryCatch (act : Execution Unit) (handler : Failure → Execution Unit)
    (editor : Editor) :
    Execution.outcome (tryCatch act handler) editor =
      match act.outcome editor with
      | (.ok (), after) => (.ok (), after)
      | (.error failure, after) => (handler failure).outcome after := by
  rw [outcome, ExceptT.run_tryCatch, StateT.run_bind]
  show (act.outcome editor >>= _ : Id _) = _
  rcases act.outcome editor with ⟨_ | _, after⟩ <;> rfl

/-! ## Plans -/

namespace Plan

/-- **Whether a plan can be carried out on a text**, whatever it reads. -/
structure Suits (plan : Plan) (text : Text) : Prop where
  scope : text.HasPlace plan.scope.start ∧ text.HasPlace plan.scope.stop
  inside : ∀ read, ∀ edit ∈ plan.edits read,
    text.HasPlace edit.selection.start ∧ text.HasPlace edit.selection.stop
  apart : ∀ read, Edit.Apart (plan.edits read)

/-- The text after a plan was carried out. -/
def result (plan : Plan) (text : Text) : Text :=
  text.spliced
    ((plan.edits (text.between plan.scope.start plan.scope.stop)).mergeSort Edit.comesBefore)

variable {plan : Plan} {text : Text} {editor : Editor}

/-- A single edit suits a text that has its range. -/
theorem suits_single {edit : Edit}
    (inside : text.HasPlace edit.selection.start ∧ text.HasPlace edit.selection.stop) :
    (single edit).Suits text := by
  refine ⟨inside, ?_, fun _ => List.pairwise_singleton _ _⟩
  intro _ other member
  rw [List.mem_singleton.1 member]
  exact inside

theorem result_single (edit : Edit) (text : Text) :
    (single edit).result text = text.spliced [edit] := by
  rw [result, single, List.mergeSort_singleton]

/-- What comes of a plan is what comes of reading its scope and committing its edits. -/
theorem outcome_perform (plan : Plan) (editor : Editor) :
    plan.perform.outcome editor =
      match editor.grid.read plan.scope with
      | .error error => (.error (.editor (.buffer error)), editor)
      | .ok read =>
        match editor.commit none (plan.edits read) with
        | (.error error, after) => (.error (.editor error), after)
        | (.ok (), after) => (.ok (), after) := by
  have ran := editor.run_readThenWrite plan.scope (fun read => (pure (plan.edits read) : Id _)) none
  rw [ExceptT.run] at ran
  rw [Execution.outcome, perform]
  simp only [ExceptT.run_mk, StateT.run_bind, ran]
  cases editor.grid.read plan.scope with
  | error error => rfl
  | ok text =>
    simp only [map_pure]
    rcases editor.commit none (plan.edits text) with ⟨_ | _, after⟩ <;> rfl

theorem Suits.admits (suits : plan.Suits text) (read : Text) : text.Admits (plan.edits read) :=
  ⟨suits.inside read, suits.apart read⟩

/-- **A plan that suits the text of an editor is carried out.** -/
theorem Suits.outcome_perform (suits : plan.Suits text) (grid : editor.grid = .ofText text) :
    plan.perform.outcome editor =
      (.ok (), { editor with grid := .ofText (plan.result text) }.placeCursor none) := by
  have code : editor.code = text := by rw [Editor.code, grid, Grid.text_ofText]
  have read := Grid.read_ofText suits.scope.1 suits.scope.2
  have committed := Editor.commit_of_admits (grid ▸ .ofText text)
    (code ▸ suits.admits (text.between plan.scope.start plan.scope.stop)) none
  rw [code] at committed
  rw [Plan.outcome_perform, grid, read]
  simp only [committed]
  rfl

/-- What comes of planning at the selection of an editor. -/
theorem outcome_execution (reason : Reason) (plan? : Tree → Selection → Option Plan)
    (parse : Parse) (editor : Editor) :
    (execution reason plan? parse).outcome editor =
      match parse editor.code with
      | .error error => (.error (.parse error), editor)
      | .ok tree =>
        match plan? tree editor.selection with
        | some plan => plan.perform.outcome editor
        | none => (.error (.notApplicable reason), editor) := by
  have got : (get : Execution Editor).run.run editor = pure (.ok editor, editor) := rfl
  simp only [Execution.outcome, execution, ExceptT.run_bind, StateT.run_bind, got, pure_bind]
  cases parse editor.code with
  | error error => rfl
  | ok tree =>
    simp only
    cases plan? tree editor.selection <;> rfl

end Plan

/-! ## Services -/

namespace Service

variable {Memory : Type} {service : Service Memory} {editor : Editor}

/-- An identifier finds the only refactoring that has it. -/
theorem find?_of_only {refactoring : Refactoring Memory}
    (only : ∀ other ∈ service.refactorings, other.id = refactoring.id → other = refactoring)
    (member : refactoring ∈ service.refactorings) :
    service.find? refactoring.id = some refactoring := by
  obtain ⟨found, first⟩ := Option.isSome_iff_exists.1
    (List.find?_isSome.2 ⟨refactoring, member, decide_eq_true rfl⟩ :
      (service.refactorings.find? (·.id = refactoring.id)).isSome = true)
  have same := only found (List.mem_of_find?_eq_some first) (by simpa using List.find?_some first)
  rw [find?, first, same]

/-- Identifiers that differ find their refactorings. -/
theorem find?_id (distinct : (service.refactorings.map Refactoring.id).Nodup)
    {refactoring : Refactoring Memory} (member : refactoring ∈ service.refactorings) :
    service.find? refactoring.id = some refactoring :=
  find?_of_only (fun _ registered same => List.inj_on_of_nodup_map distinct registered member same)
    member

/-- **What comes of executing an identifier**: what comes of its refactoring, and a failure
is shown. -/
theorem outcome_execute {id : String} {refactoring : Refactoring Memory}
    (found : service.find? id = some refactoring) (enabled : service.settings.isEnabled id = true) :
    (service.execute id).outcome editor =
      match (refactoring.execute service.parse).outcome editor with
      | (.ok (), after) => (.ok (), after)
      | (.error failure, after) => (.error failure, after.showError failure.reason) := by
  have chosen : (service.find? id).filter (fun _ => service.settings.isEnabled id) =
      some refactoring := by
    rw [found, Option.filter_some, if_pos enabled]
  rw [execute, chosen]
  exact Execution.outcome_tryCatch _ _ editor

/-- An identifier that is not registered, or that the settings disable, is unknown. -/
theorem outcome_execute_of_unavailable {id : String}
    (unavailable : (service.find? id).filter (fun _ => service.settings.isEnabled id) = none) :
    (service.execute id).outcome editor =
      (.error (.unknown id), editor.showError (Failure.unknown id).reason) := by
  rw [execute, unavailable]
  rfl

/-- **What a service offers**: the identifiers of enabled refactorings that claim a site. -/
theorem mem_ids_codeActionsFor {tree : Tree} (parsed : service.parse editor.code = .ok tree)
    {id : String} :
    id ∈ (service.codeActionsFor editor).map Action.id ↔
      ∃ refactoring ∈ service.refactorings, refactoring.id = id ∧
        service.settings.isEnabled id = true ∧
        ∃ earlier site later, tree.sites = earlier ++ site :: later ∧
          (refactoring.claim? (tree.inquiry editor.selection service.typeChecker) earlier
            site).isSome = true := by
  have offered : (service.codeActionsFor editor).map Action.id =
      (Retouch.discover tree editor.selection service.candidates service.typeChecker).map
        Action.id := by
    rw [codeActionsFor, codeActions, discover, parsed]
    exact List.map_map
  rw [offered, discover_eq_recordAll, (Discovery.summarizes_recordAll _).mem_ids_iff,
    List.mem_map]
  constructor
  · rintro ⟨claimed, member, rfl⟩
    obtain ⟨candidate, earlier, site, later, split, claims⟩ := Discovery.mem_claims.1 member
    obtain ⟨registered, enabled⟩ := List.mem_filter.1 candidate
    exact ⟨claimed.refactoring, registered, rfl, enabled, earlier, site, later, split,
      Option.isSome_of_eq_some claims⟩
  · rintro ⟨refactoring, registered, rfl, enabled, earlier, site, later, split, claims⟩
    obtain ⟨claim, claims⟩ := Option.isSome_iff_exists.1 claims
    exact ⟨⟨refactoring, claim⟩, Discovery.mem_claims.2 ⟨List.mem_filter.2 ⟨registered, enabled⟩,
      earlier, site, later, split, claims⟩, rfl⟩

end Service
end Retouch
