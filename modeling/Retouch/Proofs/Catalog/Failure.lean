import Retouch.Proofs.Catalog.Agreement

/-!
# What a failed execution leaves behind

An act on an editor is atomic there if it leaves the editor when it fails, and otherwise
changes only the text and the selection (`Execution.IsAtomicOn`).  Carrying out a plan is
atomic, whatever the plan is, and so is planning at the selection of an editor
(`Plan.isAtomicOn_perform`, `Plan.isAtomicOn_execution`).  A service of atomic refactorings
shows what fails, once, and leaves everything else (`Service.reports_execute`).

**For a service of built-in refactorings this needs no assumption** on the identifier, the
settings, the parser or the text (`builtIn_reports`).
-/

set_option autoImplicit false

namespace Retouch

/-- **Whether an act does all or nothing to an editor.** -/
structure Execution.IsAtomicOn (act : Execution Unit) (editor : Editor) : Prop where
  failed : ∀ failure after, act.outcome editor = (.error failure, after) → after = editor
  done : ∀ after, act.outcome editor = (.ok (), after) →
    after = { editor with grid := after.grid, selection := after.selection }

variable {act : Execution Unit} {editor : Editor}

/-- An act that fails on an editor and leaves it. -/
theorem Execution.isAtomicOn_of_error {failure : Failure}
    (outcome : act.outcome editor = (.error failure, editor)) : act.IsAtomicOn editor where
  failed other after same := by
    rw [outcome] at same
    exact (Prod.mk.inj same).2.symm
  done after same := by
    rw [outcome] at same
    cases (Prod.mk.inj same).1

/-- An act that succeeds and changes the text and the selection. -/
theorem Execution.isAtomicOn_of_ok {after : Editor} (outcome : act.outcome editor = (.ok (), after))
    (changed : after = { editor with grid := after.grid, selection := after.selection }) :
    act.IsAtomicOn editor where
  failed failure other same := by
    rw [outcome] at same
    cases (Prod.mk.inj same).1
  done other same := by
    rw [outcome] at same
    obtain rfl := (Prod.mk.inj same).2
    exact changed

/-! ## Plans -/

namespace Plan

/-- **Carrying out a plan is atomic**, whether its scope is a range of the text or not, and
whether its edits are accepted or not. -/
theorem isAtomicOn_perform (plan : Plan) (reachable : editor.grid.Reachable) :
    plan.perform.IsAtomicOn editor := by
  have outcome := plan.outcome_perform editor
  cases read : editor.grid.read plan.scope with
  | error error =>
    rw [read] at outcome
    exact Execution.isAtomicOn_of_error outcome
  | ok text =>
    by_cases admits : editor.code.Admits (plan.edits text)
    · simp only [read, Editor.commit_of_admits reachable admits] at outcome
      exact Execution.isAtomicOn_of_ok outcome rfl
    · obtain ⟨error, refused⟩ := Editor.commit_of_not_admits reachable admits none
      simp only [read, refused] at outcome
      exact Execution.isAtomicOn_of_error outcome

/-- **Planning at the selection is atomic**, whatever is parsed and planned. -/
theorem isAtomicOn_execution (reason : Reason) (plan? : Tree → Selection → Option Plan)
    (parse : Parse) (reachable : editor.grid.Reachable) :
    (execution reason plan? parse).IsAtomicOn editor := by
  have outcome := outcome_execution reason plan? parse editor
  cases parsed : parse editor.code with
  | error error =>
    rw [parsed] at outcome
    exact Execution.isAtomicOn_of_error outcome
  | ok tree =>
    rw [parsed] at outcome
    cases planned : plan? tree editor.selection with
    | none =>
      simp only [planned] at outcome
      exact Execution.isAtomicOn_of_error outcome
    | some plan =>
      simp only [planned] at outcome
      have atomic := plan.isAtomicOn_perform reachable
      exact ⟨fun failure after same => atomic.failed failure after (outcome ▸ same),
        fun after same => atomic.done after (outcome ▸ same)⟩

end Plan

/-! ## Services -/

namespace Service

/-- **A service of atomic refactorings shows a failure once**, the one that it returns, and
leaves the rest of the editor. -/
theorem reports_execute {Memory : Type} {service : Service Memory}
    (atomic : ∀ refactoring ∈ service.refactorings,
      (refactoring.execute service.parse).IsAtomicOn editor) (id : String) :
    (∀ failure after, (service.execute id).outcome editor = (.error failure, after) →
      after = { editor with shownErrors := editor.shownErrors ++ [failure.reason] }) ∧
    ∀ after, (service.execute id).outcome editor = (.ok (), after) →
      after = { editor with grid := after.grid, selection := after.selection } := by
  cases chosen : (service.find? id).filter fun _ => service.settings.isEnabled id with
  | none =>
    rw [outcome_execute_of_unavailable chosen]
    constructor
    · rintro failure after ⟨⟩
      rfl
    · rintro after ⟨⟩
  | some refactoring =>
    obtain ⟨found, enabled⟩ := Option.filter_eq_some_iff.1 chosen
    have atomic := atomic refactoring (List.mem_of_find?_eq_some found)
    rw [outcome_execute found enabled]
    rcases ran : (refactoring.execute service.parse).outcome editor with ⟨failure | _, after⟩
    · obtain rfl := atomic.failed failure after ran
      constructor
      · rintro other after ⟨⟩
        rfl
      · rintro after ⟨⟩
    · have changed := atomic.done after ran
      constructor
      · rintro failure after ⟨⟩
      · rintro other ⟨⟩
        exact changed

end Service

/-- **What a service of built-in refactorings leaves of an editor.**  Whatever the identifier,
the settings, the parser and the text are: if the execution fails, then its failure has been
shown, once, and nothing else has changed; if not, then nothing but the text and the
selection. -/
theorem builtIn_reports {service : Service Unit}
    (registered : ∀ refactoring ∈ service.refactorings, refactoring ∈ builtIn)
    (reachable : editor.grid.Reachable) (id : String) :
    (∀ failure after, (service.execute id).outcome editor = (.error failure, after) →
      after = { editor with shownErrors := editor.shownErrors ++ [failure.reason] }) ∧
    ∀ after, (service.execute id).outcome editor = (.ok (), after) →
      after = { editor with grid := after.grid, selection := after.selection } := by
  refine Service.reports_execute (fun refactoring member => ?_) id
  obtain ⟨accepts, reason, plan?, aims, -⟩ := exists_aimsAt (registered refactoring member)
  rw [aims.execute_eq]
  exact Plan.isAtomicOn_execution reason plan? service.parse reachable

/-- An editor of a text that is not parsed, with a highlight and another file. -/
def unparsed : Editor :=
  let editor := Editor.ofCode "if (".toList (.cursorAt ⟨0, 2⟩)
  ((editor.withFile ⟨"lib.ts"⟩ "export {};".toList).highlight (.cursorAt ⟨0, 0⟩) []).2

/-- A service whose parser is cut short at every text. -/
def interrupted : Service Unit := { Service.parsing choice with parse := fun _ => .error .aborted }

theorem builtIn_reports_unparsed :
    (∀ refactoring ∈ (Service.parsing choice).refactorings, refactoring ∈ builtIn) ∧
      (∀ refactoring ∈ interrupted.refactorings, refactoring ∈ builtIn) ∧
      unparsed.grid.Reachable ∧
      ((Service.parsing choice).execute flipIfElse.id).outcome unparsed =
        (.error (.parse (.faulty "Syntax error" ⟨0, 0⟩)),
          { unparsed with
            shownErrors := [.parsingFailed
              (ParseError.text (.faulty "Syntax error" ⟨0, 0⟩))] }) ∧
      (interrupted.execute flipIfElse.id).outcome unparsed =
        (.error (.parse .aborted),
          { unparsed with shownErrors := [.parsingFailed "Parsing was aborted"] }) := by
  have registered : ∀ refactoring ∈ (Service.parsing choice).refactorings,
      refactoring ∈ builtIn := fun _ member => member
  have registered' : ∀ refactoring ∈ interrupted.refactorings, refactoring ∈ builtIn :=
    fun _ member => member
  have reachable : unparsed.grid.Reachable := .ofText _
  have failed : (((Service.parsing choice).execute flipIfElse.id).outcome unparsed).1 =
      .error (.parse (.faulty "Syntax error" ⟨0, 0⟩)) := rfl
  have failed' : ((interrupted.execute flipIfElse.id).outcome unparsed).1 =
      .error (.parse .aborted) := rfl
  exact ⟨registered, registered', reachable,
    Prod.ext failed
      ((builtIn_reports registered reachable flipIfElse.id).1 _ _ (Prod.ext failed rfl)),
    Prod.ext failed'
      ((builtIn_reports registered' reachable flipIfElse.id).1 _ _ (Prod.ext failed' rfl))⟩

end Retouch
