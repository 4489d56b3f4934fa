import Retouch.Proofs.Refactoring.Execution
import Retouch.Proofs.Refactoring.Independence

/-!
# What settings do to a service

Disabled refactorings are taken out before the walk, so that their visitors are never called.
What is found is nevertheless the same as if they were taken out of what is found: claims are
made independently, and taking them down commutes with a restriction to identifiers
(`discover_filter`).  This needs no assumption on the identifiers, since a restriction keeps
either all refactorings of an identifier or none.

**Result.**  A service offers what it offers under the standard settings, without the disabled
identifiers and with the preferred ones marked, and a disabled identifier is executed like one
that was never registered (`Service.offers_as_settings_say`).
-/

set_option autoImplicit false

namespace Retouch

variable {Memory : Type}

/-- Restricting the candidates to identifiers restricts what is found. -/
theorem discover_filter (keeps : String → Bool) (tree : Tree) (selection : Selection)
    (candidates : List (Refactoring Memory)) (typeChecker : TypeChecker) :
    discover tree selection (candidates.filter fun refactoring => keeps refactoring.id)
        typeChecker =
      (discover tree selection candidates typeChecker).filter fun action => keeps action.id := by
  rw [discover_eq_recordAll, discover_eq_recordAll, Discovery.filter_recordAll, Discovery.claims,
    Discovery.claims, Discovery.claimsFrom_filter]

/-- What is found is of a candidate: it has its identifier and its kind, and is preferred if it
is by itself. -/
theorem exists_of_mem_discover {tree : Tree} {selection : Selection}
    {candidates : List (Refactoring Memory)} {typeChecker : TypeChecker} {action : Action}
    (member : action ∈ discover tree selection candidates typeChecker) :
    ∃ refactoring ∈ candidates, refactoring.id = action.id ∧ refactoring.kind = action.kind ∧
      refactoring.isPreferred = action.isPreferred := by
  rw [discover_eq_recordAll] at member
  obtain ⟨first, found, kind, preferred, -⟩ :=
    (Discovery.summarizes_recordAll _).sums action member
  have candidate := (Discovery.mem_claims.1 (List.mem_of_find?_eq_some found)).1
  have same : first.id = action.id := by simpa using List.find?_some found
  exact ⟨first.refactoring, candidate, same, kind.symm, preferred.symm⟩

/-- What is shown of actions under settings: those that are not disabled, each preferred if it
is by itself or if its identifier is listed. -/
def Settings.shown (settings : Settings) (actions : List Action) : List Action :=
  (actions.filter fun action => action.id ∉ settings.disabled).map fun action =>
    { action with isPreferred := action.isPreferred || settings.preferred.contains action.id }

/-- The standard settings show all actions as they are. -/
theorem Settings.shown_standard (actions : List Action) : standard.shown actions = actions := by
  have all : actions.filter (fun action => action.id ∉ standard.disabled) = actions :=
    List.filter_eq_self.2 fun _ _ => rfl
  rw [shown, all]
  conv_rhs => rw [← List.map_id actions]
  refine List.map_congr_left fun action _ => ?_
  show { action with isPreferred := action.isPreferred || false } = action
  rw [Bool.or_false]

namespace Service

/-- A service under other settings. -/
def withSettings (service : Service Memory) (settings : Settings) : Service Memory :=
  { service with settings }

variable {service : Service Memory} {code : Text} {tree : Tree}

/-- **What a service finds is shown as the settings say.** -/
theorem discover_of_parsed (parsed : service.parse code = .ok tree) (selection : Selection) :
    service.discover code selection =
      .ok (service.settings.shown
        (Retouch.discover tree selection service.refactorings service.typeChecker)) := by
  have enabled (id : String) :
      service.settings.isEnabled id = decide (id ∉ service.settings.disabled) := by
    simp [Settings.isEnabled]
  have restricted : Retouch.discover tree selection service.candidates service.typeChecker =
      (Retouch.discover tree selection service.refactorings service.typeChecker).filter
        fun action => action.id ∉ service.settings.disabled := by
    simp only [candidates, enabled]
    exact discover_filter (fun id => id ∉ service.settings.disabled) tree selection
      service.refactorings service.typeChecker
  simp only [discover, parsed, restricted]
  rfl

theorem discover_standard (parsed : service.parse code = .ok tree) (selection : Selection) :
    (service.withSettings .standard).discover code selection =
      .ok (Retouch.discover tree selection service.refactorings service.typeChecker) := by
  have found := (service.withSettings .standard).discover_of_parsed parsed selection
  rwa [show (service.withSettings .standard).settings = Settings.standard from rfl,
    Settings.shown_standard] at found

theorem discover_of_unparsed {error : ParseError} (refused : service.parse code = .error error)
    (selection : Selection) : service.discover code selection = .error (.parse error) := by
  rw [discover, refused]

/-- A disabled identifier is unknown, and so is one that is not registered. -/
theorem outcome_execute_of_unknown {id : String}
    (unknown : id ∈ service.settings.disabled ∨ ∀ refactoring ∈ service.refactorings,
      refactoring.id ≠ id) (editor : Editor) :
    (service.execute id).outcome editor =
      (.error (.unknown id), editor.showError (.unknownRefactoring id)) := by
  refine outcome_execute_of_unavailable ?_
  rw [Option.filter_eq_none_iff]
  intro refactoring found
  rcases unknown with disabled | unregistered
  · simpa [Settings.isEnabled] using disabled
  · have same : refactoring.id = id := by simpa using List.find?_some found
    exact absurd same (unregistered refactoring (List.mem_of_find?_eq_some found))

/-- **A service offers and executes as its settings say.**  Where the code is not parsed,
discovery fails as it does under the standard settings, and nothing is offered.  Otherwise it
finds what it finds under the standard settings, in the same order and under the same titles
and kinds, but without the disabled identifiers, and each preferred if its refactoring is by
itself or if the settings list it; and that is what is offered.  Executing a disabled
identifier does to every editor what executing it does in a service in which it is not
registered: the identifier is reported as unknown, and nothing else is done. -/
theorem offers_as_settings_say (service : Service Memory) (code : Text) (selection : Selection) :
    (∀ error, service.parse code = .error error →
      (service.withSettings .standard).discover code selection = .error (.parse error) ∧
      service.discover code selection = .error (.parse error) ∧
      service.codeActions code selection = []) ∧
    (∀ tree, service.parse code = .ok tree → ∃ actions,
      (service.withSettings .standard).discover code selection = .ok actions ∧
      (∀ action ∈ actions, ∃ refactoring ∈ service.refactorings,
        refactoring.id = action.id ∧ refactoring.isPreferred = action.isPreferred) ∧
      service.discover code selection = .ok (service.settings.shown actions) ∧
      service.codeActions code selection = service.settings.shown actions) ∧
    ∀ id ∈ service.settings.disabled, ∀ editor : Editor, ∃ after,
      (service.execute id).outcome editor = (.error (.unknown id), after) ∧
      after = editor.showError (.unknownRefactoring id) ∧
      after.code = editor.code ∧ after.files = editor.files ∧
      ∀ (Other : Type) (other : Service Other),
        (∀ refactoring ∈ other.refactorings, refactoring.id ≠ id) →
          (other.execute id).outcome editor = (.error (.unknown id), after) := by
  refine ⟨fun error refused => ?_, fun tree parsed => ?_, fun id disabled editor => ?_⟩
  · have failed := discover_of_unparsed refused selection
    exact ⟨(service.withSettings .standard).discover_of_unparsed refused selection, failed,
      by rw [codeActions, failed]⟩
  · have found := discover_of_parsed parsed selection
    refine ⟨_, discover_standard parsed selection, fun action member => ?_, found,
      by rw [codeActions, found]⟩
    obtain ⟨refactoring, registered, id, -, preferred⟩ := exists_of_mem_discover member
    exact ⟨refactoring, registered, id, preferred⟩
  · exact ⟨_, outcome_execute_of_unknown (.inl disabled) editor, rfl, rfl, rfl,
      fun Other other unregistered => outcome_execute_of_unknown (.inr unregistered) editor⟩

end Service
end Retouch
