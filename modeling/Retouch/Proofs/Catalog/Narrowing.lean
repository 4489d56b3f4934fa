import Retouch.Proofs.Catalog.Agreement
import Retouch.Proofs.Refactoring.Settings
import Retouch.Proofs.Selection

/-!
# Narrower selections

A test of sites may look at a selection only to see whether it lies in the range of the site
(`AsksContainment`).  What such a test accepts for a selection it accepts for every selection
inside it.  All tests of the built-in refactorings are of this form, and where a visitor asks
for types as well, it asks the same question whatever is selected.  So a site that is claimed
for a selection is claimed for the selections inside it (`Refactoring.Persists`,
`persists_of_mem_builtIn`).

**A narrower selection loses no offer** (`Service.offered_inside`).  More sites may be claimed
for it, so the title, which is that of the last claim, may change.
-/

set_option autoImplicit false

namespace Retouch

open Claiming

variable {Memory : Type} {inner outer : Selection}

/-! ## Tests that ask for containment -/

/-- **Whether a test asks only one thing of a selection**, to lie in the range of the site. -/
def AsksContainment (accepts : Selection → Site → Bool) : Prop :=
  ∃ suits : Site → Bool, ∀ selection site,
    accepts selection site = (suits site && selection.isInside site.range)

theorem AsksContainment.accepts_inside {accepts : Selection → Site → Bool}
    (asks : AsksContainment accepts) (inside : inner.isInside outer = true) {site : Site}
    (accepted : accepts outer site = true) : accepts inner site = true := by
  obtain ⟨suits, form⟩ := asks
  rw [form, Bool.and_eq_true] at *
  exact ⟨accepted.1, Selection.isInside_trans inside accepted.2⟩

/-! ## Claims that persist -/

/-- The same question about another selection. -/
def Inquiry.at (inquiry : Inquiry) (selection : Selection) : Inquiry := { inquiry with selection }

/-- **Whether claims persist**: a site that is claimed for a selection is claimed for the
selections inside it. -/
def Refactoring.Persists (refactoring : Refactoring Memory) : Prop :=
  ∀ (inquiry : Inquiry) (inner : Selection) (earlier : List Site) (site : Site),
    inner.isInside inquiry.selection = true →
      (refactoring.claim? inquiry earlier site).isSome = true →
        (refactoring.claim? (inquiry.at inner) earlier site).isSome = true

/-- A visitor that claims what its test accepts has claims that persist. -/
theorem Refactoring.persists_of_claimsAll {refactoring : Refactoring Memory}
    {accepts : Selection → Site → Bool} {reason : Reason}
    {plan? : Tree → Selection → Option Plan} (aims : refactoring.AimsAt accepts reason plan?)
    (claims : refactoring.ClaimsAll accepts) (asks : AsksContainment accepts) :
    refactoring.Persists := by
  intro inquiry inner earlier site inside claimed
  have accepted := aims.accepted inquiry earlier site claimed
  exact claims (inquiry.at inner) earlier site (asks.accepts_inside inside accepted)

theorem FlipIfElse.asksContainment : AsksContainment accepts :=
  ⟨_, fun _ _ => Bool.and_right_comm _ _ _⟩

theorem AddBraces.asksContainment : AsksContainment accepts :=
  ⟨_, fun _ _ => Bool.and_right_comm _ _ _⟩

theorem RemoveBraces.asksContainment : AsksContainment accepts :=
  ⟨_, fun _ _ => Bool.and_right_comm _ _ _⟩

theorem TemplateLiteral.asksContainment : AsksContainment accepts :=
  ⟨_, fun _ _ => Bool.and_right_comm _ _ _⟩

theorem NegateExpression.asksContainment : AsksContainment accepts := ⟨_, fun _ _ => rfl⟩

namespace Concatenation

theorem asksContainment : AsksContainment accepts := ⟨_, fun _ _ => Bool.and_right_comm _ _ _⟩

/-- For two selections that a chain is around the type checker is asked the same question, if
it is asked at all, so a visit comes out the same. -/
theorem outcome_visit_at {inquiry : Inquiry} {site : Site}
    (accepted : accepts inquiry.selection site = true) (accepted' : accepts inner site = true) :
    (visit site).outcome (inquiry.at inner) ((), none) =
      (visit site).outcome inquiry ((), none) := by
  rw [visit, outcome_bind_of_ok outcome_selection, outcome_bind_of_ok outcome_selection,
    if_pos accepted, if_pos (show accepts (inquiry.at inner).selection site = true from accepted')]
  generalize operands site.node = all
  show (if all.any isString then _ else _ : Claiming Unit Unit).outcome _ _ =
    (if all.any isString then _ else _ : Claiming Unit Unit).outcome _ _
  cases all.any isString with
  | true => rfl
  | false =>
    simp only [Bool.false_eq_true, if_false]
    cases all with
    | nil => rfl
    | cons first rest =>
      have asked := @outcome_typeAt Unit inquiry ((), none) (first.rangeIn site.source).start
      have asked' := @outcome_typeAt Unit (inquiry.at inner) ((), none)
        (first.rangeIn site.source).start
      rw [show (inquiry.at inner).typeChecker (inquiry.at inner).code =
        inquiry.typeChecker inquiry.code from rfl] at asked'
      cases answer : inquiry.typeChecker inquiry.code (first.rangeIn site.source).start with
      | error message =>
        rw [answer] at asked asked'
        rw [outcome_bind_of_error asked, outcome_bind_of_error asked']
      | ok known =>
        rw [answer] at asked asked'
        rw [outcome_bind_of_ok asked, outcome_bind_of_ok asked']
        by_cases text : known = some "string"
        · rw [if_pos text]
          rfl
        · rw [if_neg text]
          rfl

theorem persists : convertConcatenation.Persists := by
  intro inquiry inner earlier site inside claimed
  have accepted := aimsAt.accepted inquiry earlier site claimed
  have accepted' := asksContainment.accepts_inside inside accepted
  rwa [claim?_eq, outcome_visit_at accepted accepted', ← claim?_eq]

end Concatenation

/-- **The claims of every built-in refactoring persist.** -/
theorem persists_of_mem_builtIn {refactoring : Refactoring Unit} (member : refactoring ∈ builtIn) :
    refactoring.Persists := by
  rcases member with _ | ⟨_, _ | ⟨_, _ | ⟨_, _ | ⟨_, _ | ⟨_, _ | ⟨_, none⟩⟩⟩⟩⟩⟩
  · exact Refactoring.persists_of_claimsAll FlipIfElse.aimsAt FlipIfElse.claimsAll
      FlipIfElse.asksContainment
  · exact Refactoring.persists_of_claimsAll AddBraces.aimsAt AddBraces.claimsAll
      AddBraces.asksContainment
  · exact Refactoring.persists_of_claimsAll RemoveBraces.aimsAt RemoveBraces.claimsAll
      RemoveBraces.asksContainment
  · exact Refactoring.persists_of_claimsAll TemplateLiteral.aimsAt TemplateLiteral.claimsAll
      TemplateLiteral.asksContainment
  · exact Refactoring.persists_of_claimsAll NegateExpression.aimsAt NegateExpression.claimsAll
      NegateExpression.asksContainment
  · exact Concatenation.persists
  · cases none

/-! ## Offers -/

/-- What is discovered with persistent claims is discovered for each selection inside. -/
theorem mem_ids_discover_inside {tree : Tree} {candidates : List (Refactoring Memory)}
    {typeChecker : TypeChecker} {id : String}
    (persist : ∀ refactoring ∈ candidates, refactoring.id = id → refactoring.Persists)
    (inside : inner.isInside outer = true)
    (found : id ∈ (discover tree outer candidates typeChecker).map Action.id) :
    id ∈ (discover tree inner candidates typeChecker).map Action.id := by
  rw [discover_eq_recordAll, (Discovery.summarizes_recordAll _).mem_ids_iff, List.mem_map] at *
  obtain ⟨claimed, member, same⟩ := found
  obtain ⟨candidate, earlier, site, later, split, claims⟩ := Discovery.mem_claims.1 member
  have persists := persist claimed.refactoring candidate same
  obtain ⟨claim, again⟩ := Option.isSome_iff_exists.1
    (persists (tree.inquiry outer typeChecker) inner earlier site inside
      (Option.isSome_of_eq_some claims))
  exact ⟨⟨claimed.refactoring, claim⟩,
    Discovery.mem_claims.2 ⟨candidate, earlier, site, later, split, again⟩, same⟩

namespace Service

/-- **A narrower selection loses no built-in offer.**  The service may have other refactorings
beside built-in ones, as long as they have other identifiers; its settings and its type checker,
which may fail anywhere, are arbitrary.  An action that is offered for a selection under the
identifier of a built-in refactoring is offered for every selection inside it, of the same kind
and preferred as before.  Only its title may differ. -/
theorem offered_inside {service : Service Unit} {code : Text} {action : Action}
    (reserved : ∀ refactoring ∈ service.refactorings,
      refactoring.id ∈ builtIn.map Refactoring.id → refactoring ∈ builtIn)
    (inside : inner.isInside outer = true) (offered : action ∈ service.codeActions code outer)
    (isBuiltIn : action.id ∈ builtIn.map Refactoring.id) :
    ∃ title, { action with title } ∈ service.codeActions code inner := by
  cases parsed : service.parse code with
  | error error =>
    rw [codeActions, discover_of_unparsed parsed] at offered
    cases offered
  | ok tree =>
    rw [codeActions, discover_of_parsed parsed] at offered ⊢
    obtain ⟨found, member, rfl⟩ := List.mem_map.1 offered
    obtain ⟨discovered, enabled⟩ := List.mem_filter.1 member
    have persist : ∀ refactoring ∈ service.refactorings, refactoring.id = found.id →
        refactoring.Persists := fun refactoring registered same =>
      persists_of_mem_builtIn (reserved refactoring registered (same ▸ isBuiltIn))
    obtain ⟨found', discovered', same⟩ := List.mem_map.1
      (mem_ids_discover_inside persist inside (List.mem_map_of_mem discovered))
    -- The identifier belongs to one built-in refactoring, so both are actions of that one.
    obtain ⟨refactoring, registered, id, kind, preferred⟩ := exists_of_mem_discover discovered
    obtain ⟨refactoring', registered', id', kind', preferred'⟩ :=
      exists_of_mem_discover discovered'
    obtain rfl : refactoring = refactoring' :=
      List.inj_on_of_nodup_map nodup_ids_builtIn
        (reserved refactoring registered (id ▸ isBuiltIn))
        (reserved refactoring' registered' (id'.trans same ▸ isBuiltIn))
        (id.trans (id'.trans same).symm)
    refine ⟨found'.title, List.mem_map.2 ⟨found', List.mem_filter.2 ⟨discovered', ?_⟩, ?_⟩⟩
    · rwa [same]
    · rw [← preferred', ← kind, ← preferred, ← kind', same]

end Service

/-- The code `a < b && c;`, parsed. -/
def conjunction : Tree where
  source := "a < b && c;".toList
  root :=
    .named "program" 0 11 [] [.named "expression_statement" 0 11 []
      [.named "binary_expression" 0 10 []
        [.named "binary_expression" 0 5 ["left"]
          [.named "identifier" 0 1 ["left"] [], .mark "<" 2 3 ["operator"],
            .named "identifier" 4 5 ["right"] []],
          .mark "&&" 6 8 ["operator"],
          .named "identifier" 9 10 ["right"] []],
        .mark ";" 10 11 []]]

/-- The whole conjunction, and its first operand. -/
def conjunctionSite : Site :=
  let statement := conjunction.rootSite.child conjunction.root.children[0]! 0
  statement.child statement.node.children[0]! 0

def firstOperandSite : Site := conjunctionSite.child conjunctionSite.node.children[0]! 0

theorem Service.offered_inside_conjunction :
    let service := { Service.parsing conjunction with
      typeChecker := fun _ _ => .error "no types", settings := ⟨[], ["negate-expression"], .info⟩ }
    let action (site : Site) : Action := ⟨negateExpression.id,
      NegateExpression.titleFor (NegateExpression.edit site).code, .reshape, true⟩
    let outer : Selection := .between ⟨0, 0⟩ ⟨0, 10⟩
    let inner : Selection := .cursorAt ⟨0, 2⟩
    (∀ refactoring ∈ service.refactorings,
      refactoring.id ∈ builtIn.map Refactoring.id → refactoring ∈ builtIn) ∧
      inner.isInside outer = true ∧
      service.codeActions conjunction.source outer = [action conjunctionSite] ∧
      (action conjunctionSite).id ∈ builtIn.map Refactoring.id ∧
      (∃ title, { action conjunctionSite with title } ∈
        service.codeActions conjunction.source inner) ∧
      service.codeActions conjunction.source inner = [action firstOperandSite] := by
  intro service action outer inner
  have reserved : ∀ refactoring ∈ service.refactorings,
      refactoring.id ∈ builtIn.map Refactoring.id → refactoring ∈ builtIn :=
    fun refactoring registered _ => registered
  have inside : inner.isInside outer = true := by decide
  have offered : service.codeActions conjunction.source outer = [action conjunctionSite] := rfl
  have isBuiltIn : (action conjunctionSite).id ∈ builtIn.map Refactoring.id := by decide
  exact ⟨reserved, inside, offered, isBuiltIn,
    offered_inside reserved inside (by rw [offered]; exact .head _) isBuiltIn, rfl⟩

end Retouch
