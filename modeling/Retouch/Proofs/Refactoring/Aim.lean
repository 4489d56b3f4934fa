import Retouch.Proofs.Refactoring.Execution
import Retouch.Proofs.Tree.Shape

/-!
# Refactorings that aim at a site

A refactoring is usually written around a test of sites.  Its visitor claims sites that the
test accepts, and it is executed by a plan for the innermost of them
(`Refactoring.AimsAt`).  On the regular tree of a buffer such a refactoring is carried out
as soon as a site is accepted (`Refactoring.AimsAt.outcome_of_accepted`), in particular
when it has claimed one; when no site is accepted, there is nothing to refactor
(`Refactoring.AimsAt.outcome_of_not_accepted`).  If its visitor claims every accepted site
(`Refactoring.ClaimsAll`), it is refused exactly where it is not discovered.
-/

set_option autoImplicit false

namespace Retouch

open Claiming

variable {Memory : Type}

/-! ## Visitors with a single entry -/

/-- Whether an entry is for nodes of a kind. -/
def NodePattern.covers (pattern : NodePattern) (given : String) : Bool :=
  match pattern with
  | .kind named => named = given
  | .category group => group.contains given

theorem NodePattern.covers_of_is {site : Site} {named : String} (isNamed : site.is named = true) :
    (NodePattern.kind named).covers site.kind = true :=
  decide_eq_true (Eq.symm (eq_of_beq isNamed))

theorem Visitor.resolve?_singleton {m : Type → Type} (pattern : NodePattern) (handler : Handler m)
    (kind : String) :
    (⟨[(pattern, handler)]⟩ : Visitor m).resolve? kind =
      if pattern.covers kind then some handler else none := by
  cases pattern with
  | kind named =>
    by_cases same : named = kind <;> simp [resolve?, ofKind?, ofCategory?, NodePattern.covers, same]
  | category group =>
    cases contained : group.contains kind <;>
      simp [resolve?, ofKind?, ofCategory?, NodePattern.covers, contained]

/-- The claim that stands when an act is over: the last, unless the act has failed. -/
def Claiming.standing {α : Type} : Except String α × Memory × Option Claim → Option Claim
  | (.ok _, _, claim) => claim
  | (.error _, _, _) => none

namespace Refactoring

section Claims

variable {refactoring : Refactoring Memory} {inquiry : Inquiry} {earlier : List Site}
  {site : Site} {pattern : NodePattern}

/-- A site without a handler is not claimed. -/
theorem claim?_of_unresolved (unresolved : refactoring.visitor.resolve? site.kind = none) :
    refactoring.claim? inquiry earlier site = none := by
  rw [claim?, dispatched, Visitor.dispatch, unresolved]
  rfl

/-- With a single entry a site is claimed when the entry is for it and its act claims. -/
theorem claim?_of_singleton {act : Site → Claiming Memory Unit}
    (visitor : refactoring.visitor = ⟨[(pattern, .onEnter act)]⟩) :
    refactoring.claim? inquiry earlier site =
      if pattern.covers site.kind then
        standing ((act site).outcome inquiry (refactoring.memoryAfter inquiry earlier, none))
      else none := by
  have resolved := Visitor.resolve?_singleton pattern (.onEnter act) site.kind
  rw [← visitor] at resolved
  split at resolved
  · rename_i covered
    rw [if_pos covered, claim?, dispatched_of_onEnter resolved]
    rcases (act site).outcome inquiry _ with ⟨_ | _, _, _⟩ <;> rfl
  · rename_i uncovered
    rw [if_neg uncovered, claim?_of_unresolved resolved]

/-- A test claims the sites of its entry that it accepts. -/
theorem isSome_claim?_of_claimIf {accepts : Selection → Site → Bool}
    (visitor : refactoring.visitor = ⟨[(pattern, .onEnter (claimIf accepts))]⟩) :
    (refactoring.claim? inquiry earlier site).isSome =
      (pattern.covers site.kind && accepts inquiry.selection site) := by
  rw [claim?_of_singleton visitor, claimIf, outcome_bind_of_ok outcome_selection]
  cases pattern.covers site.kind <;> cases accepts inquiry.selection site <;> rfl

end Claims

/-! ## Aims -/

/-- **A refactoring that aims at the sites a test accepts**: its visitor claims no others,
and it is executed by a plan that exists, and suits the text of a regular tree, exactly
when there is an accepted site. -/
structure AimsAt (refactoring : Refactoring Memory) (accepts : Selection → Site → Bool)
    (reason : Reason) (plan? : Tree → Selection → Option Plan) : Prop where
  execute_eq : refactoring.execute = Plan.execution reason plan?
  accepted : ∀ inquiry earlier site,
    (refactoring.claim? inquiry earlier site).isSome = true → accepts inquiry.selection site = true
  planned : ∀ (tree : Tree) (selection : Selection) (site : Site),
    tree.innermost? (accepts selection) = some site → site.IsRegular →
      site.source = tree.source → ∃ plan, plan? tree selection = some plan ∧ plan.Suits tree.source
  unplanned : ∀ (tree : Tree) (selection : Selection),
    tree.innermost? (accepts selection) = none → plan? tree selection = none

/-- Whether a visitor claims all sites that a test accepts. -/
def ClaimsAll (refactoring : Refactoring Memory) (accepts : Selection → Site → Bool) : Prop :=
  ∀ inquiry earlier site, accepts inquiry.selection site = true →
    (refactoring.claim? inquiry earlier site).isSome = true

section ClaimIf

variable {refactoring : Refactoring Memory} {accepts : Selection → Site → Bool} {named : String}
  (visitor : refactoring.visitor = ⟨[(.kind named, .onEnter (claimIf accepts))]⟩)

include visitor

/-- What is claimed if a test accepts it, the test accepts. -/
theorem accepted_of_claimIf (inquiry : Inquiry) (earlier : List Site) (site : Site)
    (claimed : (refactoring.claim? inquiry earlier site).isSome = true) :
    accepts inquiry.selection site = true := by
  rw [isSome_claim?_of_claimIf visitor, Bool.and_eq_true] at claimed
  exact claimed.2

/-- A test for sites of the kind of its entry claims all that it accepts. -/
theorem claimsAll_of_claimIf
    (kind : ∀ selection site, accepts selection site = true → site.is named = true) :
    refactoring.ClaimsAll accepts := by
  intro inquiry earlier site accepted
  rw [isSome_claim?_of_claimIf visitor, accepted,
    NodePattern.covers_of_is (kind _ site accepted)]
  rfl

end ClaimIf

namespace AimsAt

variable {refactoring : Refactoring Memory} {accepts : Selection → Site → Bool} {reason : Reason}
  {plan? : Tree → Selection → Option Plan} {parse : Parse} {editor : Editor} {tree : Tree}

/-- **Where a site is accepted the refactoring is carried out.** -/
theorem outcome_of_accepted (aims : refactoring.AimsAt accepts reason plan?)
    (reachable : editor.grid.Reachable) (parsed : parse editor.code = .ok tree)
    (source : tree.source = editor.code) (regular : tree.IsRegular) {site : Site}
    (member : site ∈ tree.sites) (accepted : accepts editor.selection site = true) :
    ∃ plan, plan? tree editor.selection = some plan ∧ (refactoring.execute parse).outcome editor =
      (.ok (), { editor with grid := .ofText (plan.result editor.code) }.placeCursor none) := by
  obtain ⟨target, found⟩ := Tree.exists_innermost? member accepted
  obtain ⟨below, source'⟩ := regular.site target (Tree.mem_of_innermost? found).1
  obtain ⟨plan, planned, suits⟩ := aims.planned tree editor.selection target found below source'
  have grid : editor.grid = .ofText editor.code := reachable.eq_ofText_text
  rw [source] at suits
  refine ⟨plan, planned, ?_⟩
  rw [aims.execute_eq, Plan.outcome_execution, parsed]
  simp only [planned]
  exact suits.outcome_perform grid

/-- What is planned is carried out. -/
theorem outcome_of_planned (aims : refactoring.AimsAt accepts reason plan?)
    (reachable : editor.grid.Reachable) (parsed : parse editor.code = .ok tree)
    (source : tree.source = editor.code) (regular : tree.IsRegular) {plan : Plan}
    (planned : plan? tree editor.selection = some plan) :
    (refactoring.execute parse).outcome editor =
      (.ok (), { editor with grid := .ofText (plan.result editor.code) }.placeCursor none) := by
  cases found : tree.innermost? (accepts editor.selection) with
  | none =>
    rw [aims.unplanned tree editor.selection found] at planned
    cases planned
  | some site =>
    obtain ⟨inTree, accepted⟩ := Tree.mem_of_innermost? found
    obtain ⟨plan', planned', carried⟩ :=
      aims.outcome_of_accepted reachable parsed source regular inTree accepted
    obtain rfl := Option.some.inj (planned.symm.trans planned')
    exact carried

/-- **Where no site is accepted there is nothing to refactor.** -/
theorem outcome_of_not_accepted (aims : refactoring.AimsAt accepts reason plan?)
    (parsed : parse editor.code = .ok tree)
    (nowhere : ∀ site ∈ tree.sites, accepts editor.selection site = false) :
    (refactoring.execute parse).outcome editor = (.error (.notApplicable reason), editor) := by
  rw [aims.execute_eq, Plan.outcome_execution, parsed]
  simp only [aims.unplanned tree editor.selection (Tree.innermost?_eq_none_iff.2 nowhere)]

end AimsAt
end Refactoring
end Retouch
