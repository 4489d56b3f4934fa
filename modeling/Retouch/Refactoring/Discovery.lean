import Retouch.Refactoring.Basic

/-!
# Discovery

Every candidate is offered every named node of a tree, node by node in document
order and at each node in the order of the candidates.  A candidate is discovered
once it claims a node; a later claim with a title of its own changes the title.  A
visitor that fails at a node has not claimed it, and nothing else comes of the
failure.
-/

set_option autoImplicit false

namespace Retouch

variable {Memory : Type}

/-- A candidate with what its visitor remembers. -/
structure Candidate (Memory : Type) where
  refactoring : Refactoring Memory
  memory : Memory

namespace Candidate

def ofRefactoring (refactoring : Refactoring Memory) : Candidate Memory :=
  ⟨refactoring, refactoring.memory⟩

/-- Offers a site to a candidate. -/
def offer (inquiry : Inquiry) (site : Site) (candidate : Candidate Memory) :
    Option Claim × Candidate Memory :=
  let (outcome, memory, claim) :=
    (candidate.refactoring.visitor.dispatch site).run inquiry |>.run (candidate.memory, none)
  match outcome with
  | .ok _ => (claim, ⟨candidate.refactoring, memory⟩)
  | .error _ => (none, ⟨candidate.refactoring, memory⟩)

end Candidate

namespace Discovery

/-- Takes down a claim among the actions found so far. -/
def record (found : List Action) (refactoring : Refactoring Memory) (claim : Claim) :
    List Action :=
  if found.any (·.id = refactoring.id) then
    found.map fun action =>
      if action.id = refactoring.id then action.retitled claim.title else action
  else found ++ [refactoring.action.retitled claim.title]

/-- Offers a site to the candidates in turn. -/
def offerAll (inquiry : Inquiry) (site : Site) :
    List (Candidate Memory) → List Action → List (Candidate Memory) × List Action
  | [], found => ([], found)
  | candidate :: others, found =>
    let (claim, candidate) := candidate.offer inquiry site
    let found := match claim with
      | some claim => record found candidate.refactoring claim
      | none => found
    let (others, found) := offerAll inquiry site others found
    (candidate :: others, found)

/-- Offers the sites of a walk in turn. -/
def offerSites (inquiry : Inquiry) :
    List Site → List (Candidate Memory) → List Action → List Action
  | [], _, found => found
  | site :: sites, candidates, found =>
    let (candidates, found) := offerAll inquiry site candidates found
    offerSites inquiry sites candidates found

end Discovery

/-- The refactorings that apply at a selection, in the order of their first claims. -/
def discover (tree : Tree) (selection : Selection) (candidates : List (Refactoring Memory))
    (typeChecker : TypeChecker) : List Action :=
  Discovery.offerSites ⟨selection, tree.source, typeChecker⟩ tree.sites
    (candidates.map Candidate.ofRefactoring) []

end Retouch
