import Retouch.Refactoring.Discovery

/-!
# The claims of a discovery

Discovery keeps a list of actions and changes it as claims come in.  Here the claims are
written down instead: a claim is made where dispatching a candidate on a named site
succeeds after something was claimed, and all claims stand in a list, by document order
of the sites and at one site in the order of the candidates (`Discovery.claims`).  What a
visitor remembers depends on the sites alone, so each claim belongs to one candidate and
one site (`Refactoring.claim?`).

Taking down the claims one after another gives what discovery finds
(`discover_eq_recordAll`).
-/

set_option autoImplicit false

namespace Retouch

variable {Memory : Type}

/-! ## What a visitor does at a site -/

namespace Claiming

section Outcome

variable {α β : Type} {inquiry : Inquiry} {state state' : Memory × Option Claim}

/-- What comes of an act: its value or its failure, with what is then remembered and what
was claimed last. -/
def outcome (act : Claiming Memory α) (inquiry : Inquiry) (state : Memory × Option Claim) :
    Except String α × Memory × Option Claim :=
  (act.run inquiry).run.run state

theorem outcome_selection : selection.outcome inquiry state = (.ok inquiry.selection, state) := rfl

theorem outcome_bind_of_ok {act : Claiming Memory α} {value : α}
    (done : act.outcome inquiry state = (.ok value, state')) (next : α → Claiming Memory β) :
    (act >>= next).outcome inquiry state = (next value).outcome inquiry state' := by
  rw [outcome, ReaderT.run_bind, ExceptT.run_bind, StateT.run_bind,
    show (act.run inquiry).run.run state = (.ok value, state') from done]
  rfl

theorem outcome_bind_of_error {act : Claiming Memory α} {message : String}
    (failed : act.outcome inquiry state = (.error message, state'))
    (next : α → Claiming Memory β) :
    (act >>= next).outcome inquiry state = (.error message, state') := by
  rw [outcome, ReaderT.run_bind, ExceptT.run_bind, StateT.run_bind,
    show (act.run inquiry).run.run state = (.error message, state') from failed]
  rfl

/-- A question that the type checker fails on fails the act. -/
theorem outcome_typeAt (position : Position) :
    (typeAt position).outcome inquiry state =
      match inquiry.typeChecker inquiry.code position with
      | .ok known => (.ok known, state)
      | .error message => (.error message, state) := by
  have asked : (read : Claiming Memory Inquiry).outcome inquiry state = (.ok inquiry, state) := rfl
  rw [typeAt, outcome_bind_of_ok asked]
  cases inquiry.typeChecker inquiry.code position <;> rfl

end Outcome
end Claiming

namespace Refactoring

open Claiming

variable (refactoring : Refactoring Memory) (inquiry : Inquiry)

/-- What comes of dispatching the visitor on a site. -/
def dispatched (memory : Memory) (site : Site) : Except String Bool × Memory × Option Claim :=
  (refactoring.visitor.dispatch site).outcome inquiry (memory, none)

section Hooks

variable {refactoring inquiry} {site : Site} {memory memory' : Memory} {entered left : Option Claim}
  {enter leave : Site → Claiming Memory Unit}

/-- A single handler is called once. -/
theorem dispatched_of_onEnter
    (resolved : refactoring.visitor.resolve? site.kind = some (.onEnter enter)) :
    refactoring.dispatched inquiry memory site =
      (((enter site).outcome inquiry (memory, none)).1.map fun _ => true,
        ((enter site).outcome inquiry (memory, none)).2) := by
  rw [dispatched, Visitor.dispatch, resolved]
  show (enter site >>= fun _ => pure () >>= fun _ => pure true : Claiming Memory Bool).outcome
    inquiry (memory, none) = _
  cases done : (enter site).outcome inquiry (memory, none) with
  | mk result state =>
    cases result with
    | error message => rw [outcome_bind_of_error done]; rfl
    | ok value => rw [outcome_bind_of_ok done]; rfl

/-- Of two hooks the second goes on where the first ends. -/
theorem dispatched_of_hooks
    (resolved : refactoring.visitor.resolve? site.kind = some (.hooks (some enter) (some leave)))
    (enters : (enter site).outcome inquiry (memory, none) = (.ok (), memory', entered)) :
    refactoring.dispatched inquiry memory site =
      (((leave site).outcome inquiry (memory', entered)).1.map fun _ => true,
        ((leave site).outcome inquiry (memory', entered)).2) := by
  rw [dispatched, Visitor.dispatch, resolved]
  show (enter site >>= fun _ => leave site >>= fun _ => pure true : Claiming Memory Bool).outcome
    inquiry (memory, none) = _
  rw [outcome_bind_of_ok enters]
  cases done : (leave site).outcome inquiry (memory', entered) with
  | mk result state =>
    cases result with
    | error message => rw [outcome_bind_of_error done]; rfl
    | ok value => rw [outcome_bind_of_ok done]; rfl

end Hooks

/-! ## Claims -/

/-- What the visitor remembers after it was dispatched on sites in turn. -/
def memoryAfter (sites : List Site) : Memory :=
  sites.foldl (fun memory site => (refactoring.dispatched inquiry memory site).2.1)
    refactoring.memory

/-- The claim of a site that comes after others: what was claimed last, if dispatching
succeeds. -/
def claim? (earlier : List Site) (site : Site) : Option Claim :=
  match refactoring.dispatched inquiry (refactoring.memoryAfter inquiry earlier) site with
  | (.ok _, _, claim) => claim
  | (.error _, _, _) => none

variable {refactoring inquiry}

theorem claim?_eq_some_iff {earlier : List Site} {site : Site} {claim : Claim} :
    refactoring.claim? inquiry earlier site = some claim ↔ ∃ handled memory,
      refactoring.dispatched inquiry (refactoring.memoryAfter inquiry earlier) site =
        (.ok handled, memory, some claim) := by
  unfold claim?
  obtain ⟨_ | handled, memory, last⟩ := refactoring.dispatched inquiry _ site <;> simp

theorem memoryAfter_concat (sites : List Site) (site : Site) :
    refactoring.memoryAfter inquiry (sites ++ [site]) =
      (refactoring.dispatched inquiry (refactoring.memoryAfter inquiry sites) site).2.1 := by
  rw [memoryAfter, List.foldl_append, List.foldl_cons, List.foldl_nil, memoryAfter]

/-- Where dispatching fails nothing is claimed, whatever was before it failed. -/
theorem claim?_of_error {earlier : List Site} {site : Site} {message : String}
    (failed : (refactoring.dispatched inquiry (refactoring.memoryAfter inquiry earlier) site).1 =
      .error message) : refactoring.claim? inquiry earlier site = none := by
  unfold claim?
  generalize refactoring.dispatched inquiry _ site = outcome at failed ⊢
  obtain ⟨_, _, _⟩ := outcome
  cases failed
  rfl

/-- Of two hooks that claim a site the second has the last word, and if it fails nothing is
claimed. -/
theorem claim?_of_hooks {earlier : List Site} {site : Site} {memory : Memory}
    {entered : Option Claim} {enter leave : Site → Claiming Memory Unit}
    (resolved : refactoring.visitor.resolve? site.kind = some (.hooks (some enter) (some leave)))
    (enters : (enter site).outcome inquiry (refactoring.memoryAfter inquiry earlier, none) =
      (.ok (), memory, entered)) :
    (∀ memory' left, (leave site).outcome inquiry (memory, entered) = (.ok (), memory', left) →
      refactoring.claim? inquiry earlier site = left) ∧
    ∀ message state, (leave site).outcome inquiry (memory, entered) = (.error message, state) →
      refactoring.claim? inquiry earlier site = none := by
  have both := dispatched_of_hooks resolved enters
  constructor
  · intro memory' left leaves
    rw [claim?, both, leaves]
    rfl
  · intro message state fails
    have failed : (refactoring.dispatched inquiry (refactoring.memoryAfter inquiry earlier) site).1 =
        .error message := by
      rw [both, fails]
      rfl
    exact claim?_of_error failed

end Refactoring

/-- A claim with the refactoring whose visitor made it. -/
structure Claimed (Memory : Type) where
  refactoring : Refactoring Memory
  claim : Claim

namespace Claimed

def id (claimed : Claimed Memory) : String := claimed.refactoring.id

end Claimed

namespace Discovery

variable (inquiry : Inquiry) (candidates : List (Refactoring Memory))

/-- The claims of a site that comes after others, in the order of the candidates. -/
def claimsAt (earlier : List Site) (site : Site) : List (Claimed Memory) :=
  candidates.filterMap fun refactoring =>
    (refactoring.claim? inquiry earlier site).map (⟨refactoring, ·⟩)

/-- The claims of sites that come after others, site by site. -/
def claimsFrom (earlier : List Site) : List Site → List (Claimed Memory)
  | [] => []
  | site :: later =>
    claimsAt inquiry candidates earlier site ++ claimsFrom (earlier ++ [site]) later

/-- All claims of a walk. -/
def claims (sites : List Site) : List (Claimed Memory) := claimsFrom inquiry candidates [] sites

variable {inquiry candidates}

theorem claimsFrom_append (earlier sites later : List Site) :
    claimsFrom inquiry candidates earlier (sites ++ later) =
      claimsFrom inquiry candidates earlier sites ++
        claimsFrom inquiry candidates (earlier ++ sites) later := by
  induction sites generalizing earlier with
  | nil => rw [List.nil_append, List.append_nil, claimsFrom, List.nil_append]
  | cons site sites ih =>
    rw [List.cons_append, claimsFrom, claimsFrom, ih, List.append_assoc earlier,
      List.singleton_append, List.append_assoc]

theorem mem_claimsAt {earlier : List Site} {site : Site} {claimed : Claimed Memory} :
    claimed ∈ claimsAt inquiry candidates earlier site ↔ claimed.refactoring ∈ candidates ∧
      claimed.refactoring.claim? inquiry earlier site = some claimed.claim := by
  rw [claimsAt, List.mem_filterMap]
  constructor
  · rintro ⟨refactoring, member, found⟩
    obtain ⟨claim, found', rfl⟩ := Option.map_eq_some_iff.1 found
    exact ⟨member, found'⟩
  · rintro ⟨member, found⟩
    exact ⟨claimed.refactoring, member, Option.map_eq_some_iff.2 ⟨claimed.claim, found, rfl⟩⟩

/-- A claim is made by a candidate at a site. -/
theorem mem_claimsFrom {before sites : List Site} {claimed : Claimed Memory} :
    claimed ∈ claimsFrom inquiry candidates before sites ↔ claimed.refactoring ∈ candidates ∧
      ∃ earlier site later, sites = earlier ++ site :: later ∧
        claimed.refactoring.claim? inquiry (before ++ earlier) site = some claimed.claim := by
  induction sites generalizing before with
  | nil => simp [claimsFrom]
  | cons first rest ih =>
    rw [claimsFrom, List.mem_append, mem_claimsAt, ih]
    constructor
    · rintro (⟨member, found⟩ | ⟨member, earlier, site, later, rfl, found⟩)
      · exact ⟨member, [], first, rest, rfl, by rwa [List.append_nil]⟩
      · refine ⟨member, first :: earlier, site, later, rfl, ?_⟩
        rwa [List.append_assoc] at found
    · rintro ⟨member, earlier, site, later, split, found⟩
      cases earlier with
      | nil =>
        obtain ⟨rfl, -⟩ := List.cons.inj split
        exact .inl ⟨member, by rwa [List.append_nil] at found⟩
      | cons head earlier =>
        obtain ⟨rfl, rfl⟩ := List.cons.inj split
        exact .inr ⟨member, earlier, site, later, rfl, by rwa [List.append_assoc]⟩

theorem mem_claims {sites : List Site} {claimed : Claimed Memory} :
    claimed ∈ claims inquiry candidates sites ↔ claimed.refactoring ∈ candidates ∧
      ∃ earlier site later, sites = earlier ++ site :: later ∧
        claimed.refactoring.claim? inquiry earlier site = some claimed.claim :=
  mem_claimsFrom

/-! ## Taking claims down -/

/-- Takes down claims in turn. -/
def recordAll (found : List Action) (claims : List (Claimed Memory)) : List Action :=
  claims.foldl (fun found claimed => record found claimed.refactoring claimed.claim) found

end Discovery

/-- A candidate as it is after sites in turn. -/
def Candidate.after (inquiry : Inquiry) (sites : List Site) (refactoring : Refactoring Memory) :
    Candidate Memory :=
  ⟨refactoring, refactoring.memoryAfter inquiry sites⟩

theorem Candidate.offer_after {inquiry : Inquiry} (earlier : List Site) (site : Site)
    (refactoring : Refactoring Memory) :
    (Candidate.after inquiry earlier refactoring).offer inquiry site =
      (refactoring.claim? inquiry earlier site,
        Candidate.after inquiry (earlier ++ [site]) refactoring) := by
  have ran : ((refactoring.visitor.dispatch site).run inquiry).run
      (refactoring.memoryAfter inquiry earlier, none) =
        refactoring.dispatched inquiry (refactoring.memoryAfter inquiry earlier) site := rfl
  rw [Candidate.after, Candidate.after, Refactoring.memoryAfter_concat, Refactoring.claim?,
    Candidate.offer, ran]
  rcases refactoring.dispatched inquiry _ site with ⟨_ | _, _, _⟩ <;> rfl

namespace Discovery

variable {inquiry : Inquiry} {candidates : List (Refactoring Memory)}

/-- At a site the candidates' claims are taken down, and each remembers the site. -/
theorem offerAll_after (earlier : List Site) (site : Site) (found : List Action) :
    offerAll inquiry site (candidates.map (Candidate.after inquiry earlier)) found =
      (candidates.map (Candidate.after inquiry (earlier ++ [site])),
        recordAll found (claimsAt inquiry candidates earlier site)) := by
  induction candidates generalizing found with
  | nil => rfl
  | cons refactoring others ih =>
    rw [List.map_cons, List.map_cons, offerAll, Candidate.offer_after, claimsAt,
      List.filterMap_cons]
    cases refactoring.claim? inquiry earlier site <;> simp only [ih] <;> rfl

theorem offerSites_after (earlier sites : List Site) (found : List Action) :
    offerSites inquiry sites (candidates.map (Candidate.after inquiry earlier)) found =
      recordAll found (claimsFrom inquiry candidates earlier sites) := by
  induction sites generalizing earlier found with
  | nil => rfl
  | cons site later ih =>
    rw [offerSites, offerAll_after]
    show offerSites inquiry later _ _ = _
    rw [ih, claimsFrom, recordAll, recordAll, recordAll, List.foldl_append]

end Discovery

/-- What is asked when refactorings are looked for in a tree. -/
def Tree.inquiry (tree : Tree) (selection : Selection) (typeChecker : TypeChecker) : Inquiry :=
  ⟨selection, tree.source, typeChecker⟩

/-- **Discovery takes down the claims of a tree.** -/
theorem discover_eq_recordAll (tree : Tree) (selection : Selection)
    (candidates : List (Refactoring Memory)) (typeChecker : TypeChecker) :
    discover tree selection candidates typeChecker = Discovery.recordAll []
      (Discovery.claims (tree.inquiry selection typeChecker) candidates tree.sites) :=
  Discovery.offerSites_after [] tree.sites []

end Retouch
