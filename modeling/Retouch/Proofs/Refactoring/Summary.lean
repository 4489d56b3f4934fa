import Mathlib.Data.List.Induction
import Retouch.Proofs.Refactoring.Claims

/-!
# The sum of the claims

What discovery finds sums up the claims of a tree (`discover_sums_claims`): it has an
action for each claimed identifier, in the order of the first claims, of the kind of its
first claim and preferred like it, under the title that was claimed last.  The candidates
may share identifiers, and their visitors may fail.

One claim more keeps the sum, whether it is the first of its identifier
(`Summarizes.record_of_notMem`) or a further one (`Summarizes.record_of_mem`); the result
follows by induction on the claims.
-/

set_option autoImplicit false

namespace Retouch

variable {Memory : Type}

/-! ## Sums -/

namespace Claimed

/-- The titles claimed for an identifier, from the first to the last. -/
def titles (id : String) (claims : List (Claimed Memory)) : List String :=
  claims.filterMap fun claimed => if claimed.id = id then claimed.claim.title else none

theorem getLast?_titles_concat (id : String) (claims : List (Claimed Memory))
    (claimed : Claimed Memory) :
    (titles id (claims ++ [claimed])).getLast? =
      (if claimed.id = id then claimed.claim.title else none).or (titles id claims).getLast? := by
  rw [titles, List.filterMap_append, List.getLast?_append, titles, List.filterMap_cons,
    List.filterMap_nil]
  cases (if claimed.id = id then claimed.claim.title else none) <;> rfl

end Claimed

/-- Whether an action sums up the claims of its identifier: it is of the kind of the first
and preferred like it, under the title claimed last, or by default that of the first. -/
def Action.Sums (action : Action) (claims : List (Claimed Memory)) : Prop :=
  ∃ first, claims.find? (·.id = action.id) = some first ∧
    action.kind = first.refactoring.kind ∧ action.isPreferred = first.refactoring.isPreferred ∧
    action.title = (Claimed.titles action.id claims).getLast?.getD first.refactoring.title

/-- **A list of actions sums up claims**: it has each claimed identifier once, in the order
of the first claims, and each of its actions sums up the claims of its identifier. -/
structure Summarizes (claims : List (Claimed Memory)) (found : List Action) : Prop where
  ids : found.map Action.id = (claims.map Claimed.id).eraseDups
  sums : ∀ action ∈ found, action.Sums claims

section Step

variable {claims : List (Claimed Memory)} {found : List Action} {action : Action}
  {claimed : Claimed Memory}

theorem Summarizes.mem_ids_iff (summary : Summarizes claims found) {id : String} :
    id ∈ found.map Action.id ↔ id ∈ claims.map Claimed.id := by
  rw [summary.ids, List.mem_eraseDups]

/-- A claim of another identifier leaves what an action sums up. -/
theorem Action.Sums.concat_of_ne (sums : action.Sums claims) (other : claimed.id ≠ action.id) :
    action.Sums (claims ++ [claimed]) := by
  obtain ⟨first, found, kind, preferred, title⟩ := sums
  refine ⟨first, ?_, kind, preferred, ?_⟩
  · rw [List.find?_append, found, Option.some_or]
  · rw [Claimed.getLast?_titles_concat, if_neg other, Option.none_or, title]

/-- A further claim of its identifier gives an action its title, if it has one. -/
theorem Action.Sums.concat_of_eq (sums : action.Sums claims) (same : claimed.id = action.id) :
    (action.retitled claimed.claim.title).Sums (claims ++ [claimed]) := by
  obtain ⟨first, found, kind, preferred, title⟩ := sums
  refine ⟨first, ?_, kind, preferred, ?_⟩
  · rw [List.find?_append]
    show (List.find? (·.id = action.id) claims).or _ = _
    rw [found, Option.some_or]
  · show claimed.claim.title.getD action.title = (Claimed.titles action.id _).getLast?.getD _
    rw [Claimed.getLast?_titles_concat, if_pos same, title]
    cases claimed.claim.title <;> rfl

/-- The first claim of an identifier makes its action. -/
theorem Action.sums_of_first (fresh : claimed.id ∉ claims.map Claimed.id) :
    (claimed.refactoring.action.retitled claimed.claim.title).Sums (claims ++ [claimed]) := by
  have none_before : ∀ earlier ∈ claims, ¬ earlier.id = claimed.id :=
    fun earlier member same => fresh (same ▸ List.mem_map_of_mem member)
  refine ⟨claimed, ?_, rfl, rfl, ?_⟩
  · rw [List.find?_append]
    show (List.find? (·.id = claimed.id) claims).or (List.find? (·.id = claimed.id) _) = _
    rw [List.find?_eq_none.2 (by simpa using none_before), Option.none_or,
      List.find?_cons_of_pos (by simp)]
  · have untitled : Claimed.titles claimed.id claims = [] :=
      List.filterMap_eq_nil_iff.2 fun earlier member => if_neg (none_before earlier member)
    show claimed.claim.title.getD _ = (Claimed.titles claimed.id _).getLast?.getD _
    rw [Claimed.getLast?_titles_concat, untitled, if_pos rfl, List.getLast?_nil, Option.or_none]
    rfl

/-- A further claim of an identifier adds nothing to those claimed. -/
theorem Claimed.ids_concat_of_mem (repeated : claimed.id ∈ claims.map Claimed.id) :
    ((claims ++ [claimed]).map Claimed.id).eraseDups = (claims.map Claimed.id).eraseDups := by
  rw [List.map_append, List.eraseDups_append, List.map_singleton, List.removeAll,
    List.filter_cons_of_neg (by simpa using repeated)]
  exact List.append_nil _

theorem Claimed.ids_concat_of_notMem (fresh : claimed.id ∉ claims.map Claimed.id) :
    ((claims ++ [claimed]).map Claimed.id).eraseDups =
      (claims.map Claimed.id).eraseDups ++ [claimed.id] := by
  rw [List.map_append, List.eraseDups_append, List.map_singleton, List.removeAll,
    List.filter_cons_of_pos (by simpa using fresh)]
  rfl

theorem Summarizes.known_iff (summary : Summarizes claims found) :
    found.any (·.id = claimed.refactoring.id) = true ↔ claimed.id ∈ claims.map Claimed.id := by
  rw [← summary.mem_ids_iff, List.any_eq_true, List.mem_map]
  exact exists_congr fun action => and_congr_right fun _ => decide_eq_true_iff

/-- Taking down a further claim of an identifier keeps the summary. -/
theorem Summarizes.record_of_mem (summary : Summarizes claims found)
    (repeated : claimed.id ∈ claims.map Claimed.id) :
    Summarizes (claims ++ [claimed])
      (Discovery.record found claimed.refactoring claimed.claim) := by
  rw [Discovery.record, if_pos (summary.known_iff.2 repeated)]
  refine ⟨?_, ?_⟩
  · rw [Claimed.ids_concat_of_mem repeated, ← summary.ids, List.map_map]
    refine List.map_congr_left fun action _ => ?_
    rw [Function.comp_apply]
    split <;> rfl
  · intro changed member
    obtain ⟨action, old, rfl⟩ := List.mem_map.1 member
    split
    · rename_i same
      exact (summary.sums action old).concat_of_eq (Eq.symm same)
    · rename_i other
      exact (summary.sums action old).concat_of_ne fun same => other (Eq.symm same)

/-- Taking down the first claim of an identifier keeps the summary. -/
theorem Summarizes.record_of_notMem (summary : Summarizes claims found)
    (fresh : claimed.id ∉ claims.map Claimed.id) :
    Summarizes (claims ++ [claimed])
      (Discovery.record found claimed.refactoring claimed.claim) := by
  rw [Discovery.record, if_neg fun known => fresh (summary.known_iff.1 known)]
  refine ⟨?_, ?_⟩
  · rw [Claimed.ids_concat_of_notMem fresh, ← summary.ids, List.map_append]
    rfl
  · intro action member
    rcases List.mem_append.1 member with earlier | last
    · refine (summary.sums action earlier).concat_of_ne fun same => fresh ?_
      rw [same, ← summary.mem_ids_iff]
      exact List.mem_map_of_mem earlier
    · rw [List.mem_singleton.1 last]
      exact Action.sums_of_first fresh

end Step

/-- Taking down claims one after another sums them up. -/
theorem Discovery.summarizes_recordAll (claims : List (Claimed Memory)) :
    Summarizes claims (recordAll [] claims) := by
  induction claims using List.reverseRecOn with
  | nil => exact ⟨rfl, nofun⟩
  | append_singleton claims claimed ih =>
    rw [recordAll, List.foldl_append]
    by_cases repeated : claimed.id ∈ claims.map Claimed.id
    · exact ih.record_of_mem repeated
    · exact ih.record_of_notMem repeated

/-- **What discovery finds is the sum of the claims.**  A claim is a named site with a
candidate whose visitor claims it and is dispatched on it without failing; the last claim
at the site counts.  Each claimed identifier has one action, in the order of the first
claims, of the kind of its first claim and preferred like it, under the title claimed last.
A visitor that fails at a site has not claimed it, even if its first hook did, and the
claims before that stay. -/
theorem discover_sums_claims (tree : Tree) (selection : Selection)
    (candidates : List (Refactoring Memory)) (typeChecker : TypeChecker) :
    let inquiry := tree.inquiry selection typeChecker
    let claims := Discovery.claims inquiry candidates tree.sites
    let found := discover tree selection candidates typeChecker
    (∀ claimed, claimed ∈ claims ↔ claimed.refactoring ∈ candidates ∧
      ∃ earlier site later, tree.sites = earlier ++ site :: later ∧ ∃ handled memory,
        claimed.refactoring.dispatched inquiry
            (claimed.refactoring.memoryAfter inquiry earlier) site =
          (.ok handled, memory, some claimed.claim)) ∧
    found.map Action.id = (claims.map Claimed.id).eraseDups ∧
    (∀ action ∈ found, ∃ first, claims.find? (·.id = action.id) = some first ∧
      action.kind = first.refactoring.kind ∧
      action.isPreferred = first.refactoring.isPreferred ∧
      action.title =
        (Claimed.titles action.id claims).getLast?.getD first.refactoring.title) ∧
    (∀ earlier site later, tree.sites = earlier ++ site :: later →
      claims = Discovery.claims inquiry candidates earlier ++
        (Discovery.claimsAt inquiry candidates earlier site ++
          Discovery.claimsFrom inquiry candidates (earlier ++ [site]) later) ∧
      ∀ refactoring : Refactoring Memory, ∀ message,
        (refactoring.dispatched inquiry (refactoring.memoryAfter inquiry earlier) site).1 =
            .error message →
          ∀ claimed ∈ Discovery.claimsAt inquiry candidates earlier site,
            claimed.refactoring ≠ refactoring) ∧
    ∀ (refactoring : Refactoring Memory) earlier site enter leave memory entered,
      refactoring.visitor.resolve? site.kind = some (.hooks (some enter) (some leave)) →
      (enter site).outcome inquiry (refactoring.memoryAfter inquiry earlier, none) =
          (.ok (), memory, entered) →
        (∀ memory' left,
          (leave site).outcome inquiry (memory, entered) = (.ok (), memory', left) →
            refactoring.claim? inquiry earlier site = left) ∧
        ∀ message state,
          (leave site).outcome inquiry (memory, entered) = (.error message, state) →
            refactoring.claim? inquiry earlier site = none := by
  intro inquiry claims found
  have summary : Summarizes claims found := by
    rw [show found = _ from discover_eq_recordAll tree selection candidates typeChecker]
    exact Discovery.summarizes_recordAll claims
  refine ⟨?_, summary.ids, summary.sums, ?_, ?_⟩
  · intro claimed
    rw [Discovery.mem_claims]
    simp only [Refactoring.claim?_eq_some_iff]
  · intro earlier site later split
    constructor
    · show Discovery.claims inquiry candidates tree.sites = _
      rw [split, Discovery.claims, Discovery.claimsFrom_append, Discovery.claimsFrom,
        List.nil_append]
      rfl
    · rintro refactoring message failed claimed member rfl
      have nothing := (Discovery.mem_claimsAt.1 member).2
      rw [Refactoring.claim?_of_error failed] at nothing
      cases nothing
  · intro refactoring earlier site enter leave memory entered resolved enters
    exact Refactoring.claim?_of_hooks resolved enters

/-- The code `x;`, parsed. -/
def nameStatement : Tree where
  source := "x;".toList
  root :=
    let label (kind : String) (isNamed : Bool) (start stop : Nat) : Label :=
      ⟨kind, isNamed, false, false, false, start, stop, []⟩
    .mk (label "program" true 0 2)
      [.mk (label "expression_statement" true 0 2)
        [.mk (label "identifier" true 0 1) [], .mk (label ";" false 1 2) []]]

/-- The sites of `x;`, from the program down to the name. -/
def statementSite : Site := nameStatement.rootSite.child nameStatement.root.children[0]! 0

def nameSite : Site := statementSite.child statementSite.node.children[0]! 0

/-- Claims statements, and names only until it leaves them. -/
def fickle : Refactoring Unit where
  id := "fickle"
  title := "Fickle"
  kind := .quickFix
  isPreferred := true
  memory := ()
  visitor := ⟨[
    (.category .statement, .onEnter fun _ => Claiming.claim (some "Kept")),
    (.kind "identifier", .hooks (some fun _ => Claiming.claim (some "Lost"))
      (some fun _ => throw "Refused"))]⟩
  execute := fun _ => return

theorem discover_sums_claims_fickle :
    let inquiry := nameStatement.inquiry default .ignorant
    let earlier := [nameStatement.rootSite, statementSite]
    let lost : Option Claim := some ⟨some "Lost"⟩
    nameStatement.sites = earlier ++ [nameSite] ∧
      fickle.visitor.resolve? nameSite.kind =
        some (.hooks (some fun _ => Claiming.claim (some "Lost"))
          (some fun _ => throw "Refused")) ∧
      (Claiming.claim (some "Lost")).outcome inquiry ((), none) = (.ok (), (), lost) ∧
      Claiming.outcome (throw "Refused" : Claiming Unit Unit) inquiry ((), lost) =
        (.error "Refused", (), lost) ∧
      (fickle.dispatched inquiry (fickle.memoryAfter inquiry earlier) nameSite).1 =
        .error "Refused" ∧
      fickle.claim? inquiry earlier nameSite = none ∧
      (∀ claimed ∈ Discovery.claimsAt inquiry [fickle] earlier nameSite,
        claimed.refactoring ≠ fickle) ∧
      discover nameStatement default [fickle] .ignorant =
        [⟨"fickle", "Kept", .quickFix, true⟩] := by
  intro inquiry earlier lost
  obtain ⟨-, -, -, sites, hooks⟩ :=
    discover_sums_claims nameStatement default [fickle] TypeChecker.ignorant
  refine ⟨rfl, rfl, rfl, rfl, rfl, ?_, ?_, by decide⟩
  · exact (hooks fickle earlier nameSite _ _ () lost rfl rfl).2 "Refused" ((), lost) rfl
  · exact (sites earlier nameSite [] rfl).2 fickle "Refused" rfl

end Retouch
