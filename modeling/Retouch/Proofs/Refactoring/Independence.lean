import Mathlib.Data.List.Nodup
import Retouch.Proofs.Refactoring.Summary

/-!
# Candidates do not interfere

Candidates with identifiers of their own are discovered independently of each other.
**What is found for some of them is what is found for all, restricted to their
identifiers** (`discover_of_sublist`), whatever the others do.  So it does not matter
whether another candidate is there, whether its visitor fails, or whether the type checker
fails on its questions.

A candidate's claims depend on its own visitor only, so the claims of some candidates are
the claims of all, restricted (`claimsFrom_of_sublist`).  Taking down a claim commutes with the
restriction, and so does taking down all of them (`filter_recordAll`).
-/

set_option autoImplicit false

namespace Retouch

variable {Memory : Type}

/-- Whether an identifier is that of one of some refactorings. -/
def Refactoring.isIdOf (refactorings : List (Refactoring Memory)) (id : String) : Bool :=
  (refactorings.map Refactoring.id).contains id

theorem Refactoring.isIdOf_iff {refactorings : List (Refactoring Memory)} {id : String} :
    isIdOf refactorings id = true ↔ id ∈ refactorings.map Refactoring.id :=
  List.contains_iff_mem

namespace Discovery

/-! ## Restricting what is taken down -/

section Record

variable {found : List Action} {refactoring : Refactoring Memory} {claim : Claim}
  {keeps : String → Bool}

/-- Taking down a claim of a kept identifier commutes with the restriction. -/
theorem filter_record_of_keeps (kept : keeps refactoring.id = true) :
    (record found refactoring claim).filter (fun action => keeps action.id) =
      record (found.filter fun action => keeps action.id) refactoring claim := by
  have known : (found.filter fun action => keeps action.id).any (·.id = refactoring.id) =
      found.any (·.id = refactoring.id) := by
    rw [List.any_filter]
    congr 1
    funext action
    by_cases same : action.id = refactoring.id
    · simp [same, kept]
    · simp [same]
  unfold record
  rw [known]
  split
  · rw [List.filter_map]
    refine congrArg _ (List.filter_congr fun action _ => ?_)
    show keeps (if _ then _ else _ : Action).id = keeps action.id
    split <;> rfl
  · rw [List.filter_append]
    exact congrArg _ (List.filter_cons_of_pos kept)

/-- Taking down a claim of another identifier leaves what is kept. -/
theorem filter_record_of_not_keeps (dropped : keeps refactoring.id = false) :
    (record found refactoring claim).filter (fun action => keeps action.id) =
      found.filter fun action => keeps action.id := by
  have other {action : Action} (kept : keeps action.id = true) :
      ¬ action.id = refactoring.id := by
    intro same
    rw [same, dropped] at kept
    cases kept
  unfold record
  split
  · rw [List.filter_map]
    have same_ids : ((fun action : Action => keeps action.id) ∘ fun action : Action =>
        if action.id = refactoring.id then action.retitled claim.title else action) =
          fun action => keeps action.id := by
      funext action
      show keeps (if _ then _ else _ : Action).id = keeps action.id
      split <;> rfl
    rw [same_ids]
    conv_rhs => rw [← List.map_id (found.filter _)]
    exact List.map_congr_left fun action member => if_neg (other (List.mem_filter.1 member).2)
  · rw [List.filter_append]
    have nothing : [refactoring.action.retitled claim.title].filter
        (fun action => keeps action.id) = [] := by
      refine List.filter_cons_of_neg fun kept => other kept rfl
    rw [nothing, List.append_nil]

/-- Taking down claims commutes with a restriction to identifiers. -/
theorem filter_recordAll (keeps : String → Bool) (claims : List (Claimed Memory)) :
    (recordAll [] claims).filter (fun action => keeps action.id) =
      recordAll [] (claims.filter fun claimed => keeps claimed.id) := by
  induction claims using List.reverseRecOn with
  | nil => rfl
  | append_singleton claims claimed ih =>
    rw [List.filter_append]
    rw [recordAll, recordAll, List.foldl_append, List.foldl_append]
    cases kept : keeps claimed.id with
    | true =>
      rw [List.filter_cons, if_pos kept]
      exact (filter_record_of_keeps kept).trans (congrArg (record · _ _) ih)
    | false =>
      rw [List.filter_cons, if_neg (Bool.eq_false_iff.1 kept)]
      exact (filter_record_of_not_keeps kept).trans ih

end Record

/-! ## Restricting the claims -/

/-- Refactorings with identifiers of their own are found by their identifiers. -/
theorem filter_isIdOf {kept candidates : List (Refactoring Memory)}
    (sublist : kept.Sublist candidates) (distinct : (candidates.map Refactoring.id).Nodup) :
    candidates.filter (fun refactoring => Refactoring.isIdOf kept refactoring.id) = kept := by
  induction sublist with
  | slnil => rfl
  | @cons kept candidates first sublist ih =>
    obtain ⟨own, distinct⟩ := List.nodup_cons.1 distinct
    have dropped : ¬ Refactoring.isIdOf kept first.id = true := fun known =>
      own ((sublist.map Refactoring.id).subset (Refactoring.isIdOf_iff.1 known))
    rw [List.filter_cons, if_neg dropped, ih distinct]
  | @cons_cons kept candidates first sublist ih =>
    obtain ⟨own, distinct⟩ := List.nodup_cons.1 distinct
    rw [List.filter_cons, if_pos (Refactoring.isIdOf_iff.2 List.mem_cons_self)]
    refine congrArg _ (Eq.trans (List.filter_congr fun refactoring member => ?_) (ih distinct))
    have other : refactoring.id ≠ first.id := fun same =>
      own (same ▸ List.mem_map_of_mem member)
    rw [Bool.eq_iff_iff, Refactoring.isIdOf_iff, Refactoring.isIdOf_iff, List.map_cons,
      List.mem_cons, or_iff_right other]

variable {inquiry : Inquiry} {kept candidates : List (Refactoring Memory)}

/-- The claims of refactorings kept by their identifiers are the claims of all, restricted. -/
theorem claimsFrom_filter (keeps : String → Bool) (earlier sites : List Site) :
    claimsFrom inquiry (candidates.filter fun refactoring => keeps refactoring.id) earlier sites =
      (claimsFrom inquiry candidates earlier sites).filter fun claimed => keeps claimed.id := by
  induction sites generalizing earlier with
  | nil => rfl
  | cons site later ih =>
    rw [claimsFrom, claimsFrom, List.filter_append, ih, claimsAt, claimsAt, List.filterMap_filter,
      List.filter_filterMap]
    refine congrArg (· ++ _) (List.filterMap_congr fun refactoring _ => ?_)
    cases refactoring.claim? inquiry earlier site with
    | none => simp
    | some claim => rfl

theorem claimsFrom_of_sublist (sublist : kept.Sublist candidates)
    (distinct : (candidates.map Refactoring.id).Nodup) (earlier sites : List Site) :
    claimsFrom inquiry kept earlier sites =
      (claimsFrom inquiry candidates earlier sites).filter fun claimed =>
        Refactoring.isIdOf kept claimed.id := by
  rw [← claimsFrom_filter, filter_isIdOf sublist distinct]

/-! ## Another type checker -/

/-- Whether visitors do on one inquiry, at sites in turn, what they do on another. -/
def SameOn (inquiry inquiry' : Inquiry) (sites : List Site)
    (refactorings : List (Refactoring Memory)) : Prop :=
  ∀ refactoring ∈ refactorings, ∀ earlier site later, sites = earlier ++ site :: later →
    refactoring.dispatched inquiry' (refactoring.memoryAfter inquiry earlier) site =
      refactoring.dispatched inquiry (refactoring.memoryAfter inquiry earlier) site

variable {inquiry' : Inquiry} {sites : List Site}

/-- Visitors that do the same remember the same. -/
theorem SameOn.memoryAfter_eq (same : SameOn inquiry inquiry' sites kept)
    {refactoring : Refactoring Memory} (member : refactoring ∈ kept) {earlier later : List Site}
    (split : sites = earlier ++ later) :
    refactoring.memoryAfter inquiry' earlier = refactoring.memoryAfter inquiry earlier := by
  induction earlier using List.reverseRecOn generalizing later with
  | nil => rfl
  | append_singleton earlier site ih =>
    rw [List.append_assoc] at split
    rw [Refactoring.memoryAfter_concat, Refactoring.memoryAfter_concat, ih split,
      same refactoring member earlier site later split]

theorem SameOn.claim?_eq (same : SameOn inquiry inquiry' sites kept)
    {refactoring : Refactoring Memory} (member : refactoring ∈ kept) {earlier later : List Site}
    {site : Site} (split : sites = earlier ++ site :: later) :
    refactoring.claim? inquiry' earlier site = refactoring.claim? inquiry earlier site := by
  rw [Refactoring.claim?, Refactoring.claim?, same.memoryAfter_eq member split,
    same refactoring member earlier site later split]

/-- Visitors that do the same claim the same. -/
theorem SameOn.claims_eq (same : SameOn inquiry inquiry' sites kept) :
    claims inquiry' kept sites = claims inquiry kept sites := by
  have general {earlier later : List Site} (split : sites = earlier ++ later) :
      claimsFrom inquiry' kept earlier later = claimsFrom inquiry kept earlier later := by
    induction later generalizing earlier with
    | nil => rfl
    | cons site later ih =>
      rw [claimsFrom, claimsFrom, ih (by rw [split, List.append_assoc, List.singleton_append])]
      refine congrArg (· ++ _) (List.filterMap_congr fun refactoring member => ?_)
      rw [same.claim?_eq member split]
  exact @general [] sites rfl

end Discovery

/-- **Candidates do not interfere.**  Of candidates with identifiers of their own, some are
discovered as they are among all: what is found for them alone is what is found for all,
restricted to their identifiers.  Hence what is found for them stays the same when the
other candidates are replaced by any others, and with another type checker on which their
own visitors do the same. -/
theorem discover_of_sublist {kept candidates : List (Refactoring Memory)}
    (sublist : kept.Sublist candidates) (distinct : (candidates.map Refactoring.id).Nodup)
    (tree : Tree) (selection : Selection) (typeChecker : TypeChecker) :
    discover tree selection kept typeChecker =
        (discover tree selection candidates typeChecker).filter
          (fun action => Refactoring.isIdOf kept action.id) ∧
      ∀ (others : List (Refactoring Memory)) (typeChecker' : TypeChecker),
        kept.Sublist others → (others.map Refactoring.id).Nodup →
        Discovery.SameOn (tree.inquiry selection typeChecker)
          (tree.inquiry selection typeChecker') tree.sites kept →
        (discover tree selection others typeChecker').filter
            (fun action => Refactoring.isIdOf kept action.id) =
          (discover tree selection candidates typeChecker).filter
            fun action => Refactoring.isIdOf kept action.id := by
  have restricted {all : List (Refactoring Memory)} (checker : TypeChecker)
      (sublist : kept.Sublist all) (distinct : (all.map Refactoring.id).Nodup) :
      (discover tree selection all checker).filter
          (fun action => Refactoring.isIdOf kept action.id) =
        discover tree selection kept checker := by
    rw [discover_eq_recordAll, discover_eq_recordAll, Discovery.filter_recordAll,
      Discovery.claims, Discovery.claims, Discovery.claimsFrom_of_sublist sublist distinct]
  refine ⟨(restricted typeChecker sublist distinct).symm, ?_⟩
  intro others typeChecker' sublist' distinct' same
  rw [restricted typeChecker' sublist' distinct', restricted typeChecker sublist distinct,
    discover_eq_recordAll, discover_eq_recordAll, same.claims_eq]

/-- Claims names as they are entered. -/
def steady : Refactoring Unit where
  id := "steady"
  title := "Steady"
  kind := .refactor
  isPreferred := false
  memory := ()
  visitor := ⟨[(.kind "identifier", .onEnter fun _ => Claiming.claim none)]⟩
  execute := fun _ => return

/-- Under the identifier of a candidate that claims, one that asks for a type of every
node. -/
def asking : Refactoring Unit where
  id := fickle.id
  title := "Asking"
  kind := .extract
  isPreferred := false
  memory := ()
  visitor := ⟨[(.category .expression, .onEnter fun site => do
    Claiming.claim (← Claiming.typeAt site.range.start))]⟩
  execute := fun _ => return

theorem discover_of_sublist_steady :
    [steady].Sublist [fickle, steady] ∧ ([fickle, steady].map Refactoring.id).Nodup ∧
      [steady].Sublist [steady, asking] ∧ ([steady, asking].map Refactoring.id).Nodup ∧
      Discovery.SameOn (nameStatement.inquiry default .ignorant)
        (nameStatement.inquiry default fun _ _ => .error "Crashed") nameStatement.sites [steady] ∧
      discover nameStatement default [steady] .ignorant =
        (discover nameStatement default [fickle, steady] .ignorant).filter
          (fun action => Refactoring.isIdOf [steady] action.id) ∧
      (discover nameStatement default [steady, asking] fun _ _ => .error "Crashed").filter
          (fun action => Refactoring.isIdOf [steady] action.id) =
        (discover nameStatement default [fickle, steady] .ignorant).filter
          fun action => Refactoring.isIdOf [steady] action.id := by
  have sublist : [steady].Sublist [fickle, steady] := List.sublist_cons_self _ _
  have distinct : ([fickle, steady].map Refactoring.id).Nodup := by decide
  have sublist' : [steady].Sublist [steady, asking] := List.sublist_append_left [steady] [asking]
  have distinct' : ([steady, asking].map Refactoring.id).Nodup := by decide
  have same : Discovery.SameOn (nameStatement.inquiry default .ignorant)
      (nameStatement.inquiry default fun _ _ => .error "Crashed") nameStatement.sites [steady] := by
    intro refactoring member earlier site later split
    obtain rfl := List.mem_singleton.1 member
    have named : site ∈ [nameStatement.rootSite, statementSite, nameSite] := by
      rw [show [nameStatement.rootSite, statementSite, nameSite] = nameStatement.sites from rfl,
        split]
      exact List.mem_append_right _ List.mem_cons_self
    rcases named with _ | ⟨_, _ | ⟨_, _ | ⟨_, none⟩⟩⟩
    · rfl
    · rfl
    · rfl
    · cases none
  obtain ⟨alone, replaced⟩ :=
    discover_of_sublist sublist distinct nameStatement default TypeChecker.ignorant
  exact ⟨sublist, distinct, sublist', distinct', same, alone,
    replaced [steady, asking] _ sublist' distinct' same⟩

end Retouch
