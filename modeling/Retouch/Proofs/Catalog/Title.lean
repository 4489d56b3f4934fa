import Retouch.Proofs.Catalog.Narrowing
import Retouch.Proofs.Catalog.Negation
import Retouch.Proofs.Tree.Gaps

/-!
# The title of a negation

A negation is offered under a title that shows its replacement.  The title is claimed along a
walk: every expression around the selection claims one of its own, and the last one stays
(`Discovery.getLast?_titles`).  The edit is planned apart from that, for the innermost of these
expressions.  **Both mean the same expression, and the title shows exactly the text that the
execution writes** (`NegateExpression.offered_title_shows_code`).

However many expressions there are around the selection or beside it, the last to claim is the last
accepted site of the walk, and that is the innermost one.
-/

set_option autoImplicit false

namespace Retouch

open Text Claiming

variable {Memory : Type}

/-! ## The title claimed last -/

theorem Claimed.mem_titles {id title : String} {claims : List (Claimed Memory)} :
    title ∈ titles id claims ↔
      ∃ claimed ∈ claims, claimed.id = id ∧ claimed.claim.title = some title := by
  rw [titles, List.mem_filterMap]
  refine exists_congr fun claimed => and_congr_right fun _ => ?_
  rw [Option.ite_none_right_eq_some]

/-- **The title of the last site that claims one stays**, if a single candidate has the
identifier. -/
theorem Discovery.getLast?_titles {inquiry : Inquiry} {candidates : List (Refactoring Memory)}
    {refactoring : Refactoring Memory} {sites earlier later : List Site} {site : Site}
    {title : String} (member : refactoring ∈ candidates)
    (only : ∀ other ∈ candidates, other.id = refactoring.id → other = refactoring)
    (split : sites = earlier ++ site :: later)
    (claims : refactoring.claim? inquiry earlier site = some ⟨some title⟩)
    (silent : ∀ before, ∀ other ∈ later, refactoring.claim? inquiry before other = none) :
    (Claimed.titles refactoring.id (Discovery.claims inquiry candidates sites)).getLast? =
      some title := by
  have here : title ∈ Claimed.titles refactoring.id
      (claimsFrom inquiry candidates earlier (site :: later)) :=
    Claimed.mem_titles.2 ⟨⟨refactoring, ⟨some title⟩⟩,
      mem_claimsFrom.2 ⟨member, [], site, later, rfl, by rwa [List.append_nil]⟩, rfl, rfl⟩
  have alone : ∀ other ∈ Claimed.titles refactoring.id
      (claimsFrom inquiry candidates earlier (site :: later)), other = title := by
    intro other titled
    obtain ⟨claimed, made, same, claimedTitle⟩ := Claimed.mem_titles.1 titled
    obtain ⟨candidate, before, place, after, parted, found⟩ := mem_claimsFrom.1 made
    rw [only claimed.refactoring candidate same] at found
    cases before with
    | nil =>
      obtain ⟨rfl, -⟩ := List.cons.inj parted
      rw [List.append_nil, claims] at found
      rw [← Option.some.inj found] at claimedTitle
      exact (Option.some.inj claimedTitle).symm
    | cons first before =>
      obtain ⟨-, rfl⟩ := List.cons.inj parted
      rw [silent _ place (by simp)] at found
      cases found
  have nonempty := List.ne_nil_of_mem here
  rw [split, Discovery.claims, claimsFrom_append, Claimed.titles, List.filterMap_append]
  show (_ ++ Claimed.titles refactoring.id (claimsFrom inquiry candidates earlier _)).getLast? = _
  rw [List.getLast?_append_of_ne_nil _ nonempty, List.getLast?_eq_some_getLast nonempty,
    alone _ (List.getLast_mem nonempty)]

namespace NegateExpression

/-- The negation of an expression is claimed under its title by the last site of the walk. -/
theorem getLast?_titles_of_innermost {tree : Tree} {selection : Selection}
    {typeChecker : TypeChecker} {candidates : List (Refactoring Unit)} {expression : Site}
    (member : negateExpression ∈ candidates)
    (only : ∀ other ∈ candidates, other.id = negateExpression.id → other = negateExpression)
    (found : tree.innermost? (accepts selection) = some expression) :
    (Claimed.titles negateExpression.id (Discovery.claims (tree.inquiry selection typeChecker)
      candidates tree.sites)).getLast? = some (titleFor (edit expression).code) := by
  obtain ⟨accepted, earlier, later, split, refused⟩ := Tree.innermost?_eq_some_iff.1 found
  refine Discovery.getLast?_titles member only split ?_ ?_
  · rw [claim?_eq]
    exact if_pos accepted
  · intro before other inLater
    rw [claim?_eq]
    exact if_neg (Bool.eq_false_iff.1 (refused other inLater))

theorem plan?_of_innermost {tree : Tree} {selection : Selection} {expression : Site}
    (found : tree.innermost? (accepts selection) = some expression) :
    plan? tree selection = some (.single (edit expression)) := by
  rw [plan?, found]
  rfl

/-- A negation is carried out in place of a range of the code, and the rest stays. -/
theorem exists_outcome_of_innermost {parse : Parse} {editor : Editor} {tree : Tree}
    {expression : Site} (reachable : editor.grid.Reachable)
    (parsed : parse editor.code = .ok tree) (source : tree.source = editor.code)
    (regular : tree.IsRegular)
    (found : tree.innermost? (accepts editor.selection) = some expression) :
    ∃ before replaced after, editor.code = before ++ replaced ++ after ∧
      reach before = (edit expression).selection.start ∧
      reach (before ++ replaced) = (edit expression).selection.stop ∧
      (negateExpression.execute parse).outcome editor = (.ok (), { editor with
        grid := .ofText (before ++ (edit expression).code ++ after) }.placeCursor none) := by
  obtain ⟨inTree, accepted⟩ := Tree.mem_of_innermost? found
  obtain ⟨regularSite, source'⟩ := regular.site expression inTree
  obtain ⟨site, range, regular', source''⟩ := exists_edit_range regularSite
  have same : site.source = editor.code := source''.trans (source'.trans source)
  obtain ⟨before, after, around, start, stop, edited⟩ := (same ▸ regular'.node).exists_around
  have range : (edit expression).selection = site.node.rangeIn editor.code := by
    rw [range, Site.range, same]
  refine ⟨before, _, after, around, range ▸ start, range ▸ stop, ?_⟩
  rw [aimsAt.outcome_of_planned reachable parsed source regular (plan?_of_innermost found),
    Plan.result_single, ← edited, ← range]

end NegateExpression

/-- What is offered is discovered under its title. -/
theorem Service.exists_of_offered {service : Service Memory} {editor : Editor} {tree : Tree}
    {action : Action} (parsed : service.parse editor.code = .ok tree)
    (offered : action ∈ service.codeActionsFor editor) :
    ∃ found ∈ Retouch.discover tree editor.selection service.refactorings service.typeChecker,
      found.id = action.id ∧ found.title = action.title := by
  rw [codeActionsFor, codeActions, discover_of_parsed parsed] at offered
  obtain ⟨found, shown, rfl⟩ := List.mem_map.1 offered
  exact ⟨found, (List.mem_filter.1 shown).1, rfl, rfl⟩

/-- **A negation is offered under the text that its execution writes.**  The service may have other
refactorings beside the negation, as long as they have other identifiers; its settings and its type
checker are arbitrary.  Whenever an action is offered as a negation, one edit is planned; the title
of the action shows the code of this edit; and executing the action succeeds, puts exactly this code
in place of the range of the edit and keeps the text in front of the range and behind it. -/
theorem NegateExpression.offered_title_shows_code {service : Service Unit} {editor : Editor}
    {tree : Tree} {action : Action}
    (reserved : ∀ refactoring ∈ service.refactorings,
      refactoring.id = negateExpression.id → refactoring = negateExpression)
    (reachable : editor.grid.Reachable) (parsed : service.parse editor.code = .ok tree)
    (source : tree.source = editor.code) (regular : tree.IsRegular)
    (offered : action ∈ service.codeActionsFor editor)
    (isNegation : action.id = negateExpression.id) :
    ∃ edit before replaced after, plan? tree editor.selection = some (.single edit) ∧
      action.title = "Negate the expression (" ++ String.ofList edit.code ++ ")" ∧
      editor.code = before ++ replaced ++ after ∧
      reach before = edit.selection.start ∧ reach (before ++ replaced) = edit.selection.stop ∧
      (service.execute action.id).outcome editor = (.ok (), { editor with
        grid := .ofText (before ++ edit.code ++ after) }.placeCursor none) := by
  obtain ⟨refactoring, registered, same, enabled, earlier, site, later, split, claimed⟩ :=
    (Service.mem_ids_codeActionsFor parsed).1 (List.mem_map_of_mem offered)
  obtain ⟨discovered, among, id, title⟩ := Service.exists_of_offered parsed offered
  rw [isNegation] at same id enabled ⊢
  obtain rfl := reserved refactoring registered same
  have accepted : accepts editor.selection site = true := by rwa [isSome_claim?] at claimed
  obtain ⟨expression, found⟩ :=
    Tree.exists_innermost? (show site ∈ tree.sites by rw [split]; simp) accepted
  obtain ⟨before, replaced, after, around, start, stop, carried⟩ :=
    exists_outcome_of_innermost reachable parsed source regular found
  refine ⟨edit expression, before, replaced, after, plan?_of_innermost found, ?_, around, start,
    stop, ?_⟩
  · rw [discover_eq_recordAll] at among
    obtain ⟨first, -, -, -, summed⟩ := (Discovery.summarizes_recordAll _).sums discovered among
    rw [id, getLast?_titles_of_innermost registered reserved found, Option.getD_some] at summed
    exact title.symm.trans summed
  · rw [Service.outcome_execute (Service.find?_of_only reserved registered) enabled, carried]

/-- The edit of the first operand of `a < b && c`. -/
theorem NegateExpression.edit_firstOperandSite :
    edit firstOperandSite = ⟨"!(a >= b)".toList, .between ⟨0, 0⟩ ⟨0, 5⟩⟩ := by
  have negation : firstOperandSite.node.negation firstOperandSite.source = "a >= b".toList := by
    rw [Node.negation_eq]
    decide
  have alone : enclosingNot? firstOperandSite = none := rfl
  simp only [edit, alone, negation]
  decide

theorem NegateExpression.offered_title_shows_code_conjunction :
    let editor := Editor.ofCode conjunction.source (.cursorAt ⟨0, 5⟩)
    let service := Service.parsing conjunction
    let action : Action :=
      ⟨negateExpression.id, "Negate the expression (!(a >= b))", .reshape, false⟩
    (∀ refactoring ∈ service.refactorings,
      refactoring.id = negateExpression.id → refactoring = negateExpression) ∧
      editor.grid.Reachable ∧ service.parse editor.code = .ok conjunction ∧
      conjunction.source = editor.code ∧ conjunction.IsRegular ∧
      service.codeActionsFor editor = [action] ∧
      ∃ before replaced after, editor.code = before ++ replaced ++ after ∧
        reach before = ⟨0, 0⟩ ∧ reach (before ++ replaced) = ⟨0, 5⟩ ∧
        (service.execute action.id).outcome editor = (.ok (), { editor with
          grid := .ofText (before ++ "!(a >= b)".toList ++ after) }.placeCursor none) := by
  intro editor service action
  have reserved : ∀ refactoring ∈ service.refactorings,
      refactoring.id = negateExpression.id → refactoring = negateExpression :=
    fun refactoring registered same =>
      List.inj_on_of_nodup_map nodup_ids_builtIn registered (by simp [builtIn]) same
  have reachable : editor.grid.Reachable := .ofText _
  have regular : conjunction.IsRegular := Tree.isRegular_of_isPlain (by decide)
  have offered : service.codeActionsFor editor = [action] := by
    have titled : titleFor (edit firstOperandSite).code = "Negate the expression (!(a >= b))" := by
      rw [edit_firstOperandSite]
      decide
    have offered : service.codeActionsFor editor =
        [{ action with title := titleFor (edit firstOperandSite).code }] := rfl
    rw [offered, titled]
  obtain ⟨planned, before, replaced, after, isPlan, -, around, start, stop, carried⟩ :=
    offered_title_shows_code reserved reachable rfl rfl regular
      (offered ▸ List.mem_singleton_self action) rfl
  have isPlan' : plan? conjunction editor.selection = some (.single (edit firstOperandSite)) := rfl
  have single := Option.some.inj (isPlan.symm.trans isPlan')
  obtain rfl : planned = edit firstOperandSite :=
    List.singleton_inj.1 (congrFun (congrArg Plan.edits single) [])
  rw [edit_firstOperandSite] at start stop carried
  exact ⟨reserved, reachable, rfl, rfl, regular, offered, before, replaced, after, around, start,
    stop, carried⟩

end Retouch
