import Retouch.Catalog.Registry
import Retouch.Proofs.Refactoring.Aim

/-!
# What is offered can be carried out

Each built-in refactoring aims at the sites that its test accepts.  All but the one for
concatenations claim every such site, so that they are offered exactly where they can be
carried out; a chain that is accepted is claimed only if it builds a string.

**For a service with the built-in refactorings discovery and execution agree**
(`builtIn_agrees`): what is offered is carried out without an error, and a refactoring that
is enabled and not offered, concatenations apart, finds nothing to refactor and leaves the
code.
-/

set_option autoImplicit false

namespace Retouch

open Text Claiming

variable {tree : Tree} {selection : Selection}

/-! ## Flipping an if/else -/

namespace FlipIfElse

variable {statement branch : Site}

theorem exists_of_elseStatement? (found : elseStatement? statement = some branch) :
    ∃ alternative, statement.field? "alternative" = some alternative ∧
      branch ∈ alternative.children := by
  obtain ⟨alternative, named, rest⟩ := Option.bind_eq_some_iff.1 found
  obtain ⟨first, among, chosen⟩ := Option.bind_eq_some_iff.1 rest
  split at chosen
  · cases chosen
  · obtain rfl := Option.some.inj chosen
    exact ⟨alternative, named,
      Site.mem_children_of_mem_namedChildren (List.mem_of_find?_eq_some among)⟩

/-- The three parts that a flip edits. -/
structure Parts (statement test consequence branch : Site) : Prop where
  condition : ∃ condition, statement.field? "condition" = some condition ∧
    condition.namedChildren.head? = some test
  consequence : statement.field? "consequence" = some consequence
  branch : elseStatement? statement = some branch

/-- A regular `if` with an `else` that can be flipped has all parts. -/
theorem exists_parts (regular : statement.IsRegular) (accepted : accepts selection statement = true) :
    ∃ test consequence branch, Parts statement test consequence branch := by
  simp only [accepts, Bool.and_eq_true] at accepted
  obtain ⟨⟨isIf, -⟩, hasElse⟩ := accepted
  obtain ⟨branch, found⟩ := Option.isSome_iff_exists.1 hasElse
  obtain ⟨alternative, named, -⟩ := exists_of_elseStatement? found
  obtain ⟨hasConsequence, hasCondition⟩ := regular.node.branches isIf
    (Option.isSome_of_eq_some (Site.field?_node_of_eq_some named))
  obtain ⟨node, inNode⟩ := Option.isSome_iff_exists.1 hasConsequence
  obtain ⟨consequence, named', -⟩ := Site.exists_field?_of_node inNode
  obtain ⟨node', inNode', nonempty⟩ := Option.any_eq_true _ _ |>.1 hasCondition
  obtain ⟨condition, named'', rfl⟩ := Site.exists_field?_of_node inNode'
  rw [← Site.map_node_namedChildren, List.isEmpty_map, Bool.not_eq_true',
    List.isEmpty_eq_false_iff] at nonempty
  exact ⟨condition.namedChildren.head nonempty, consequence, branch,
    ⟨condition, named'', List.head?_eq_some_head nonempty⟩, named', found⟩

/-- Whether the parts of a flip lie in three fields that stand apart. -/
structure InFields (statement test consequence branch condition alternative : Site) : Prop where
  conditionLies : condition.LiesIn statement
  testLies : test.LiesIn condition
  consequenceLies : consequence.LiesIn statement
  alternativeLies : alternative.LiesIn statement
  branchLies : branch.LiesIn alternative
  first : condition.node.Apart consequence.node
  outer : condition.node.Apart alternative.node
  last : consequence.node.Apart alternative.node

theorem Parts.inFields {test consequence : Site} (parts : Parts statement test consequence branch)
    (regular : statement.IsRegular) :
    ∃ condition alternative,
      InFields statement test consequence branch condition alternative := by
  obtain ⟨⟨condition, inCondition, first⟩, inConsequence, found⟩ := parts
  obtain ⟨alternative, inAlternative, below⟩ := exists_of_elseStatement? found
  have named := Site.mem_children_of_mem_namedChildren (List.mem_of_head? first)
  have conditionLies := regular.liesIn_of_field? inCondition
  have alternativeLies := regular.liesIn_of_field? inAlternative
  exact ⟨condition, alternative,
    { conditionLies
      testLies := conditionLies.regular.liesIn_of_mem_children named
      consequenceLies := regular.liesIn_of_field? inConsequence
      alternativeLies
      branchLies := alternativeLies.regular.liesIn_of_mem_children below
      first := regular.apart_of_field? inCondition inConsequence (by decide)
      outer := regular.apart_of_field? inCondition inAlternative (by decide)
      last := regular.apart_of_field? inConsequence inAlternative (by decide) }⟩

/-- A flip that has all parts suits its text. -/
theorem Parts.exists_plan {test consequence : Site} (parts : Parts statement test consequence branch)
    (found : tree.innermost? (accepts selection) = some statement) (regular : statement.IsRegular)
    (source : statement.source = tree.source) :
    ∃ plan, plan? tree selection = some plan ∧ plan.Suits tree.source := by
  obtain ⟨condition, alternative, fields⟩ := parts.inFields regular
  obtain ⟨⟨condition', inCondition, first⟩, inConsequence, chosen⟩ := parts
  let plan : Plan :=
    { scope := statement.range
      edits := fun _ =>
        [⟨test.node.negation tree.source, test.range⟩, ⟨branch.text, consequence.range⟩,
          ⟨consequence.text, branch.range⟩] }
  have planned : plan? tree selection = some plan := by
    rw [plan?, found]
    simp only [Option.bind_eq_bind, Option.bind_some, inCondition, first, inConsequence, chosen]
    rfl
  have same := fields.conditionLies.source_eq
  have same' := fields.consequenceLies.source_eq
  have same'' := fields.alternativeLies.source_eq
  have whole := fields.consequenceLies.regular.liesIn
  refine ⟨plan, planned, regular.hasPlace source, ?_, ?_⟩
  · intro _ edit member
    rcases member with _ | ⟨_, _ | ⟨_, _ | ⟨_, none⟩⟩⟩
    · exact fields.testLies.hasPlace (same.trans source)
    · exact fields.consequenceLies.hasPlace source
    · exact fields.branchLies.hasPlace (same''.trans source)
    · cases none
  · intro _
    refine .cons ?_ (.cons ?_ (List.pairwise_singleton _ _))
    · intro other member
      rcases member with _ | ⟨_, _ | ⟨_, none⟩⟩
      · exact fields.testLies.not_overlaps whole (same.trans same'.symm) fields.first _ _
      · exact fields.testLies.not_overlaps fields.branchLies (same.trans same''.symm) fields.outer _ _
      · cases none
    · intro other member
      rw [List.mem_singleton.1 member]
      exact whole.not_overlaps fields.branchLies (same'.trans same''.symm) fields.last _ _

theorem aimsAt : flipIfElse.AimsAt accepts .noIfElse plan? where
  execute_eq := rfl
  accepted := Refactoring.accepted_of_claimIf rfl
  planned tree selection statement found regular source := by
    obtain ⟨test, consequence, branch, parts⟩ :=
      exists_parts regular (Tree.mem_of_innermost? found).2
    exact parts.exists_plan found regular source
  unplanned tree selection nothing := by rw [plan?, nothing]; rfl

theorem claimsAll : flipIfElse.ClaimsAll accepts := by
  refine Refactoring.claimsAll_of_claimIf rfl fun selection site accepted => ?_
  simp only [accepts, Bool.and_eq_true] at accepted
  exact accepted.1.1

end FlipIfElse

/-! ## Braces of arrow functions -/

namespace AddBraces

theorem aimsAt : addBraces.AimsAt accepts .noArrowFunction plan? where
  execute_eq := rfl
  accepted := Refactoring.accepted_of_claimIf rfl
  planned tree selection function found regular source := by
    have accepted := (Tree.mem_of_innermost? found).2
    simp only [accepts, Bool.and_eq_true] at accepted
    obtain ⟨body, inBody, -⟩ := Option.any_eq_true _ _ |>.1 accepted.2
    have lies := regular.liesIn_of_field? inBody
    let indentation := tree.source.indentation function.range.start.line.toNat
    let edit : Edit := ⟨block indentation body.text, body.range⟩
    have planned : plan? tree selection = some (.single edit) := by
      rw [plan?, found]
      simp only [Option.bind_eq_bind, Option.bind_some, inBody]
      rfl
    exact ⟨.single edit, planned, Plan.suits_single (lies.hasPlace source)⟩
  unplanned tree selection nothing := by rw [plan?, nothing]; rfl

theorem claimsAll : addBraces.ClaimsAll accepts := by
  refine Refactoring.claimsAll_of_claimIf rfl fun selection site accepted => ?_
  simp only [accepts, Bool.and_eq_true] at accepted
  exact accepted.1.1

end AddBraces

namespace RemoveBraces

theorem aimsAt : removeBraces.AimsAt accepts .noRemovableBraces plan? where
  execute_eq := rfl
  accepted := Refactoring.accepted_of_claimIf rfl
  planned tree selection function found regular source := by
    have accepted := (Tree.mem_of_innermost? found).2
    simp only [accepts, Bool.and_eq_true] at accepted
    obtain ⟨value, returned⟩ := Option.isSome_iff_exists.1 accepted.2
    obtain ⟨body, inBody, -⟩ := Option.bind_eq_some_iff.1 returned
    have lies := regular.liesIn_of_field? inBody
    let edit : Edit := ⟨bodyOf value, body.range⟩
    have planned : plan? tree selection = some (.single edit) := by
      rw [plan?, found]
      simp only [Option.bind_eq_bind, Option.bind_some, inBody, returned]
      rfl
    exact ⟨.single edit, planned, Plan.suits_single (lies.hasPlace source)⟩
  unplanned tree selection nothing := by rw [plan?, nothing]; rfl

theorem claimsAll : removeBraces.ClaimsAll accepts := by
  refine Refactoring.claimsAll_of_claimIf rfl fun selection site accepted => ?_
  simp only [accepts, Bool.and_eq_true] at accepted
  exact accepted.1.1

end RemoveBraces

/-! ## Strings -/

namespace TemplateLiteral

theorem aimsAt : convertToTemplateLiteral.AimsAt accepts .noString plan? where
  execute_eq := rfl
  accepted := Refactoring.accepted_of_claimIf rfl
  planned tree selection string found regular source := by
    let plan : Plan :=
      { scope := string.range
        edits := fun literal =>
          [⟨TemplateText.quoted (TemplateText.ofLiteral literal), string.range⟩] }
    have planned : plan? tree selection = some plan := by rw [plan?, found]; rfl
    refine ⟨plan, planned, regular.hasPlace source, ?_, ?_⟩
    · intro _ edit member
      rw [List.mem_singleton.1 member]
      exact regular.hasPlace source
    · intro _
      exact List.pairwise_singleton _ _
  unplanned tree selection nothing := by rw [plan?, nothing]; rfl

theorem claimsAll : convertToTemplateLiteral.ClaimsAll accepts := by
  refine Refactoring.claimsAll_of_claimIf rfl fun selection site accepted => ?_
  simp only [accepts, Bool.and_eq_true] at accepted
  exact accepted.1.1

end TemplateLiteral

/-! ## Negations -/

namespace NegateExpression

/-- An accepted expression is claimed under the title that shows its replacement. -/
theorem claim?_eq (inquiry : Inquiry) (earlier : List Site) (site : Site) :
    negateExpression.claim? inquiry earlier site =
      if accepts inquiry.selection site then some ⟨some (titleFor (edit site).code)⟩ else none := by
  have kinds : accepts inquiry.selection site = true →
      (NodePattern.category .expression).covers site.kind = true := by
    intro accepted
    simp only [accepts, Bool.and_eq_true] at accepted
    rw [show site.kind = "binary_expression" from eq_of_beq accepted.1.1]
    decide
  rw [@Refactoring.claim?_of_singleton _ negateExpression inquiry earlier site _ visit rfl, visit,
    outcome_bind_of_ok outcome_selection]
  cases accepted : accepts inquiry.selection site with
  | true => rw [if_pos (kinds accepted)]; rfl
  | false => split <;> rfl

theorem isSome_claim? (inquiry : Inquiry) (earlier : List Site) (site : Site) :
    (negateExpression.claim? inquiry earlier site).isSome = accepts inquiry.selection site := by
  rw [claim?_eq]
  cases accepts inquiry.selection site <;> rfl

/-- The range that a negation takes the place of is that of a regular site. -/
theorem exists_edit_range {expression : Site} (regular : expression.IsRegular) :
    ∃ site : Site, (edit expression).selection = site.range ∧ site.IsRegular ∧
      site.source = expression.source := by
  cases enclosing : enclosingNot? expression with
  | none => exact ⟨expression, by rw [edit, enclosing], regular, rfl⟩
  | some unary =>
    obtain ⟨parentheses, upper, rest⟩ := Option.bind_eq_some_iff.1 enclosing
    obtain ⟨regular', source'⟩ := regular.parent upper
    split at rest
    · obtain ⟨outer, upper', chosen⟩ := Option.bind_eq_some_iff.1 rest
      obtain ⟨regular'', source''⟩ := regular'.parent upper'
      split at chosen
      · obtain rfl := Option.some.inj chosen
        refine ⟨outer, ?_, regular'', source''.trans source'⟩
        rw [edit, enclosing]
        simp only
        split <;> rfl
      · cases chosen
    · cases rest

theorem aimsAt : negateExpression.AimsAt accepts .noNegatableExpression plan? where
  execute_eq := rfl
  accepted inquiry earlier site claimed := by rwa [isSome_claim?] at claimed
  planned tree selection expression found regular source := by
    obtain ⟨site, range, regular', source'⟩ := exists_edit_range regular
    refine ⟨.single (edit expression), by rw [plan?, found]; rfl, Plan.suits_single ?_⟩
    rw [range]
    exact regular'.hasPlace (source'.trans source)
  unplanned tree selection nothing := by rw [plan?, nothing]; rfl

theorem claimsAll : negateExpression.ClaimsAll accepts := by
  intro inquiry earlier site accepted
  rwa [isSome_claim?]

end NegateExpression

/-! ## Concatenations -/

namespace Concatenation

theorem claim?_eq (inquiry : Inquiry) (earlier : List Site) (site : Site) :
    convertConcatenation.claim? inquiry earlier site =
      if (NodePattern.kind "binary_expression").covers site.kind then
        standing ((visit site).outcome inquiry ((), none))
      else none :=
  Refactoring.claim?_of_singleton rfl

/-- The edit that makes a chain a template literal. -/
def conversion (source : Text) (chain : Site) : Edit :=
  ⟨template source (operands chain.node), chain.range⟩

theorem plan?_of_innermost {chain : Site}
    (found : tree.innermost? (accepts selection) = some chain) :
    plan? tree selection = some (.single (conversion tree.source chain)) := by
  rw [plan?, found]
  rfl

theorem aimsAt : convertConcatenation.AimsAt accepts .noConcatenation plan? where
  execute_eq := rfl
  accepted inquiry earlier site claimed := by
    by_contra refused
    rw [claim?_eq, visit, outcome_bind_of_ok outcome_selection, if_neg refused] at claimed
    split at claimed <;> cases claimed
  planned tree selection chain found regular source :=
    ⟨_, plan?_of_innermost found, Plan.suits_single (regular.hasPlace source)⟩
  unplanned tree selection nothing := by rw [plan?, nothing]; rfl

end Concatenation

/-! ## All of them -/

theorem nodup_ids_builtIn : (builtIn.map Refactoring.id).Nodup := by decide

/-- Every built-in refactoring aims at the sites of a test. -/
theorem exists_aimsAt {refactoring : Refactoring Unit} (member : refactoring ∈ builtIn) :
    ∃ accepts reason plan?, refactoring.AimsAt accepts reason plan? ∧
      (refactoring.id ≠ convertConcatenation.id → refactoring.ClaimsAll accepts) := by
  rcases member with _ | ⟨_, _ | ⟨_, _ | ⟨_, _ | ⟨_, _ | ⟨_, _ | ⟨_, none⟩⟩⟩⟩⟩⟩
  · exact ⟨_, _, _, FlipIfElse.aimsAt, fun _ => FlipIfElse.claimsAll⟩
  · exact ⟨_, _, _, AddBraces.aimsAt, fun _ => AddBraces.claimsAll⟩
  · exact ⟨_, _, _, RemoveBraces.aimsAt, fun _ => RemoveBraces.claimsAll⟩
  · exact ⟨_, _, _, TemplateLiteral.aimsAt, fun _ => TemplateLiteral.claimsAll⟩
  · exact ⟨_, _, _, NegateExpression.aimsAt, fun _ => NegateExpression.claimsAll⟩
  · exact ⟨_, _, _, Concatenation.aimsAt, fun other => absurd rfl other⟩
  · cases none

section Service

variable {service : Service Unit} {editor : Editor}

/-- What a service with the built-in refactorings executes under the identifier of one. -/
theorem outcome_execute_builtIn (registered : service.refactorings = builtIn)
    {refactoring : Refactoring Unit} (member : refactoring ∈ builtIn)
    (enabled : service.settings.isEnabled refactoring.id = true) :
    (service.execute refactoring.id).outcome editor =
      match (refactoring.execute service.parse).outcome editor with
      | (.ok (), after) => (.ok (), after)
      | (.error failure, after) => (.error failure, after.showError failure.reason) := by
  rw [← registered] at member
  exact Service.outcome_execute
    (Service.find?_id (registered ▸ nodup_ids_builtIn) member) enabled

/-- **What is offered is carried out, and what is not offered is refused.**  The service has
the built-in refactorings, with any settings and any type checker; the editor holds a text
that is parsed to a regular tree.  Concatenations are offered by their operands, so one that
is not offered may still be carried out. -/
theorem builtIn_agrees (registered : service.refactorings = builtIn)
    (reachable : editor.grid.Reachable) (parsed : service.parse editor.code = .ok tree)
    (source : tree.source = editor.code) (regular : tree.IsRegular) :
    (∀ action ∈ service.codeActionsFor editor, ∃ after,
      (service.execute action.id).outcome editor = (.ok (), after) ∧
        after.shownErrors = editor.shownErrors) ∧
    ∀ refactoring ∈ builtIn, service.settings.isEnabled refactoring.id = true →
      refactoring.id ≠ convertConcatenation.id →
      refactoring.id ∉ (service.codeActionsFor editor).map Action.id →
        ∃ reason after, (service.execute refactoring.id).outcome editor =
          (.error (.notApplicable reason), after) ∧ after.code = editor.code := by
  constructor
  · intro action offered
    obtain ⟨refactoring, member, same, enabled, earlier, site, later, split, claimed⟩ :=
      (Service.mem_ids_codeActionsFor parsed).1 (List.mem_map_of_mem offered)
    rw [registered] at member
    obtain ⟨accepts, reason, plan?, aims, -⟩ := exists_aimsAt member
    have inTree : site ∈ tree.sites := by rw [split]; simp
    obtain ⟨plan, -, carried⟩ := aims.outcome_of_accepted reachable parsed source regular inTree
      (aims.accepted _ earlier site claimed)
    rw [← same] at enabled ⊢
    have executed := @outcome_execute_builtIn service editor registered refactoring member enabled
    rw [carried] at executed
    exact ⟨_, executed, rfl⟩
  · intro refactoring member enabled other unoffered
    obtain ⟨accepts, reason, plan?, aims, claims⟩ := exists_aimsAt member
    have nowhere : ∀ site ∈ tree.sites, accepts editor.selection site = false := by
      intro site inTree
      obtain ⟨earlier, later, split⟩ := List.append_of_mem inTree
      by_contra accepted
      refine unoffered ((Service.mem_ids_codeActionsFor parsed).2 ?_)
      exact ⟨refactoring, registered ▸ member, rfl, enabled, earlier, site, later, split,
        claims other _ earlier site (Bool.not_eq_false _ ▸ accepted)⟩
    have executed := @outcome_execute_builtIn service editor registered refactoring member enabled
    rw [aims.outcome_of_not_accepted parsed nowhere] at executed
    exact ⟨reason, _, executed, rfl⟩

end Service

/-- A node with a name and without faults. -/
def Node.named (kind : String) (start stop : Nat) (fields : List String)
    (children : List Node) : Node :=
  .mk ⟨kind, true, false, false, false, start, stop, fields⟩ children

/-- A keyword, an operator or a punctuation mark. -/
def Node.mark (kind : String) (start stop : Nat) (fields : List String) : Node :=
  .mk ⟨kind, false, false, false, false, start, stop, fields⟩ []

/-- The code `if (a) b; else c;`, parsed. -/
def choice : Tree where
  source := "if (a) b; else c;".toList
  root :=
    .named "program" 0 17 [] [.named "if_statement" 0 17 []
      [.mark "if" 0 2 [],
        .named "parenthesized_expression" 3 6 ["condition"]
          [.mark "(" 3 4 [], .named "identifier" 4 5 [] [], .mark ")" 5 6 []],
        .named "expression_statement" 7 9 ["consequence"]
          [.named "identifier" 7 8 [] [], .mark ";" 8 9 []],
        .named "else_clause" 10 17 ["alternative"]
          [.mark "else" 10 14 [],
            .named "expression_statement" 15 17 []
              [.named "identifier" 15 16 [] [], .mark ";" 16 17 []]]]]

/-- A service with the built-in refactorings that can parse one text. -/
def Service.parsing (tree : Tree) : Service Unit where
  refactorings := builtIn
  parse := fun text =>
    if text = tree.source then .ok tree else .error (.faulty Fault.unreadable .zero)
  typeChecker := .ignorant
  settings := .standard

/-- **What becomes of a code that is just opened** when a built-in refactoring is carried out. -/
theorem Refactoring.AimsAt.code_of_planned {refactoring : Refactoring Unit}
    {accepts : Selection → Site → Bool} {reason : Reason} {plan? : Tree → Selection → Option Plan}
    {plan : Plan} (aims : refactoring.AimsAt accepts reason plan?) (member : refactoring ∈ builtIn)
    (regular : tree.IsRegular) (planned : plan? tree selection = some plan) :
    ∃ after, ((Service.parsing tree).execute refactoring.id).outcome
        (Editor.ofCode tree.source selection) = (.ok (), after) ∧
      after.code = plan.result tree.source := by
  have code : (Editor.ofCode tree.source selection).code = tree.source := Grid.text_ofText _
  have parsed : (Service.parsing tree).parse (Editor.ofCode tree.source selection).code =
      .ok tree := by
    rw [code]
    exact if_pos rfl
  have carried := aims.outcome_of_planned (.ofText _) parsed code.symm regular planned
  have executed := @outcome_execute_builtIn (Service.parsing tree)
    (Editor.ofCode tree.source selection) rfl refactoring member rfl
  rw [carried] at executed
  refine ⟨_, executed, ?_⟩
  show Grid.text (.ofText _) = _
  rw [Grid.text_ofText, code]

theorem builtIn_agrees_choice :
    let editor := Editor.ofCode choice.source default
    let service := Service.parsing choice
    service.refactorings = builtIn ∧ editor.grid.Reachable ∧
      service.parse editor.code = .ok choice ∧ choice.source = editor.code ∧
      choice.IsRegular ∧
      (service.codeActionsFor editor).map Action.id = [flipIfElse.id] ∧
      (∃ after, (service.execute flipIfElse.id).outcome editor = (.ok (), after) ∧
        after.shownErrors = []) ∧
      ∃ reason after, (service.execute addBraces.id).outcome editor =
        (.error (.notApplicable reason), after) ∧ after.code = editor.code := by
  intro editor service
  have reachable : editor.grid.Reachable := .ofText _
  have parsed : service.parse editor.code = .ok choice := rfl
  have regular : choice.IsRegular := Tree.isRegular_of_isPlain (by decide)
  have offered : (service.codeActionsFor editor).map Action.id = [flipIfElse.id] := by decide
  obtain ⟨carried, refused⟩ :=
    @builtIn_agrees choice service editor rfl reachable parsed rfl regular
  refine ⟨rfl, reachable, parsed, rfl, regular, offered, ?_, ?_⟩
  · obtain ⟨action, member, same⟩ : ∃ action ∈ service.codeActionsFor editor,
        action.id = flipIfElse.id := by
      rw [← List.mem_map, offered]
      exact List.mem_singleton.2 rfl
    rw [← same]
    exact carried action member
  · exact refused addBraces (by simp [builtIn]) rfl (by decide) (by rw [offered]; decide)

end Retouch
