import Retouch.Proofs.Catalog.ArrowBody
import Retouch.Proofs.Catalog.Words
import Retouch.Proofs.Tree.Comments

/-!
# Comments beside expressions

Comments may stand between any two nodes, and they are named.  The branch after an `else` is
looked for among the nodes that are no comments.  Elsewhere the first named child is taken: for the
test of an `if`, for the value of a `return` and for the operand in the parentheses after a `!`.

**Comments change nothing of what is chosen, except where one of them comes first**
(`chosenAgain_iff_no_comment`): then it is the comment that is negated, kept as the body of a
function, or written for the negation, and the expression behind it is lost
(`RemoveBraces.keeps_comment_for_value`).
-/

set_option autoImplicit false

namespace Retouch

namespace Node

variable {node operand : Node}

/-! ## The operand of a `!` -/

theorem form_of_isUnaryNot (unary : node.isUnaryNot = true) :
    node.form = .negation node.negatedOperand? := by
  rw [isUnaryNot, Bool.and_eq_true] at unary
  exact form_of_not (eq_of_beq unary.1) (eq_of_beq unary.2)

theorem isComment_of_negatedOperand?_uncommented (plain : node.HasPlainComments)
    (found : node.uncommented.negatedOperand? = some operand) : operand.isComment = false := by
  obtain ⟨argument, field, chosen⟩ := Option.bind_eq_some_iff.1 found
  rw [field?_uncommented plain] at field
  obtain ⟨original, found, rfl⟩ := Option.map_eq_some_iff.1 field
  have kept := plain.isComment_of_field? found
  split at chosen
  · obtain rfl := Option.some.inj chosen
    cases first : original.uncommented.namedChildren.head? with
    | none => simpa using kept
    | some child =>
      exact isComment_of_mem_children_uncommented
        (List.mem_filter.1 (List.mem_of_head? first)).1
  · obtain rfl := Option.some.inj chosen
    simpa using kept

/-- An operand that is no comment is found again. -/
theorem negatedOperand?_uncommented_of_kept (plain : node.HasPlainComments)
    (found : node.negatedOperand? = some operand) (kept : operand.isComment = false) :
    node.uncommented.negatedOperand? = some operand.uncommented := by
  obtain ⟨argument, field, chosen⟩ := Option.bind_eq_some_iff.1 found
  have field' : node.uncommented.field? "argument" = some argument.uncommented := by
    rw [field?_uncommented plain, field, Option.map_some]
  rw [negatedOperand?, field']
  simp only [Option.bind_eq_bind, Option.bind_some, is_uncommented]
  split at chosen
  · rename_i bracketed
    rw [if_pos bracketed]
    obtain rfl := Option.some.inj chosen
    cases first : argument.namedChildren.head? with
    | none =>
      have empty := List.head?_eq_none_iff.1 first
      rw [namedChildren_uncommented, empty]
      rfl
    | some child =>
      rw [first, Option.getD_some] at kept
      rw [(head?_namedChildren_uncommented first).2 kept]
      rfl
  · rename_i bare
    rw [if_neg bare]
    obtain rfl := Option.some.inj chosen
    rfl

/-- **The operand of a `!` is found again exactly if it is no comment.** -/
theorem negatedOperand?_uncommented_iff (plain : node.HasPlainComments)
    (found : node.negatedOperand? = some operand) :
    node.uncommented.negatedOperand? = some operand.uncommented ↔ operand.isComment = false := by
  constructor
  · intro again
    simpa using isComment_of_negatedOperand?_uncommented plain again
  · exact negatedOperand?_uncommented_of_kept plain found

/-! ## Negations -/

/-- Whether the negation of a `!` is a comment in its parentheses. -/
def takesComment (node : Node) : Bool := node.isUnaryNot && node.negatedOperand?.any isComment

/-- A form with the nodes in it changed. -/
def Form.map (change : Node → Node) : Form → Form
  | .constant value => .constant value
  | .comparison left negated right => .comparison (change left) negated (change right)
  | .logical left flipped right => .logical (change left) flipped (change right)
  | .negation operand => .negation (operand.map change)
  | .tight => .tight
  | .loose => .loose

theorem map_binaryForm (change : Node → Node) (left : Node) (operator : String) (right : Node) :
    (binaryForm left operator right).map change =
      binaryForm (change left) operator (change right) := by
  unfold binaryForm
  split <;> rfl

theorem isUnaryNot_uncommented (plain : node.HasPlainComments) :
    node.uncommented.isUnaryNot = node.isUnaryNot := by
  rw [isUnaryNot, is_uncommented, operator?_uncommented plain, isUnaryNot]

theorem negatedOperand?_uncommented (plain : node.HasPlainComments)
    (unary : node.isUnaryNot = true) (kept : node.takesComment = false) :
    node.uncommented.negatedOperand? = node.negatedOperand?.map uncommented := by
  rw [takesComment, unary, Bool.true_and] at kept
  cases found : node.negatedOperand? with
  | none =>
    have unnamed : node.field? "argument" = none := by
      cases field : node.field? "argument" with
      | none => rfl
      | some argument =>
        rw [negatedOperand?, field] at found
        simp only [Option.bind_eq_bind, Option.bind_some] at found
        split at found <;> cases found
    rw [negatedOperand?, field?_uncommented plain, unnamed]
    rfl
  | some operand =>
    rw [found] at kept
    exact negatedOperand?_uncommented_of_kept plain found kept

theorem form_uncommented (plain : node.HasPlainComments) (kept : node.takesComment = false) :
    node.uncommented.form = node.form.map uncommented := by
  rw [form, form]
  simp only [is_uncommented, kind_uncommented, field?_uncommented plain,
    operator?_uncommented plain, isUnaryNot_uncommented plain]
  split
  · rfl
  split
  · rfl
  split
  · rcases node.field? "left" with _ | left
    · rfl
    rcases node.operator? with _ | operator
    · rfl
    rcases node.field? "right" with _ | right
    · rfl
    exact (map_binaryForm uncommented left operator right).symm
  split
  · rename_i unary
    rw [negatedOperand?_uncommented plain unary kept]
    rfl
  split
  · rfl
  · rfl

theorem isLogical_uncommented (plain : node.HasPlainComments) :
    node.uncommented.isLogical = node.isLogical := by
  rw [isLogical, is_uncommented, operator?_uncommented plain, isLogical]

theorem bindsLoosely_uncommented (plain : node.HasPlainComments) :
    node.uncommented.bindsLoosely = node.bindsLoosely := by
  rw [bindsLoosely, is_uncommented, operator?_uncommented plain, kind_uncommented, bindsLoosely]

/-- What a `!` is put before is below it. -/
theorem Everywhere.negatedOperand? {property : Node → Prop} (everywhere : node.Everywhere property)
    (found : node.negatedOperand? = some operand) : operand.Everywhere property := by
  obtain ⟨argument, field, chosen⟩ := Option.bind_eq_some_iff.1 found
  have here := everywhere.child (List.mem_of_find?_eq_some field)
  split at chosen
  · obtain rfl := Option.some.inj chosen
    cases first : argument.namedChildren.head? with
    | none => exact here
    | some child => exact here.child (List.mem_filter.1 (List.mem_of_head? first)).1
  · obtain rfl := Option.some.inj chosen
    exact here

theorem negationIsLoose_uncommented (plain : node.Everywhere HasPlainComments)
    (kept : node.takesComment = false) :
    node.uncommented.negationIsLoose = node.negationIsLoose := by
  rw [negationIsLoose, isUnaryNot_uncommented plain.self, isLogical_uncommented plain.self,
    negationIsLoose]
  split
  · rename_i unary
    rw [negatedOperand?_uncommented plain.self unary kept]
    cases found : node.negatedOperand? with
    | none => rfl
    | some operand => exact bindsLoosely_uncommented (plain.negatedOperand? found).self
  · rfl

/-- **Comments leave a negation as it is**, unless one is taken for an operand. -/
theorem negation_uncommented (source : Text) (node : Node)
    (plain : node.Everywhere HasPlainComments)
    (kept : node.Everywhere fun inner => inner.takesComment = false) :
    node.uncommented.negation source = node.negation source := by
  rw [negation_eq, form_uncommented plain.self kept.self, negation_eq source node]
  cases same : node.form with
  | constant value => rfl
  | comparison left negated right => simp [Form.map]
  | logical left flipped right =>
    obtain ⟨-, foundLeft, foundRight, -⟩ := exists_of_form_logical same
    have inLeft := List.mem_of_find?_eq_some foundLeft
    have inRight := List.mem_of_find?_eq_some foundRight
    have smaller := size_lt_of_mem inLeft
    have smaller' := size_lt_of_mem inRight
    have first := negation_uncommented source left (plain.child inLeft) (kept.child inLeft)
    have second := negation_uncommented source right (plain.child inRight) (kept.child inRight)
    simp only [Form.map, besideConnective, first, second,
      negationIsLoose_uncommented (plain.child inLeft) (kept.child inLeft).self,
      negationIsLoose_uncommented (plain.child inRight) (kept.child inRight).self]
  | negation operand => cases operand <;> simp [Form.map]
  | tight => simp [Form.map]
  | loose => simp [Form.map]
termination_by node.size

end Node

/-! ## What is chosen -/

open Node

/-- Whether what is chosen in a node is chosen in the node without comments as well. -/
def ChosenAgain (choose : Node → Option Node) (holder chosen : Node) : Prop :=
  choose holder.uncommented = some chosen.uncommented

namespace FlipIfElse

/-- What a flip negates: the first node in the parentheses of the condition. -/
def test? (statement : Node) : Option Node := do
  let condition ← statement.field? "condition"
  condition.namedChildren.head?

/-- The branch after the `else`: the first node that is no comment. -/
def branch? (statement : Node) : Option Node := do
  let alternative ← statement.field? "alternative"
  let branch ← alternative.namedChildren.find? (!·.isComment)
  if branch.is "if_statement" then none else some branch

variable {statement test consequence branch : Site}

theorem Parts.test?_eq (parts : Parts statement test consequence branch) :
    test? statement.node = some test.node := by
  obtain ⟨⟨condition, inCondition, first⟩, -, -⟩ := parts
  rw [test?, Site.field?_node_of_eq_some inCondition]
  show condition.node.namedChildren.head? = _
  rw [← Site.map_node_namedChildren, List.head?_map, first, Option.map_some]

theorem isComment_of_branch? {statement branch : Node} (found : branch? statement = some branch) :
    branch.isComment = false := by
  obtain ⟨alternative, -, rest⟩ := Option.bind_eq_some_iff.1 found
  obtain ⟨first, among, chosen⟩ := Option.bind_eq_some_iff.1 rest
  split at chosen
  · cases chosen
  · obtain rfl := Option.some.inj chosen
    simpa using List.find?_some among

theorem Parts.branch?_eq (parts : Parts statement test consequence branch) :
    branch? statement.node = some branch.node := by
  obtain ⟨alternative, inAlternative, rest⟩ := Option.bind_eq_some_iff.1 parts.branch
  obtain ⟨first, among, chosen⟩ := Option.bind_eq_some_iff.1 rest
  split at chosen
  · cases chosen
  · rename_i noIf
    obtain rfl := Option.some.inj chosen
    have found : alternative.node.namedChildren.find? (!·.isComment) = some first.node := by
      rw [← Site.map_node_namedChildren, List.find?_map]
      exact congrArg (Option.map Site.node) among
    rw [branch?, Site.field?_node_of_eq_some inAlternative]
    simp only [Option.bind_eq_bind, Option.bind_some, found]
    exact if_neg noIf

/-- **The branch is chosen again**, whatever comments there are. -/
theorem branch?_uncommented {statement : Node} (plain : statement.HasPlainComments) :
    branch? statement.uncommented = (branch? statement).map uncommented := by
  rw [branch?, field?_uncommented plain, branch?]
  cases statement.field? "alternative" with
  | none => rfl
  | some alternative =>
    simp only [Option.bind_eq_bind, Option.map_some, Option.bind_some,
      find?_namedChildren_uncommented]
    cases alternative.namedChildren.find? (!·.isComment) with
    | none => rfl
    | some branch =>
      simp only [Option.map_some, Option.bind_some, is_uncommented]
      split <;> rfl

theorem test?_chosenAgain_iff {statement test : Node} (plain : statement.HasPlainComments)
    (found : test? statement = some test) :
    ChosenAgain test? statement test ↔ test.isComment = false := by
  obtain ⟨condition, inCondition, first⟩ := Option.bind_eq_some_iff.1 found
  rw [← head?_namedChildren_uncommented first, ChosenAgain, test?, field?_uncommented plain,
    inCondition]
  rfl

end FlipIfElse

namespace RemoveBraces

/-- What a function returns whose body is a block with a return statement only. -/
def value? (function : Node) : Option Node := do
  let body ← function.field? "body"
  if body.is "statement_block" then
    match body.namedChildren with
    | [statement] =>
      if statement.is "return_statement" then statement.namedChildren.head? else none
    | _ => none
  else none

/-- The block and the return statement around a returned value. -/
theorem exists_of_value? {function value : Node} (found : value? function = some value) :
    ∃ body statement, function.field? "body" = some body ∧ body.is "statement_block" = true ∧
      body.namedChildren = [statement] ∧ statement.is "return_statement" = true ∧
      statement.namedChildren.head? = some value := by
  obtain ⟨body, inBody, rest⟩ := Option.bind_eq_some_iff.1 found
  split at rest
  · rename_i block
    split at rest
    · rename_i statement only
      split at rest
      · rename_i returns
        exact ⟨body, statement, inBody, block, only, returns, rest⟩
      · cases rest
    · cases rest
  · cases rest

theorem value?_of_returns {function body statement : Node}
    (inBody : function.field? "body" = some body) (block : body.is "statement_block" = true)
    (only : body.namedChildren = [statement]) (returns : statement.is "return_statement" = true) :
    value? function = statement.namedChildren.head? := by
  rw [value?, inBody]
  simp only [Option.bind_eq_bind, Option.bind_some, block, only, returns, if_true]

theorem value?_node_of_eq_some {function value : Site} (found : returnedValue? function = some value) :
    value? function.node = some value.node := by
  obtain ⟨body, statement, inBody, block, only, returns, first⟩ := exists_of_returnedValue? found
  have only' : body.node.namedChildren = [statement.node] := by
    rw [← Site.map_node_namedChildren, only, List.map_singleton]
  rw [value?_of_returns (Site.field?_node_of_eq_some inBody) block only' returns,
    ← Site.map_node_namedChildren, List.head?_map, first, Option.map_some]

theorem value?_chosenAgain_iff {function value : Node} (plain : function.HasPlainComments)
    (found : value? function = some value) :
    ChosenAgain value? function value ↔ value.isComment = false := by
  obtain ⟨body, statement, inBody, block, only, returns, first⟩ := exists_of_value? found
  have kept : statement.isComment = false := by
    have kind : statement.kind = "return_statement" := eq_of_beq returns
    rw [isComment, Node.is, kind]
    decide
  have inBody' : function.uncommented.field? "body" = some body.uncommented := by
    rw [field?_uncommented plain, inBody, Option.map_some]
  have only' : body.uncommented.namedChildren = [statement.uncommented] := by
    rw [namedChildren_uncommented, only, List.filter_singleton, kept]
    rfl
  rw [← head?_namedChildren_uncommented first, ChosenAgain,
    value?_of_returns inBody' (by simpa using block) only' (by simpa using returns)]

end RemoveBraces

/-- **The expressions that are chosen do not depend on comments, unless a comment comes first.**
The comments of the tree carry no field names; otherwise they stand anywhere.

A flip takes the branch that is taken without comments, and never a comment.  The node that it
negates is negated without comments exactly if it is no comment, and likewise for the node that
takes the place of the block of an arrow function, and for the node that is written for a `!`.
Where none is written for a `!` in an expression, its negation is the one without comments. -/
theorem chosenAgain_iff_no_comment {tree : Tree} (plain : tree.root.Everywhere HasPlainComments)
    (selection : Selection) :
    (∀ plan, FlipIfElse.plan? tree selection = some plan →
      ∃ statement test consequence branch,
        tree.innermost? (FlipIfElse.accepts selection) = some statement ∧
        FlipIfElse.Parts statement test consequence branch ∧
        plan.edits = (fun _ =>
          [⟨test.node.negation tree.source, test.range⟩, ⟨branch.text, consequence.range⟩,
            ⟨consequence.text, branch.range⟩]) ∧
        branch.node.isComment = false ∧
        ChosenAgain FlipIfElse.branch? statement.node branch.node ∧
        (ChosenAgain FlipIfElse.test? statement.node test.node ↔ test.node.isComment = false)) ∧
    (∀ plan, RemoveBraces.plan? tree selection = some plan → ∃ function body value,
        tree.innermost? (RemoveBraces.accepts selection) = some function ∧
        function.field? "body" = some body ∧ RemoveBraces.returnedValue? function = some value ∧
        plan = .single ⟨RemoveBraces.bodyOf value, body.range⟩ ∧
        (ChosenAgain RemoveBraces.value? function.node value.node ↔
          value.node.isComment = false)) ∧
    ∀ node : Node, node.Everywhere HasPlainComments →
      (∀ operand, node.isUnaryNot = true → node.negatedOperand? = some operand →
        node.negation tree.source = operand.textIn tree.source ∧
        (ChosenAgain negatedOperand? node operand ↔ operand.isComment = false)) ∧
      ((node.Everywhere fun inner => inner.takesComment = false) →
        node.uncommented.negation tree.source = node.negation tree.source) := by
  have plainAt {site : Site} (inTree : site ∈ tree.sites) : site.node.HasPlainComments :=
    (Tree.everywhere_of_mem_sites plain site inTree).self
  refine ⟨fun plan planned => ?_, fun plan planned => ?_, fun node plain => ⟨?_, ?_⟩⟩
  · obtain ⟨statement, test, consequence, branch, found, parts, edits⟩ :=
      FlipIfElse.exists_of_plan? planned
    have plain := plainAt (Tree.mem_of_innermost? found).1
    refine ⟨statement, test, consequence, branch, found, parts, edits,
      FlipIfElse.isComment_of_branch? parts.branch?_eq, ?_,
      FlipIfElse.test?_chosenAgain_iff plain parts.test?_eq⟩
    rw [ChosenAgain, FlipIfElse.branch?_uncommented plain, parts.branch?_eq, Option.map_some]
  · obtain ⟨function, body, value, found, inBody, returned, single⟩ :=
      RemoveBraces.exists_of_plan? planned
    exact ⟨function, body, value, found, inBody, returned, single,
      RemoveBraces.value?_chosenAgain_iff (plainAt (Tree.mem_of_innermost? found).1)
        (RemoveBraces.value?_node_of_eq_some returned)⟩
  · intro operand unary taken
    have form := form_of_isUnaryNot unary
    exact ⟨by rw [negation_eq, form, taken], negatedOperand?_uncommented_iff plain.self taken⟩
  · exact negation_uncommented tree.source node plain

/-- The code `if (a /* x */) b; else /* y */ c;`, parsed. -/
def commentedChoice : Tree where
  source := "if (a /* x */) b; else /* y */ c;".toList
  root :=
    .named "program" 0 33 [] [.named "if_statement" 0 33 []
      [.mark "if" 0 2 [],
        .named "parenthesized_expression" 3 14 ["condition"]
          [.mark "(" 3 4 [], .named "identifier" 4 5 [] [], .named "comment" 6 13 [] [],
            .mark ")" 13 14 []],
        .named "expression_statement" 15 17 ["consequence"]
          [.named "identifier" 15 16 [] [], .mark ";" 16 17 []],
        .named "else_clause" 18 33 ["alternative"]
          [.mark "else" 18 22 [], .named "comment" 23 30 [] [],
            .named "expression_statement" 31 33 []
              [.named "identifier" 31 32 [] [], .mark ";" 32 33 []]]]]

theorem chosenAgain_iff_no_comment_commentedChoice :
    (commentedChoice.root.Everywhere HasPlainComments) ∧
      ∃ statement test consequence branch,
        FlipIfElse.Parts statement test consequence branch ∧
        test.text = "a".toList ∧ branch.text = "c;".toList ∧
        ChosenAgain FlipIfElse.branch? statement.node branch.node ∧
        ChosenAgain FlipIfElse.test? statement.node test.node := by
  have plain : commentedChoice.root.Everywhere HasPlainComments := by decide
  let site := commentedChoice.rootSite.child commentedChoice.root.children[0]! 0
  let condition := site.child site.node.children[1]! 1
  let clause := site.child site.node.children[3]! 3
  have parts : FlipIfElse.Parts site (condition.child condition.node.children[1]! 1)
      (site.child site.node.children[2]! 2) (clause.child clause.node.children[2]! 2) :=
    ⟨⟨condition, rfl, rfl⟩, rfl, rfl⟩
  have found : commentedChoice.innermost? (FlipIfElse.accepts default) = some site := rfl
  obtain ⟨plan, planned⟩ : ∃ plan, FlipIfElse.plan? commentedChoice default = some plan := ⟨_, rfl⟩
  obtain ⟨_, _, _, _, found', parts', -, -, again, iff⟩ :=
    (chosenAgain_iff_no_comment plain default).1 plan planned
  obtain rfl := Option.some.inj (found.symm.trans found')
  obtain ⟨rfl, rfl, rfl⟩ := parts.unique parts'
  exact ⟨plain, _, _, _, _, parts, by decide +kernel, by decide +kernel, again, iff.2 rfl⟩

/-- The code `x => { return /* c */ y; }`, parsed. -/
def commentedReturn : Tree where
  source := "x => \x7b return /* c */ y; \x7d".toList
  root :=
    .named "program" 0 26 [] [.named "expression_statement" 0 26 []
      [.named "arrow_function" 0 26 []
        [.named "identifier" 0 1 ["parameter"] [], .mark "=>" 2 4 [],
          .named "statement_block" 5 26 ["body"]
            [.mark "\x7b" 5 6 [],
              .named "return_statement" 7 24 []
                [.mark "return" 7 13 [], .named "comment" 14 21 [] [],
                  .named "identifier" 22 23 [] [], .mark ";" 23 24 []],
              .mark "\x7d" 25 26 []]]]]

/-- **The comment after a `return` takes the place of the returned value.** -/
theorem RemoveBraces.keeps_comment_for_value :
    let editor := Editor.ofCode commentedReturn.source default
    let service := Service.parsing commentedReturn
    (∃ function value, commentedReturn.innermost? (accepts editor.selection) = some function ∧
      returnedValue? function = some value ∧ value.is "comment" = true ∧
      ∃ expression, value? function.node.uncommented = some expression ∧
        expression.textIn commentedReturn.source = "y".toList) ∧
    ∃ after, (service.execute removeBraces.id).outcome editor = (.ok (), after) ∧
      after.code = "x => /* c */".toList := by
  intro editor service
  let statement := commentedReturn.rootSite.child commentedReturn.root.children[0]! 0
  let function := statement.child statement.node.children[0]! 0
  let body := function.child function.node.children[2]! 2
  let returns := body.child body.node.children[1]! 1
  let value := returns.child returns.node.children[1]! 1
  have found : commentedReturn.innermost? (accepts editor.selection) = some function := rfl
  have regular : commentedReturn.IsRegular := Tree.isRegular_of_isPlain (by decide)
  have planned : plan? commentedReturn editor.selection =
      some (.single ⟨bodyOf value, body.range⟩) := rfl
  obtain ⟨after, executed, code⟩ :=
    aimsAt.code_of_planned (by simp [builtIn]) regular planned
  refine ⟨⟨function, value, found, rfl, by decide, _, rfl, by decide +kernel⟩, after, executed, ?_⟩
  rw [code, Plan.result_single]
  decide +kernel

end Retouch
