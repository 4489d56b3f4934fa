import Retouch.Proofs.Catalog.Agreement
import Retouch.Proofs.Catalog.Negation

/-!
# Edits that run words together

An edit runs words together when a letter, a digit, an underscore or a dollar sign of its code
comes to stand beside another one, from which the replaced text kept it apart
(`Edit.gluesWords`).  Code that begins and ends with marks does not
(`Edit.gluesWords_of_marks`), and most built-in edits are of this kind: blocks, template literals,
negations with a `!` or with parentheses, and values in parentheses.

The others lend a piece of code to another place as it stands: the branches and the test of a
flipped `if`, a negation that takes the place of a `!` without parentheses, and a value that takes
the place of a block.  **Of the edits that run words together an execution commits exactly the
lent ones** (`Service.commits_lent_edits`).  Nothing keeps these apart from the words beside them,
and they do run into them.  The negation in `return!(a > b)` becomes a word with the `return`
(`NegateExpression.negation_runs_into_return`), and a branch without braces becomes one with an
`else` that stands close to the braces.
-/

set_option autoImplicit false

namespace Retouch

/-! ## Words -/

/-- Whether a character makes a word with the one beside it, where what stood in its place did
not. -/
def joinsWord (beside old new : Option Char) : Bool :=
  beside.any isWordCharacter && !old.any isWordCharacter && new.any isWordCharacter

/-- **Whether an edit runs words together**, at the start of its range or at the end. -/
def Edit.gluesWords (edit : Edit) (code : Text) : Bool :=
  let old := code.between edit.selection.start edit.selection.stop
  joinsWord (code.take (code.offsetOf edit.selection.start)).getLast? old.head? edit.code.head? ||
    joinsWord (code.drop (code.offsetOf edit.selection.stop)).head? old.getLast? edit.code.getLast?

/-- In ASCII the characters of words are those of plain names. -/
theorem isWordCharacter_of_ascii {character : Char} (ascii : character.toNat ≤ 0x7f) :
    isWordCharacter character =
      (character.isAlphanum || character = '_' || character = '$') := by
  rw [isWordCharacter, Alphanumeric.contains_of_ascii ascii]

/-- An edit whose code begins with a character of a word, after such a character and in the place
of another one, runs words together. -/
theorem Edit.gluesWords_of_start {edit : Edit} {code : Text} {beside old new : Char}
    (before : (code.take (code.offsetOf edit.selection.start)).getLast? = some beside)
    (replaced : (code.between edit.selection.start edit.selection.stop).head? = some old)
    (replacement : edit.code.head? = some new) (isBeside : isWordCharacter beside = true)
    (isOld : isWordCharacter old = false) (isNew : isWordCharacter new = true) :
    edit.gluesWords code = true := by
  have joins : joinsWord (some beside) (some old) (some new) = true := by
    simp only [joinsWord, Option.any_some, isBeside, isOld, isNew, Bool.not_false, Bool.and_self]
  simp only [gluesWords, before, replaced, replacement, joins, Bool.true_or]

/-- The marks with which built-in edits begin and end their code. -/
def enclosingMarks : List Char :=
  ['!', '(', ')', TemplateText.openingBrace, TemplateText.closingBrace, TemplateText.backtick]

theorem isWordCharacter_of_mem_enclosingMarks {mark : Char} (member : mark ∈ enclosingMarks) :
    isWordCharacter mark = false := by
  have plain : enclosingMarks.all (fun mark => decide (mark.toNat ≤ 0x7f ∧
      (mark.isAlphanum || mark = '_' || mark = '$') = false)) = true := by decide
  obtain ⟨ascii, noWord⟩ := of_decide_eq_true (List.all_eq_true.1 plain mark member)
  rw [isWordCharacter_of_ascii ascii, noWord]

/-- Code between marks runs into nothing. -/
theorem Edit.gluesWords_of_marks {edit : Edit} {first last : Char} {middle : Text}
    (between : edit.code = first :: middle ++ [last]) (opening : first ∈ enclosingMarks)
    (closing : last ∈ enclosingMarks) (code : Text) : edit.gluesWords code = false := by
  have head : edit.code.head?.any isWordCharacter = false := by
    rw [between, List.cons_append, List.head?_cons, Option.any_some,
      isWordCharacter_of_mem_enclosingMarks opening]
  have last : edit.code.getLast?.any isWordCharacter = false := by
    rw [between, List.getLast?_concat, Option.any_some,
      isWordCharacter_of_mem_enclosingMarks closing]
  simp only [gluesWords, joinsWord, head, last, Bool.and_false, Bool.or_false]

/-! ## Plans that are carried out -/

namespace Plan

/-- The edits that a plan commits to a text. -/
def committed (plan : Plan) (text : Text) : List Edit :=
  plan.edits (text.between plan.scope.start plan.scope.stop)

variable {editor after : Editor} {plan : Plan}

/-- A plan that succeeds has committed its edits. -/
theorem admits_of_outcome_perform (reachable : editor.grid.Reachable)
    (done : plan.perform.outcome editor = (.ok (), after)) :
    editor.code.Admits (plan.committed editor.code) ∧
      after = { editor with grid := .ofText (plan.result editor.code) }.placeCursor none := by
  have grid : editor.grid = .ofText editor.code := reachable.eq_ofText_text
  rw [outcome_perform, grid] at done
  by_cases places : editor.code.HasPlace plan.scope.start ∧ editor.code.HasPlace plan.scope.stop
  · simp only [Grid.read_ofText places.1 places.2] at done
    by_cases admits : editor.code.Admits (plan.committed editor.code)
    · refine ⟨admits, ?_⟩
      have committed := Editor.commit_of_admits reachable admits none
      rw [Plan.committed] at committed
      rw [committed] at done
      exact (Prod.mk.inj done).2.symm
    · obtain ⟨error, refused⟩ := Editor.commit_of_not_admits reachable admits none
      rw [Plan.committed] at refused
      rw [refused] at done
      cases done
  · obtain ⟨position, refused⟩ := Grid.read_of_outside places
    simp only [refused] at done
    cases done

/-- Planning that succeeds has found a plan and committed its edits. -/
theorem exists_of_outcome_execution {reason : Reason} {plan? : Tree → Selection → Option Plan}
    {parse : Parse} (reachable : editor.grid.Reachable)
    (done : (execution reason plan? parse).outcome editor = (.ok (), after)) :
    ∃ tree plan, parse editor.code = .ok tree ∧ plan? tree editor.selection = some plan ∧
      editor.code.Admits (plan.committed editor.code) ∧
      after = { editor with grid := .ofText (plan.result editor.code) }.placeCursor none := by
  rw [outcome_execution] at done
  cases parsed : parse editor.code with
  | error error =>
    rw [parsed] at done
    cases done
  | ok tree =>
    simp only [parsed] at done
    cases planned : plan? tree editor.selection with
    | none =>
      rw [planned] at done
      cases done
    | some plan =>
      rw [planned] at done
      exact ⟨tree, plan, rfl, planned, admits_of_outcome_perform reachable done⟩

end Plan

/-! ## Lent code -/

/-- A refactoring with its plans and with the edits that lend a piece of code to another
place. -/
structure Lending where
  refactoring : Refactoring Unit
  reason : Reason
  plan? : Tree → Selection → Option Plan
  lends : Tree → Selection → Edit → Prop

/-- **Whether of the edits that run words together the lent ones are planned, and no others.** -/
structure Lending.IsExact (lending : Lending) : Prop where
  execute_eq : lending.refactoring.execute = Plan.execution lending.reason lending.plan?
  mem_iff : ∀ tree selection plan, lending.plan? tree selection = some plan →
    ∀ (read code : Text) (edit : Edit), edit.gluesWords code = true →
      (edit ∈ plan.edits read ↔ lending.lends tree selection edit)

/-- A refactoring whose edits all stand between marks lends nothing. -/
theorem Lending.IsExact.of_marks {refactoring : Refactoring Unit} {reason : Reason}
    {plan? : Tree → Selection → Option Plan}
    (execute_eq : refactoring.execute = Plan.execution reason plan?)
    (marks : ∀ tree selection plan, plan? tree selection = some plan → ∀ (read : Text),
      ∀ edit ∈ plan.edits read, ∃ first middle last, edit.code = first :: middle ++ [last] ∧
        first ∈ enclosingMarks ∧ last ∈ enclosingMarks) :
    Lending.IsExact ⟨refactoring, reason, plan?, fun _ _ _ => False⟩ where
  execute_eq := execute_eq
  mem_iff tree selection plan planned read code edit glues := by
    refine iff_of_false (fun member => ?_) id
    obtain ⟨first, middle, last, between, opening, closing⟩ :=
      marks tree selection plan planned read edit member
    rw [Edit.gluesWords_of_marks between opening closing code] at glues
    cases glues

variable {tree : Tree} {selection : Selection} {plan : Plan} {edit : Edit}

namespace FlipIfElse

/-- The negated test, and the branches in each other's place. -/
def Lends (tree : Tree) (selection : Selection) (edit : Edit) : Prop :=
  ∃ statement test consequence branch, tree.innermost? (accepts selection) = some statement ∧
    Parts statement test consequence branch ∧
    (edit = ⟨test.node.negation tree.source, test.range⟩ ∨
      edit = ⟨branch.text, consequence.range⟩ ∨ edit = ⟨consequence.text, branch.range⟩)

theorem exists_of_plan? (planned : plan? tree selection = some plan) :
    ∃ statement test consequence branch, tree.innermost? (accepts selection) = some statement ∧
      Parts statement test consequence branch ∧
      plan.edits = fun _ =>
        [⟨test.node.negation tree.source, test.range⟩, ⟨branch.text, consequence.range⟩,
          ⟨consequence.text, branch.range⟩] := by
  obtain ⟨statement, found, rest⟩ := Option.bind_eq_some_iff.1 planned
  obtain ⟨condition, inCondition, rest⟩ := Option.bind_eq_some_iff.1 rest
  obtain ⟨test, first, rest⟩ := Option.bind_eq_some_iff.1 rest
  obtain ⟨consequence, inConsequence, rest⟩ := Option.bind_eq_some_iff.1 rest
  obtain ⟨branch, chosen, rest⟩ := Option.bind_eq_some_iff.1 rest
  obtain rfl := Option.some.inj rest
  exact ⟨statement, test, consequence, branch, found,
    ⟨⟨condition, inCondition, first⟩, inConsequence, chosen⟩, rfl⟩

theorem Parts.unique {statement test consequence branch test' consequence' branch' : Site}
    (parts : Parts statement test consequence branch)
    (parts' : Parts statement test' consequence' branch') :
    test = test' ∧ consequence = consequence' ∧ branch = branch' := by
  obtain ⟨⟨condition, inCondition, first⟩, inConsequence, chosen⟩ := parts
  obtain ⟨⟨condition', inCondition', first'⟩, inConsequence', chosen'⟩ := parts'
  obtain rfl := Option.some.inj (inCondition.symm.trans inCondition')
  exact ⟨Option.some.inj (first.symm.trans first'),
    Option.some.inj (inConsequence.symm.trans inConsequence'),
    Option.some.inj (chosen.symm.trans chosen')⟩

theorem isExact : Lending.IsExact ⟨flipIfElse, .noIfElse, plan?, Lends⟩ where
  execute_eq := rfl
  mem_iff tree selection plan planned read code edit _ := by
    obtain ⟨statement, test, consequence, branch, found, parts, edits⟩ := exists_of_plan? planned
    have members : edit ∈ plan.edits read ↔
        edit = ⟨test.node.negation tree.source, test.range⟩ ∨
          edit = ⟨branch.text, consequence.range⟩ ∨ edit = ⟨consequence.text, branch.range⟩ := by
      rw [edits]
      simp only [List.mem_cons, List.not_mem_nil, or_false]
    rw [members]
    constructor
    · intro lent
      exact ⟨statement, test, consequence, branch, found, parts, lent⟩
    · rintro ⟨statement', test', consequence', branch', found', parts', lent⟩
      obtain rfl := Option.some.inj (found.symm.trans found')
      obtain ⟨rfl, rfl, rfl⟩ := parts.unique parts'
      exact lent

end FlipIfElse

namespace AddBraces

theorem isExact :
    Lending.IsExact ⟨addBraces, .noArrowFunction, plan?, fun _ _ _ => False⟩ := by
  refine .of_marks rfl fun tree selection plan planned read edit member => ?_
  obtain ⟨function, -, rest⟩ := Option.bind_eq_some_iff.1 planned
  obtain ⟨body, -, rest⟩ := Option.bind_eq_some_iff.1 rest
  obtain rfl := Option.some.inj rest
  obtain rfl := List.mem_singleton.1 member
  exact ⟨_, _, _, rfl, by decide, by decide⟩

end AddBraces

namespace RemoveBraces

/-- A value, neither an object nor a sequence, in the place of the block that returns it. -/
def Lends (tree : Tree) (selection : Selection) (edit : Edit) : Prop :=
  ∃ function body value, tree.innermost? (accepts selection) = some function ∧
    function.field? "body" = some body ∧ returnedValue? function = some value ∧
    (value.is "object" || value.is "sequence_expression") = false ∧
    edit = ⟨value.text, body.range⟩

theorem isExact : Lending.IsExact ⟨removeBraces, .noRemovableBraces, plan?, Lends⟩ where
  execute_eq := rfl
  mem_iff tree selection plan planned read code edit glues := by
    obtain ⟨function, found, rest⟩ := Option.bind_eq_some_iff.1 planned
    obtain ⟨body, inBody, rest⟩ := Option.bind_eq_some_iff.1 rest
    obtain ⟨value, returned, rest⟩ := Option.bind_eq_some_iff.1 rest
    obtain rfl := Option.some.inj rest
    have members : edit ∈ (Plan.single ⟨bodyOf value, body.range⟩).edits read ↔
        edit = ⟨bodyOf value, body.range⟩ := List.mem_singleton
    rw [members]
    constructor
    · rintro rfl
      cases wrapped : value.is "object" || value.is "sequence_expression" with
      | true =>
        have between : bodyOf value = '(' :: value.text ++ [')'] := if_pos wrapped
        rw [Edit.gluesWords_of_marks between (by decide) (by decide)] at glues
        cases glues
      | false =>
        have bare : bodyOf value = value.text := if_neg (by rw [wrapped]; decide)
        exact ⟨function, body, value, found, inBody, returned, wrapped, by rw [bare]⟩
    · rintro ⟨function', body', value', found', inBody', returned', bare, rfl⟩
      obtain rfl := Option.some.inj (found.symm.trans found')
      obtain rfl := Option.some.inj (inBody.symm.trans inBody')
      obtain rfl := Option.some.inj (returned.symm.trans returned')
      rw [show bodyOf value = value.text from if_neg (by rw [bare]; decide)]

end RemoveBraces

namespace TemplateLiteral

theorem isExact :
    Lending.IsExact ⟨convertToTemplateLiteral, .noString, plan?, fun _ _ _ => False⟩ := by
  refine .of_marks rfl fun tree selection plan planned read edit member => ?_
  obtain ⟨string, -, rest⟩ := Option.bind_eq_some_iff.1 planned
  obtain rfl := Option.some.inj rest
  obtain rfl := List.mem_singleton.1 member
  exact ⟨_, _, _, rfl, by decide, by decide⟩

end TemplateLiteral

namespace NegateExpression

/-- A negation in the place of a `!`, without parentheses. -/
def Lends (tree : Tree) (selection : Selection) (edit : Edit) : Prop :=
  ∃ expression unary, tree.innermost? (accepts selection) = some expression ∧
    enclosingNot? expression = some unary ∧ needsParentheses expression unary = false ∧
    edit = ⟨expression.node.negation expression.source, unary.range⟩

theorem isExact : Lending.IsExact ⟨negateExpression, .noNegatableExpression, plan?, Lends⟩ where
  execute_eq := rfl
  mem_iff tree selection plan planned read code edit' glues := by
    obtain ⟨expression, found, rest⟩ := Option.bind_eq_some_iff.1 planned
    obtain rfl := Option.some.inj rest
    have members : edit' ∈ (Plan.single (edit expression)).edits read ↔
        edit' = edit expression := List.mem_singleton
    rw [members]
    constructor
    · rintro rfl
      -- The negations with a `!` or with parentheses stand between marks and cannot run words
      -- together, so the edit is the bare one.
      cases enclosed : enclosingNot? expression with
      | none =>
        have between : (edit expression).code =
            '!' :: ('(' :: expression.node.negation expression.source) ++ [')'] := by
          rw [edit, enclosed]
          rfl
        rw [Edit.gluesWords_of_marks between (by decide) (by decide)] at glues
        cases glues
      | some unary =>
        cases needed : needsParentheses expression unary with
        | true =>
          have between : (edit expression).code =
              '(' :: expression.node.negation expression.source ++ [')'] := by
            simp only [edit, enclosed, needed, if_true]
            rfl
          rw [Edit.gluesWords_of_marks between (by decide) (by decide)] at glues
          cases glues
        | false =>
          refine ⟨expression, unary, found, enclosed, needed, ?_⟩
          simp only [edit, enclosed, needed, Bool.false_eq_true, if_false]
    · rintro ⟨expression', unary, found', enclosed, bare, rfl⟩
      obtain rfl := Option.some.inj (found.symm.trans found')
      simp only [edit, enclosed, bare, Bool.false_eq_true, if_false]

end NegateExpression

namespace Concatenation

theorem isExact :
    Lending.IsExact ⟨convertConcatenation, .noConcatenation, plan?, fun _ _ _ => False⟩ := by
  refine .of_marks rfl fun tree selection plan planned read edit member => ?_
  obtain ⟨chain, -, rest⟩ := Option.bind_eq_some_iff.1 planned
  obtain rfl := Option.some.inj rest
  obtain rfl := List.mem_singleton.1 member
  exact ⟨_, _, _, rfl, by decide, by decide⟩

end Concatenation

/-! ## Executions -/

/-- The built-in refactorings with what they plan and lend. -/
def lendings : List Lending :=
  [⟨flipIfElse, .noIfElse, FlipIfElse.plan?, FlipIfElse.Lends⟩,
    ⟨addBraces, .noArrowFunction, AddBraces.plan?, fun _ _ _ => False⟩,
    ⟨removeBraces, .noRemovableBraces, RemoveBraces.plan?, RemoveBraces.Lends⟩,
    ⟨convertToTemplateLiteral, .noString, TemplateLiteral.plan?, fun _ _ _ => False⟩,
    ⟨negateExpression, .noNegatableExpression, NegateExpression.plan?, NegateExpression.Lends⟩,
    ⟨convertConcatenation, .noConcatenation, Concatenation.plan?, fun _ _ _ => False⟩]

theorem map_refactoring_lendings : lendings.map Lending.refactoring = builtIn := rfl

theorem isExact_of_mem_lendings {lending : Lending} (member : lending ∈ lendings) :
    lending.IsExact := by
  rcases member with _ | ⟨_, _ | ⟨_, _ | ⟨_, _ | ⟨_, _ | ⟨_, _ | ⟨_, none⟩⟩⟩⟩⟩⟩
  · exact FlipIfElse.isExact
  · exact AddBraces.isExact
  · exact RemoveBraces.isExact
  · exact TemplateLiteral.isExact
  · exact NegateExpression.isExact
  · exact Concatenation.isExact
  · cases none

namespace Service

variable {service : Service Unit} {editor after : Editor}

/-- An execution that succeeds is that of the refactoring. -/
theorem outcome_of_executed (registered : service.refactorings = builtIn)
    {refactoring : Refactoring Unit} (member : refactoring ∈ builtIn)
    (executed : (service.execute refactoring.id).outcome editor = (.ok (), after)) :
    (refactoring.execute service.parse).outcome editor = (.ok (), after) := by
  cases enabled : service.settings.isEnabled refactoring.id with
  | true =>
    rw [outcome_execute_builtIn registered member enabled] at executed
    generalize (refactoring.execute service.parse).outcome editor = outcome at executed ⊢
    obtain ⟨_ | _, final⟩ := outcome
    · cases executed
    · exact executed
  | false =>
    have unavailable : (service.find? refactoring.id).filter
        (fun _ => service.settings.isEnabled refactoring.id) = none := by
      rw [enabled, Option.filter_eq_none_iff]
      exact fun _ _ => Bool.false_ne_true
    rw [outcome_execute_of_unavailable unavailable] at executed
    cases executed

/-- **Of the edits that run words together an execution commits exactly the lent ones.**  When
a built-in refactoring succeeds, the code was parsed and there was a plan, whose edits were made
in the code.  Whatever edit would run words together there is among them if and only if it lends a
piece of code, as the refactoring does.  Adding braces, making template literals and converting
concatenations lend nothing; the others run words together exactly where one of their lent edits
does. -/
theorem commits_lent_edits (registered : service.refactorings = builtIn)
    (reachable : editor.grid.Reachable) {lending : Lending} (member : lending ∈ lendings)
    (executed : (service.execute lending.refactoring.id).outcome editor = (.ok (), after)) :
    ∃ tree plan, service.parse editor.code = .ok tree ∧
      lending.plan? tree editor.selection = some plan ∧
      after = { editor with grid := .ofText (plan.result editor.code) }.placeCursor none ∧
      ∀ edit : Edit, edit.gluesWords editor.code = true →
        (edit ∈ plan.committed editor.code ↔ lending.lends tree editor.selection edit) := by
  have exact := isExact_of_mem_lendings member
  have isBuiltIn : lending.refactoring ∈ builtIn := by
    rw [← map_refactoring_lendings]
    exact List.mem_map_of_mem member
  have done := outcome_of_executed registered isBuiltIn executed
  rw [exact.execute_eq] at done
  obtain ⟨tree, plan, parsed, planned, -, after_eq⟩ :=
    Plan.exists_of_outcome_execution reachable done
  exact ⟨tree, plan, parsed, planned, after_eq, fun edit glues =>
    exact.mem_iff tree editor.selection plan planned _ editor.code edit glues⟩

end Service

/-- The code `if (a) b; else{c}`, parsed. -/
def closeElse : Tree where
  source := "if (a) b; else\x7bc\x7d".toList
  root :=
    .named "program" 0 17 [] [.named "if_statement" 0 17 []
      [.mark "if" 0 2 [],
        .named "parenthesized_expression" 3 6 ["condition"]
          [.mark "(" 3 4 [], .named "identifier" 4 5 [] [], .mark ")" 5 6 []],
        .named "expression_statement" 7 9 ["consequence"]
          [.named "identifier" 7 8 [] [], .mark ";" 8 9 []],
        .named "else_clause" 10 17 ["alternative"]
          [.mark "else" 10 14 [],
            .named "statement_block" 14 17 []
              [.mark "\x7b" 14 15 [],
                .named "expression_statement" 15 16 [] [.named "identifier" 15 16 [] []],
                .mark "\x7d" 16 17 []]]]]

/-- The first branch runs into the `else`. -/
theorem Service.commits_lent_edits_closeElse :
    let service := Service.parsing closeElse
    let editor := Editor.ofCode closeElse.source default
    let branch : Edit := ⟨"b;".toList, .between ⟨0, 14⟩ ⟨0, 17⟩⟩
    service.refactorings = builtIn ∧ editor.grid.Reachable ∧
      branch.gluesWords editor.code = true ∧
      ∃ after, (service.execute flipIfElse.id).outcome editor = (.ok (), after) ∧
        ∃ plan, FlipIfElse.plan? closeElse editor.selection = some plan ∧
          branch ∈ plan.committed editor.code := by
  intro service editor branch
  have reachable : editor.grid.Reachable := .ofText _
  have regular : closeElse.IsRegular := Tree.isRegular_of_isPlain (by decide)
  have glues : branch.gluesWords editor.code = true :=
    Edit.gluesWords_of_start (by decide : _ = some 'e') (by decide : _ = some '\x7b')
      (by decide : _ = some 'b') (by rw [isWordCharacter_of_ascii] <;> decide)
      (by rw [isWordCharacter_of_ascii] <;> decide) (by rw [isWordCharacter_of_ascii] <;> decide)
  let statement := closeElse.rootSite.child closeElse.root.children[0]! 0
  let condition := statement.child statement.node.children[1]! 1
  let alternative := statement.child statement.node.children[3]! 3
  have found : closeElse.innermost? (FlipIfElse.accepts editor.selection) = some statement := rfl
  have parts : FlipIfElse.Parts statement (condition.child condition.node.children[1]! 1)
      (statement.child statement.node.children[2]! 2)
      (alternative.child alternative.node.children[1]! 1) :=
    ⟨⟨condition, rfl, rfl⟩, rfl, rfl⟩
  have lent : FlipIfElse.Lends closeElse editor.selection branch :=
    ⟨_, _, _, _, found, parts, .inr (.inr rfl)⟩
  obtain ⟨inTree, accepted⟩ := Tree.mem_of_innermost? found
  have parsed : service.parse editor.code = .ok closeElse := rfl
  obtain ⟨intended, -, carried⟩ :=
    FlipIfElse.aimsAt.outcome_of_accepted reachable parsed rfl regular inTree accepted
  have executed := @outcome_execute_builtIn service editor rfl flipIfElse (.head _) rfl
  rw [carried] at executed
  obtain ⟨tree, plan, parsed', planned, -, exact⟩ :=
    commits_lent_edits rfl reachable (.head _ : ⟨flipIfElse, _, _, _⟩ ∈ lendings) executed
  obtain rfl := Except.ok.inj (parsed.symm.trans parsed')
  exact ⟨rfl, reachable, glues, _, executed, plan, planned, (exact branch glues).2 lent⟩

namespace NegateExpression

/-- The code `function f() { return!(a > b); }`, parsed. -/
def returned : Tree where
  source := "function f() \x7b return!(a > b); \x7d".toList
  root :=
    .named "program" 0 32 [] [.named "function_declaration" 0 32 []
      [.mark "function" 0 8 [], .named "identifier" 9 10 ["name"] [],
        .named "formal_parameters" 10 12 ["parameters"] [.mark "(" 10 11 [], .mark ")" 11 12 []],
        .named "statement_block" 13 32 ["body"]
          [.mark "\x7b" 13 14 [],
            .named "return_statement" 15 30 []
              [.mark "return" 15 21 [],
                .named "unary_expression" 21 29 []
                  [.mark "!" 21 22 ["operator"],
                    .named "parenthesized_expression" 22 29 ["argument"]
                      [.mark "(" 22 23 [],
                        .named "binary_expression" 23 28 []
                          [.named "identifier" 23 24 ["left"] [], .mark ">" 25 26 ["operator"],
                            .named "identifier" 27 28 ["right"] []],
                        .mark ")" 28 29 []]],
                .mark ";" 29 30 []],
            .mark "\x7d" 31 32 []]]]

/-- The site of `!(a > b)`. -/
def returnedNot : Site :=
  let function := returned.rootSite.child returned.root.children[0]! 0
  let body := function.child function.node.children[3]! 3
  let statement := body.child body.node.children[1]! 1
  statement.child statement.node.children[1]! 1

/-- The site of `a > b`. -/
def returnedComparison : Site :=
  let parentheses := returnedNot.child returnedNot.node.children[1]! 1
  parentheses.child parentheses.node.children[1]! 1

/-- **The negation that takes the place of a `!` runs into the word before it.** -/
theorem negation_runs_into_return :
    let service := Service.parsing returned
    let editor := Editor.ofCode returned.source (.cursorAt ⟨0, 25⟩)
    let negation : Edit := ⟨"a <= b".toList, .between ⟨0, 21⟩ ⟨0, 29⟩⟩
    service.refactorings = builtIn ∧ returned.IsRegular ∧
      plan? returned editor.selection = some (.single negation) ∧
      negation.gluesWords editor.code = true ∧
      ∃ after, (service.execute negateExpression.id).outcome editor = (.ok (), after) ∧
        after.code = "function f() \x7b returna <= b; \x7d".toList := by
  intro service editor negation
  have regular : returned.IsRegular := Tree.isRegular_of_isPlain (by decide)
  have found : returned.innermost? (accepts editor.selection) = some returnedComparison := rfl
  have edit_eq : edit returnedComparison = negation := by
    have enclosed : enclosingNot? returnedComparison = some returnedNot := rfl
    have bare : needsParentheses returnedComparison returnedNot = false := rfl
    have text_eq : returnedComparison.node.negation returnedComparison.source =
        "a <= b".toList := by
      rw [Node.negation_eq]
      decide
    simp only [edit, enclosed, bare, Bool.false_eq_true, if_false, text_eq]
    rfl
  have planned : plan? returned editor.selection = some (.single negation) := by
    rw [plan?, found, ← edit_eq]
    rfl
  have glues : negation.gluesWords editor.code = true :=
    Edit.gluesWords_of_start (by decide : _ = some 'n') (by decide : _ = some '!')
      (by decide : _ = some 'a') (by rw [isWordCharacter_of_ascii] <;> decide)
      (by rw [isWordCharacter_of_ascii] <;> decide) (by rw [isWordCharacter_of_ascii] <;> decide)
  obtain ⟨inTree, accepted⟩ := Tree.mem_of_innermost? found
  obtain ⟨plan, planned', carried⟩ :=
    aimsAt.outcome_of_accepted (.ofText _ : editor.grid.Reachable)
      (rfl : service.parse editor.code = .ok returned) rfl regular inTree accepted
  obtain rfl := Option.some.inj (planned.symm.trans planned')
  have executed := @outcome_execute_builtIn service editor rfl negateExpression
    (by simp [builtIn]) rfl
  rw [carried] at executed
  refine ⟨rfl, regular, planned, glues, _, executed, ?_⟩
  show Grid.text (.ofText (Plan.result _ editor.code)) = _
  rw [Grid.text_ofText, Plan.result_single]
  decide

end NegateExpression
end Retouch
