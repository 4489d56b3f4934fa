import Retouch.Proofs.Catalog.Words
import Retouch.Proofs.Tree.Gaps

/-!
# The text of a flipped if/else

A flip makes three edits at once: one in the condition, and one in each branch with the text of the
other.  They are planned in lines and characters and committed together.  **The code that comes out
is the code with the negation in the place of the test and with the branches exchanged, and every
other character stays** (`FlipIfElse.execute_exchanges_branches`): the parentheses, the `else`,
comments and blanks between the parts, and what is around the statement.
-/

set_option autoImplicit false

namespace Retouch

open Text

/-- Whether condition, consequence and alternative of a node stand in this order. -/
def Node.HasOrderedParts (node : Node) : Prop :=
  ∀ condition consequence alternative, node.field? "condition" = some condition →
    node.field? "consequence" = some consequence → node.field? "alternative" = some alternative →
      condition.label.stop ≤ consequence.label.start ∧
        consequence.label.stop ≤ alternative.label.start

namespace FlipIfElse

variable {statement test consequence branch : Site}

/-- The parts of a flip stand in the order of the fields that they are in. -/
theorem Parts.inOrder (parts : Parts statement test consequence branch)
    (regular : statement.IsRegular) (ordered : statement.node.HasOrderedParts) :
    test.node.label.stop ≤ consequence.node.label.start ∧
      consequence.node.label.stop ≤ branch.node.label.start := by
  obtain ⟨⟨condition, inCondition, isTest⟩, inConsequence, found⟩ := parts
  obtain ⟨alternative, inAlternative, below⟩ := exists_of_elseStatement? found
  obtain ⟨first, second⟩ := ordered _ _ _ (Site.field?_node_of_eq_some inCondition)
    (Site.field?_node_of_eq_some inConsequence) (Site.field?_node_of_eq_some inAlternative)
  have testLies := (regular.liesIn_of_field? inCondition).regular.liesIn_of_mem_children
    (Site.mem_children_of_mem_namedChildren (List.mem_of_head? isTest))
  have branchLies := (regular.liesIn_of_field? inAlternative).regular.liesIn_of_mem_children below
  exact ⟨Nat.le_trans testLies.within.stop first, Nat.le_trans second branchLies.within.start⟩

/-- The parts of a flip are regular nodes of the text of the statement. -/
theorem Parts.isRegular (parts : Parts statement test consequence branch)
    (regular : statement.IsRegular) :
    (test.IsRegular ∧ test.source = statement.source) ∧
      (consequence.IsRegular ∧ consequence.source = statement.source) ∧
      branch.IsRegular ∧ branch.source = statement.source := by
  obtain ⟨condition, alternative, fields⟩ := parts.inFields regular
  refine ⟨⟨fields.testLies.regular, ?_⟩,
    ⟨fields.consequenceLies.regular, fields.consequenceLies.source_eq⟩,
    fields.branchLies.regular, ?_⟩
  · exact fields.testLies.source_eq.trans fields.conditionLies.source_eq
  · exact fields.branchLies.source_eq.trans fields.alternativeLies.source_eq

/-- **The edits of a flip exchange the branches and negate the test**, and keep what is between. -/
theorem Parts.exists_gaps {source : Text} (parts : Parts statement test consequence branch)
    (regular : statement.IsRegular) (same : statement.source = source)
    (testFirst : test.node.label.stop ≤ consequence.node.label.start)
    (branchLast : consequence.node.label.stop ≤ branch.node.label.start) :
    ∃ front gap gap' back,
      source.gaps? 0 [test.node, consequence.node, branch.node] = some [front, gap, gap', back] ∧
      source = front ++ test.text ++ gap ++ consequence.text ++ gap' ++ branch.text ++ back ∧
      ∀ code, source.spliced ([⟨code, test.range⟩, ⟨branch.text, consequence.range⟩,
          ⟨consequence.text, branch.range⟩].mergeSort Edit.comesBefore) =
        front ++ code ++ gap ++ branch.text ++ gap' ++ consequence.text ++ back := by
  subst same
  obtain ⟨⟨regularTest, testSource⟩, ⟨regularConsequence, consequenceSource⟩, regularBranch,
    branchSource⟩ := parts.isRegular regular
  have all : ∀ node ∈ [test.node, consequence.node, branch.node],
      node.IsRegular statement.source := by
    simp only [List.forall_mem_cons]
    exact ⟨testSource ▸ regularTest.node, consequenceSource ▸ regularConsequence.node,
      branchSource ▸ regularBranch.node, List.forall_mem_nil _⟩
  have inOrder : [test.node, consequence.node, branch.node].Pairwise fun first second =>
      first.label.stop ≤ second.label.start := by
    have spans := regularConsequence.node.spans.ordered
    simp only [List.pairwise_cons, List.mem_cons, List.not_mem_nil, or_false, forall_eq_or_imp,
      forall_eq, false_implies, implies_true, List.Pairwise.nil, and_true]
    omega
  obtain ⟨gaps, found⟩ := Text.exists_gaps all inOrder (isBoundary_zero _) fun _ _ => Nat.zero_le _
  have whole := eq_filled all found
  have edited (code : Text) := @spliced_eq_filled statement.source gaps
    [(test.node, code), (consequence.node, branch.text), (branch.node, consequence.text)]
    (by simpa using all) (by simpa using inOrder) found
  obtain ⟨front, gaps, -, onward, rfl⟩ := gaps?_cons_eq_some_iff.1 found
  obtain ⟨gap, gaps, -, onward', rfl⟩ := gaps?_cons_eq_some_iff.1 onward
  obtain ⟨gap', gaps, -, last, rfl⟩ := gaps?_cons_eq_some_iff.1 onward'
  obtain ⟨back, -, rfl⟩ := gaps?_nil_eq_some_iff.1 last
  refine ⟨front, gap, gap', back, found, ?_, fun code => ?_⟩
  · rw [Site.text, Site.text, Site.text, testSource, consequenceSource, branchSource]
    simpa [filled] using whole
  · rw [Site.range, Site.range, Site.range, testSource, consequenceSource, branchSource]
    simpa [filled, editsOf] using edited code

/-- **A flip negates the test and exchanges the branches, and keeps every other character.**  The
selection of the editor is arbitrary, and the statement is the one that is flipped there; its
condition, consequence and alternative stand in this order.  The flip succeeds.  The code was the
texts of the test and of the two branches with gaps around them, which are the slices between
their byte offsets; it becomes the negation of the test, the second branch and then the first, each
of them as it was, in the same gaps. -/
theorem execute_exchanges_branches {parse : Parse} {editor : Editor} {tree : Tree}
    (reachable : editor.grid.Reachable) (parsed : parse editor.code = .ok tree)
    (source : tree.source = editor.code) (regular : tree.IsRegular)
    (found : tree.innermost? (accepts editor.selection) = some statement)
    (ordered : statement.node.HasOrderedParts) :
    ∃ test consequence branch, Parts statement test consequence branch ∧
    ∃ front gap gap' back,
      tree.source.gaps? 0 [test.node, consequence.node, branch.node] =
        some [front, gap, gap', back] ∧
      editor.code = front ++ test.text ++ gap ++ consequence.text ++ gap' ++ branch.text ++ back ∧
      (flipIfElse.execute parse).outcome editor = (.ok (), { editor with
        grid := .ofText (front ++ test.node.negation tree.source ++ gap ++ branch.text ++ gap' ++
          consequence.text ++ back) }.placeCursor none) := by
  obtain ⟨inTree, accepted⟩ := Tree.mem_of_innermost? found
  obtain ⟨plan, planned, carried⟩ :=
    aimsAt.outcome_of_accepted reachable parsed source regular inTree accepted
  obtain ⟨statement', test, consequence, branch, found', parts, edits⟩ := exists_of_plan? planned
  obtain rfl := Option.some.inj (found.symm.trans found')
  obtain ⟨regularSite, same⟩ := regular.site statement inTree
  obtain ⟨testFirst, branchLast⟩ := parts.inOrder regularSite ordered
  obtain ⟨front, gap, gap', back, gaps, whole, edited⟩ :=
    parts.exists_gaps regularSite same testFirst branchLast
  refine ⟨test, consequence, branch, parts, front, gap, gap', back, gaps, source ▸ whole, ?_⟩
  rw [carried, Plan.result, edits, ← source, edited]

/-- The code `if (a) { x }` with its `else`, a block of three lines, and `z;`, parsed. -/
def blockChoice : Tree where
  source := "if (a) \x7b x \x7d\nelse\n\x7b\n  y\n\x7d\nz;".toList
  root :=
    .named "program" 0 28 []
      [.named "if_statement" 0 25 []
        [.mark "if" 0 2 [],
          .named "parenthesized_expression" 3 6 ["condition"]
            [.mark "(" 3 4 [], .named "identifier" 4 5 [] [], .mark ")" 5 6 []],
          .named "statement_block" 7 12 ["consequence"]
            [.mark "\x7b" 7 8 [],
              .named "expression_statement" 9 10 [] [.named "identifier" 9 10 [] []],
              .mark "\x7d" 11 12 []],
          .named "else_clause" 13 25 ["alternative"]
            [.mark "else" 13 17 [],
              .named "statement_block" 18 25 []
                [.mark "\x7b" 18 19 [],
                  .named "expression_statement" 22 23 [] [.named "identifier" 22 23 [] []],
                  .mark "\x7d" 24 25 []]]],
        .named "expression_statement" 26 28 []
          [.named "identifier" 26 27 [] [], .mark ";" 27 28 []]]

def blockChoiceSite : Site := blockChoice.rootSite.child blockChoice.root.children[0]! 0

theorem execute_exchanges_branches_blockChoice :
    let editor := Editor.ofCode blockChoice.source (.cursorAt ⟨0, 2⟩)
    let parse := (Service.parsing blockChoice).parse
    editor.grid.Reachable ∧ parse editor.code = .ok blockChoice ∧
      blockChoice.source = editor.code ∧ blockChoice.IsRegular ∧
      blockChoice.innermost? (accepts editor.selection) = some blockChoiceSite ∧
      blockChoiceSite.node.HasOrderedParts ∧
      (flipIfElse.execute parse).outcome editor = (.ok (), { editor with
        grid := .ofText "if (!a) \x7b\n  y\n\x7d\nelse\n\x7b x \x7d\nz;".toList }.placeCursor
          none) := by
  intro editor parse
  have reachable : editor.grid.Reachable := .ofText _
  have parsed : parse editor.code = .ok blockChoice := rfl
  have regular : blockChoice.IsRegular := Tree.isRegular_of_isPlain (by decide)
  have found : blockChoice.innermost? (accepts editor.selection) = some blockChoiceSite := rfl
  have ordered : blockChoiceSite.node.HasOrderedParts := by
    intro condition consequence alternative inCondition inConsequence inAlternative
    obtain rfl := Option.some.inj inCondition
    obtain rfl := Option.some.inj inConsequence
    obtain rfl := Option.some.inj inAlternative
    decide
  let condition := blockChoiceSite.child blockChoiceSite.node.children[1]! 1
  let clause := blockChoiceSite.child blockChoiceSite.node.children[3]! 3
  let test := condition.child condition.node.children[1]! 1
  let consequence := blockChoiceSite.child blockChoiceSite.node.children[2]! 2
  let branch := clause.child clause.node.children[1]! 1
  have parts : Parts blockChoiceSite test consequence branch := ⟨⟨condition, rfl, rfl⟩, rfl, rfl⟩
  obtain ⟨_, _, _, parts', front, gap, gap', back, gaps, -, carried⟩ :=
    execute_exchanges_branches reachable parsed rfl regular found ordered
  obtain ⟨rfl, rfl, rfl⟩ := parts.unique parts'
  have negation : test.node.negation blockChoice.source = "!a".toList := by
    rw [Node.negation_eq]
    decide
  have slices : blockChoice.source.gaps? 0 [test.node, consequence.node, branch.node] =
      some ["if (".toList, ") ".toList, "\nelse\n".toList, "\nz;".toList] := by decide +kernel
  rw [slices] at gaps
  injection gaps with gaps
  injection gaps with front_eq gaps
  injection gaps with gap_eq gaps
  injection gaps with gap'_eq gaps
  injection gaps with back_eq
  subst front_eq gap_eq gap'_eq back_eq
  rw [negation] at carried
  exact ⟨reachable, parsed, rfl, regular, found, ordered, carried⟩

end FlipIfElse
end Retouch
