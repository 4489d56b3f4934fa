import Retouch.Proofs.Catalog.Exchange
import Retouch.Proofs.Statement.Outline

/-!
# What a flip makes of a statement

A flip changes the text of an `if` with an `else` in three places: the test in its heading, and
its branches, which change places (`FlipIfElse.result_eq`).  Whether the words that come out are
still an `if` with this `else` depends on the branch that has come before the `else`.  **The
`else` belongs to the flipped `if` exactly if that branch does not end with an `if` that lacks an
`else`** (`FlipIfElse.flip_belongs_iff`); otherwise it goes to the last such `if`, and the flipped
one has none.  That branch is no `if` itself, but it may be a loop around one
(`FlipIfElse.flip_lends_else`).

This is about words.  Whether a branch has the spaces and the semicolon that it needs to be
words of its own in its new place is left aside.
-/

set_option autoImplicit false

namespace Retouch
namespace FlipIfElse

open Text

variable {source : Text} {statement test consequence branch : Site} {original : Statement}

theorem exists_clause (found : elseStatement? statement = some branch) :
    ∃ clause, statement.node.field? "alternative" = some clause ∧
      clause.namedChildren.find? (!·.is "comment") = some branch.node ∧
      branch.node.is "if_statement" = false := by
  obtain ⟨alternative, named, rest⟩ := Option.bind_eq_some_iff.1 found
  obtain ⟨first, among, chosen⟩ := Option.bind_eq_some_iff.1 rest
  split at chosen
  · cases chosen
  · rename_i noIf
    obtain rfl := Option.some.inj chosen
    refine ⟨alternative.node, Site.field?_node_of_eq_some named, ?_,
      Bool.eq_false_iff.2 noIf⟩
    rw [← Site.map_node_namedChildren, List.find?_map]
    exact congrArg (Option.map Site.node) among

/-- What the outline of a statement says of the parts that a flip edits. -/
structure Outlined (source : Text) (statement test consequence branch : Site)
    (heading joint : Text) (first last : Statement) : Prop where
  whole : source.slice? statement.node.label.start statement.node.label.stop =
    some (Statement.choice heading first joint last).text
  before : source.slice? statement.node.label.start consequence.node.label.start = some heading
  between : source.slice? consequence.node.label.stop branch.node.label.start = some joint
  ends : branch.node.label.stop = statement.node.label.stop
  first : Outlines source consequence.node first
  last : Outlines source branch.node last
  noIf : branch.node.is "if_statement" = false
  testBefore : test.node.label.stop ≤ consequence.node.label.start

theorem Parts.exists_outlined (parts : Parts statement test consequence branch)
    (regular : statement.IsRegular) (isIf : statement.is "if_statement" = true)
    (outlines : Outlines source statement.node original) :
    ∃ heading joint first last, original = .choice heading first joint last ∧
      Outlined source statement test consequence branch heading joint first last := by
  obtain ⟨⟨condition, inCondition, isTest⟩, inConsequence, found⟩ := parts
  obtain ⟨clause, inAlternative, chosen, noIf⟩ := exists_clause found
  have inConsequence := Site.field?_node_of_eq_some inConsequence
  have conditionLies := regular.liesIn_of_field? inCondition
  have inCondition := Site.field?_node_of_eq_some inCondition
  have testLies := conditionLies.regular.liesIn_of_mem_children
    (Site.mem_children_of_mem_namedChildren (List.mem_of_head? isTest))
  have whole := outlines.slice?_eq
  cases outlines with
  | simple noIf' => rw [Site.is, noIf'] at isIf; cases isIf
  | nested nests => rw [Outlines.not_nesting isIf] at nests; cases nests
  | lone _ _ alone => rw [alone] at inAlternative; cases inAlternative
  | choice _ inCondition' inConsequence' inAlternative' chosen' order before between ends first
      last =>
    obtain rfl := Option.some.inj (inCondition.symm.trans inCondition')
    obtain rfl := Option.some.inj (inConsequence.symm.trans inConsequence')
    obtain rfl := Option.some.inj (inAlternative.symm.trans inAlternative')
    obtain rfl := Option.some.inj (chosen.symm.trans chosen')
    exact ⟨_, _, _, _, rfl,
      { whole, before, between, ends, first, last, noIf
        testBefore := Nat.le_trans testLies.within.stop order }⟩

/-- **A flip changes the heading and lets the branches change places**; all else is kept. -/
theorem result_eq (parts : Parts statement test consequence branch) (regular : statement.IsRegular)
    (same : statement.source = source) {heading joint : Text} {first last : Statement}
    (outlined : Outlined source statement test consequence branch heading joint first last) :
    ∃ before after opening closing, heading = opening ++ test.text ++ closing ∧
      source = before ++ (Statement.choice heading first joint last).text ++ after ∧
      ∀ code, source.spliced ([⟨code, test.range⟩, ⟨branch.text, consequence.range⟩,
          ⟨consequence.text, branch.range⟩].mergeSort Edit.comesBefore) =
        before ++ (Statement.choice (opening ++ code ++ closing) last joint first).text ++
          after := by
  subst same
  obtain ⟨⟨regularTest, testSource⟩, ⟨-, consequenceSource⟩, -, branchSource⟩ :=
    parts.isRegular regular
  obtain ⟨condition, alternative, fields⟩ := parts.inFields regular
  have starts : statement.node.label.start ≤ test.node.label.start :=
    Nat.le_trans fields.conditionLies.within.start fields.testLies.within.start
  have spansTest := testSource ▸ regularTest.node.spans
  have sliceTest : statement.source.slice? test.node.label.start test.node.label.stop =
      some test.text := testSource ▸ regularTest.node.slice?_eq
  obtain ⟨front, closing, joint', after, gaps, whole, edited⟩ :=
    parts.exists_gaps regular rfl outlined.testBefore (le_of_slice? outlined.between)
  obtain ⟨_, _, inFront, onward, same⟩ := gaps?_cons_eq_some_iff.1 gaps
  obtain ⟨rfl, rfl⟩ := List.cons.inj same
  obtain ⟨_, _, closes, onward', same⟩ := gaps?_cons_eq_some_iff.1 onward
  obtain ⟨rfl, rfl⟩ := List.cons.inj same
  obtain ⟨_, _, joins, -, same⟩ := gaps?_cons_eq_some_iff.1 onward'
  obtain ⟨rfl, -⟩ := List.cons.inj same
  obtain rfl := Option.some.inj (joins.symm.trans outlined.between)
  -- The gap in front of the test ends with what opens the statement.
  obtain ⟨before, precedes⟩ :=
    (isBoundary_zero statement.source).exists_slice? regular.node.spans.start (Nat.zero_le _)
  obtain ⟨opening, opens⟩ := regular.node.spans.start.exists_slice? spansTest.start starts
  have front_eq := Option.some.inj (inFront.symm.trans (slice?_append_slice? precedes opens))
  have headed := slice?_append_slice? (slice?_append_slice? opens sliceTest) closes
  have heading_eq := Option.some.inj (outlined.before.symm.trans headed)
  have consequence_eq : consequence.text = first.text := by
    rw [Site.text, consequenceSource, outlined.first.textIn_eq]
  have branch_eq : branch.text = last.text := by
    rw [Site.text, branchSource, outlined.last.textIn_eq]
  refine ⟨before, after, opening, closing, heading_eq, whole.trans ?_, fun code => ?_⟩
  · simp [Statement.text, front_eq, heading_eq, consequence_eq, branch_eq]
  · rw [edited, front_eq, consequence_eq, branch_eq]
    simp [Statement.text]

/-- **The `else` belongs to the flipped `if` exactly if the branch that is moved in front of it is
not left open.**  The statement that is flipped has an outline, an `if` with two branches.  Its
text is replaced by the text of the `if` with the negated test, the second branch and then the
first.  Where the words of the statement are read as its outline, the new words are read as the new
one exactly if the second branch does not end with an `if` that lacks an `else`.  If it does, it
ends with its body, and the `else` with the first branch goes to the last such `if`. -/
theorem flip_belongs_iff {service : Service Unit} {editor : Editor} {tree : Tree}
    (registered : service.refactorings = builtIn)
    (enabled : service.settings.isEnabled flipIfElse.id = true)
    (reachable : editor.grid.Reachable) (parsed : service.parse editor.code = .ok tree)
    (source : tree.source = editor.code) (regular : tree.IsRegular)
    (parted : tree.root.Everywhere fun node => node.hasParts = true)
    (found : tree.innermost? (accepts editor.selection) = some statement) :
    ∃ test consequence branch, Parts statement test consequence branch ∧
    ∃ before after opening closing joint first last,
      let original := Statement.choice (opening ++ test.text ++ closing) first joint last
      let heading := opening ++ test.node.negation tree.source ++ closing
      let flipped := Statement.choice heading last joint first
      Outlines tree.source statement.node original ∧
      editor.code = before ++ original.text ++ after ∧
      (service.execute flipIfElse.id).outcome editor = (.ok (), { editor with
        grid := .ofText (before ++ flipped.text ++ after) }.placeCursor none) ∧
      ∀ following, Statement.Reads (original.words ++ following) original following →
        (Statement.Reads (flipped.words ++ following) flipped following ↔ last.endsOpen = false) ∧
        (last.endsOpen = true → (∃ heading body, last = .nested heading body) ∧
          Statement.Reads (flipped.words ++ following)
            (.lone heading (last.takeElse joint first)) following) := by
  obtain ⟨inTree, accepted⟩ := Tree.mem_of_innermost? found
  obtain ⟨regularSite, same⟩ := regular.site statement inTree
  obtain ⟨test, consequence, branch, parts⟩ := exists_parts regularSite accepted
  have isIf : statement.is "if_statement" = true := by
    simp only [accepts, Bool.and_eq_true] at accepted
    exact accepted.1.1
  obtain ⟨original, outlines⟩ := exists_outlines statement.node regularSite.below
    (Tree.everywhere_of_mem_sites parted statement inTree)
  rw [same] at outlines
  obtain ⟨heading, joint, first, last, rfl, outlined⟩ :=
    parts.exists_outlined regularSite isIf outlines
  obtain ⟨before, after, opening, closing, rfl, source_eq, result⟩ :=
    result_eq parts regularSite same outlined
  refine ⟨test, consequence, branch, parts, before, after, opening, closing, joint, first, last,
    outlines, source.symm.trans source_eq, ?_, ?_⟩
  · obtain ⟨plan, planned, carried⟩ :=
      aimsAt.outcome_of_accepted reachable parsed source regular inTree accepted
    have executed := @outcome_execute_builtIn service editor registered flipIfElse
      (by simp [builtIn]) enabled
    obtain ⟨statement', test', consequence', branch', found', parts', edits⟩ :=
      exists_of_plan? planned
    obtain rfl := Option.some.inj (found.symm.trans found')
    obtain ⟨rfl, rfl, rfl⟩ := parts.unique parts'
    rw [executed, carried, Plan.result, edits, ← source, result]
  · intro following reads
    obtain ⟨belongs, moves⟩ := Statement.reads_flipped reads
    exact ⟨belongs, fun open_ => ⟨outlined.last.exists_nested outlined.noIf open_, moves open_⟩⟩

/-- The code `if (a) x(); else while (b) if (c) y();`, parsed. -/
def loopChoice : Tree where
  source := "if (a) x(); else while (b) if (c) y();".toList
  root :=
    .named "program" 0 38 [] [.named "if_statement" 0 38 []
      [.mark "if" 0 2 [],
        .named "parenthesized_expression" 3 6 ["condition"]
          [.mark "(" 3 4 [], .named "identifier" 4 5 [] [], .mark ")" 5 6 []],
        .named "expression_statement" 7 11 ["consequence"]
          [.named "call_expression" 7 10 []
            [.named "identifier" 7 8 ["function"] [],
              .named "arguments" 8 10 ["arguments"] [.mark "(" 8 9 [], .mark ")" 9 10 []]],
            .mark ";" 10 11 []],
        .named "else_clause" 12 38 ["alternative"]
          [.mark "else" 12 16 [],
            .named "while_statement" 17 38 []
              [.mark "while" 17 22 [],
                .named "parenthesized_expression" 23 26 ["condition"]
                  [.mark "(" 23 24 [], .named "identifier" 24 25 [] [], .mark ")" 25 26 []],
                .named "if_statement" 27 38 ["body"]
                  [.mark "if" 27 29 [],
                    .named "parenthesized_expression" 30 33 ["condition"]
                      [.mark "(" 30 31 [], .named "identifier" 31 32 [] [], .mark ")" 32 33 []],
                    .named "expression_statement" 34 38 ["consequence"]
                      [.named "call_expression" 34 37 []
                        [.named "identifier" 34 35 ["function"] [],
                          .named "arguments" 35 37 ["arguments"]
                            [.mark "(" 35 36 [], .mark ")" 36 37 []]],
                        .mark ";" 37 38 []]]]]]]

theorem isRegular_loopChoice : loopChoice.IsRegular := Tree.isRegular_of_isPlain (by decide)

theorem everywhere_hasParts_loopChoice :
    loopChoice.root.Everywhere fun node => node.hasParts = true := by decide

def loopChoiceSite : Site := loopChoice.rootSite.child loopChoice.root.children[0]! 0

/-- The branches of the statement: a call, and a loop around an `if`. -/
def callBranch : Statement := .simple "x();".toList

def loopBranch : Statement :=
  .nested "while (b) ".toList (.lone "if (c) ".toList (.simple "y();".toList))

/-- The loop with the call as the other branch of its `if`. -/
def filledLoop : Statement :=
  .nested "while (b) ".toList
    (.choice "if (c) ".toList (.simple "y();".toList) " else ".toList callBranch)

theorem outlines_loopChoice : Outlines loopChoice.source loopChoiceSite.node
    (.choice "if (a) ".toList callBranch " else ".toList loopBranch) :=
  .choice rfl rfl rfl rfl rfl (by decide) (by decide +kernel) (by decide +kernel) rfl
    (.simple rfl rfl (by decide +kernel))
    (.nested rfl rfl (by decide +kernel) rfl
      (.lone rfl rfl rfl (by decide +kernel) rfl (.simple rfl rfl (by decide +kernel))))

theorem reads_loopChoice :
    Statement.Reads (Statement.choice "if (a) ".toList callBranch " else ".toList loopBranch).words
      (.choice "if (a) ".toList callBranch " else ".toList loopBranch) [] :=
  .choice _ _ (.simple _ _) (.nested _ (.lone _ (.simple _ _) rfl))

theorem innermost?_loopChoice :
    loopChoice.innermost? (accepts default) = some loopChoiceSite := rfl

theorem flip_belongs_iff_loopChoice :
    let editor := Editor.ofCode loopChoice.source default
    let service := Service.parsing loopChoice
    service.refactorings = builtIn ∧ service.settings.isEnabled flipIfElse.id = true ∧
      editor.grid.Reachable ∧ service.parse editor.code = .ok loopChoice ∧
      loopChoice.source = editor.code ∧ loopChoice.IsRegular ∧
      (loopChoice.root.Everywhere fun node => node.hasParts = true) ∧
      loopChoice.innermost? (accepts editor.selection) = some loopChoiceSite ∧
      ∃ before after heading,
        let flipped := Statement.choice heading loopBranch " else ".toList callBranch
        (service.execute flipIfElse.id).outcome editor = (.ok (), { editor with
          grid := .ofText (before ++ flipped.text ++ after) }.placeCursor none) ∧
        ¬ Statement.Reads flipped.words flipped [] ∧
        Statement.Reads flipped.words (.lone heading filledLoop) [] := by
  intro editor service
  have reachable : editor.grid.Reachable := .ofText _
  obtain ⟨test, consequence, branch, parts, before, after, opening, closing, joint, first, last,
    outlines, -, executed, reading⟩ :=
      @flip_belongs_iff loopChoiceSite service editor loopChoice rfl rfl reachable rfl rfl
        isRegular_loopChoice everywhere_hasParts_loopChoice innermost?_loopChoice
  have same := outlines.unique outlines_loopChoice
  injection same with heading_eq first_eq joint_eq last_eq
  subst first_eq joint_eq last_eq
  have reads := reads_loopChoice
  rw [← heading_eq, ← List.append_nil (Statement.words _)] at reads
  obtain ⟨belongs, moves⟩ := reading [] reads
  rw [List.append_nil] at belongs moves
  exact ⟨rfl, rfl, reachable, rfl, rfl, isRegular_loopChoice, everywhere_hasParts_loopChoice,
    innermost?_loopChoice, before, after, _, executed,
    fun stays => Bool.noConfusion (belongs.1 stays), (moves rfl).2⟩

/-- **The `else` of a flipped `if` goes to an `if` at the end of a loop.**  There is no other way to
read the words of the statement that the refactoring writes. -/
theorem flip_lends_else :
    let editor := Editor.ofCode loopChoice.source default
    let service := Service.parsing loopChoice
    let flipped := Statement.choice "if (!a) ".toList loopBranch " else ".toList callBranch
    (∃ after, (service.execute flipIfElse.id).outcome editor = (.ok (), after) ∧
      after.code = flipped.text) ∧
    flipped.text = "if (!a) while (b) if (c) y(); else x();".toList ∧
    ∀ statement rest, Statement.Reads flipped.words statement rest →
      statement = .lone "if (!a) ".toList filledLoop := by
  intro editor service flipped
  let clause := loopChoiceSite.child loopChoiceSite.node.children[3]! 3
  let condition := loopChoiceSite.child loopChoiceSite.node.children[1]! 1
  let test := condition.child condition.node.children[1]! 1
  have parts : Parts loopChoiceSite test (loopChoiceSite.child loopChoiceSite.node.children[2]! 2)
      (clause.child clause.node.children[1]! 1) := ⟨⟨condition, rfl, rfl⟩, rfl, rfl⟩
  refine ⟨?_, by decide +kernel, ?_⟩
  · obtain ⟨inTree, accepted⟩ := Tree.mem_of_innermost? innermost?_loopChoice
    have reachable : editor.grid.Reachable := .ofText _
    obtain ⟨plan, planned, carried⟩ := aimsAt.outcome_of_accepted reachable
      (rfl : service.parse editor.code = .ok loopChoice) rfl isRegular_loopChoice inTree accepted
    have executed := @outcome_execute_builtIn service editor rfl flipIfElse (by simp [builtIn]) rfl
    rw [carried] at executed
    refine ⟨_, executed, ?_⟩
    obtain ⟨statement', test', consequence', branch', found', parts', edits⟩ :=
      exists_of_plan? planned
    obtain rfl := Option.some.inj (innermost?_loopChoice.symm.trans found')
    obtain ⟨rfl, rfl, rfl⟩ := parts.unique parts'
    have negation : test.node.negation loopChoice.source = "!a".toList := by
      rw [Node.negation_eq]
      decide
    show Grid.text (.ofText (Plan.result _ editor.code)) = _
    rw [Grid.text_ofText, Plan.result, edits, negation]
    beta_reduce
    rw [List.mergeSort_of_pairwise (by decide +kernel)]
    decide +kernel
  · intro statement rest reads
    exact (reads.unique (.lone _ (.nested _ (.choice _ _ (.simple _ _) (.simple _ _))) rfl)).1

end FlipIfElse
end Retouch
