import Retouch.Proofs.Catalog.Agreement
import Retouch.Proofs.Tree.Gaps

/-!
# Values as the bodies of arrow functions

When the braces of an arrow function are removed, the value that it returns takes their place, in
parentheses if it is an object or a sequence.  A body that begins with a brace is read as a block
again, and there are other values that begin with one: members of an object, calls, operations,
casts and assignments with an object on their left.

How the text of an expression begins is decided at the end of a way down, from first child to first
child (`Node.head?_textIn_eq_brace_iff`).  **The new body begins with a brace exactly if an object
stands on this way below a value that is neither an object nor a sequence itself**
(`RemoveBraces.begins_block_iff`), as in the member of an object
(`RemoveBraces.bares_object_of_member`).
-/

set_option autoImplicit false

namespace Retouch

open Text

namespace Node

/-! ## How the text of a node begins -/

mutual

/-- A node, its first child, the first child of that, and so on down to a token. -/
def beginnings : Node → List Node
  | mk label children => mk label children :: beginningsOfFirst children

def beginningsOfFirst : List Node → List Node
  | [] => []
  | first :: _ => beginnings first

end

variable {source : Text} {node child : Node}

theorem beginnings_of_leaf (leaf : node.children = []) : node.beginnings = [node] := by
  obtain ⟨label, children⟩ := node
  obtain rfl : children = [] := leaf
  rw [beginnings, beginningsOfFirst]

theorem beginnings_of_first (first : node.children.head? = some child) :
    node.beginnings = node :: child.beginnings := by
  obtain ⟨label, children⟩ := node
  obtain ⟨rest, rfl⟩ : ∃ rest, children = child :: rest := List.head?_eq_some_iff.1 first
  rw [beginnings, beginningsOfFirst]

/-- Whether a node is the token of an opening brace. -/
def isBrace (node : Node) : Bool := !node.isNamed && node.is "\x7b" && node.children.isEmpty

/-- The kinds of an expression that has a brace at its beginning. -/
def bracedKinds : List String := ["object", "object_pattern"]

/-- **What a parser guarantees of the beginning of an expression**: a node begins with its first
child, which is not empty; a token begins with a brace if it is one; and the nodes that have a
brace as their first child are the objects and the patterns of objects. -/
structure BeginsRegularly (source : Text) (node : Node) : Prop where
  first : ∀ child ∈ node.children.head?,
    child.label.start = node.label.start ∧ child.label.start < child.label.stop
  token : node.children = [] → ((node.textIn source).head? = some '\x7b' ↔ node.isBrace = true)
  braced : bracedKinds.contains node.kind = node.children.head?.any isBrace

instance (source : Text) : DecidablePred (BeginsRegularly source) := fun node =>
  decidable_of_iff
    ((∀ child ∈ node.children.head?,
        child.label.start = node.label.start ∧ child.label.start < child.label.stop) ∧
      (node.children = [] → ((node.textIn source).head? = some '\x7b' ↔ node.isBrace = true)) ∧
      bracedKinds.contains node.kind = node.children.head?.any isBrace)
    ⟨fun all => ⟨all.1, all.2.1, all.2.2⟩, fun begins => ⟨begins.first, begins.token, begins.braced⟩⟩

/-- The text of a node begins as that of its first child. -/
theorem BeginsRegularly.head?_textIn (begins : node.BeginsRegularly source)
    (regular : node.IsRegular source) (regular' : child.IsRegular source)
    (first : node.children.head? = some child) :
    (node.textIn source).head? = (child.textIn source).head? := by
  obtain ⟨starts, nonempty⟩ := begins.first child first
  have inside := regular.nested child (List.mem_of_head? first)
  obtain ⟨rest, sliced⟩ := regular'.spans.stop.exists_slice? regular.spans.stop inside.stop
  have joined := slice?_append_slice? regular'.slice?_eq sliced
  rw [starts, regular.slice?_eq] at joined
  have written : child.textIn source ≠ [] := by
    intro empty
    obtain ⟨before, after, -, start, stop⟩ := slice?_eq_some_iff.1 regular'.slice?_eq
    rw [empty, List.append_nil, start] at stop
    exact Nat.ne_of_lt nonempty stop
  rw [Option.some.inj joined, List.head?_append_of_ne_nil _ written]

/-- **An expression begins with a brace exactly if an object is the first thing in it**, at any
depth.  The induction goes down from first child to first child. -/
theorem head?_textIn_eq_brace_iff (node : Node) (regular : node.Everywhere (IsRegular source))
    (begins : ∀ inner ∈ node.beginnings, inner.BeginsRegularly source) :
    (node.textIn source).head? = some '\x7b' ↔
      node.isBrace = true ∨ ∃ inner ∈ node.beginnings, bracedKinds.contains inner.kind = true := by
  cases first : node.children.head? with
  | none =>
    have leaf := List.head?_eq_none_iff.1 first
    rw [beginnings_of_leaf leaf] at begins ⊢
    have here := begins node List.mem_cons_self
    have plain : bracedKinds.contains node.kind = false := by rw [here.braced, first]; rfl
    simp only [here.token leaf, List.mem_singleton, exists_eq_left, plain, Bool.false_eq_true,
      or_false]
  | some child =>
    have member := List.mem_of_head? first
    have smaller := size_lt_of_mem member
    rw [beginnings_of_first first] at begins ⊢
    have here := begins node List.mem_cons_self
    have below := head?_textIn_eq_brace_iff child (regular.child member)
      fun inner among => begins inner (List.mem_cons_of_mem _ among)
    have noToken : node.isBrace = false := by
      rw [isBrace, List.isEmpty_eq_false_iff.2 (List.ne_nil_of_mem member), Bool.and_false]
    have braced : bracedKinds.contains node.kind = child.isBrace := by
      rw [here.braced, first, Option.any_some]
    rw [here.head?_textIn regular.self (regular.child member).self first, below]
    simp only [noToken, Bool.false_eq_true, false_or, List.mem_cons, exists_eq_or_imp, braced]
termination_by node.size

end Node

/-! ## Removing braces -/

namespace RemoveBraces

variable {tree : Tree} {function body value : Site}

theorem exists_of_plan? {selection : Selection} {plan : Plan}
    (planned : plan? tree selection = some plan) :
    ∃ function body value, tree.innermost? (accepts selection) = some function ∧
      function.field? "body" = some body ∧ returnedValue? function = some value ∧
      plan = .single ⟨bodyOf value, body.range⟩ := by
  obtain ⟨function, found, rest⟩ := Option.bind_eq_some_iff.1 planned
  obtain ⟨body, inBody, rest⟩ := Option.bind_eq_some_iff.1 rest
  obtain ⟨value, returned, rest⟩ := Option.bind_eq_some_iff.1 rest
  exact ⟨function, body, value, found, inBody, returned, (Option.some.inj rest).symm⟩

/-- The braces of a function are removed by one edit. -/
theorem outcome_of_innermost {parse : Parse} {editor : Editor} (reachable : editor.grid.Reachable)
    (parsed : parse editor.code = .ok tree) (source : tree.source = editor.code)
    (regular : tree.IsRegular) (found : tree.innermost? (accepts editor.selection) = some function)
    (inBody : function.field? "body" = some body)
    (returned : returnedValue? function = some value) :
    (removeBraces.execute parse).outcome editor = (.ok (), { editor with
      grid := .ofText (editor.code.spliced [⟨bodyOf value, body.range⟩]) }.placeCursor none) := by
  have planned : plan? tree editor.selection = some (.single ⟨bodyOf value, body.range⟩) := by
    rw [plan?, found]
    simp only [Option.bind_eq_bind, Option.bind_some, inBody, returned]
    rfl
  rw [aimsAt.outcome_of_planned reachable parsed source regular planned, Plan.result_single]

/-- The block and the return statement around a returned value. -/
theorem exists_of_returnedValue? (returned : returnedValue? function = some value) :
    ∃ body statement, function.field? "body" = some body ∧ body.is "statement_block" = true ∧
      body.namedChildren = [statement] ∧ statement.is "return_statement" = true ∧
      statement.namedChildren.head? = some value := by
  obtain ⟨body, inBody, rest⟩ := Option.bind_eq_some_iff.1 returned
  split at rest
  · rename_i block
    split at rest
    · rename_i statement only
      split at rest
      · rename_i returns
        exact ⟨body, statement, inBody, block, only, returns, rest⟩
      · cases rest
    · cases rest
  · cases rest

/-- The function whose braces are removed has a body and returns a value. -/
theorem exists_of_innermost? {selection : Selection} (regular : tree.IsRegular)
    (found : tree.innermost? (accepts selection) = some function) :
    function.IsRegular ∧ function.source = tree.source ∧
      ∃ body value, function.field? "body" = some body ∧ body.LiesIn function ∧
        returnedValue? function = some value := by
  obtain ⟨inTree, accepted⟩ := Tree.mem_of_innermost? found
  obtain ⟨regularSite, source⟩ := regular.site function inTree
  simp only [accepts, Bool.and_eq_true] at accepted
  obtain ⟨value, returned⟩ := Option.isSome_iff_exists.1 accepted.2
  obtain ⟨body, -, inBody, -⟩ := exists_of_returnedValue? returned
  exact ⟨regularSite, source, body, value, inBody, regularSite.liesIn_of_field? inBody, returned⟩

/-- A returned value is a named node of the text of its function. -/
theorem isRegular_of_returnedValue? (regular : function.IsRegular)
    (returned : returnedValue? function = some value) :
    value.IsRegular ∧ value.source = function.source ∧ value.node.isNamed = true := by
  obtain ⟨body, statement, inBody, -, only, -, first⟩ := exists_of_returnedValue? returned
  have inBlock : statement ∈ body.namedChildren := by rw [only]; exact List.mem_singleton_self _
  have inStatement := List.mem_of_head? first
  have bodyLies := regular.liesIn_of_field? inBody
  have statementLies :=
    bodyLies.regular.liesIn_of_mem_children (Site.mem_children_of_mem_namedChildren inBlock)
  have valueLies :=
    statementLies.regular.liesIn_of_mem_children (Site.mem_children_of_mem_namedChildren inStatement)
  exact ⟨valueLies.regular,
    valueLies.source_eq.trans (statementLies.source_eq.trans bodyLies.source_eq),
    (List.mem_filter.1 inStatement).2⟩

/-- A value is written in parentheses if it is an object or a sequence itself. -/
theorem bodyOf_eq_parenthesized
    (itself : value.is "object" = true ∨ value.is "sequence_expression" = true) :
    bodyOf value = '(' :: value.text ++ [')'] := by
  rw [bodyOf, if_pos (by simpa using itself)]

/-- **A body begins with a brace exactly if an object is the first thing in the value, but not the
value itself**, and the value is no sequence. -/
theorem head?_bodyOf_eq_brace_iff (regular : value.IsRegular) (named : value.node.isNamed = true)
    (begins : ∀ inner ∈ value.node.beginnings, inner.BeginsRegularly value.source) :
    (bodyOf value).head? = some '\x7b' ↔
      value.is "object" = false ∧ value.is "sequence_expression" = false ∧
        ∃ inner ∈ value.node.beginnings, Node.bracedKinds.contains inner.kind = true := by
  by_cases itself : value.is "object" = true ∨ value.is "sequence_expression" = true
  · have first : (bodyOf value).head? = some '(' := by rw [bodyOf_eq_parenthesized itself]; rfl
    rw [first]
    constructor
    · intro brace
      exact absurd (Option.some.inj brace) (by decide)
    · rintro ⟨noObject, noSequence, -⟩
      rw [noObject, noSequence] at itself
      simp at itself
  · have bare : bodyOf value = value.node.textIn value.source := by
      rw [bodyOf, if_neg (by simpa using itself)]
      rfl
    have noToken : value.node.isBrace = false := by rw [Node.isBrace, named]; rfl
    rw [bare, Node.head?_textIn_eq_brace_iff value.node regular.below begins, noToken]
    simp only [not_or, Bool.not_eq_true] at itself
    simp only [itself.1, itself.2, Bool.false_eq_true, false_or, true_and]

/-- **When the body of an arrow function becomes a block again.**  The tree is that of the code, and
the function is the one whose braces are removed at the selection; the beginning of the value that
it returns is as a parser guarantees.  The braces are removed: the body is replaced and the rest of
the code stays.  A value that is an object or a sequence is put in parentheses.  What takes the
place of the body begins with a brace, and is read as a block, exactly if the value is neither of
them but has an object, or a pattern of one, as its left-most expression. -/
theorem begins_block_iff {parse : Parse} {editor : Editor}
    (reachable : editor.grid.Reachable) (parsed : parse editor.code = .ok tree)
    (source : tree.source = editor.code) (regular : tree.IsRegular)
    (found : tree.innermost? (accepts editor.selection) = some function)
    (begins : ∀ value, returnedValue? function = some value →
      ∀ inner ∈ value.node.beginnings, inner.BeginsRegularly tree.source) :
    ∃ body value before after, function.field? "body" = some body ∧
      returnedValue? function = some value ∧
      editor.code = before ++ body.text ++ after ∧ reach before = body.range.start ∧
      (removeBraces.execute parse).outcome editor = (.ok (), { editor with
        grid := .ofText (before ++ bodyOf value ++ after) }.placeCursor none) ∧
      (value.is "object" = true ∨ value.is "sequence_expression" = true →
        bodyOf value = '(' :: value.text ++ [')']) ∧
      ((bodyOf value).head? = some '\x7b' ↔
        value.is "object" = false ∧ value.is "sequence_expression" = false ∧
          ∃ inner ∈ value.node.beginnings, Node.bracedKinds.contains inner.kind = true) := by
  obtain ⟨regularSite, source', body, value, inBody, bodyLies, returned⟩ :=
    exists_of_innermost? regular found
  have same : body.source = editor.code := bodyLies.source_eq.trans (source'.trans source)
  obtain ⟨before, after, around, start, -, edited⟩ :=
    (same ▸ bodyLies.regular.node).exists_around
  obtain ⟨regularValue, valueSource, named⟩ := isRegular_of_returnedValue? regularSite returned
  refine ⟨body, value, before, after, inBody, returned, ?_, ?_, ?_, bodyOf_eq_parenthesized, ?_⟩
  · rwa [Site.text, same]
  · rwa [Site.range, same]
  · rw [outcome_of_innermost reachable parsed source regular found inBody returned, Site.range,
      same, edited]
  · have begins := begins value returned
    rw [← source', ← valueSource] at begins
    exact head?_bodyOf_eq_brace_iff regularValue named begins

/-- The code `x => { return { a: 1 }.a; }`, parsed. -/
def memberReturn : Tree where
  source := "x => \x7b return \x7b a: 1 \x7d.a; \x7d".toList
  root :=
    .named "program" 0 27 [] [.named "expression_statement" 0 27 []
      [.named "arrow_function" 0 27 []
        [.named "identifier" 0 1 ["parameter"] [], .mark "=>" 2 4 [],
          .named "statement_block" 5 27 ["body"]
            [.mark "\x7b" 5 6 [],
              .named "return_statement" 7 25 []
                [.mark "return" 7 13 [],
                  .named "member_expression" 14 24 []
                    [.named "object" 14 22 ["object"]
                      [.mark "\x7b" 14 15 [],
                        .named "pair" 16 20 []
                          [.named "property_identifier" 16 17 ["key"] [], .mark ":" 17 18 [],
                            .named "number" 19 20 ["value"] []],
                        .mark "\x7d" 21 22 []],
                      .mark "." 22 23 [],
                      .named "property_identifier" 23 24 ["property"] []],
                  .mark ";" 24 25 []],
              .mark "\x7d" 26 27 []]]]]

/-- The function, its body and what it returns. -/
def memberReturnSite : Site :=
  let statement := memberReturn.rootSite.child memberReturn.root.children[0]! 0
  statement.child statement.node.children[0]! 0

def memberBody : Site := memberReturnSite.child memberReturnSite.node.children[2]! 2

def memberValue : Site :=
  let statement := memberBody.child memberBody.node.children[1]! 1
  statement.child statement.node.children[1]! 1

theorem isRegular_memberReturn : memberReturn.IsRegular := Tree.isRegular_of_isPlain (by decide)

theorem innermost?_memberReturn :
    memberReturn.innermost? (accepts default) = some memberReturnSite := rfl

theorem returnedValue?_memberReturn : returnedValue? memberReturnSite = some memberValue := rfl

theorem beginsRegularly_memberValue :
    ∀ inner ∈ memberValue.node.beginnings, inner.BeginsRegularly memberReturn.source := by
  decide +kernel

theorem begins_block_iff_memberReturn :
    let editor := Editor.ofCode memberReturn.source default
    let parse := (Service.parsing memberReturn).parse
    editor.grid.Reachable ∧ parse editor.code = .ok memberReturn ∧
      memberReturn.source = editor.code ∧ memberReturn.IsRegular ∧
      memberReturn.innermost? (accepts editor.selection) = some memberReturnSite ∧
      (∀ value, returnedValue? memberReturnSite = some value →
        ∀ inner ∈ value.node.beginnings, inner.BeginsRegularly memberReturn.source) ∧
      (bodyOf memberValue).head? = some '\x7b' := by
  intro editor parse
  have reachable : editor.grid.Reachable := .ofText _
  have begins : ∀ value, returnedValue? memberReturnSite = some value →
      ∀ inner ∈ value.node.beginnings, inner.BeginsRegularly memberReturn.source := by
    intro value returned
    obtain rfl := Option.some.inj (returnedValue?_memberReturn.symm.trans returned)
    exact beginsRegularly_memberValue
  have parsed : parse editor.code = .ok memberReturn := rfl
  obtain ⟨_, value, _, _, -, returned, -, -, -, -, braced⟩ := begins_block_iff reachable parsed rfl
    isRegular_memberReturn innermost?_memberReturn begins
  obtain rfl := Option.some.inj (returnedValue?_memberReturn.symm.trans returned)
  exact ⟨reachable, parsed, rfl, isRegular_memberReturn, innermost?_memberReturn, begins,
    braced.2 (by decide)⟩

/-- **The body of a function that returns a member of an object begins with the brace of the
object.** -/
theorem bares_object_of_member :
    let editor := Editor.ofCode memberReturn.source default
    let service := Service.parsing memberReturn
    ∃ after, (service.execute removeBraces.id).outcome editor = (.ok (), after) ∧
      after.code = "x => \x7b a: 1 \x7d.a".toList ∧ (bodyOf memberValue).head? = some '\x7b' := by
  intro editor service
  have planned : plan? memberReturn editor.selection =
      some (.single ⟨bodyOf memberValue, memberBody.range⟩) := rfl
  obtain ⟨after, executed, code⟩ :=
    aimsAt.code_of_planned (by simp [builtIn]) isRegular_memberReturn planned
  refine ⟨after, executed, ?_, by decide +kernel⟩
  rw [code, Plan.result_single]
  decide +kernel

end RemoveBraces
end Retouch
