import Retouch.Proofs.Catalog.ArrowBody

/-!
# Adding and removing the braces of an arrow function

The block that takes the place of the body of an arrow function holds a copy of it between an
opening and a closing (`AddBraces.block_eq`).  The opening breaks the line, so that everything
behind it comes to stand elsewhere: the lines of the body itself, and what follows the body on its
last line.

In bytes, however, the copy stands where it must.  A tree of the new code `Holds` it there if it
has the block and what the block returns at these bytes, and neither an object nor a sequence as
the value, which would get parentheses.  **If the innermost function whose braces can be removed
holds the copy, removing them restores the code** (`AddBraces.removeBraces_restores`), whatever
the lines and the columns of the body were.
-/

set_option autoImplicit false

namespace Retouch

open Text

namespace AddBraces

variable {tree : Tree} {function body : Site} {indentation expression : Text}

/-! ## A block and the copy in it -/

/-- What stands in a block in front of the copy of the expression. -/
def opening (indentation : Text) : Text :=
  "\x7b\n".toList ++ indentation ++ "  return ".toList

def closing (indentation : Text) : Text := ";\n".toList ++ indentation ++ "\x7d".toList

theorem block_eq (indentation expression : Text) :
    block indentation expression = opening indentation ++ expression ++ closing indentation := by
  delta block opening closing
  simp only [List.append_assoc]

/-- **The body of a function is the block at a byte offset, and what the function returns is the
copy in it**: a node with the bytes of the copy that is neither an object nor a sequence. -/
structure Holds (function : Site) (start : Nat) (indentation expression : Text) : Prop where
  inPlace : ∀ body, function.field? "body" = some body → body.node.label.start = start ∧
    body.node.label.stop = start + byteLength (block indentation expression)
  copy : ∀ value, RemoveBraces.returnedValue? function = some value →
    value.node.label.start = start + byteLength (opening indentation) ∧
      value.node.label.stop =
        start + byteLength (opening indentation) + byteLength expression ∧
      value.is "object" = false ∧ value.is "sequence_expression" = false

/-- What is returned is written as the expression was. -/
theorem Holds.bodyOf_eq {value : Site} {before after : Text}
    (holds : Holds function (byteLength before) indentation expression)
    (regular : function.IsRegular)
    (source : function.source = before ++ block indentation expression ++ after)
    (returned : RemoveBraces.returnedValue? function = some value) :
    RemoveBraces.bodyOf value = expression := by
  obtain ⟨regularValue, valueSource, -⟩ :=
    RemoveBraces.isRegular_of_returnedValue? regular returned
  obtain ⟨start, stop, noObject, noSequence⟩ := holds.copy value returned
  have copied : value.source.slice? value.node.label.start value.node.label.stop =
      some expression := by
    refine slice?_eq_some_iff.2
      ⟨before ++ opening indentation, closing indentation ++ after, ?_, ?_, ?_⟩
    · simp only [valueSource, source, block_eq, List.append_assoc]
    · rw [start, byteLength_append]
    · rw [stop, byteLength_append, byteLength_append]
  have text : value.text = expression :=
    Option.some.inj (regularValue.node.slice?_eq.symm.trans copied)
  rw [RemoveBraces.bodyOf, noObject, noSequence, text]
  rfl

/-! ## There and back -/

/-- The braces are added to a function by one edit. -/
theorem outcome_of_innermost {parse : Parse} {editor : Editor} (reachable : editor.grid.Reachable)
    (parsed : parse editor.code = .ok tree) (source : tree.source = editor.code)
    (regular : tree.IsRegular) (found : tree.innermost? (accepts editor.selection) = some function)
    (inBody : function.field? "body" = some body) :
    let indentation := tree.source.indentation function.range.start.line.toNat
    (addBraces.execute parse).outcome editor = (.ok (), { editor with
      grid := .ofText (editor.code.spliced [⟨block indentation body.text, body.range⟩])
      }.placeCursor none) := by
  intro indentation
  have planned : plan? tree editor.selection =
      some (.single ⟨block indentation body.text, body.range⟩) := by
    rw [plan?, found]
    simp only [Option.bind_eq_bind, Option.bind_some, inBody]
    rfl
  rw [aimsAt.outcome_of_planned reachable parsed source regular planned, Plan.result_single]

/-- A function that holds a block gets back what the block was made for. -/
theorem Holds.removeBraces_outcome {parse : Parse} {editor : Editor} {before after : Text}
    (holds : Holds function (byteLength before) indentation expression)
    (reachable : editor.grid.Reachable) (parsed : parse editor.code = .ok tree)
    (source : tree.source = editor.code) (regular : tree.IsRegular)
    (code : editor.code = before ++ block indentation expression ++ after)
    (found : tree.innermost? (RemoveBraces.accepts editor.selection) = some function) :
    (removeBraces.execute parse).outcome editor = (.ok (), { editor with
      grid := .ofText (before ++ expression ++ after) }.placeCursor none) := by
  obtain ⟨regularSite, source', body, value, inBody, bodyLies, returned⟩ :=
    RemoveBraces.exists_of_innermost? regular found
  have same : body.source = editor.code := bodyLies.source_eq.trans (source'.trans source)
  obtain ⟨start, stop⟩ := holds.inPlace body inBody
  have edited := (same ▸ bodyLies.regular.node).spliced_rangeIn code start.symm
    (by rw [byteLength_append, stop])
  rw [RemoveBraces.outcome_of_innermost reachable parsed source regular found inBody returned,
    holds.bodyOf_eq regularSite (source'.trans (source.trans code)) returned, Site.range, same,
    edited]

/-- **Removing the braces undoes adding them.**  The tree is that of the code, and the function is
the one that gets braces at the selection.  The block takes the place of its body, and the rest of
the code stays.  If the new code has a tree in which the innermost function whose braces can be
removed, around the selection that the editor has then, holds the block at the offset of the old
body, then the braces are removed and the code is what it was. -/
theorem removeBraces_restores {parse : Parse} {editor : Editor}
    (reachable : editor.grid.Reachable) (parsed : parse editor.code = .ok tree)
    (source : tree.source = editor.code) (regular : tree.IsRegular)
    (found : tree.innermost? (accepts editor.selection) = some function)
    (inBody : function.field? "body" = some body) :
    let indentation := tree.source.indentation function.range.start.line.toNat
    ∃ braced before after, (addBraces.execute parse).outcome editor = (.ok (), braced) ∧
      editor.code = before ++ body.text ++ after ∧ reach before = body.range.start ∧
      braced.code = before ++ block indentation body.text ++ after ∧
      ∀ tree' function', parse braced.code = .ok tree' → tree'.source = braced.code →
        tree'.IsRegular →
        tree'.innermost? (RemoveBraces.accepts braced.selection) = some function' →
        Holds function' body.node.label.start indentation body.text →
        ∃ restored, (removeBraces.execute parse).outcome braced = (.ok (), restored) ∧
          restored.code = editor.code := by
  intro indentation
  obtain ⟨regularSite, source'⟩ := regular.site function (Tree.mem_of_innermost? found).1
  have bodyLies := regularSite.liesIn_of_field? inBody
  have same : body.source = editor.code := bodyLies.source_eq.trans (source'.trans source)
  have regularBody := same ▸ bodyLies.regular.node
  obtain ⟨before, after, parts, start, stop⟩ := slice?_eq_some_iff.1 regularBody.slice?_eq
  have here : body.text = body.node.textIn editor.code := by rw [Site.text, same]
  have range : body.range = body.node.rangeIn editor.code := by rw [Site.range, same]
  rw [← here] at parts stop
  have edited := regularBody.spliced_rangeIn parts start stop (block indentation body.text)
  have added : (addBraces.execute parse).outcome editor = (.ok (), { editor with
      grid := .ofText (before ++ block indentation body.text ++ after) }.placeCursor none) := by
    rw [← edited, ← range]
    exact outcome_of_innermost reachable parsed source regular found inBody
  refine ⟨_, before, after, added, parts, ?_, Grid.text_ofText _, ?_⟩
  · rw [range]
    exact (regularBody.reach_eq parts start stop).1
  · intro tree' function' parsed' source'' regular' found' holds
    rw [← start] at holds
    have removed := holds.removeBraces_outcome (.ofText _) parsed' source'' regular'
      (Grid.text_ofText _) found'
    exact ⟨_, removed, (Grid.text_ofText _).trans parts.symm⟩

/-- The sum `a + b` on two lines. -/
def brokenSum (start : Nat) (fields : List String) : Node :=
  .named "binary_expression" start (start + 7) fields
    [.named "identifier" start (start + 1) ["left"] [],
      .mark "+" (start + 2) (start + 3) ["operator"],
      .named "identifier" (start + 6) (start + 7) ["right"] []]

/-- A call with an arrow function and a number, indented, parsed but for the body. -/
def callWith (source : Text) (body : Node) : Tree where
  source := source
  root :=
    let stop := body.label.stop
    .named "program" 2 (stop + 5) [] [.named "expression_statement" 2 (stop + 5) []
      [.named "call_expression" 2 (stop + 4) []
        [.named "identifier" 2 3 ["function"] [],
          .named "arguments" 3 (stop + 4) ["arguments"]
            [.mark "(" 3 4 [],
              .named "arrow_function" 4 stop []
                [.named "identifier" 4 5 ["parameter"] [], .mark "=>" 6 8 [], body],
              .mark "," stop (stop + 1) [],
              .named "number" (stop + 2) (stop + 3) [] [],
              .mark ")" (stop + 3) (stop + 4) []]],
        .mark ";" (stop + 4) (stop + 5) []]]

def bareCall : Tree := callWith "  f(x => a +\n  b, 1);".toList (brokenSum 9 ["body"])

def bracedCall : Tree :=
  callWith "  f(x => \x7b\n    return a +\n  b;\n  \x7d, 1);".toList
    (.named "statement_block" 9 34 ["body"]
      [.mark "\x7b" 9 10 [],
        .named "return_statement" 15 30 []
          [.mark "return" 15 21 [], brokenSum 22 [], .mark ";" 29 30 []],
        .mark "\x7d" 33 34 []])

/-- The arrow function in a call. -/
def functionIn (tree : Tree) : Site :=
  let statement := tree.rootSite.child tree.root.children[0]! 0
  let call := statement.child statement.node.children[0]! 0
  let arguments := call.child call.node.children[1]! 1
  arguments.child arguments.node.children[1]! 1

/-- The body of the arrow function in a call. -/
def bodyIn (tree : Tree) : Site := (functionIn tree).child (functionIn tree).node.children[2]! 2

theorem removeBraces_restores_brokenSum :
    let editor := Editor.ofCode bareCall.source (.cursorAt ⟨0, 4⟩)
    let parse : Parse := fun text =>
      if text = bareCall.source then .ok bareCall
      else if text = bracedCall.source then .ok bracedCall
      else .error (.faulty Fault.unreadable .zero)
    editor.grid.Reachable ∧ parse editor.code = .ok bareCall ∧ bareCall.source = editor.code ∧
      bareCall.IsRegular ∧
      bareCall.innermost? (accepts editor.selection) = some (functionIn bareCall) ∧
      ∃ braced restored, (addBraces.execute parse).outcome editor = (.ok (), braced) ∧
        braced.code = bracedCall.source ∧ bracedCall.IsRegular ∧
        Holds (functionIn bracedCall) 9 "  ".toList "a +\n  b".toList ∧
        (removeBraces.execute parse).outcome braced = (.ok (), restored) ∧
        restored.code = bareCall.source := by
  intro editor parse
  have reachable : editor.grid.Reachable := .ofText _
  have parsed : parse editor.code = .ok bareCall := rfl
  have regular : bareCall.IsRegular := Tree.isRegular_of_isPlain (by decide)
  have found : bareCall.innermost? (accepts editor.selection) = some (functionIn bareCall) := rfl
  have inBody : (functionIn bareCall).field? "body" = some (bodyIn bareCall) := rfl
  have regular' : bracedCall.IsRegular := Tree.isRegular_of_isPlain (by decide)
  have holds : Holds (functionIn bracedCall) 9 "  ".toList "a +\n  b".toList := by
    constructor
    · intro body inBody
      cases inBody
      decide +kernel
    · intro value returned
      cases returned
      decide +kernel
  obtain ⟨braced, _, _, added, -, -, -, back⟩ :=
    removeBraces_restores reachable parsed rfl regular found inBody
  have made := (Prod.mk.inj
    ((outcome_of_innermost reachable parsed rfl regular found inBody).symm.trans added)).2
  have code : braced.code = bracedCall.source := by
    rw [← made]
    exact (Grid.text_ofText _).trans (by decide +kernel)
  have selection : braced.selection = .cursorAt ⟨0, 4⟩ := by
    rw [← made]
    decide +kernel
  have parsed' : parse braced.code = .ok bracedCall := by rw [code]; rfl
  obtain ⟨restored, removed, restores⟩ :=
    back bracedCall (functionIn bracedCall) parsed' code.symm regular'
      (by rw [selection]; rfl) holds
  exact ⟨reachable, parsed, rfl, regular, found, braced, restored, added, code, regular',
    holds, removed, restores⟩

end AddBraces
end Retouch
