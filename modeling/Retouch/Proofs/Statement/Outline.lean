import Retouch.Proofs.Statement.Reading
import Retouch.Proofs.Tree.Slices

/-!
# Statements in a tree

A node of a tree is a statement with a certain outline (`Outlines`): an `if` with its branches, a
loop or another statement that ends with its body, or a node that has an end of its own.  The
texts of an outline are the slices of the source around its branches and bodies, and together
they are the text of the node (`Outlines.slice?_eq`).

A node has one outline at most (`Outlines.unique`).  It has one if its parts are where a parser puts
them (`Node.hasParts`, `exists_outlines`).
-/

set_option autoImplicit false

namespace Retouch

/-- The kinds of the statements that end with another one. -/
def nestingKinds : List String :=
  ["while_statement", "for_statement", "for_in_statement", "labeled_statement", "with_statement"]

/-- **Whether a node is a statement with a certain outline.**  An `if` comes with its condition in
front of its branches, and a node ends where its last part does. -/
inductive Outlines (source : Text) : Node → Statement → Prop where
  | simple {node : Node} {text : Text} (noIf : node.is "if_statement" = false)
      (noNesting : nestingKinds.contains node.kind = false)
      (sliced : source.slice? node.label.start node.label.stop = some text) :
      Outlines source node (.simple text)
  | nested {node body : Node} {heading : Text} {statement : Statement}
      (nests : nestingKinds.contains node.kind = true)
      (inBody : node.field? "body" = some body)
      (before : source.slice? node.label.start body.label.start = some heading)
      (ends : body.label.stop = node.label.stop)
      (outlines : Outlines source body statement) :
      Outlines source node (.nested heading statement)
  | lone {node consequence : Node} {heading : Text} {statement : Statement}
      (isIf : node.is "if_statement" = true)
      (inConsequence : node.field? "consequence" = some consequence)
      (alone : node.field? "alternative" = none)
      (before : source.slice? node.label.start consequence.label.start = some heading)
      (ends : consequence.label.stop = node.label.stop)
      (outlines : Outlines source consequence statement) :
      Outlines source node (.lone heading statement)
  | choice {node condition consequence clause branch : Node} {heading joint : Text}
      {statement statement' : Statement}
      (isIf : node.is "if_statement" = true)
      (inCondition : node.field? "condition" = some condition)
      (inConsequence : node.field? "consequence" = some consequence)
      (inAlternative : node.field? "alternative" = some clause)
      (chosen : clause.namedChildren.find? (!·.is "comment") = some branch)
      (first : condition.label.stop ≤ consequence.label.start)
      (before : source.slice? node.label.start consequence.label.start = some heading)
      (between : source.slice? consequence.label.stop branch.label.start = some joint)
      (ends : branch.label.stop = node.label.stop)
      (outlines : Outlines source consequence statement)
      (outlines' : Outlines source branch statement') :
      Outlines source node (.choice heading statement joint statement')

namespace Outlines

variable {source : Text} {node : Node} {statement other : Statement}

/-- **The text of an outline is the text of the node.** -/
theorem slice?_eq (outlines : Outlines source node statement) :
    source.slice? node.label.start node.label.stop = some statement.text := by
  induction outlines with
  | simple _ _ sliced => exact sliced
  | nested _ _ before ends _ ih =>
    rw [ends] at ih
    exact Text.slice?_append_slice? before ih
  | lone _ _ _ before ends _ ih =>
    rw [ends] at ih
    exact Text.slice?_append_slice? before ih
  | choice _ _ _ _ _ _ before between ends _ _ ih ih' =>
    rw [ends] at ih'
    exact Text.slice?_append_slice?
      (Text.slice?_append_slice? (Text.slice?_append_slice? before ih) between) ih'

theorem textIn_eq (outlines : Outlines source node statement) :
    node.textIn source = statement.text := by
  rw [Node.textIn, outlines.slice?_eq]
  rfl

theorem not_nesting (isIf : node.is "if_statement" = true) :
    nestingKinds.contains node.kind = false := by
  rw [eq_of_beq isIf]
  decide

/-- A node has one outline at most. -/
theorem unique (outlines : Outlines source node statement)
    (outlines' : Outlines source node other) : statement = other := by
  induction outlines generalizing other with
  | simple noIf noNesting sliced =>
    cases outlines' with
    | simple _ _ sliced' => rw [Option.some.inj (sliced.symm.trans sliced')]
    | nested nests => rw [noNesting] at nests; cases nests
    | lone isIf => rw [noIf] at isIf; cases isIf
    | choice isIf => rw [noIf] at isIf; cases isIf
  | nested nests inBody before _ _ ih =>
    cases outlines' with
    | simple _ noNesting => rw [noNesting] at nests; cases nests
    | nested _ inBody' before' _ outlines' =>
      obtain rfl := Option.some.inj (inBody.symm.trans inBody')
      rw [Option.some.inj (before.symm.trans before'), ih outlines']
    | lone isIf => rw [not_nesting isIf] at nests; cases nests
    | choice isIf => rw [not_nesting isIf] at nests; cases nests
  | lone isIf inConsequence alone before _ _ ih =>
    cases outlines' with
    | simple noIf => rw [noIf] at isIf; cases isIf
    | nested nests => rw [not_nesting isIf] at nests; cases nests
    | lone _ inConsequence' _ before' _ outlines' =>
      obtain rfl := Option.some.inj (inConsequence.symm.trans inConsequence')
      rw [Option.some.inj (before.symm.trans before'), ih outlines']
    | choice _ _ _ inAlternative => rw [alone] at inAlternative; cases inAlternative
  | choice isIf _ inConsequence inAlternative chosen _ before between _ _ _ ih ih' =>
    cases outlines' with
    | simple noIf => rw [noIf] at isIf; cases isIf
    | nested nests => rw [not_nesting isIf] at nests; cases nests
    | lone _ _ alone => rw [alone] at inAlternative; cases inAlternative
    | choice _ _ inConsequence' inAlternative' chosen' _ before' between' _ outlines outlines' =>
      obtain rfl := Option.some.inj (inConsequence.symm.trans inConsequence')
      obtain rfl := Option.some.inj (inAlternative.symm.trans inAlternative')
      obtain rfl := Option.some.inj (chosen.symm.trans chosen')
      rw [Option.some.inj (before.symm.trans before'),
        Option.some.inj (between.symm.trans between'), ih outlines, ih' outlines']

/-- A statement that is no `if` and is left open ends with its body. -/
theorem exists_nested (outlines : Outlines source node statement)
    (noIf : node.is "if_statement" = false) (open_ : statement.endsOpen = true) :
    ∃ heading body, statement = .nested heading body := by
  cases outlines with
  | simple => cases open_
  | nested => exact ⟨_, _, rfl⟩
  | lone isIf => rw [noIf] at isIf; cases isIf
  | choice isIf => rw [noIf] at isIf; cases isIf

end Outlines

/-! ## Nodes with an outline -/

/-- Whether a statement has the parts that a parser gives it: a body that ends it, or a condition,
a consequence and what there is of an `else`, in this order. -/
def Node.hasParts (node : Node) : Bool :=
  if nestingKinds.contains node.kind then
    (node.field? "body").any fun body => body.label.stop == node.label.stop
  else if node.is "if_statement" then
    (node.field? "condition").any fun condition =>
      (node.field? "consequence").any fun consequence =>
        condition.label.stop ≤ consequence.label.start &&
          match node.field? "alternative" with
          | none => consequence.label.stop == node.label.stop
          | some clause => (clause.namedChildren.find? (!·.is "comment")).any fun branch =>
              consequence.label.stop ≤ branch.label.start && branch.label.stop == node.label.stop
  else true

/-- **A regular statement whose parts are in place has an outline.** -/
theorem exists_outlines {source : Text} (node : Node)
    (regular : node.Everywhere (Node.IsRegular source))
    (parted : node.Everywhere fun inner => inner.hasParts = true) :
    ∃ statement, Outlines source node statement := by
  have spans := regular.self.spans
  have parts := parted.self
  rw [Node.hasParts] at parts
  split at parts
  · rename_i nests
    obtain ⟨body, inBody, ends⟩ := Option.any_eq_true _ _ |>.1 parts
    have member : body ∈ node.children := List.mem_of_find?_eq_some inBody
    have smaller := Node.size_lt_of_mem member
    obtain ⟨statement, outlines⟩ :=
      exists_outlines body (regular.child member) (parted.child member)
    obtain ⟨heading, before⟩ := spans.start.exists_slice? (regular.child member).self.spans.start
      (regular.self.nested body member).start
    exact ⟨_, .nested nests inBody before (by simpa using ends) outlines⟩
  · rename_i noNesting
    split at parts
    · rename_i isIf
      obtain ⟨condition, inCondition, parts⟩ := Option.any_eq_true _ _ |>.1 parts
      obtain ⟨consequence, inConsequence, parts⟩ := Option.any_eq_true _ _ |>.1 parts
      rw [Bool.and_eq_true, decide_eq_true_eq] at parts
      obtain ⟨first, parts⟩ := parts
      have member : consequence ∈ node.children := List.mem_of_find?_eq_some inConsequence
      have smaller := Node.size_lt_of_mem member
      have regular' := regular.child member
      obtain ⟨statement, outlines⟩ := exists_outlines consequence regular' (parted.child member)
      obtain ⟨heading, before⟩ := spans.start.exists_slice? regular'.self.spans.start
        (regular.self.nested consequence member).start
      cases inAlternative : node.field? "alternative" with
      | none =>
        rw [inAlternative] at parts
        exact ⟨_, .lone isIf inConsequence inAlternative before (by simpa using parts) outlines⟩
      | some clause =>
        simp only [inAlternative] at parts
        obtain ⟨branch, chosen, parts⟩ := Option.any_eq_true _ _ |>.1 parts
        rw [Bool.and_eq_true, decide_eq_true_eq] at parts
        obtain ⟨ordered, ends⟩ := parts
        have below : clause ∈ node.children := List.mem_of_find?_eq_some inAlternative
        have inside : branch ∈ clause.children :=
          (List.mem_filter.1 (List.mem_of_find?_eq_some chosen)).1
        have smaller' := Nat.lt_trans (Node.size_lt_of_mem inside) (Node.size_lt_of_mem below)
        have regular'' := (regular.child below).child inside
        obtain ⟨statement', outlines'⟩ :=
          exists_outlines branch regular'' ((parted.child below).child inside)
        obtain ⟨joint, between⟩ :=
          regular'.self.spans.stop.exists_slice? regular''.self.spans.start ordered
        exact ⟨_, .choice isIf inCondition inConsequence inAlternative chosen first before between
          (by simpa using ends) outlines outlines'⟩
    · rename_i noIf
      exact ⟨_, .simple (by simpa using noIf) (by simpa using noNesting) regular.self.slice?_eq⟩
termination_by node.size
decreasing_by all_goals assumption

end Retouch
