import Mathlib.Data.List.Find
import Retouch.Proofs.Tree.Shape

/-!
# Trees without comments

A comment may stand between any two nodes.  It is then a named child of the node around it, but no
field of it (`Node.HasPlainComments`).  Taking out all comments below a node
(`Node.uncommented`) leaves the labels of the other nodes, and so their places in the source.

A field is found again in the tree without comments (`Node.field?_uncommented`).  **The first named
child is found again exactly if it is no comment** (`Node.head?_namedChildren_uncommented`), whereas
the first one that is no comment always is (`Node.find?_namedChildren_uncommented`).
-/

set_option autoImplicit false

namespace Retouch
namespace Node

/-! ## Taking out comments -/

def isComment (node : Node) : Bool := node.is "comment"

mutual

/-- A node without the comments below it. -/
def uncommented : Node → Node
  | mk label children => mk label (uncommentedAll children)

def uncommentedAll : List Node → List Node
  | [] => []
  | first :: rest =>
    if first.isComment then uncommentedAll rest else uncommented first :: uncommentedAll rest

end

theorem uncommentedAll_eq (nodes : List Node) :
    uncommentedAll nodes = (nodes.filter (!·.isComment)).map uncommented := by
  induction nodes with
  | nil => rw [uncommentedAll]; rfl
  | cons first rest ih =>
    rw [uncommentedAll, List.filter_cons, ih]
    cases first.isComment <;> rfl

theorem children_uncommented (node : Node) :
    node.uncommented.children = (node.children.filter (!·.isComment)).map uncommented := by
  cases node with
  | mk label children =>
    rw [uncommented]
    exact uncommentedAll_eq children

/-- What is taken out below a node leaves its label. -/
@[simp] theorem label_uncommented (node : Node) : node.uncommented.label = node.label := by
  cases node
  rw [uncommented]
  rfl

@[simp] theorem kind_uncommented (node : Node) : node.uncommented.kind = node.kind := by
  simp [kind]

@[simp] theorem is_uncommented (node : Node) (given : String) :
    node.uncommented.is given = node.is given := by
  simp [is]

@[simp] theorem isComment_uncommented (node : Node) :
    node.uncommented.isComment = node.isComment := node.is_uncommented "comment"

@[simp] theorem isNamed_uncommented (node : Node) :
    node.uncommented.isNamed = node.isNamed := by
  simp [isNamed]

@[simp] theorem carries_uncommented (node : Node) (name : String) :
    node.uncommented.carries name = node.carries name := by
  simp [carries]

@[simp] theorem textIn_uncommented (node : Node) (source : Text) :
    node.uncommented.textIn source = node.textIn source := by
  simp [textIn]

variable {node child : Node}

theorem isComment_of_mem_children_uncommented (member : child ∈ node.uncommented.children) :
    child.isComment = false := by
  rw [children_uncommented] at member
  obtain ⟨original, kept, rfl⟩ := List.mem_map.1 member
  simpa using (List.mem_filter.1 kept).2

/-! ## Fields -/

/-- Whether the comments among the children of a node carry no field names. -/
def HasPlainComments (node : Node) : Prop :=
  ∀ child ∈ node.children, child.isComment = true → child.label.fields = []

instance : DecidablePred HasPlainComments := fun node =>
  inferInstanceAs (Decidable (∀ child ∈ node.children, _ → _))

/-- A field is no comment. -/
theorem HasPlainComments.isComment_of_field? (plain : node.HasPlainComments) {name : String}
    (found : node.field? name = some child) : child.isComment = false := by
  rw [Bool.eq_false_iff]
  intro comment
  have carried := mem_fields_of_field? found
  rw [plain child (List.mem_of_find?_eq_some found) comment] at carried
  cases carried

/-- **A field is found again.** -/
theorem field?_uncommented (plain : node.HasPlainComments) (name : String) :
    node.uncommented.field? name = (node.field? name).map uncommented := by
  have same : (fun child : Node => child.carries name) ∘ uncommented = (·.carries name) :=
    funext fun child => child.carries_uncommented name
  rw [field?, children_uncommented, List.find?_map, same, List.find?_filter, field?]
  refine congrArg _ (List.find?_congr fun child member => ?_)
  cases comment : child.isComment with
  | false => simp
  | true => simp [carries, plain child member comment]

theorem operator?_uncommented (plain : node.HasPlainComments) :
    node.uncommented.operator? = node.operator? := by
  rw [operator?, field?_uncommented plain, operator?, Option.map_map]
  exact congrArg (Option.map · _) (funext kind_uncommented)

/-! ## Named children -/

theorem namedChildren_uncommented (node : Node) :
    node.uncommented.namedChildren = (node.namedChildren.filter (!·.isComment)).map uncommented := by
  have same : isNamed ∘ uncommented = isNamed := funext isNamed_uncommented
  simp only [namedChildren, children_uncommented, List.filter_map, same, List.filter_filter,
    Bool.and_comm]

/-- **The first named child is found again exactly if it is no comment.** -/
theorem head?_namedChildren_uncommented (first : node.namedChildren.head? = some child) :
    node.uncommented.namedChildren.head? = some child.uncommented ↔ child.isComment = false := by
  obtain ⟨rest, children⟩ := List.head?_eq_some_iff.1 first
  constructor
  · intro again
    have member := (List.mem_filter.1 (List.mem_of_head? again)).1
    rw [← isComment_uncommented]
    exact isComment_of_mem_children_uncommented member
  · intro kept
    rw [namedChildren_uncommented, children, List.filter_cons_of_pos (by simpa using kept)]
    rfl

/-- The first named child that is no comment is found again. -/
theorem find?_namedChildren_uncommented (node : Node) :
    node.uncommented.namedChildren.find? (!·.isComment) =
      (node.namedChildren.find? (!·.isComment)).map uncommented := by
  have same : (fun child : Node => !child.isComment) ∘ uncommented = (!·.isComment) :=
    funext fun child => congrArg not child.isComment_uncommented
  rw [namedChildren_uncommented, List.find?_map, same, List.find?_filter]
  refine congrArg _ (List.find?_congr fun child _ => ?_)
  simp

end Node
end Retouch
