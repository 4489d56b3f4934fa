import Retouch.Selection
import Retouch.Text.Offset

/-!
# Syntax nodes

A node has a label, which holds what the grammar and the text say of it, and its
children in document order.  Punctuation and keywords are nodes too; the nodes that
a grammar gives a name are the *named* ones.  A child may carry field names, by
which its parent finds it.

The nodes of a tree are also written as a list in document order, each with its
depth (`Node.ofOutline?`).
-/

set_option autoImplicit false

namespace Retouch

/-- What is known of a node apart from its children.  Its text lies between two
byte offsets. -/
structure Label where
  kind : String
  isNamed : Bool
  isError : Bool
  isMissing : Bool
  hasError : Bool
  start : Nat
  stop : Nat
  fields : List String
deriving DecidableEq

/-- A node with everything below it. -/
inductive Node where
  | mk (label : Label) (children : List Node)

namespace Node

def label : Node → Label
  | mk label _ => label

def children : Node → List Node
  | mk _ children => children

instance : Inhabited Node := ⟨mk ⟨"", true, false, false, false, 0, 0, []⟩ []⟩

def kind (node : Node) : String := node.label.kind

/-- Whether a node is of a kind. -/
def is (node : Node) (kind : String) : Bool := node.kind == kind

def isNamed (node : Node) : Bool := node.label.isNamed

/-- Whether a node is found under a field name. -/
def carries (node : Node) (name : String) : Bool := node.label.fields.contains name

/-- The child found under a field name. -/
def field? (node : Node) (name : String) : Option Node :=
  node.children.find? (·.carries name)

def namedChildren (node : Node) : List Node := node.children.filter isNamed

/-- The operator of a unary or a binary expression. -/
def operator? (node : Node) : Option String := (node.field? "operator").map kind

/-! ## The text of a node -/

/-- The characters of a source that a node spans. -/
def textIn (node : Node) (source : Text) : Text :=
  (source.slice? node.label.start node.label.stop).getD []

/-- The position of a byte offset that a parser reports for a source. -/
def place (source : Text) (offset : Nat) : Position :=
  source.positionAt offset (source.pointAt offset)

/-- The range of a source that a node spans. -/
def rangeIn (node : Node) (source : Text) : Selection :=
  .between (place source node.label.start) (place source node.label.stop)

/-! ## Size -/

mutual

/-- How many nodes there are from a node downwards. -/
def size : Node → Nat
  | mk _ children => sizeOfAll children + 1

def sizeOfAll : List Node → Nat
  | [] => 0
  | first :: rest => size first + sizeOfAll rest

end

theorem size_eq (node : Node) : node.size = sizeOfAll node.children + 1 := by
  cases node
  rfl

theorem size_pos (node : Node) : 0 < node.size := by
  rw [size_eq]
  exact Nat.succ_pos _

theorem size_le_sizeOfAll {node : Node} {siblings : List Node} (member : node ∈ siblings) :
    node.size ≤ sizeOfAll siblings := by
  induction siblings with
  | nil => cases member
  | cons first rest ih =>
    rw [sizeOfAll]
    rcases List.mem_cons.1 member with rfl | member
    · exact Nat.le_add_right _ _
    · exact Nat.le_trans (ih member) (Nat.le_add_left _ _)

theorem size_lt_of_mem {node child : Node} (member : child ∈ node.children) :
    child.size < node.size := by
  rw [size_eq node]
  exact Nat.lt_succ_of_le (size_le_sizeOfAll member)

/-- A child found under a field name is smaller than its parent. -/
theorem size_field {node child : Node} {name : String} (found : node.field? name = some child) :
    child.size < node.size :=
  size_lt_of_mem (List.mem_of_find?_eq_some found)

/-! ## Outlines -/

/-- The forest of an outline, each tree with its depth: an entry takes the deeper
trees that follow it as its children. -/
def forest (outline : List (Nat × Label)) : List (Nat × Node) :=
  outline.foldr
    (fun (depth, label) following =>
      let (below, beside) := following.span (fun (other, _) => depth < other)
      (depth, mk label (below.map Prod.snd)) :: beside)
    []

/-- The tree of an outline with a single root. -/
def ofOutline? (outline : List (Nat × Label)) : Option Node :=
  match forest outline with
  | [(0, root)] => some root
  | _ => none

end Node
end Retouch
