import Retouch.Tree.Node

/-!
# Sites

A site is a node in its place in a parsed text: with the text and with the nodes
above it.  From a site one can go up as well as down.  Two sites of a tree are the
same when the ways down to them from the root are.
-/

set_option autoImplicit false

namespace Retouch

/-- A text with the root of its tree. -/
structure Tree where
  source : Text
  root : Node

instance : Inhabited Tree := ⟨⟨[], default⟩⟩

/-- A node in place.  The nodes above it are listed from its parent upwards, each
with the number of the child that the way down takes. -/
structure Site where
  source : Text
  node : Node
  above : List (Node × Nat)

def Tree.rootSite (tree : Tree) : Site := ⟨tree.source, tree.root, []⟩

namespace Site

def kind (site : Site) : String := site.node.kind

/-- Whether the node is of a kind. -/
def is (site : Site) (kind : String) : Bool := site.node.is kind

def text (site : Site) : Text := site.node.textIn site.source

def range (site : Site) : Selection := site.node.rangeIn site.source

def operator? (site : Site) : Option String := site.node.operator?

/-- The way from the root down to a site, from its end. -/
def address (site : Site) : List Nat := site.above.map Prod.snd

/-- Whether two sites of one tree are the same. -/
def isSameAs (site other : Site) : Bool := site.address == other.address

/-! ## Going up and down -/

def parent? (site : Site) : Option Site :=
  match site.above with
  | [] => none
  | (parent, _) :: above => some ⟨site.source, parent, above⟩

/-- The site of a child, given with its number. -/
def child (site : Site) (node : Node) (number : Nat) : Site :=
  ⟨site.source, node, (site.node, number) :: site.above⟩

def firstChild? (site : Site) : Option Site := site.node.children[0]?.map (site.child · 0)

/-- The site of the child of the same parent that comes next. -/
def nextSibling? (site : Site) : Option Site :=
  match site.above with
  | [] => none
  | (parent, number) :: above =>
    parent.children[number + 1]?.map (child ⟨site.source, parent, above⟩ · (number + 1))

/-- The sites of the children that are left from a number on. -/
def childrenFrom (site : Site) (number : Nat) : List Node → List Site
  | [] => []
  | node :: rest => site.child node number :: childrenFrom site (number + 1) rest

def children (site : Site) : List Site := site.childrenFrom 0 site.node.children

def namedChildren (site : Site) : List Site := site.children.filter (·.node.isNamed)

/-- The child found under a field name. -/
def field? (site : Site) (name : String) : Option Site :=
  site.children.find? (·.node.carries name)

/-! ## Descendants -/

/-- How many nodes there are in the subtrees of a list of sites. -/
def weight : List Site → Nat
  | [] => 0
  | first :: rest => first.node.size + weight rest

theorem weight_append (sites others : List Site) :
    weight (sites ++ others) = weight sites + weight others := by
  induction sites with
  | nil => exact (Nat.zero_add _).symm
  | cons first rest ih => rw [List.cons_append, weight, weight, ih, Nat.add_assoc]

theorem weight_filter_le (keep : Site → Bool) (sites : List Site) :
    weight (sites.filter keep) ≤ weight sites := by
  induction sites with
  | nil => exact Nat.le_refl _
  | cons first rest ih =>
    rw [List.filter_cons]
    split
    · exact Nat.add_le_add_left ih _
    · exact Nat.le_trans ih (Nat.le_add_left _ _)

theorem weight_childrenFrom (site : Site) (number : Nat) (nodes : List Node) :
    weight (site.childrenFrom number nodes) = Node.sizeOfAll nodes := by
  induction nodes generalizing number with
  | nil => rfl
  | cons first rest ih =>
    rw [childrenFrom, weight, Node.sizeOfAll, ih (number + 1)]
    rfl

theorem weight_namedChildren_lt (site : Site) : weight site.namedChildren < site.node.size := by
  refine Nat.lt_of_le_of_lt (weight_filter_le _ _) ?_
  rw [children, weight_childrenFrom, Node.size_eq]
  exact Nat.lt_succ_self _

/-- The named sites below the sites of a worklist, with the worklist itself: the
first site is taken off and its named children are put in its place. -/
def preorder (pending : List Site) : List Site :=
  match pending with
  | [] => []
  | first :: rest => first :: preorder (first.namedChildren ++ rest)
termination_by weight pending
decreasing_by
  rw [weight_append, weight]
  exact Nat.add_lt_add_right (weight_namedChildren_lt first) _

/-- The named sites below a site that are reached through named sites, in document
order. -/
def descendants (site : Site) : List Site := preorder site.namedChildren

end Site
end Retouch
