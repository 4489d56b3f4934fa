import Mathlib.Data.List.Pairwise
import Retouch.Proofs.Buffer.DocumentOrder
import Retouch.Proofs.Tree.Coordinates
import Retouch.Proofs.Tree.Sites

/-!
# The shape of a tree

What a parser makes of a text without faults has a certain shape (`Node.IsRegular`): a
node stands between two characters each, at offsets that are words; its children stand one
after another within it; every field name is that of a child of its own; and an `if` with
an alternative has a consequence and something in its condition.

The shape of a whole tree is the shape of every node of it, and so it is found again at
each of its sites and above it (`Tree.IsRegular.site`).  The ranges of regular nodes are
ranges of the buffer (`Node.IsRegular.hasPlace`), and nodes that stand apart can be edited
together (`Node.IsRegular.not_overlaps`).
-/

set_option autoImplicit false

namespace Retouch

open Text

/-! ## Offsets that are words -/

namespace Text

variable {source : Text} {first second : Nat}

instance (source : Text) (offset : Nat) : Decidable (source.IsBoundary offset) :=
  decidable_of_iff ((splitAtByte? offset source).isSome = true) isSome_splitAtByte?_iff

/-- The position of a word that stands between two characters is a place. -/
theorem IsBoundary.hasPlace (boundary : source.IsBoundary first) (word : first < 2 ^ 32) :
    source.HasPlace (Node.place source first) := by
  obtain ⟨before, begins, rfl⟩ := boundary
  rw [Node.place_byteLength begins]
  exact (fits_of_byteLength_lt word).hasPlace_reach begins

/-- Positions of words stand in the order of the words. -/
theorem IsBoundary.place_le (boundary : source.IsBoundary first)
    (boundary' : source.IsBoundary second) (ordered : first ≤ second) (word : second < 2 ^ 32) :
    Node.place source first ≤ Node.place source second := by
  obtain ⟨before, begins, rfl⟩ := boundary
  obtain ⟨before', begins', rfl⟩ := boundary'
  have fits := fits_of_byteLength_lt (Nat.lt_of_le_of_lt ordered word)
  rw [Node.place_byteLength begins, Node.place_byteLength begins',
    fits.reach_le_iff (fits_of_byteLength_lt word) begins begins']
  exact ordered

end Text

/-! ## Regular nodes -/

namespace Node

/-- Whether a property holds of a node and of every node below it. -/
inductive Everywhere (property : Node → Prop) : Node → Prop where
  | intro {node : Node} (here : property node)
      (below : ∀ child ∈ node.children, Everywhere property child) : Everywhere property node

namespace Everywhere

variable {property : Node → Prop} {node inner : Node}

theorem self (everywhere : Everywhere property node) : property node := by
  cases everywhere with
  | intro here below => exact here

theorem child (everywhere : Everywhere property node) (member : inner ∈ node.children) :
    Everywhere property inner := by
  cases everywhere with
  | intro here below => exact below inner member

theorem imp {weaker : Node → Prop} (implies : ∀ node, property node → weaker node)
    (everywhere : Everywhere property node) : Everywhere weaker node := by
  induction everywhere with
  | intro here below ih => exact .intro (implies _ here) ih

section Decide

mutual

/-- Goes through a node and all nodes below it. -/
def decided (property : Node → Prop) [DecidablePred property] :
    (node : Node) → Decidable (Everywhere property node)
  | .mk label children =>
    if here : property (.mk label children) then
      match decidedAll property children with
      | .isTrue below => .isTrue (.intro here below)
      | .isFalse fails => .isFalse fun everywhere => fails fun _ => everywhere.child
    else .isFalse fun everywhere => here everywhere.self

def decidedAll (property : Node → Prop) [DecidablePred property] :
    (nodes : List Node) → Decidable (∀ node ∈ nodes, Everywhere property node)
  | [] => .isTrue nofun
  | first :: rest =>
    match decided property first with
    | .isTrue here =>
      match decidedAll property rest with
      | .isTrue later => .isTrue (List.forall_mem_cons.2 ⟨here, later⟩)
      | .isFalse fails => .isFalse fun all => fails (List.forall_mem_cons.1 all).2
    | .isFalse fails => .isFalse fun all => fails (List.forall_mem_cons.1 all).1

end

instance [DecidablePred property] : DecidablePred (Everywhere property) := decided property

end Decide

end Everywhere

/-- Whether a node stands before or after another. -/
def Apart (first second : Node) : Prop :=
  first.label.stop ≤ second.label.start ∨ second.label.stop ≤ first.label.start

/-- Whether a node stands between the ends of another. -/
structure Within (inner outer : Node) : Prop where
  start : outer.label.start ≤ inner.label.start
  stop : inner.label.stop ≤ outer.label.stop

instance (inner outer : Node) : Decidable (inner.Within outer) :=
  decidable_of_iff (outer.label.start ≤ inner.label.start ∧ inner.label.stop ≤ outer.label.stop)
    ⟨fun both => ⟨both.1, both.2⟩, fun within => ⟨within.start, within.stop⟩⟩

instance : Std.Symm Apart := ⟨fun _ _ apart => Or.symm apart⟩

theorem Apart.of_within {first second inner : Node} (apart : first.Apart second)
    (within : inner.Within first) : inner.Apart second := by
  rcases apart with before | after
  · exact .inl (Nat.le_trans within.stop before)
  · exact .inr (Nat.le_trans after within.start)

/-- **What a parser guarantees of a node** of a text without faults.  The parser counts
bytes in words of 32 bits, so no node ends beyond them. -/
structure IsRegular (source : Text) (node : Node) : Prop where
  spans : node.Spans source
  word : node.label.stop < 2 ^ 32
  nested : ∀ child ∈ node.children, child.Within node
  inOrder : node.children.Pairwise fun first second => first.label.stop ≤ second.label.start
  fields : ∀ name name' child, node.field? name = some child → node.field? name' = some child →
    name = name'
  branches : node.is "if_statement" = true → (node.field? "alternative").isSome = true →
    (node.field? "consequence").isSome = true ∧
      (node.field? "condition").any (!·.namedChildren.isEmpty) = true

namespace IsRegular

variable {source : Text} {node first second : Node}

/-- Two children stand apart. -/
theorem apart (regular : node.IsRegular source) (member : first ∈ node.children)
    (member' : second ∈ node.children) (distinct : first ≠ second) : first.Apart second :=
  (regular.inOrder.imp fun before => .inl before : node.children.Pairwise Apart).forall
    member member' distinct

/-- Two fields stand apart. -/
theorem apart_of_field? (regular : node.IsRegular source) {name name' : String}
    (found : node.field? name = some first) (found' : node.field? name' = some second)
    (distinct : name ≠ name') : first.Apart second := by
  refine regular.apart (List.mem_of_find?_eq_some found) (List.mem_of_find?_eq_some found') ?_
  rintro rfl
  exact distinct (regular.fields name name' first found found')

theorem rangeIn_eq (regular : node.IsRegular source) :
    ∃ ordered, node.rangeIn source =
      ⟨place source node.label.start, place source node.label.stop, ordered⟩ := by
  have ordered := regular.spans.start.place_le regular.spans.stop regular.spans.ordered
    regular.word
  exact ⟨ordered, Selection.between_of_le ordered⟩

/-- The ends of a node are places of the text. -/
theorem hasPlace (regular : node.IsRegular source) :
    source.HasPlace (node.rangeIn source).start ∧ source.HasPlace (node.rangeIn source).stop := by
  obtain ⟨ordered, range⟩ := regular.rangeIn_eq
  rw [range]
  exact ⟨regular.spans.start.hasPlace (Nat.lt_of_le_of_lt regular.spans.ordered regular.word),
    regular.spans.stop.hasPlace regular.word⟩

/-- **Edits of nodes that stand apart do not overlap.** -/
theorem not_overlaps (regular : first.IsRegular source) (regular' : second.IsRegular source)
    (apart : first.Apart second) (code code' : Text) :
    ¬ Edit.Overlaps ⟨code, first.rangeIn source⟩ ⟨code', second.rangeIn source⟩ := by
  obtain ⟨_, range⟩ := regular.rangeIn_eq
  obtain ⟨_, range'⟩ := regular'.rangeIn_eq
  rw [range, range']
  rintro ⟨starts, starts'⟩
  rcases apart with before | after
  · have word := Nat.lt_of_le_of_lt regular'.spans.ordered regular'.word
    exact not_lt.2 (regular.spans.stop.place_le regular'.spans.start before word) starts'
  · have word := Nat.lt_of_le_of_lt regular.spans.ordered regular.word
    exact not_lt.2 (regular'.spans.stop.place_le regular.spans.start after word) starts

end IsRegular

/-! ## Checking a shape -/

instance (node : Node) (source : Text) : Decidable (node.Spans source) :=
  decidable_of_iff (source.IsBoundary node.label.start ∧ source.IsBoundary node.label.stop ∧
      node.label.start ≤ node.label.stop)
    ⟨fun all => ⟨all.1, all.2.1, all.2.2⟩, fun spans => ⟨spans.start, spans.stop, spans.ordered⟩⟩

theorem mem_fields_of_field? {node child : Node} {name : String}
    (found : node.field? name = some child) : name ∈ child.label.fields := by
  rw [field?] at found
  have carried := List.find?_some found
  exact List.contains_iff_mem.1 carried

/-- A shape that can be evaluated: as a regular one, and no child carries two names. -/
def IsPlain (source : Text) (node : Node) : Prop :=
  node.Spans source ∧ node.label.stop < 2 ^ 32 ∧
    (∀ child ∈ node.children, child.Within node ∧ child.label.fields.length ≤ 1) ∧
    (node.children.Pairwise fun first second => first.label.stop ≤ second.label.start) ∧
    (node.is "if_statement" = true → (node.field? "alternative").isSome = true →
      (node.field? "consequence").isSome = true ∧
        (node.field? "condition").any (!·.namedChildren.isEmpty) = true)

instance (source : Text) : DecidablePred (IsPlain source) :=
  fun _ => inferInstanceAs (Decidable (_ ∧ _ ∧ _ ∧ _ ∧ _))

theorem IsPlain.isRegular {source : Text} {node : Node} (plain : node.IsPlain source) :
    node.IsRegular source := by
  obtain ⟨spans, word, children, inOrder, branches⟩ := plain
  refine ⟨spans, word, fun child member => (children child member).1, inOrder, ?_, branches⟩
  intro name name' child found found'
  have single := (children child (List.mem_of_find?_eq_some found)).2
  have carried := mem_fields_of_field? found
  have carried' := mem_fields_of_field? found'
  match names : child.label.fields with
  | [] => rw [names] at carried; cases carried
  | [only] =>
    rw [names] at carried carried'
    exact (List.mem_singleton.1 carried).trans (List.mem_singleton.1 carried').symm
  | _ :: _ :: _ => rw [names] at single; exact absurd single (by simp)

end Node

/-! ## Regular sites -/

/-- Whether all nodes from a site downwards, and from those above it, are regular. -/
structure Site.IsRegular (site : Site) : Prop where
  below : site.node.Everywhere (Node.IsRegular site.source)
  above : ∀ entry ∈ site.above, entry.1.Everywhere (Node.IsRegular site.source)

/-- Whether all nodes of a tree are regular. -/
def Tree.IsRegular (tree : Tree) : Prop :=
  tree.root.Everywhere (Node.IsRegular tree.source)

/-- A regular site of the same text between the ends of another. -/
structure Site.LiesIn (inner outer : Site) : Prop where
  regular : inner.IsRegular
  source_eq : inner.source = outer.source
  within : inner.node.Within outer.node

namespace Site.IsRegular

variable {site child child' : Site}

theorem node (regular : site.IsRegular) : site.node.IsRegular site.source := regular.below.self

theorem liesIn (regular : site.IsRegular) : site.LiesIn site :=
  ⟨regular, rfl, Nat.le_refl _, Nat.le_refl _⟩

/-- The ends of a site are places of its text. -/
theorem hasPlace (regular : site.IsRegular) {source : Text} (same : site.source = source) :
    source.HasPlace site.range.start ∧ source.HasPlace site.range.stop := by
  rw [← same]
  exact regular.node.hasPlace

theorem child_node (regular : site.IsRegular) {node : Node} (member : node ∈ site.node.children)
    (number : Nat) : (site.child node number).IsRegular := by
  refine ⟨regular.below.child member, ?_⟩
  intro entry upper
  rcases List.mem_cons.1 upper with rfl | upper
  · exact regular.below
  · exact regular.above entry upper

theorem liesIn_of_mem_children (regular : site.IsRegular) (member : child ∈ site.children) :
    child.LiesIn site := by
  obtain ⟨node, inside, number, rfl⟩ := Site.exists_of_mem_childrenFrom member
  exact ⟨regular.child_node inside number, rfl, regular.node.nested node inside⟩

theorem liesIn_of_field? (regular : site.IsRegular) {name : String}
    (found : site.field? name = some child) : child.LiesIn site :=
  regular.liesIn_of_mem_children (Site.mem_children_of_field? found)

/-- Two fields of a site stand apart. -/
theorem apart_of_field? (regular : site.IsRegular) {name name' : String}
    (found : site.field? name = some child) (found' : site.field? name' = some child')
    (distinct : name ≠ name') : child.node.Apart child'.node :=
  regular.node.apart_of_field? (Site.field?_node_of_eq_some found)
    (Site.field?_node_of_eq_some found') distinct

theorem parent (regular : site.IsRegular) {parent : Site} (found : site.parent? = some parent) :
    parent.IsRegular ∧ parent.source = site.source := by
  unfold Site.parent? at found
  split at found
  · cases found
  · rename_i upper number above enclosing
    obtain rfl := Option.some.inj found
    have inside := regular.above
    rw [enclosing] at inside
    exact ⟨⟨inside _ List.mem_cons_self, fun entry member =>
      inside entry (List.mem_cons_of_mem _ member)⟩, rfl⟩

end Site.IsRegular

namespace Site.LiesIn

variable {inner outer inner' outer' : Site}

theorem hasPlace (lies : inner.LiesIn outer) {source : Text} (same : outer.source = source) :
    source.HasPlace inner.range.start ∧ source.HasPlace inner.range.stop :=
  lies.regular.hasPlace (lies.source_eq.trans same)

/-- **Edits within sites that stand apart do not overlap.** -/
theorem not_overlaps (lies : inner.LiesIn outer) (lies' : inner'.LiesIn outer')
    (same : outer.source = outer'.source) (apart : outer.node.Apart outer'.node)
    (code code' : Text) : ¬ Edit.Overlaps ⟨code, inner.range⟩ ⟨code', inner'.range⟩ := by
  have source_eq : inner.source = inner'.source :=
    lies.source_eq.trans (same.trans lies'.source_eq.symm)
  have parted := (symm (apart.of_within lies.within)).of_within lies'.within
  rw [Site.range, Site.range, source_eq]
  exact (source_eq ▸ lies.regular.node).not_overlaps lies'.regular.node (symm parted) code code'

end Site.LiesIn

/-- A tree whose nodes have a shape that can be evaluated is regular. -/
theorem Tree.isRegular_of_isPlain {tree : Tree}
    (plain : tree.root.Everywhere (Node.IsPlain tree.source)) : tree.IsRegular :=
  plain.imp fun _ => Node.IsPlain.isRegular

/-- What holds of all nodes of a tree holds of all nodes below each of its sites. -/
theorem Tree.everywhere_of_mem_sites {tree : Tree} {property : Node → Prop}
    (everywhere : tree.root.Everywhere property) :
    ∀ site ∈ tree.sites, site.node.Everywhere property := by
  refine Tree.forall_mem_sites ?_ everywhere
  rintro site inherited node member number
  exact inherited.child member

/-- **Every site of a regular tree is regular.** -/
theorem Tree.IsRegular.site {tree : Tree} (regular : tree.IsRegular) :
    ∀ site ∈ tree.sites, site.IsRegular ∧ site.source = tree.source := by
  refine Tree.forall_mem_sites ?_ ⟨⟨regular, nofun⟩, rfl⟩
  rintro site ⟨inherited, source⟩ node member number
  exact ⟨inherited.child_node member number, source⟩

end Retouch
