import Retouch.Tree.Traversal

/-!
# Going through the sites of a tree

A walk reaches a site by going down from the root, child by child.  So what holds of the
root and passes from a site to its children holds of every site of the tree
(`Tree.forall_mem_sites`).  The children of a site have the children of its node, in the
same order; a field name finds the same child in both (`Site.field?_node`).

The innermost site that a test accepts exists as soon as the test accepts any site, and it
is the last of those (`Tree.innermost?_eq_none_iff`, `Tree.innermost?_eq_some_iff`).
-/

set_option autoImplicit false

namespace Retouch

/-! ## Children -/

namespace Site

theorem exists_of_mem_childrenFrom {site child : Site} {number : Nat} {nodes : List Node}
    (member : child ∈ site.childrenFrom number nodes) :
    ∃ node ∈ nodes, ∃ number, child = site.child node number := by
  induction nodes generalizing number with
  | nil => cases member
  | cons first rest ih =>
    rw [childrenFrom] at member
    rcases List.mem_cons.1 member with rfl | member
    · exact ⟨first, by simp, number, rfl⟩
    · obtain ⟨node, later, found⟩ := ih member
      exact ⟨node, List.mem_cons_of_mem _ later, found⟩

theorem map_node_childrenFrom (site : Site) (number : Nat) (nodes : List Node) :
    (site.childrenFrom number nodes).map node = nodes := by
  induction nodes generalizing number with
  | nil => rfl
  | cons first rest ih => rw [childrenFrom, List.map_cons, ih]; rfl

theorem map_node_children (site : Site) : site.children.map node = site.node.children :=
  map_node_childrenFrom site 0 site.node.children

/-- The named children of a site are the sites of the named children. -/
theorem map_node_namedChildren (site : Site) :
    site.namedChildren.map node = site.node.namedChildren := by
  rw [Node.namedChildren, ← map_node_children, List.filter_map]
  rfl

/-- The child found under a field name is the site of the one found in the node. -/
theorem field?_node (site : Site) (name : String) :
    (site.field? name).map node = site.node.field? name := by
  rw [Node.field?, ← map_node_children, List.find?_map]
  rfl

theorem field?_node_of_eq_some {site child : Site} {name : String}
    (found : site.field? name = some child) : site.node.field? name = some child.node := by
  rw [← field?_node, found]
  rfl

theorem exists_field?_of_node {site : Site} {name : String} {node : Node}
    (found : site.node.field? name = some node) :
    ∃ child, site.field? name = some child ∧ child.node = node :=
  Option.map_eq_some_iff.1 ((site.field?_node name).trans found)

theorem mem_children_of_field? {site child : Site} {name : String}
    (found : site.field? name = some child) : child ∈ site.children :=
  List.mem_of_find?_eq_some found

theorem mem_children_of_mem_namedChildren {site child : Site}
    (member : child ∈ site.namedChildren) : child ∈ site.children :=
  (List.mem_filter.1 member).1

/-! ## Descendants -/

theorem preorder_append (sites others : List Site) :
    preorder (sites ++ others) = preorder sites ++ preorder others := by
  induction sites using preorder.induct with
  | case1 => rw [preorder.eq_1, List.nil_append, List.nil_append]
  | case2 first rest ih =>
    rw [List.cons_append, preorder, preorder, ← List.append_assoc, ih, List.cons_append]

theorem mem_descendants_of_mem_namedChildren {site child : Site}
    (member : child ∈ site.namedChildren) :
    child ∈ site.descendants ∧ ∀ below ∈ child.descendants, below ∈ site.descendants := by
  obtain ⟨earlier, later, children⟩ := List.append_of_mem member
  rw [descendants, children, preorder_append, preorder, preorder_append]
  refine ⟨by simp, ?_⟩
  intro below inside
  have inside : below ∈ preorder child.namedChildren := inside
  simp [inside]

end Site

theorem Event.mem_filterMap_entered? {events : List Event} {site : Site} :
    site ∈ events.filterMap entered? ↔ enter site ∈ events := by
  rw [List.mem_filterMap]
  constructor
  · rintro ⟨event, told, entered⟩
    cases event with
    | enter other =>
      obtain rfl := Option.some.inj entered
      exact told
    | leave _ => cases entered
  · exact fun told => ⟨enter site, told, rfl⟩

namespace Tree

/-! ## The sites of a walk -/

/-- Whether a property passes from a site to its children. -/
def PassesDown (property : Site → Prop) : Prop :=
  ∀ site : Site, property site → ∀ node ∈ site.node.children, ∀ number,
    property (site.child node number)

section Down

variable {property : Site → Prop} {source : Text}

mutual

theorem forall_mem_eventsBelow (down : PassesDown property) : (node : Node) →
    (above : List (Node × Nat)) → property ⟨source, node, above⟩ →
    ∀ event ∈ eventsBelow source above node, property event.site
  | .mk label children, above, here => by
    intro event member
    have inner := forall_mem_eventsBelowAll down children (.mk label children) above 0 here
      fun _ child => child
    rw [eventsBelow] at member
    split at member
    · rcases List.mem_append.1 member with entered | left
      · rcases List.mem_cons.1 entered with rfl | inside
        · exact here
        · exact inner event inside
      · rw [List.mem_singleton.1 left]
        exact here
    · exact inner event member

theorem forall_mem_eventsBelowAll (down : PassesDown property) : (nodes : List Node) →
    (parent : Node) → (above : List (Node × Nat)) → (number : Nat) →
    property ⟨source, parent, above⟩ → (∀ node ∈ nodes, node ∈ parent.children) →
    ∀ event ∈ eventsBelowAll source parent above number nodes, property event.site
  | [], _, _, _, _, _ => by
    intro event member
    cases member
  | first :: rest, parent, above, number, here, children => by
    intro event member
    rw [eventsBelowAll] at member
    rcases List.mem_append.1 member with inside | later
    · exact forall_mem_eventsBelow down first ((parent, number) :: above)
        (down ⟨source, parent, above⟩ here first (children first List.mem_cons_self) number)
        event inside
    · exact forall_mem_eventsBelowAll down rest parent above (number + 1) here
        (fun node member => children node (List.mem_cons_of_mem _ member)) event later

end

/-- **What holds of the root and passes to children holds of every site.** -/
theorem forall_mem_sites {tree : Tree} (down : PassesDown property)
    (root : property tree.rootSite) : ∀ site ∈ tree.sites, property site := by
  intro site member
  exact forall_mem_eventsBelow down tree.root [] root (.enter site)
    (Event.mem_filterMap_entered?.1 member)

end Down

/-! ## The innermost site -/

section Innermost

variable {tree : Tree} {accepts : Site → Bool}

theorem innermost?_eq_none_iff :
    tree.innermost? accepts = none ↔ ∀ site ∈ tree.sites, accepts site = false := by
  rw [innermost?, List.getLast?_eq_none_iff, List.filter_eq_nil_iff]
  simp only [Bool.not_eq_true]

theorem exists_innermost? {site : Site} (member : site ∈ tree.sites)
    (accepted : accepts site = true) : ∃ target, tree.innermost? accepts = some target := by
  refine Option.ne_none_iff_exists'.1 fun nothing => ?_
  rw [innermost?_eq_none_iff.1 nothing site member] at accepted
  cases accepted

/-- The innermost site is the last accepted one. -/
theorem innermost?_eq_some_iff {site : Site} :
    tree.innermost? accepts = some site ↔ accepts site = true ∧
      ∃ earlier later, tree.sites = earlier ++ site :: later ∧
        ∀ other ∈ later, accepts other = false := by
  rw [innermost?, List.getLast?_eq_head?_reverse, ← List.filter_reverse, List.head?_filter,
    List.find?_eq_some_iff_append]
  refine and_congr_right fun _ => ?_
  constructor
  · rintro ⟨after, before, parted, refused⟩
    refine ⟨before.reverse, after.reverse, ?_, ?_⟩
    · rw [← List.reverse_reverse tree.sites, parted]
      simp
    · intro other member
      simpa using refused other (List.mem_reverse.1 member)
  · rintro ⟨earlier, later, parted, refused⟩
    refine ⟨later.reverse, earlier.reverse, by rw [parted]; simp, ?_⟩
    intro other member
    simpa using refused other (List.mem_reverse.1 member)

theorem mem_of_innermost? {site : Site} (found : tree.innermost? accepts = some site) :
    site ∈ tree.sites ∧ accepts site = true :=
  List.mem_filter.1 (List.mem_of_getLast? found)

end Innermost
end Tree
end Retouch
