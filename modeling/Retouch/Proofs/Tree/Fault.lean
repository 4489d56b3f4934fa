import Retouch.Proofs.Tree.Walk
import Retouch.Tree.Fault

/-!
# What a search for faults finds

A search for faults knows only the site that it has come to, like a walk, but goes down from
it only where the site is flagged.  What it does at a site is to list the faults there and
below, and then to go on behind the site (`faultsFrom_eq`).  That it loses none by not going
down is what the flags are for: whatever encloses a fault is flagged (`IsFlagged`).

**Result.**  The faults listed are those of all faulty sites of the tree, named or not, each
once and in document order.  A tree is accepted if it has none, and is refused by the first of
them otherwise, so that the message for a refusal without a fault is never used
(`accepts_faultless`).

All sites of a tree are listed in document order by `Site.subtree`, anonymous ones included,
which the events of a walk leave out.
-/

set_option autoImplicit false

namespace Retouch
namespace Tree

/-! ## All sites -/

mutual

/-- The sites from a node downwards, named or not, in document order. -/
def sitesBelow (source : Text) (above : List (Node × Nat)) : Node → List Site
  | .mk label children =>
    ⟨source, .mk label children, above⟩ ::
      sitesBelowAll source (.mk label children) above 0 children

def sitesBelowAll (source : Text) (parent : Node) (above : List (Node × Nat)) (number : Nat) :
    List Node → List Site
  | [] => []
  | first :: rest =>
    sitesBelow source ((parent, number) :: above) first ++
      sitesBelowAll source parent above (number + 1) rest

end

end Tree

namespace Site

/-- A site and all sites below it, in document order. -/
def subtree (site : Site) : List Site := Tree.sitesBelow site.source site.above site.node

variable {site child inner found : Site} {way : List Nat}

theorem sitesBelowAll_eq (site : Site) (number : Nat) (nodes : List Node) :
    Tree.sitesBelowAll site.source site.node site.above number nodes =
      (site.childrenFrom number nodes).flatMap subtree := by
  induction nodes generalizing number with
  | nil => rfl
  | cons first rest ih =>
    rw [Tree.sitesBelowAll, ih, childrenFrom, List.flatMap_cons]
    rfl

theorem subtree_eq (site : Site) : site.subtree = site :: site.children.flatMap subtree := by
  obtain ⟨source, ⟨label, children⟩, above⟩ := site
  rw [Site.children, ← sitesBelowAll_eq]
  rfl

/-- The sites to which a way leads down are listed, and no others. -/
theorem mem_subtree : inner ∈ site.subtree ↔ ∃ way, site.down way = some inner := by
  induction site using children_induction with
  | step site ih =>
    rw [subtree_eq, List.mem_cons, List.mem_flatMap]
    constructor
    · rintro (rfl | ⟨child, member, listed⟩)
      · exact ⟨[], rfl⟩
      · obtain ⟨way, reached⟩ := (ih child member).1 listed
        obtain ⟨number, here⟩ := List.getElem?_of_mem member
        exact ⟨number :: way, down_cons_eq_some_iff.2 ⟨child, here, reached⟩⟩
    · rintro ⟨_ | ⟨number, way⟩, reached⟩
      · exact .inl (Option.some.inj reached).symm
      · obtain ⟨child, here, reached⟩ := down_cons_eq_some_iff.1 reached
        have member := List.mem_of_getElem? here
        exact .inr ⟨child, member, (ih child member).2 ⟨way, reached⟩⟩

/-- What is below a site is listed for one of its children. -/
theorem isAbove_iff :
    site.IsAbove inner ↔ ∃ child ∈ site.children, inner ∈ child.subtree := by
  constructor
  · rintro ⟨number, way, reached⟩
    obtain ⟨child, here, reached⟩ := down_cons_eq_some_iff.1 reached
    exact ⟨child, List.mem_of_getElem? here, mem_subtree.2 ⟨way, reached⟩⟩
  · rintro ⟨child, member, listed⟩
    obtain ⟨way, reached⟩ := mem_subtree.1 listed
    obtain ⟨number, here⟩ := List.getElem?_of_mem member
    exact ⟨number, way, down_cons_eq_some_iff.2 ⟨child, here, reached⟩⟩

theorem mem_subtree_of_child (member : child ∈ site.children) (listed : inner ∈ child.subtree) :
    inner ∈ site.subtree := by
  rw [subtree_eq]
  exact List.mem_cons_of_mem _ (List.mem_flatMap.2 ⟨child, member, listed⟩)

/-- The sites are listed in document order. -/
theorem pairwise_subtree (site : Site) :
    site.subtree.Pairwise fun first second => first.IsAbove second ∨ first.Precedes second := by
  induction site using children_induction with
  | step site ih =>
    rw [subtree_eq, List.pairwise_cons]
    refine ⟨fun inner listed => .inl (isAbove_iff.2 (List.mem_flatMap.1 listed)), ?_⟩
    -- The ways to what is below different children part at the site itself.
    refine List.pairwise_flatMap.2 ⟨ih, List.pairwise_iff_getElem.2 ?_⟩
    intro number number' inside inside' before first listed second listed'
    obtain ⟨way, reached⟩ := mem_subtree.1 listed
    obtain ⟨way', reached'⟩ := mem_subtree.1 listed'
    exact .inr ⟨site, number, number', way, way', before,
      down_cons_eq_some_iff.2 ⟨_, List.getElem?_eq_getElem inside, reached⟩,
      down_cons_eq_some_iff.2 ⟨_, List.getElem?_eq_getElem inside', reached'⟩⟩

theorem nodup_subtree (site : Site) : site.subtree.Nodup := by
  refine site.pairwise_subtree.imp ?_
  rintro inner _ before rfl
  exact not_or_intro inner.not_isAbove_self inner.not_precedes_self before

/-- All sites of a tree have its source. -/
theorem source_of_down (reached : site.down way = some found) : found.source = site.source := by
  induction way generalizing site with
  | nil =>
    obtain rfl := Option.some.inj reached
    rfl
  | cons number way ih =>
    obtain ⟨child, here, further⟩ := down_cons_eq_some_iff.1 reached
    rw [getElem?_children] at here
    obtain ⟨node, -, rfl⟩ := Option.map_eq_some_iff.1 here
    have same : found.source = (site.child node number).source := ih further
    exact same

/-! ## The search -/

/-- Whether all enclosing sites from a site downwards are flagged. -/
def IsFlagged (site : Site) : Prop :=
  ∀ outer ∈ site.subtree, ∀ inner, outer.IsAbove inner → inner.node.label.isFaulty = true →
    outer.node.label.hasError = true

theorem IsFlagged.of_mem_children (flagged : site.IsFlagged) (member : child ∈ site.children) :
    child.IsFlagged :=
  fun outer listed => flagged outer (mem_subtree_of_child member listed)

/-- Below a site that is not flagged there are no faults. -/
theorem IsFlagged.filterMap_fault? (flagged : site.IsFlagged)
    (unflagged : ¬ site.node.label.hasError = true) :
    (site.children.flatMap subtree).filterMap fault? = [] := by
  refine List.filterMap_eq_nil_iff.2 fun inner listed => if_neg fun faulty => unflagged ?_
  exact flagged site (by rw [subtree_eq]; exact List.mem_cons_self) inner
    (isAbove_iff.2 (List.mem_flatMap.1 listed)) faulty

end Site

namespace Tree

variable {site : Site}

theorem faultsFrom_of_firstChild {child : Site} (flag : site.node.label.hasError = true)
    (first : site.firstChild? = some child) :
    faultsFrom site = site.fault?.toList ++ faultsFrom child := by
  rw [faultsFrom, if_pos flag]
  split
  · rename_i other found
    rw [Option.some.inj (found.symm.trans first)]
  · rename_i nothing
    cases nothing.symm.trans first

theorem faultsFrom_of_leaf (leaf : site.firstChild? = none) :
    faultsFrom site = site.fault?.toList ++ faultsAfter site := by
  rw [faultsFrom]
  split
  · split
    · rename_i found
      cases found.symm.trans leaf
    · rfl
  · rfl

theorem faultsFrom_of_unflagged (unflagged : ¬ site.node.label.hasError = true) :
    faultsFrom site = site.fault?.toList ++ faultsAfter site := by
  rw [faultsFrom, if_neg unflagged]

theorem faultsAfter_child {number : Nat} {node next : Node}
    (following : site.node.children[number + 1]? = some next) :
    faultsAfter (site.child node number) = faultsFrom (site.child next (number + 1)) := by
  have sibling : (site.child node number).nextSibling? = some (site.child next (number + 1)) :=
    Option.map_eq_some_iff.2 ⟨next, following, rfl⟩
  rw [faultsAfter]
  split
  · rename_i other found
    rw [Option.some.inj (found.symm.trans sibling)]
  · rename_i nothing
    cases nothing.symm.trans sibling

theorem faultsAfter_lastChild {number : Nat} {node : Node}
    (last : site.node.children[number + 1]? = none) :
    faultsAfter (site.child node number) = faultsAfter site := by
  have nothing : (site.child node number).nextSibling? = none := Option.map_eq_none_iff.2 last
  have up : (site.child node number).parent? = some site := rfl
  rw [faultsAfter]
  split
  · rename_i found
    cases found.symm.trans nothing
  · split
    · rename_i parent found
      rw [Option.some.inj (found.symm.trans up)]
    · rename_i none
      cases none.symm.trans up

/-- The search through the children of a site that are left from a number on. -/
theorem faultsFrom_child
    (each : ∀ child ∈ site.children,
      faultsFrom child = child.subtree.filterMap Site.fault? ++ faultsAfter child)
    {number : Nat} {first : Node} {rest : List Node}
    (left : site.node.children.drop number = first :: rest) :
    faultsFrom (site.child first number) =
      ((site.childrenFrom number (first :: rest)).flatMap Site.subtree).filterMap Site.fault? ++
        faultsAfter site := by
  -- Behind every child but the last comes its sibling; behind the last one the site itself.
  induction rest generalizing number first with
  | nil =>
    obtain ⟨member, after⟩ := Site.mem_children_of_drop left
    rw [each _ member, faultsAfter_lastChild (by rw [← List.head?_drop, after]; rfl)]
    simp only [Site.childrenFrom, List.flatMap_cons, List.flatMap_nil, List.append_nil]
  | cons second rest ih =>
    obtain ⟨member, after⟩ := Site.mem_children_of_drop left
    have parted : site.childrenFrom number (first :: second :: rest) =
        site.child first number :: site.childrenFrom (number + 1) (second :: rest) := rfl
    rw [each _ member, faultsAfter_child (by rw [← List.head?_drop, after]; rfl), ih after, parted,
      List.flatMap_cons, List.filterMap_append, List.append_assoc]

/-- **A search lists the faults from a site downwards and goes on behind the site.** -/
theorem faultsFrom_eq (flagged : site.IsFlagged) :
    faultsFrom site = site.subtree.filterMap Site.fault? ++ faultsAfter site := by
  induction site using Site.children_induction with
  | step site ih =>
    have here : (site :: site.children.flatMap Site.subtree).filterMap Site.fault? =
        site.fault?.toList ++ (site.children.flatMap Site.subtree).filterMap Site.fault? := by
      rw [List.filterMap_cons]
      cases site.fault? <;> rfl
    rw [Site.subtree_eq, here, List.append_assoc]
    by_cases flag : site.node.label.hasError = true
    · have each (child : Site) (member : child ∈ site.children) :=
        ih child member (flagged.of_mem_children member)
      rw [Site.children]
      cases children : site.node.children with
      | nil =>
        have leaf : site.firstChild? = none := by rw [Site.firstChild?, children]; rfl
        rw [faultsFrom_of_leaf leaf]
        rfl
      | cons first rest =>
        have child : site.firstChild? = some (site.child first 0) := by
          rw [Site.firstChild?, children]
          rfl
        rw [faultsFrom_of_firstChild flag child, faultsFrom_child each (by rw [children]; rfl)]
    · rw [faultsFrom_of_unflagged flag, flagged.filterMap_fault? flag, List.nil_append]

/-! ## The faults of a tree -/

/-- What the flags of a tree are for: whatever encloses a fault is flagged, and the root is
if there is a fault and only then.  Whether a fault with none below it is flagged itself does
not matter to the search. -/
structure IsFlagged (tree : Tree) : Prop where
  enclosing : ∀ outer, tree.Holds outer → ∀ inner, outer.IsAbove inner →
    inner.node.label.isFaulty = true → outer.node.label.hasError = true
  root : tree.root.label.hasError = true ↔
    ∃ site, tree.Holds site ∧ site.node.label.isFaulty = true

variable {tree : Tree}

theorem mem_subtree_rootSite : site ∈ tree.rootSite.subtree ↔ tree.Holds site :=
  Site.mem_subtree

/-- It is enough that a site is flagged just if it is faulty or something below it is. -/
theorem isFlagged_of_exact
    (exact : ∀ site ∈ tree.rootSite.subtree,
      site.node.label.hasError = site.subtree.any fun inner => inner.node.label.isFaulty) :
    tree.IsFlagged where
  enclosing outer held inner above faulty := by
    rw [exact outer (mem_subtree_rootSite.2 held), List.any_eq_true]
    refine ⟨inner, ?_, faulty⟩
    rw [Site.subtree_eq]
    exact List.mem_cons_of_mem _ (List.mem_flatMap.2 (Site.isAbove_iff.1 above))
  root := by
    have root := exact tree.rootSite (mem_subtree_rootSite.2 ⟨[], rfl⟩)
    refine (Bool.eq_iff_iff.1 root).trans (List.any_eq_true.trans (exists_congr fun site => ?_))
    rw [mem_subtree_rootSite]

/-- The faulty sites of a tree in document order, named or not. -/
def faultySites (tree : Tree) : List Site :=
  tree.rootSite.subtree.filter fun site => site.node.label.isFaulty

theorem mem_faultySites :
    site ∈ tree.faultySites ↔ tree.Holds site ∧ site.node.label.isFaulty = true := by
  rw [faultySites, List.mem_filter, mem_subtree_rootSite]

theorem faultySites_ne_nil_iff :
    tree.faultySites ≠ [] ↔ ∃ site, tree.Holds site ∧ site.node.label.isFaulty = true := by
  rw [Ne, List.eq_nil_iff_forall_not_mem, not_forall_not]
  simp only [mem_faultySites]

theorem faultsAfter_rootSite (tree : Tree) : faultsAfter tree.rootSite = [] := by
  rw [faultsAfter]
  rfl

/-- The search of a flagged tree finds just its faulty sites. -/
theorem faults_eq (flagged : tree.IsFlagged) :
    tree.faults = tree.faultySites.map fun site => .ofLabel tree.source site.node.label := by
  have below : tree.rootSite.IsFlagged :=
    fun outer listed => flagged.enclosing outer (mem_subtree_rootSite.1 listed)
  rw [faults, faultsFrom_eq below, faultsAfter_rootSite, List.append_nil, faultySites,
    ← List.filterMap_eq_map, List.filterMap_filter]
  refine List.filterMap_congr fun site listed => ?_
  obtain ⟨way, reached⟩ := Site.mem_subtree.1 listed
  rw [Site.fault?, Site.source_of_down reached]
  rfl

/-- **A tree is accepted if it has no faults, and is refused by the first of them otherwise.**
The faults listed are those of all faulty sites, each once and in document order. -/
theorem accepts_faultless (flagged : tree.IsFlagged) :
    ∃ faulty : List Site,
      (∀ site, site ∈ faulty ↔ tree.Holds site ∧ site.node.label.isFaulty = true) ∧
      faulty.Nodup ∧
      (faulty.Pairwise fun first second => first.IsAbove second ∨ first.Precedes second) ∧
      tree.faults = faulty.map (fun site => .ofLabel tree.source site.node.label) ∧
      (tree.accepted = .ok tree ↔
        ∀ site, tree.Holds site → site.node.label.isFaulty = false) ∧
      (tree.root.label.hasError = true → tree.faults ≠ []) ∧
      ∀ first later, faulty = first :: later →
        tree.accepted = .error (.faulty
          (if first.node.label.isMissing then "Missing " ++ first.kind else "Syntax error")
          (Node.place tree.source first.node.label.start)) := by
  have found : tree.root.label.hasError = true ↔ tree.faultySites ≠ [] :=
    flagged.root.trans faultySites_ne_nil_iff.symm
  refine ⟨tree.faultySites, fun site => mem_faultySites, tree.rootSite.nodup_subtree.filter _,
    tree.rootSite.pairwise_subtree.filter _, faults_eq flagged, ?_, ?_, ?_⟩
  · have none : (∀ site, tree.Holds site → site.node.label.isFaulty = false) ↔
        ¬ tree.root.label.hasError = true := by
      rw [flagged.root]
      simp only [not_exists, not_and, Bool.not_eq_true]
    rw [none, accepted]
    split
    · rename_i flag
      refine iff_of_false ?_ (not_not_intro flag)
      split <;> intro same <;> cases same
    · rename_i flag
      exact iff_of_true rfl flag
  · intro flag
    rw [faults_eq flagged, Ne, List.map_eq_nil_iff]
    exact found.1 flag
  · intro first later parted
    rw [accepted, if_pos (found.2 (by rw [parted]; exact List.cons_ne_nil _ _)),
      faults_eq flagged, parted]
    rfl

/-- What a parser makes of `const a = ;` and, on the next line, `foo(`. -/
def unfinished : Tree where
  source := "const a = ;\nfoo(".toList
  root :=
    let named (kind : String) (start stop : Nat) (fields : List String) : Label :=
      ⟨kind, true, false, false, false, start, stop, fields⟩
    let mark (text : String) (start stop : Nat) (fields : List String) : Node :=
      .mk ⟨text, false, false, false, false, start, stop, fields⟩ []
    let flagged (kind : String) (isError : Bool) (start stop : Nat) : Label :=
      ⟨kind, true, isError, false, true, start, stop, []⟩
    .mk (flagged "program" false 0 16)
      [.mk (flagged "lexical_declaration" false 0 11)
        [mark "const" 0 5 ["kind"],
          .mk (named "variable_declarator" 6 7 []) [.mk (named "identifier" 6 7 ["name"]) []],
          .mk (flagged "ERROR" true 8 9) [mark "=" 8 9 []], mark ";" 10 11 []],
        .mk (flagged "ERROR" true 12 16)
          [.mk (named "identifier" 12 15 []) [], mark "(" 15 16 []]]

theorem unfinished_refused :
    unfinished.IsFlagged ∧
      unfinished.faults = [⟨"Syntax error", 8, 9, ⟨0, 8⟩⟩, ⟨"Syntax error", 12, 16, ⟨1, 0⟩⟩] ∧
      unfinished.accepted = .error (.faulty "Syntax error" ⟨0, 8⟩) := by
  have flagged : unfinished.IsFlagged := isFlagged_of_exact (by decide)
  have both : unfinished.faults =
      [⟨"Syntax error", 8, 9, ⟨0, 8⟩⟩, ⟨"Syntax error", 12, 16, ⟨1, 0⟩⟩] :=
    (faults_eq flagged).trans (by decide)
  obtain ⟨faulty, -, -, -, listed, -, -, refused⟩ := accepts_faultless flagged
  rw [both] at listed
  cases faulty with
  | nil => cases listed
  | cons first later =>
    let refusal (fault : Fault) : Except ParseError Tree :=
      .error (.faulty fault.message fault.position)
    have same := congrArg refusal (List.cons.inj listed).1
    exact ⟨flagged, both, (refused first later rfl).trans same.symm⟩

end Tree
end Retouch
