import Retouch.Tree.Site

/-!
# Walking a tree

A walk goes through a tree in document order.  It tells of every named node twice:
it is entered before anything below it and left after everything below it.  Nodes
without a name are walked through silently.  The walk runs a callback at every event
and may be stopped by it; the list of all events is the same walk written down.

A walk remembers nothing but the site that it has come to.  From there it goes down to
the first child, and where there is none to the next sibling of the site or of the
lowest site above that has one.
-/

set_option autoImplicit false

namespace Retouch

/-- What a walk tells of a named site. -/
inductive Event where
  | enter (site : Site)
  | leave (site : Site)

namespace Event

def site : Event → Site
  | enter site => site
  | leave site => site

def entered? : Event → Option Site
  | enter site => some site
  | leave _ => none

end Event

namespace Site

/-! ## What is left of a walk -/

/-- How many nodes come after a way down from the root: those of the later siblings all
along it. -/
def nodesAfter : List (Node × Nat) → Nat
  | [] => 0
  | (parent, number) :: above =>
    Node.sizeOfAll (parent.children.drop (number + 1)) + nodesAfter above

/-- How many nodes a walk has still to enter when it comes to a site. -/
def nodesFrom (site : Site) : Nat := site.node.size + nodesAfter site.above

theorem size_add_sizeOfAll_drop {nodes : List Node} {number : Nat} {node : Node}
    (found : nodes[number]? = some node) :
    node.size + Node.sizeOfAll (nodes.drop (number + 1)) = Node.sizeOfAll (nodes.drop number) := by
  obtain ⟨inside, rfl⟩ := List.getElem?_eq_some_iff.1 found
  rw [List.drop_eq_getElem_cons inside, Node.sizeOfAll]

theorem nodesAfter_lt (site : Site) : nodesAfter site.above < site.nodesFrom :=
  Nat.lt_add_of_pos_left site.node.size_pos

theorem nodesFrom_firstChild {site first : Site} (found : site.firstChild? = some first) :
    first.nodesFrom < site.nodesFrom := by
  obtain ⟨node, inside, rfl⟩ := Option.map_eq_some_iff.1 found
  have same := size_add_sizeOfAll_drop inside
  rw [List.drop_zero] at same
  show node.size + (Node.sizeOfAll (site.node.children.drop (0 + 1)) + nodesAfter site.above) < _
  rw [nodesFrom, Node.size_eq site.node]
  omega

theorem nodesFrom_nextSibling {site next : Site} (found : site.nextSibling? = some next) :
    next.nodesFrom = nodesAfter site.above := by
  unfold nextSibling? at found
  split at found
  · cases found
  · rename_i parent number above enclosing
    obtain ⟨node, inside, rfl⟩ := Option.map_eq_some_iff.1 found
    have same := size_add_sizeOfAll_drop inside
    show node.size + (Node.sizeOfAll (parent.children.drop (number + 1 + 1)) + nodesAfter above) = _
    rw [enclosing, nodesAfter]
    omega

theorem above_parent {site parent : Site} (found : site.parent? = some parent) :
    nodesAfter parent.above ≤ nodesAfter site.above ∧
      parent.above.length < site.above.length := by
  unfold parent? at found
  split at found
  · cases found
  · rename_i upper number above enclosing
    obtain rfl := Option.some.inj found
    rw [enclosing]
    exact ⟨Nat.le_add_left _ _, Nat.lt_succ_self _⟩

/-- Going up leaves fewer nodes to enter, or as many on a shorter way down. -/
theorem lex_parent {site parent : Site} (found : site.parent? = some parent) :
    Prod.Lex (· < ·) (· < ·) (nodesAfter parent.above, parent.above.length + 1)
      (nodesAfter site.above, site.above.length + 1) := by
  obtain ⟨after, shorter⟩ := above_parent found
  rcases Nat.lt_or_eq_of_le after with fewer | same
  · exact Prod.Lex.left _ _ fewer
  · rw [same]
    exact Prod.Lex.right _ (Nat.succ_lt_succ shorter)

end Site

namespace Tree

/-! ## The walk -/

section Walk

variable {m : Type → Type} [Monad m] (visit : Event → m Unit)

/-- Tells of an event, if its site is named. -/
def tell (event : Event) : m Unit := if event.site.node.isNamed then visit event else pure ()

mutual

/-- Goes on with a walk that comes to a site: down to its first child, or up again. -/
def descend (site : Site) : m Unit := do
  tell visit (.enter site)
  match _ : site.firstChild? with
  | some child => descend child
  | none => ascend site
termination_by (site.nodesFrom, 0)
decreasing_by
  · exact Prod.Lex.left _ _ (Site.nodesFrom_firstChild ‹_›)
  · exact Prod.Lex.left _ _ site.nodesAfter_lt

/-- Goes on with a walk that has been through everything below a site: to its next
sibling, or further up. -/
def ascend (site : Site) : m Unit := do
  tell visit (.leave site)
  match _ : site.nextSibling? with
  | some sibling => descend sibling
  | none =>
    match _ : site.parent? with
    | some parent => ascend parent
    | none => pure ()
termination_by (Site.nodesAfter site.above, site.above.length + 1)
decreasing_by
  · rw [Site.nodesFrom_nextSibling ‹_›]
    exact Prod.Lex.right _ (Nat.succ_pos _)
  · exact Site.lex_parent ‹_›

end

end Walk

/-- Walks a whole tree. -/
def traverse {m : Type → Type} [Monad m] (tree : Tree) (visit : Event → m Unit) : m Unit :=
  descend visit tree.rootSite

/-! ## The events of a walk -/

mutual

def eventsBelow (source : Text) (above : List (Node × Nat)) : Node → List Event
  | .mk label children =>
    let site : Site := ⟨source, .mk label children, above⟩
    let inner := eventsBelowAll source (.mk label children) above 0 children
    if label.isNamed then .enter site :: inner ++ [.leave site] else inner

def eventsBelowAll (source : Text) (parent : Node) (above : List (Node × Nat)) (number : Nat) :
    List Node → List Event
  | [] => []
  | first :: rest =>
    eventsBelow source ((parent, number) :: above) first ++
      eventsBelowAll source parent above (number + 1) rest

end

/-- The events of a walk that is not stopped. -/
def events (tree : Tree) : List Event := eventsBelow tree.source [] tree.root

/-- The named sites in the order in which they are entered. -/
def sites (tree : Tree) : List Site := tree.events.filterMap Event.entered?

/-- The last site, in document order, that a test accepts.  Of the accepted sites on
a way down from the root it is the lowest. -/
def innermost? (tree : Tree) (accepts : Site → Bool) : Option Site :=
  (tree.sites.filter accepts).getLast?

end Tree
end Retouch
