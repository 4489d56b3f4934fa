import Retouch.Proofs.Delivery
import Retouch.Proofs.Tree.Order

/-!
# What a walk tells

A walk knows only the site that it has come to.  What it has still to do there is to tell
the events of the site and then to move on, to the next sibling or up (`descend_eq`); on
the way through the children of a site this comes to telling the events of those that are
left and then going up from the site (`descend_child`).  At the root there is nothing to
move on to, so the whole walk tells the events of the tree (`traverse_eq_forM`), in any
monad.

**Result.**  Those events are what a walk in document order should tell (`IsWalk`), and a
callback that fails is given them up to the one at which it fails (`traverse_delivers`).
-/

set_option autoImplicit false

namespace Retouch

theorem Site.mem_children_of_drop {site : Site} {number : Nat} {first : Node} {rest : List Node}
    (left : site.node.children.drop number = first :: rest) :
    site.child first number ∈ site.children ∧ site.node.children.drop (number + 1) = rest := by
  refine ⟨List.mem_of_getElem? (i := number) ?_, ?_⟩
  · rw [getElem?_children, ← List.head?_drop, left]
    rfl
  · rw [← List.tail_drop, left, List.tail_cons]

namespace Tree

section Walk

variable {m : Type → Type} [Monad m] (visit : Event → m Unit)

/-- Goes on with a walk that has left a site. -/
def moveOn (site : Site) : m Unit :=
  match site.nextSibling? with
  | some sibling => descend visit sibling
  | none =>
    match site.parent? with
    | some parent => ascend visit parent
    | none => pure ()

theorem ascend_eq (site : Site) :
    ascend visit site = (do tell visit (.leave site); moveOn visit site) := by
  rw [ascend]
  refine bind_congr fun _ => ?_
  rw [moveOn]
  split
  · rename_i sibling next
    rw [next]
  · rename_i next
    rw [next]
    split
    · rename_i parent up
      rw [up]
    · rename_i up
      rw [up]

theorem descend_of_firstChild {site child : Site} (first : site.firstChild? = some child) :
    descend visit site = (do tell visit (.enter site); descend visit child) := by
  rw [descend]
  refine bind_congr fun _ => ?_
  split
  · rename_i other found
    rw [Option.some.inj (found.symm.trans first)]
  · rename_i nothing
    cases nothing.symm.trans first

theorem descend_of_leaf {site : Site} (leaf : site.firstChild? = none) :
    descend visit site = (do tell visit (.enter site); ascend visit site) := by
  rw [descend]
  refine bind_congr fun _ => ?_
  split
  · rename_i found
    cases found.symm.trans leaf
  · rfl

theorem moveOn_child_of_getElem? {site : Site} {number : Nat} {node next : Node}
    (following : site.node.children[number + 1]? = some next) :
    moveOn visit (site.child node number) = descend visit (site.child next (number + 1)) := by
  have sibling : (site.child node number).nextSibling? = some (site.child next (number + 1)) :=
    Option.map_eq_some_iff.2 ⟨next, following, rfl⟩
  rw [moveOn, sibling]

theorem moveOn_lastChild {site : Site} {number : Nat} {node : Node}
    (last : site.node.children[number + 1]? = none) :
    moveOn visit (site.child node number) = ascend visit site := by
  have nothing : (site.child node number).nextSibling? = none := Option.map_eq_none_iff.2 last
  rw [moveOn, nothing]
  rfl

variable [LawfulMonad m]

theorem forM_append (events following : List Event) :
    (events ++ following).forM visit = (do events.forM visit; following.forM visit) := by
  simp only [List.forM_eq_forM, List.forM_append]

theorem forM_events (site : Site) :
    site.events.forM visit = (do
      tell visit (.enter site)
      site.eventsInside.forM visit
      tell visit (.leave site)) := by
  by_cases named : site.node.isNamed = true
  · have enters : tell visit (.enter site) = visit (.enter site) := if_pos named
    have leaves : tell visit (.leave site) = visit (.leave site) := if_pos named
    rw [Site.events_of_isNamed named, enters, leaves]
    refine bind_congr fun _ => (forM_append visit _ _).trans (bind_congr fun _ => ?_)
    exact bind_pure_unit
  · have enters : tell visit (.enter site) = pure () := if_neg named
    have leaves : tell visit (.leave site) = pure () := if_neg named
    rw [Site.events_of_not_isNamed named, enters, leaves, pure_bind, bind_pure_unit]

/-- The walk through the children of a site that are left from a number on. -/
theorem descend_child {site : Site}
    (each : ∀ child ∈ site.children,
      descend visit child = (do child.events.forM visit; moveOn visit child))
    {number : Nat} {first : Node} {rest : List Node}
    (left : site.node.children.drop number = first :: rest) :
    descend visit (site.child first number) = (do
      ((site.childrenFrom number (first :: rest)).flatMap Site.events).forM visit
      ascend visit site) := by
  -- Every child but the last moves on to its sibling; the last one goes up.
  induction rest generalizing number first with
  | nil =>
    obtain ⟨member, after⟩ := Site.mem_children_of_drop left
    rw [each _ member, moveOn_lastChild visit (by rw [← List.head?_drop, after]; rfl)]
    simp only [Site.childrenFrom, List.flatMap_cons, List.flatMap_nil, List.append_nil]
  | cons second rest ih =>
    obtain ⟨member, after⟩ := Site.mem_children_of_drop left
    have parted : site.childrenFrom number (first :: second :: rest) =
        site.child first number :: site.childrenFrom (number + 1) (second :: rest) := rfl
    rw [each _ member, moveOn_child_of_getElem? visit (by rw [← List.head?_drop, after]; rfl),
      ih after, parted, List.flatMap_cons, forM_append, bind_assoc]

/-- A walk that comes to a site tells its events and then moves on. -/
theorem descend_eq (site : Site) :
    descend visit site = (do site.events.forM visit; moveOn visit site) := by
  induction site using Site.children_induction with
  | step site ih =>
    -- Whether or not there is a first child to go down to, the walk comes back up to the site.
    have through : descend visit site = (do
        tell visit (.enter site)
        site.eventsInside.forM visit
        ascend visit site) := by
      rw [Site.eventsInside, Site.children]
      cases children : site.node.children with
      | nil =>
        have leaf : site.firstChild? = none := by rw [Site.firstChild?, children]; rfl
        rw [descend_of_leaf visit leaf]
        exact bind_congr fun _ => (pure_bind () fun _ => ascend visit site).symm
      | cons first rest =>
        have child : site.firstChild? = some (site.child first 0) := by
          rw [Site.firstChild?, children]
          rfl
        rw [descend_of_firstChild visit child, descend_child visit ih (by rw [children]; rfl)]
    rw [through, forM_events, ascend_eq]
    simp only [bind_assoc]

/-- **A walk tells the events of the tree.** -/
theorem traverse_eq_forM (tree : Tree) : tree.traverse visit = tree.events.forM visit := by
  have nothing : moveOn visit tree.rootSite = pure () := rfl
  rw [traverse, descend_eq, nothing, bind_pure_unit]
  rfl

end Walk

/-! ## The walk as a whole -/

/-- What a walk in document order tells of a tree. -/
structure IsWalk (tree : Tree) (events : List Event) : Prop where
  bracketed : Event.Bracketed events
  /-- Every named site of the tree is told of and no other, on entering it and on leaving
  it. -/
  complete : ∀ event, event ∈ events ↔ event.site.node.isNamed = true ∧ tree.Holds event.site
  nodup : events.Nodup
  preorder : (events.filterMap Event.entered?).Pairwise fun first second =>
    first.IsAbove second ∨ first.Precedes second
  postorder : (events.filterMap Event.left?).Pairwise fun first second =>
    second.IsAbove first ∨ first.Precedes second
  /-- Between entering and leaving a site just the sites below it are told of. -/
  nested : ∀ site : Site, site.node.isNamed = true → tree.Holds site →
    ∃ earlier between later,
      events = earlier ++ .enter site :: (between ++ .leave site :: later) ∧
        ∀ event : Event, event ∈ between ↔
          event.site.node.isNamed = true ∧ site.IsAbove event.site

theorem isWalk_events (tree : Tree) : tree.IsWalk tree.events where
  bracketed := tree.rootSite.bracketed_events
  complete _ := mem_events
  nodup := tree.nodup_events
  preorder := tree.pairwise_sites
  postorder := tree.pairwise_left
  nested _ named held := events_between named held

/-- **A walk tells its callback the events of the tree in document order**, all of them or
those up to the one at which the callback fails, and ends with that failure. -/
theorem traverse_delivers (tree : Tree) :
    tree.IsWalk tree.events ∧
      ∀ (ε σ : Type) (visit : Event → ExceptT ε (StateM σ) Unit) (state : σ),
        ∃ delivered outcome, Delivers visit tree.events state delivered outcome ∧
          (tree.traverse visit).run.run state = outcome ∧
          (tree.traverse fun event => noting event (visit event)).run.run ([], state) =
            (outcome.1, (delivered, outcome.2)) := by
  refine ⟨tree.isWalk_events, fun ε σ visit state => ?_⟩
  rw [traverse_eq_forM, traverse_eq_forM]
  exact exists_delivers_forM visit tree.events [] state

end Tree
end Retouch
