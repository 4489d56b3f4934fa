import Mathlib.Data.List.Flatten
import Mathlib.Data.List.Nodup
import Retouch.Proofs.Tree.Sites

/-!
# The order of the events of a walk

The sites of a tree are those to which a way leads down from the root, a way being a list
of child numbers (`Site.down`, `Tree.Holds`).  Where a way goes on, it leads to what is
below (`Site.IsAbove`); where two ways part, what is on the way over the earlier child
precedes what is on the other (`Site.Precedes`).  Names play no part in either, so that a
site is above another whatever anonymous nodes there are between them.

The events of a walk come in an order that these two relations determine
(`Event.Before`, `Site.pairwise_events`).  It puts the entered sites into pre-order and the
left ones into post-order, and no event comes before itself, so none is told twice.  Every
named site of the tree is entered and left and no other (`Site.mem_events`), and everything
that is told of the sites below it, and nothing else, is told between
(`Tree.events_between`).
-/

set_option autoImplicit false

namespace Retouch
namespace Site

/-! ## Ways down -/

theorem getElem?_childrenFrom (site : Site) (start number : Nat) (nodes : List Node) :
    (site.childrenFrom start nodes)[number]? =
      nodes[number]?.map (site.child · (start + number)) := by
  induction nodes generalizing start number with
  | nil => rfl
  | cons first rest ih =>
    cases number with
    | zero => rfl
    | succ number =>
      rw [childrenFrom, List.getElem?_cons_succ, List.getElem?_cons_succ, ih, Nat.add_assoc,
        Nat.add_comm 1]

theorem getElem?_children (site : Site) (number : Nat) :
    site.children[number]? = site.node.children[number]?.map (site.child · number) := by
  rw [children, getElem?_childrenFrom, Nat.zero_add]

/-- The site at the end of a way down, given by the numbers of the children on it. -/
def down : Site → List Nat → Option Site
  | site, [] => some site
  | site, number :: way => site.children[number]?.bind fun child => child.down way

/-- Whether a way of one step or more leads down from the one site to the other. -/
def IsAbove (outer inner : Site) : Prop :=
  ∃ number way, outer.down (number :: way) = some inner

/-- Whether there is a site from which a way leads down to the first and a way over a
later child to the second. -/
def Precedes (first second : Site) : Prop :=
  ∃ (top : Site) (number number' : Nat) (way way' : List Nat), number < number' ∧
    top.down (number :: way) = some first ∧ top.down (number' :: way') = some second

section Down

variable {site child inner outer found : Site} {number : Nat} {way : List Nat}

theorem down_cons_eq_some_iff :
    site.down (number :: way) = some found ↔
      ∃ child, site.children[number]? = some child ∧ child.down way = some found :=
  Option.bind_eq_some_iff

/-- The address of a site holds the way to it. -/
theorem address_of_down (reached : site.down way = some found) :
    found.address = way.reverse ++ site.address := by
  induction way generalizing site with
  | nil =>
    obtain rfl := Option.some.inj reached
    rfl
  | cons number way ih =>
    obtain ⟨child, here, reached⟩ := down_cons_eq_some_iff.1 reached
    rw [getElem?_children] at here
    obtain ⟨node, -, rfl⟩ := Option.map_eq_some_iff.1 here
    rw [ih reached, List.reverse_cons, List.append_assoc]
    rfl

theorem IsAbove.length_address_lt (above : outer.IsAbove inner) :
    outer.address.length < inner.address.length := by
  obtain ⟨number, way, reached⟩ := above
  rw [address_of_down reached, List.length_append, List.length_reverse, List.length_cons]
  omega

theorem IsAbove.asymm (above : outer.IsAbove inner) : ¬ inner.IsAbove outer :=
  fun below => Nat.lt_asymm above.length_address_lt below.length_address_lt

theorem not_isAbove_self (site : Site) : ¬ site.IsAbove site :=
  fun above => Nat.lt_irrefl _ above.length_address_lt

/-- Ways that part do not meet again. -/
theorem Precedes.not_suffix (before : outer.Precedes inner) :
    ¬ outer.address <:+ inner.address := by
  obtain ⟨top, number, number', way, way', before, reached, reached'⟩ := before
  rw [address_of_down reached, address_of_down reached', ← List.reverse_prefix,
    List.reverse_append, List.reverse_append, List.reverse_reverse, List.reverse_reverse,
    List.prefix_append_right_inj, List.cons_prefix_cons]
  exact fun leads => Nat.ne_of_lt before leads.1

theorem not_precedes_self (site : Site) : ¬ site.Precedes site :=
  fun before => before.not_suffix List.suffix_rfl

theorem Precedes.not_isAbove (before : outer.Precedes inner) : ¬ outer.IsAbove inner := by
  rintro ⟨number, way, reached⟩
  exact before.not_suffix ⟨_, (address_of_down reached).symm⟩

theorem size_lt_of_mem_children (member : child ∈ site.children) :
    child.node.size < site.node.size := by
  obtain ⟨node, inside, number, rfl⟩ := exists_of_mem_childrenFrom member
  exact Node.size_lt_of_mem inside

/-- What holds of a site as soon as it holds of its children holds of every site. -/
@[elab_as_elim]
theorem children_induction {motive : Site → Prop}
    (step : ∀ site, (∀ child ∈ site.children, motive child) → motive site) (site : Site) :
    motive site :=
  step site fun child _ => children_induction step child
termination_by site.node.size
decreasing_by exact size_lt_of_mem_children ‹_›

end Down
end Site

/-! ## Events -/

namespace Event

def left? : Event → Option Site
  | enter _ => none
  | leave site => some site

/-- Which of two events a walk tells first. -/
def Before : Event → Event → Prop
  | enter first, enter second => first.IsAbove second ∨ first.Precedes second
  | enter first, leave second =>
    first = second ∨ first.IsAbove second ∨ second.IsAbove first ∨ first.Precedes second
  | leave first, enter second => first.Precedes second
  | leave first, leave second => second.IsAbove first ∨ first.Precedes second

variable {outer : Site} {first second event : Event}

theorem before_of_precedes (parted : first.site.Precedes second.site) : first.Before second := by
  cases first <;> cases second
  · exact .inr parted
  · exact .inr (.inr (.inr parted))
  · exact parted
  · exact .inr parted

theorem enter_before (above : outer.IsAbove event.site) : (enter outer).Before event := by
  cases event with
  | enter inner => exact .inl above
  | leave inner => exact .inr (.inl above)

theorem before_leave (above : outer.IsAbove event.site) : event.Before (leave outer) := by
  cases event with
  | enter inner => exact .inr (.inr (.inl above))
  | leave inner => exact .inl above

theorem not_before_self (event : Event) : ¬ event.Before event := by
  cases event with
  | enter site => exact not_or_intro site.not_isAbove_self site.not_precedes_self
  | leave site => exact not_or_intro site.not_isAbove_self site.not_precedes_self

/-- Events that stand like brackets: what is entered is left, and what is entered between
is left between. -/
inductive Bracketed : List Event → Prop where
  | nil : Bracketed []
  | cons (site : Site) {inner after : List Event} (within : Bracketed inner)
      (following : Bracketed after) : Bracketed (enter site :: (inner ++ leave site :: after))

theorem Bracketed.append {events following : List Event} (bracketed : Bracketed events)
    (bracketed' : Bracketed following) : Bracketed (events ++ following) := by
  induction bracketed with
  | nil => exact bracketed'
  | cons site within _ _ ih =>
    rw [List.cons_append, List.append_assoc, List.cons_append]
    exact .cons site within ih

theorem bracketed_flatMap {sites : List Site} {told : Site → List Event}
    (each : ∀ site ∈ sites, Bracketed (told site)) : Bracketed (sites.flatMap told) := by
  induction sites with
  | nil => exact .nil
  | cons first rest ih =>
    rw [List.flatMap_cons]
    exact (each first List.mem_cons_self).append
      (ih fun site member => each site (List.mem_cons_of_mem _ member))

end Event

/-! ## The events of a site -/

namespace Site

open Event

/-- The events of a walk through a site and everything below it. -/
def events (site : Site) : List Event := Tree.eventsBelow site.source site.above site.node

/-- The events of a walk through everything below a site. -/
def eventsInside (site : Site) : List Event := site.children.flatMap events

section Events

variable {site found : Site} {event : Event} {number : Nat} {way : List Nat}

theorem eventsBelowAll_eq (site : Site) (number : Nat) (nodes : List Node) :
    Tree.eventsBelowAll site.source site.node site.above number nodes =
      (site.childrenFrom number nodes).flatMap events := by
  induction nodes generalizing number with
  | nil => rfl
  | cons first rest ih =>
    rw [Tree.eventsBelowAll, ih, childrenFrom, List.flatMap_cons]
    rfl

theorem events_eq (site : Site) :
    site.events = if site.node.isNamed then enter site :: (site.eventsInside ++ [leave site])
      else site.eventsInside := by
  obtain ⟨source, ⟨label, children⟩, above⟩ := site
  rw [eventsInside, Site.children, ← eventsBelowAll_eq]
  rfl

theorem events_of_isNamed (named : site.node.isNamed = true) :
    site.events = enter site :: (site.eventsInside ++ [leave site]) := by
  rw [events_eq, if_pos named]

theorem events_of_not_isNamed (anonymous : ¬ site.node.isNamed = true) :
    site.events = site.eventsInside := by
  rw [events_eq, if_neg anonymous]

theorem mem_events_iff :
    event ∈ site.events ↔
      site.node.isNamed = true ∧ event.site = site ∨ event ∈ site.eventsInside := by
  by_cases named : site.node.isNamed = true
  · rw [events_of_isNamed named, List.mem_cons, List.mem_append, List.mem_singleton]
    constructor
    · rintro (rfl | inside | rfl)
      · exact .inl ⟨named, rfl⟩
      · exact .inr inside
      · exact .inl ⟨named, rfl⟩
    · rintro (⟨-, rfl⟩ | inside)
      · cases event with
        | enter site => exact .inl rfl
        | leave site => exact .inr (.inr rfl)
      · exact .inr (.inl inside)
  · rw [events_of_not_isNamed named]
    simp [named]

/-- What is told below a site is told of the named sites to which a way over a child
leads. -/
theorem mem_eventsInside_of_mem_events
    (each : ∀ child ∈ site.children, ∀ event, event ∈ child.events ↔
      event.site.node.isNamed = true ∧ ∃ way, child.down way = some event.site) :
    event ∈ site.eventsInside ↔ event.site.node.isNamed = true ∧ site.IsAbove event.site := by
  rw [eventsInside, List.mem_flatMap]
  constructor
  · rintro ⟨child, member, told⟩
    obtain ⟨named, way, reached⟩ := (each child member event).1 told
    obtain ⟨number, here⟩ := List.getElem?_of_mem member
    exact ⟨named, number, way, down_cons_eq_some_iff.2 ⟨child, here, reached⟩⟩
  · rintro ⟨named, number, way, reached⟩
    obtain ⟨child, here, reached⟩ := down_cons_eq_some_iff.1 reached
    have member := List.mem_of_getElem? here
    exact ⟨child, member, (each child member event).2 ⟨named, way, reached⟩⟩

/-- **Just the named sites are told of**, and all of them. -/
theorem mem_events :
    event ∈ site.events ↔
      event.site.node.isNamed = true ∧ ∃ way, site.down way = some event.site := by
  induction site using children_induction generalizing event with
  | step site ih =>
    rw [mem_events_iff, mem_eventsInside_of_mem_events fun child member _ => ih child member]
    constructor
    · rintro (⟨named, same⟩ | ⟨named, number, way, reached⟩)
      · rw [same]
        exact ⟨named, [], rfl⟩
      · exact ⟨named, number :: way, reached⟩
    · rintro ⟨named, _ | ⟨number, way⟩, reached⟩
      · obtain same := Option.some.inj reached
        exact .inl ⟨same ▸ named, same.symm⟩
      · exact .inr ⟨named, number, way, reached⟩

theorem mem_eventsInside :
    event ∈ site.eventsInside ↔ event.site.node.isNamed = true ∧ site.IsAbove event.site :=
  mem_eventsInside_of_mem_events fun _ _ _ => mem_events

/-- What is told below different children is told of the earlier child first. -/
theorem pairwise_eventsInside
    (each : ∀ child ∈ site.children, child.events.Pairwise Before) :
    site.eventsInside.Pairwise Before := by
  -- The ways to what is told below different children part at the site itself.
  refine List.pairwise_flatMap.2 ⟨each, List.pairwise_iff_getElem.2 ?_⟩
  intro number number' inside inside' before first told second told'
  obtain ⟨-, way, reached⟩ := mem_events.1 told
  obtain ⟨-, way', reached'⟩ := mem_events.1 told'
  exact before_of_precedes ⟨site, number, number', way, way', before,
    down_cons_eq_some_iff.2 ⟨_, List.getElem?_eq_getElem inside, reached⟩,
    down_cons_eq_some_iff.2 ⟨_, List.getElem?_eq_getElem inside', reached'⟩⟩

/-- **A walk tells its events in order.** -/
theorem pairwise_events (site : Site) : site.events.Pairwise Before := by
  induction site using children_induction with
  | step site ih =>
    have inside := pairwise_eventsInside ih
    by_cases named : site.node.isNamed = true
    · rw [events_of_isNamed named, List.pairwise_cons, List.pairwise_append]
      refine ⟨?_, inside, List.pairwise_singleton _ _, ?_⟩
      · intro event told
        rcases List.mem_append.1 told with told | told
        · exact enter_before (mem_eventsInside.1 told).2
        · rw [List.mem_singleton.1 told]
          exact .inl rfl
      · intro event told other member
        rw [List.mem_singleton.1 member]
        exact before_leave (mem_eventsInside.1 told).2
    · rw [events_of_not_isNamed named]
      exact inside

theorem bracketed_events (site : Site) : Bracketed site.events := by
  induction site using children_induction with
  | step site ih =>
    have inside : Bracketed site.eventsInside := bracketed_flatMap ih
    by_cases named : site.node.isNamed = true
    · rw [events_of_isNamed named]
      exact .cons site inside .nil
    · rw [events_of_not_isNamed named]
      exact inside

/-- A walk through a site tells all that is told inside it without a break. -/
theorem eventsInside_infix (site : Site) : site.eventsInside <:+: site.events := by
  by_cases named : site.node.isNamed = true
  · rw [events_of_isNamed named]
    exact ⟨[enter site], [leave site], rfl⟩
  · exact (events_of_not_isNamed named).symm ▸ List.infix_rfl

/-- A walk through a site tells all that is told of a site below it without a break. -/
theorem events_infix_of_down (reached : site.down way = some found) :
    found.events <:+: site.events := by
  induction way generalizing site with
  | nil =>
    obtain rfl := Option.some.inj reached
    exact List.infix_rfl
  | cons number way ih =>
    obtain ⟨child, here, reached⟩ := down_cons_eq_some_iff.1 reached
    have told : child.events <:+: site.eventsInside :=
      List.infix_of_mem_flatten (List.mem_map_of_mem (List.mem_of_getElem? here))
    exact ((ih reached).trans told).trans site.eventsInside_infix

end Events
end Site

/-! ## The events of a tree -/

namespace Tree

/-- Whether a site is one of a tree. -/
def Holds (tree : Tree) (site : Site) : Prop := ∃ way, tree.rootSite.down way = some site

section Events

variable {tree : Tree} {site : Site} {event : Event}

theorem events_rootSite (tree : Tree) : tree.rootSite.events = tree.events := rfl

theorem mem_events : event ∈ tree.events ↔
    event.site.node.isNamed = true ∧ tree.Holds event.site := by
  rw [← events_rootSite, Site.mem_events, Holds]

/-- The sites that are entered are the named ones. -/
theorem mem_sites : site ∈ tree.sites ↔ site.node.isNamed = true ∧ tree.Holds site := by
  rw [sites, Event.mem_filterMap_entered?, mem_events]
  rfl

theorem pairwise_events (tree : Tree) : tree.events.Pairwise Event.Before :=
  tree.rootSite.pairwise_events

/-- No event is told twice. -/
theorem nodup_events (tree : Tree) : tree.events.Nodup := by
  refine tree.pairwise_events.imp ?_
  rintro event _ before rfl
  exact event.not_before_self before

/-- The sites that are entered are in pre-order. -/
theorem pairwise_sites (tree : Tree) :
    tree.sites.Pairwise fun first second => first.IsAbove second ∨ first.Precedes second := by
  refine tree.pairwise_events.filterMap _ ?_
  intro event event' before first entered second entered'
  cases event <;> cases event' <;> cases entered <;> cases entered'
  exact before

theorem nodup_sites (tree : Tree) : tree.sites.Nodup := by
  refine tree.pairwise_sites.imp ?_
  rintro site _ before rfl
  exact not_or_intro site.not_isAbove_self site.not_precedes_self before

/-- Every entered site is left, so that the events are those of entering and leaving each. -/
theorem perm_events (tree : Tree) :
    tree.events.Perm (tree.sites.flatMap fun site => [Event.enter site, .leave site]) := by
  have nodup : (tree.sites.flatMap fun site => [Event.enter site, .leave site]).Nodup := by
    refine List.nodup_flatMap.2 ⟨fun site _ => by simp, tree.nodup_sites.imp ?_⟩
    intro site other apart
    simpa [List.disjoint_left, Function.onFun] using apart
  refine (List.perm_ext_iff_of_nodup tree.nodup_events nodup).2 fun event => ?_
  rw [mem_events, ← mem_sites, List.mem_flatMap]
  constructor
  · intro member
    exact ⟨event.site, member, by cases event <;> simp [Event.site]⟩
  · rintro ⟨site, member, told⟩
    rcases List.mem_pair.1 told with rfl | rfl
    · exact member
    · exact member

/-- The sites that are left are in post-order. -/
theorem pairwise_left (tree : Tree) :
    (tree.events.filterMap Event.left?).Pairwise fun first second =>
      second.IsAbove first ∨ first.Precedes second := by
  refine tree.pairwise_events.filterMap _ ?_
  intro event event' before first left second left'
  cases event <;> cases event' <;> cases left <;> cases left'
  exact before

/-- **Between entering a site and leaving it a walk tells of the sites below it**, and of
nothing else. -/
theorem events_between (named : site.node.isNamed = true) (held : tree.Holds site) :
    ∃ earlier between later,
      tree.events = earlier ++ .enter site :: (between ++ .leave site :: later) ∧
        ∀ event : Event, event ∈ between ↔
          event.site.node.isNamed = true ∧ site.IsAbove event.site := by
  obtain ⟨way, reached⟩ := held
  obtain ⟨earlier, later, parted⟩ := Site.events_infix_of_down reached
  refine ⟨earlier, site.eventsInside, later, ?_, fun event => Site.mem_eventsInside⟩
  rw [Site.events_of_isNamed named] at parted
  rw [← events_rootSite, ← parted]
  simp

end Events
end Tree
end Retouch
