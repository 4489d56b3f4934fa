import Mathlib.Data.List.Lex
import Retouch.Proofs.Selection
import Retouch.Proofs.Tree.Descendants

/-!
# The innermost site

A plan is made for the innermost site that a test accepts.  The search for it is a walk that
keeps the accepted site which it has entered last, and knows nothing of depth.

A walk enters sites in document order: a site comes before those below it and before those that
it precedes (`Site.ComesBefore`).  The ways down to them from the root are then in lexicographic
order (`Site.ComesBefore.way_lt`), so no two sites come before each other, and the accepted site
that is entered last is the one that all others come before
(`Tree.innermost?_eq_some_iff_comesBefore`).  Hence nothing accepted is below it, and what is not
above it is left before it is entered (`Tree.left_of_precedes`).

**Result.**  The site that is kept is the last in document order, and where the accepted sites
lie on one way down it is the only deepest of them (`Tree.keeps_innermost`).

In a regular tree the accepted sites lie on one way if they are all around a selection that is
not empty (`Tree.IsRegular.onOneWay`).  Around a cursor two of them may touch
(`Tree.IsRegular.touch`), and of these the one that starts at the cursor is found.
-/

set_option autoImplicit false

namespace Retouch

section Last

variable {α : Type} {before : α → α → Prop} {elements : List α} {last other : α}

/-- The other elements of a list in order come before its last one. -/
theorem before_of_getLast? (ordered : elements.Pairwise before)
    (found : elements.getLast? = some last) (member : other ∈ elements) (distinct : other ≠ last) :
    before other last := by
  obtain ⟨earlier, rfl⟩ := List.getLast?_eq_some_iff.1 found
  rcases List.mem_append.1 member with member | same
  · exact (List.pairwise_append.1 ordered).2.2 other member last List.mem_cons_self
  · exact absurd (List.mem_singleton.1 same) distinct

/-- The last element of a list in order is the one that all others come before. -/
theorem getLast?_eq_some_iff_of_pairwise
    (asymm : ∀ {first second}, before first second → ¬ before second first)
    (ordered : elements.Pairwise before) :
    elements.getLast? = some last ↔
      last ∈ elements ∧ ∀ other ∈ elements, other ≠ last → before other last := by
  constructor
  · intro found
    exact ⟨List.mem_of_getLast? found, fun other => before_of_getLast? ordered found⟩
  · rintro ⟨member, after⟩
    have inhabited : elements.getLast? ≠ none :=
      mt List.getLast?_eq_none_iff.1 (List.ne_nil_of_mem member)
    obtain ⟨other, found⟩ := Option.ne_none_iff_exists'.1 inhabited
    -- Were the last element another one, the two would come before each other.
    by_cases same : other = last
    · rw [found, same]
    · have earlier := before_of_getLast? ordered found member (Ne.symm same)
      exact absurd earlier (asymm (after other (List.mem_of_getLast? found) same))

end Last

/-! ## Document order -/

namespace Site

/-- The way from the root down to a site. -/
def way (site : Site) : List Nat := site.address.reverse

/-- How many nodes are above a site. -/
def depth (site : Site) : Nat := site.above.length

/-- Whether a walk enters the one site before the other. -/
def ComesBefore (first second : Site) : Prop := first.IsAbove second ∨ first.Precedes second

variable {inner outer first second : Site}

theorem length_address (site : Site) : site.address.length = site.depth :=
  List.length_map Prod.snd

theorem IsAbove.depth_lt (above : outer.IsAbove inner) : outer.depth < inner.depth := by
  rw [← length_address, ← length_address]
  exact above.length_address_lt

/-- The way to a site goes on with the ways down from it. -/
theorem way_of_down {steps : List Nat} (reached : outer.down steps = some inner) :
    inner.way = outer.way ++ steps := by
  rw [way, address_of_down reached, List.reverse_append, List.reverse_reverse, way]

theorem down_append (site : Site) (steps further : List Nat) :
    site.down (steps ++ further) = (site.down steps).bind fun found => found.down further := by
  induction steps generalizing site with
  | nil => rfl
  | cons number steps ih =>
    rw [List.cons_append, down, down]
    cases site.children[number]? with
    | none => rfl
    | some child => exact ih child

/-- **In document order the ways down from the root increase.** -/
theorem ComesBefore.way_lt (before : first.ComesBefore second) : first.way < second.way := by
  rcases before with ⟨number, steps, reached⟩ | ⟨top, number, number', steps, steps', less,
    reached, reached'⟩
  · calc first.way = first.way ++ [] := (List.append_nil _).symm
      _ < first.way ++ number :: steps := List.append_left_lt (List.nil_lt_cons _ _)
      _ = second.way := (way_of_down reached).symm
  · calc first.way = top.way ++ number :: steps := way_of_down reached
      _ < top.way ++ number' :: steps' :=
        List.append_left_lt (List.cons_lt_cons_iff.2 (.inl less))
      _ = second.way := (way_of_down reached').symm

theorem ComesBefore.asymm (before : first.ComesBefore second) : ¬ second.ComesBefore first :=
  fun after => lt_asymm before.way_lt after.way_lt

/-! ### Document order in the text -/

section Regular

variable {steps : List Nat}

theorem LiesIn.trans (lies : inner.LiesIn first) (lies' : first.LiesIn outer) :
    inner.LiesIn outer where
  regular := lies.regular
  source_eq := lies.source_eq.trans lies'.source_eq
  within := ⟨lies'.within.start.trans lies.within.start, lies.within.stop.trans lies'.within.stop⟩

/-- A regular site holds all that is below it. -/
theorem IsRegular.liesIn_of_down (regular : outer.IsRegular)
    (reached : outer.down steps = some inner) : inner.LiesIn outer := by
  induction steps generalizing outer with
  | nil =>
    obtain rfl := Option.some.inj reached
    exact regular.liesIn
  | cons number steps ih =>
    obtain ⟨child, here, reached⟩ := down_cons_eq_some_iff.1 reached
    have lies := regular.liesIn_of_mem_children (List.mem_of_getElem? here)
    exact (ih lies.regular reached).trans lies

/-- What is above a regular site is regular. -/
theorem IsRegular.of_down (regular : inner.IsRegular) (reached : outer.down steps = some inner) :
    outer.IsRegular := by
  induction steps generalizing outer with
  | nil =>
    obtain rfl := Option.some.inj reached
    exact regular
  | cons number steps ih =>
    obtain ⟨child, here, reached⟩ := down_cons_eq_some_iff.1 reached
    obtain ⟨node, -, number, rfl⟩ := exists_of_mem_childrenFrom (List.mem_of_getElem? here)
    exact ((ih reached).parent rfl).1

/-- Children of a regular site stand in their order. -/
theorem IsRegular.stop_le_start {number number' : Nat} (regular : outer.IsRegular)
    (less : number < number') (here : outer.children[number]? = some first)
    (here' : outer.children[number']? = some second) :
    first.node.label.stop ≤ second.node.label.start := by
  have inOrder := regular.node.inOrder
  rw [← outer.map_node_children, List.pairwise_map] at inOrder
  obtain ⟨inside, rfl⟩ := List.getElem?_eq_some_iff.1 here
  obtain ⟨inside', rfl⟩ := List.getElem?_eq_some_iff.1 here'
  exact List.pairwise_iff_getElem.1 inOrder number number' inside inside' less

/-- **In a regular tree a site ends before those that it precedes begin.** -/
theorem Precedes.range_le (precedes : first.Precedes second) (regular : first.IsRegular) :
    first.range.stop ≤ second.range.start := by
  obtain ⟨top, number, number', steps, steps', less, reached, reached'⟩ := precedes
  have regularTop := regular.of_down reached
  obtain ⟨child, here, reached⟩ := down_cons_eq_some_iff.1 reached
  obtain ⟨child', here', reached'⟩ := down_cons_eq_some_iff.1 reached'
  have lies := regularTop.liesIn_of_mem_children (List.mem_of_getElem? here)
  have lies' := regularTop.liesIn_of_mem_children (List.mem_of_getElem? here')
  have within := lies.regular.liesIn_of_down reached
  have within' := lies'.regular.liesIn_of_down reached'
  have ordered : first.node.label.stop ≤ second.node.label.start :=
    calc first.node.label.stop
        ≤ child.node.label.stop := within.within.stop
      _ ≤ child'.node.label.start := regularTop.stop_le_start less here here'
      _ ≤ second.node.label.start := within'.within.start
  have source_eq : second.source = first.source :=
    (within'.source_eq.trans lies'.source_eq).trans (within.source_eq.trans lies.source_eq).symm
  have regular' : second.node.IsRegular first.source := source_eq ▸ within'.regular.node
  obtain ⟨_, range⟩ := regular.node.rangeIn_eq
  obtain ⟨_, range'⟩ := regular'.rangeIn_eq
  rw [Site.range, Site.range, source_eq, range, range']
  exact regular.node.spans.stop.place_le regular'.spans.start ordered
    (Nat.lt_of_le_of_lt regular'.spans.ordered regular'.word)

end Regular

/-- Whether a site is around a selection. -/
def isAround (site : Site) (selection : Selection) : Bool := selection.isInside site.range

end Site

namespace Tree

variable {tree : Tree} {accepts : Site → Bool} {site target other : Site}

/-- The way to a site leads to it. -/
theorem down_way (held : tree.Holds site) : tree.rootSite.down site.way = some site := by
  obtain ⟨steps, reached⟩ := held
  rw [Site.way_of_down reached]
  exact reached

/-- A site on the way to another is above it. -/
theorem isAbove_of_way_prefix (held : tree.Holds site) (held' : tree.Holds other)
    (leads : site.way <+: other.way) (distinct : site ≠ other) : site.IsAbove other := by
  obtain ⟨steps, goesOn⟩ := leads
  have reached := down_way held'
  rw [← goesOn, Site.down_append, down_way held, Option.bind_some] at reached
  cases steps with
  | nil => exact absurd (Option.some.inj reached) distinct
  | cons number steps => exact ⟨number, steps, reached⟩

/-- **What precedes a site is left before it is entered.** -/
theorem left_of_precedes (member : target ∈ tree.sites) (member' : other ∈ tree.sites)
    (precedes : other.Precedes target) :
    ∃ earlier later, tree.events = earlier ++ .enter target :: later ∧
      .leave other ∈ earlier := by
  have entered : Event.enter target ∈ tree.events := mem_events.2 (mem_sites.1 member)
  have left : Event.leave other ∈ tree.events := mem_events.2 (mem_sites.1 member')
  obtain ⟨earlier, later, parted⟩ := List.append_of_mem entered
  refine ⟨earlier, later, parted, ?_⟩
  have ordered := tree.pairwise_events
  rw [parted] at left ordered
  rcases List.mem_append.1 left with before | after
  · exact before
  -- Left after the target is entered, the other one would be below it or come after it.
  have after : Event.leave other ∈ later := (List.mem_cons.1 after).resolve_left nofun
  have before : other.ComesBefore target := .inr precedes
  rcases (List.pairwise_cons.1 (List.pairwise_append.1 ordered).2.1).1 _ after with
    rfl | below | above | follows
  · exact absurd before before.asymm
  · exact absurd (.inl below) before.asymm
  · exact absurd above precedes.not_isAbove
  · exact absurd (.inr follows) before.asymm

/-! ## Accepted sites -/

/-- **Whether a site of a tree is accepted.**  A walk tells of named sites only, and so no test
is asked about others. -/
structure IsAccepted (tree : Tree) (accepts : Site → Bool) (site : Site) : Prop where
  isNamed : site.node.isNamed = true
  held : tree.Holds site
  accepted : accepts site = true

/-- **What is asked of an innermost site.** -/
structure IsInnermost (tree : Tree) (accepts : Site → Bool) (target : Site) : Prop where
  accepted : tree.IsAccepted accepts target
  noneBelow : ∀ inner, target.IsAbove inner → ¬ tree.IsAccepted accepts inner
  others : ∀ other, tree.IsAccepted accepts other → other ≠ target →
    other.IsAbove target ∨ other.Precedes target
  /-- What precedes it does so with all that is below. -/
  entirely : ∀ other, tree.IsAccepted accepts other → other.Precedes target →
    ∃ earlier later, tree.events = earlier ++ .enter target :: later ∧ .leave other ∈ earlier

/-- Whether a site is accepted and no accepted one is deeper. -/
structure IsDeepest (tree : Tree) (accepts : Site → Bool) (target : Site) : Prop where
  accepted : tree.IsAccepted accepts target
  depth_le : ∀ other, tree.IsAccepted accepts other → other.depth ≤ target.depth

/-- Whether the accepted sites all lie on one way down from the root. -/
def OnOneWay (tree : Tree) (accepts : Site → Bool) : Prop :=
  ∃ way, ∀ site, tree.IsAccepted accepts site → site.way <+: way

theorem IsAccepted.mem_sites (accepted : tree.IsAccepted accepts site) : site ∈ tree.sites :=
  Tree.mem_sites.2 ⟨accepted.isNamed, accepted.held⟩

theorem mem_filter_sites : site ∈ tree.sites.filter accepts ↔ tree.IsAccepted accepts site := by
  rw [List.mem_filter]
  constructor
  · rintro ⟨member, accepted⟩
    obtain ⟨isNamed, held⟩ := mem_sites.1 member
    exact ⟨isNamed, held, accepted⟩
  · exact fun accepted => ⟨accepted.mem_sites, accepted.accepted⟩

/-! ## The last accepted site -/

theorem innermost?_eq_none_iff_not_isAccepted :
    tree.innermost? accepts = none ↔ ∀ site, ¬ tree.IsAccepted accepts site := by
  rw [innermost?, List.getLast?_eq_none_iff, List.eq_nil_iff_forall_not_mem]
  simp only [mem_filter_sites]

/-- The innermost site is the accepted one that all others come before. -/
theorem innermost?_eq_some_iff_comesBefore :
    tree.innermost? accepts = some target ↔ tree.IsAccepted accepts target ∧
      ∀ other, tree.IsAccepted accepts other → other ≠ target → other.ComesBefore target := by
  have ordered : (tree.sites.filter accepts).Pairwise Site.ComesBefore :=
    tree.pairwise_sites.filter accepts
  rw [innermost?, getLast?_eq_some_iff_of_pairwise Site.ComesBefore.asymm ordered]
  simp only [mem_filter_sites]

/-- **The last accepted site of a walk is innermost**, and no other is. -/
theorem innermost?_eq_some_iff_isInnermost :
    tree.innermost? accepts = some target ↔ tree.IsInnermost accepts target := by
  rw [innermost?_eq_some_iff_comesBefore]
  constructor
  · rintro ⟨accepted, last⟩
    refine ⟨accepted, fun inner below accepted' => ?_, last,
      fun other accepted' => left_of_precedes accepted.mem_sites accepted'.mem_sites⟩
    have distinct : inner ≠ target := fun same => target.not_isAbove_self (same ▸ below)
    exact (last inner accepted' distinct).asymm (.inl below)
  · exact fun innermost => ⟨innermost.accepted, innermost.others⟩

/-- On one way down the others are above the innermost site. -/
theorem IsInnermost.isAbove (innermost : tree.IsInnermost accepts target)
    (onOneWay : tree.OnOneWay accepts) (accepted : tree.IsAccepted accepts other)
    (distinct : other ≠ target) : other.IsAbove target := by
  obtain ⟨way, along⟩ := onOneWay
  rcases List.prefix_or_prefix_of_prefix (along other accepted) (along target innermost.accepted)
    with leads | leads
  · exact isAbove_of_way_prefix accepted.held innermost.accepted.held leads distinct
  · have below := isAbove_of_way_prefix innermost.accepted.held accepted.held leads
      (Ne.symm distinct)
    exact absurd accepted (innermost.noneBelow other below)

/-- **Among accepted sites on one way down the innermost is the deepest.** -/
theorem IsInnermost.eq_iff_isDeepest (innermost : tree.IsInnermost accepts target)
    (onOneWay : tree.OnOneWay accepts) : tree.IsDeepest accepts site ↔ target = site := by
  constructor
  · rintro ⟨accepted, depth_le⟩
    by_contra distinct
    have above := innermost.isAbove onOneWay accepted (Ne.symm distinct)
    exact Nat.not_le_of_lt above.depth_lt (depth_le target innermost.accepted)
  · rintro rfl
    refine ⟨innermost.accepted, fun other accepted => ?_⟩
    by_cases same : other = target
    · exact Nat.le_of_eq (congrArg Site.depth same)
    · exact Nat.le_of_lt (innermost.isAbove onOneWay accepted same).depth_lt

/-! ## Sites around a selection -/

section Selections

variable {selection : Selection} (regular : tree.IsRegular)
  (around : ∀ site, accepts site = true → site.isAround selection = true)

include regular around

/-- **Sites around a selection of which neither is above the other touch at a cursor.** -/
theorem IsRegular.touch (accepted : tree.IsAccepted accepts site)
    (accepted' : tree.IsAccepted accepts other) (precedes : site.Precedes other) :
    selection.start = selection.stop ∧ site.range.stop = selection.start ∧
      other.range.start = selection.stop := by
  have apart := precedes.range_le (regular.site site accepted.mem_sites).1
  obtain ⟨-, stops⟩ := Selection.isInside_iff.1 (around site accepted.accepted)
  obtain ⟨starts, -⟩ := Selection.isInside_iff.1 (around other accepted'.accepted)
  have cursor : selection.start = selection.stop :=
    le_antisymm selection.ordered (stops.trans (apart.trans starts))
  rw [← cursor] at stops ⊢
  exact ⟨rfl, le_antisymm (apart.trans starts) stops, le_antisymm starts (stops.trans apart)⟩

/-- **Sites around a selection that is not empty lie on one way down.** -/
theorem IsRegular.onOneWay (selected : selection.isEmpty = false) : tree.OnOneWay accepts := by
  cases found : tree.innermost? accepts with
  | none =>
    have nowhere := innermost?_eq_none_iff_not_isAccepted.1 found
    exact ⟨[], fun site accepted => absurd accepted (nowhere site)⟩
  | some target =>
    have innermost := innermost?_eq_some_iff_isInnermost.1 found
    refine ⟨target.way, fun site accepted => ?_⟩
    by_cases same : site = target
    · exact same ▸ List.prefix_rfl
    rcases innermost.others site accepted same with ⟨number, steps, reached⟩ | precedes
    · exact ⟨_, (Site.way_of_down reached).symm⟩
    · have cursor := (regular.touch around accepted innermost.accepted precedes).1
      rw [Selection.isEmpty, cursor, beq_self_eq_true] at selected
      cases selected

end Selections

/-! ## The walk that keeps a site -/

section Walk

variable {m : Type → Type} [Monad m] [LawfulMonad m]

/-- Acts on sites that are entered. -/
def onEntering (act : Site → m Unit) : Event → m Unit
  | .enter site => act site
  | .leave _ => pure ()

theorem forM_onEntering (act : Site → m Unit) (events : List Event) :
    events.forM (onEntering act) = (events.filterMap Event.entered?).forM act := by
  induction events with
  | nil => rfl
  | cons event rest ih =>
    cases event with
    | enter site =>
      have enters : Event.entered? (.enter site) = some site := rfl
      rw [List.filterMap_cons_some enters]
      exact bind_congr fun _ => ih
    | leave site =>
      have leaves : Event.entered? (.leave site) = none := rfl
      rw [List.filterMap_cons_none leaves, ← ih]
      exact pure_bind () _

/-- A walk that acts on entering acts on the named sites in document order. -/
theorem traverse_onEntering (act : Site → m Unit) :
    tree.traverse (onEntering act) = tree.sites.forM act := by
  rw [traverse_eq_forM, forM_onEntering, sites]

end Walk

/-- Keeps a site that a test accepts. -/
def keep (accepts : Site → Bool) (site : Site) : StateM (Option Site) Unit :=
  if accepts site then set (some site) else pure ()

/-- Of the accepted sites the last is kept. -/
theorem run_forM_keep (sites : List Site) (kept : Option Site) :
    (sites.forM (keep accepts)).run kept = ((), (sites.filter accepts).getLast?.or kept) := by
  induction sites generalizing kept with
  | nil => rfl
  | cons first rest ih =>
    show (rest.forM (keep accepts)).run ((keep accepts first).run kept).2 = _
    rw [ih, keep]
    cases accepted : accepts first with
    | false =>
      rw [List.filter_cons_of_neg (Bool.eq_false_iff.1 accepted)]
      rfl
    | true =>
      rw [List.filter_cons_of_pos accepted, List.getLast?_cons]
      cases (rest.filter accepts).getLast? <;> rfl

/-- **A walk that keeps every accepted site it enters ends with the innermost.**  It keeps none
if none is accepted.  What it keeps is accepted, nothing below is, and every other accepted site
is above it or precedes it entirely; there is no other such site.  Where the accepted sites lie
on one way down from the root, it is the deepest of them and the only deepest. -/
theorem keeps_innermost (tree : Tree) (accepts : Site → Bool) :
    (tree.traverse (onEntering (keep accepts))).run none = ((), tree.innermost? accepts) ∧
      (tree.innermost? accepts = none ↔ ∀ site, ¬ tree.IsAccepted accepts site) ∧
      (∀ target, tree.innermost? accepts = some target ↔ tree.IsInnermost accepts target) ∧
      (tree.OnOneWay accepts → ∀ target,
        tree.innermost? accepts = some target ↔ tree.IsDeepest accepts target) := by
  refine ⟨?_, innermost?_eq_none_iff_not_isAccepted,
    fun _ => innermost?_eq_some_iff_isInnermost, fun onOneWay target => ?_⟩
  · rw [traverse_onEntering, run_forM_keep, Option.or_none, innermost?]
  · cases found : tree.innermost? accepts with
    | none =>
      have nowhere := innermost?_eq_none_iff_not_isAccepted.1 found
      exact iff_of_false (Option.some_ne_none target).symm
        fun deepest => nowhere target deepest.accepted
    | some kept =>
      have innermost := innermost?_eq_some_iff_isInnermost.1 found
      rw [Option.some_inj, innermost.eq_iff_isDeepest onOneWay]

/-- In `f(a) + g(b);` a cursor behind the `f` touches the name and the arguments, of which the
arguments are found.  What is around the selected `a` lies on one way down to it. -/
theorem keeps_innermost_callSum :
    let behindName := (·.isAround (.cursorAt ⟨0, 1⟩) : Site → Bool)
    let aroundArgument := (·.isAround (.between ⟨0, 2⟩ ⟨0, 3⟩) : Site → Bool)
    (∃ name arguments, callSum.innermost? behindName = some arguments ∧
      name.kind = "identifier" ∧ arguments.kind = "arguments" ∧
      callSum.IsAccepted behindName name ∧ name.Precedes arguments ∧
      callSum.IsInnermost behindName arguments) ∧
    callSum.OnOneWay aroundArgument ∧
      ∃ argument, callSum.innermost? aroundArgument = some argument ∧
        argument.kind = "identifier" ∧ argument.way = [0, 0, 0, 1, 1] ∧
        callSum.IsDeepest aroundArgument argument := by
  intro behindName aroundArgument
  obtain ⟨-, -, innermost, -⟩ := keeps_innermost callSum behindName
  obtain ⟨-, -, -, deepest⟩ := keeps_innermost callSum aroundArgument
  have regular : callSum.IsRegular := isRegular_of_isPlain (by decide)
  have onOneWay : callSum.OnOneWay aroundArgument :=
    regular.onOneWay (fun _ around => around) rfl
  refine ⟨?_, onOneWay, ?_⟩
  · have toName : callSum.rootSite.down [0, 0, 0, 0] = some _ := rfl
    have found : callSum.innermost? behindName = some _ := rfl
    refine ⟨_, _, found, rfl, rfl, ⟨rfl, ⟨_, toName⟩, rfl⟩, ?_, (innermost _).1 found⟩
    -- The two are the first children of the call.
    exact ⟨callSumSite.child callSumSite.node.children[0]! 0, 0, 1, [], [], Nat.zero_lt_one, rfl,
      rfl⟩
  · have found : callSum.innermost? aroundArgument = some _ := rfl
    exact ⟨_, found, rfl, rfl, (deepest onOneWay _).1 found⟩

end Tree
end Retouch
