import Retouch.Proofs.Tree.Shape
import Retouch.Proofs.Tree.Walk

/-!
# Descendants

The named sites below a site can be found in two ways.  A search goes from named children to
named children, with a stack of those that it has still to go through; a walk goes through all
nodes and tells of the named ones.

A search puts the named children of a site on its stack in reverse, so that the first of them is
the next to be taken off.  Every round takes as much weight off the stack as the site had whose
children take its place, so a search ends; and what it has found, with what a walk in pre-order
would find from its stack, stays the same in every round (`Search.outcome_round?`).  So it ends
with the descendants of the site (`Search.run_eq`).

**Result.**  Where anonymous nodes have no named ones below them, the descendants of a site are
those sites that a walk through the tree enters strictly inside it, without a break, each once
and in the same order (`Tree.descendants_entered_inside`).  A search does not look below anonymous
nodes, which is why they matter.
-/

set_option autoImplicit false

namespace Retouch

/-! ## Searching with a stack -/

/-- A search below a site: the sites that it has still to go through, the next of them last,
and those that it has found. -/
structure Search where
  stack : List Site
  found : List Site

namespace Search

open Site

/-- A search as it begins. -/
def below (site : Site) : Search := ⟨site.namedChildren.reverse, []⟩

/-- A round of a search: the last site is taken off the stack and found, and its named children
are put in its place. -/
def round? (search : Search) : Option Search :=
  search.stack.getLast?.map fun next =>
    ⟨search.stack.dropLast ++ next.namedChildren.reverse, search.found ++ [next]⟩

variable {search after : Search}

theorem exists_of_round? (went : search.round? = some after) :
    ∃ rest next, search.stack = rest ++ [next] ∧
      after = ⟨rest ++ next.namedChildren.reverse, search.found ++ [next]⟩ := by
  obtain ⟨next, last, rfl⟩ := Option.map_eq_some_iff.1 went
  obtain ⟨rest, parted⟩ := List.getLast?_eq_some_iff.1 last
  exact ⟨rest, next, parted, by rw [parted, List.dropLast_concat]⟩

theorem weight_reverse (sites : List Site) : weight sites.reverse = weight sites := by
  induction sites with
  | nil => rfl
  | cons first rest ih =>
    rw [List.reverse_cons, weight_append, ih, weight, weight, weight, Nat.add_zero, Nat.add_comm]

/-- Every round leaves less on the stack. -/
theorem weight_round?_lt (went : search.round? = some after) :
    weight after.stack < weight search.stack := by
  obtain ⟨rest, next, parted, rfl⟩ := exists_of_round? went
  rw [parted, weight_append, weight_append, weight_reverse, weight, weight, Nat.add_zero]
  exact Nat.add_lt_add_left next.weight_namedChildren_lt _

/-- Goes on with a search until its stack is empty. -/
def run (search : Search) : Search :=
  match _ : search.round? with
  | some after => after.run
  | none => search
termination_by weight search.stack
decreasing_by exact weight_round?_lt ‹_›

/-- What a search will have found: what it has found so far, and then the sites of its stack
with the named ones below them. -/
def outcome (search : Search) : List Site := search.found ++ preorder search.stack.reverse

/-- A round does not change what a search will have found. -/
theorem outcome_round? (went : search.round? = some after) : after.outcome = search.outcome := by
  obtain ⟨rest, next, parted, rfl⟩ := exists_of_round? went
  rw [outcome, outcome, parted, List.reverse_append, List.reverse_reverse, List.reverse_append,
    List.reverse_singleton, List.singleton_append, preorder, List.append_assoc,
    List.singleton_append]

/-- **A search ends** with an empty stack and all that it will have found. -/
theorem run_eq (search : Search) : search.run = ⟨[], search.outcome⟩ := by
  induction search using run.induct with
  | case1 search after went ih =>
    rw [run]
    split
    · rename_i after' went'
      obtain rfl := Option.some.inj (went'.symm.trans went)
      rw [ih, outcome_round? went]
    · rename_i stuck
      cases went.symm.trans stuck
  | case2 search stuck =>
    obtain ⟨stack, found⟩ := search
    obtain rfl := List.getLast?_eq_none_iff.1 (Option.map_eq_none_iff.1 stuck)
    have whole : outcome ⟨[], found⟩ = found := by
      rw [outcome, List.reverse_nil, preorder, List.append_nil]
    rw [run, whole]
    rfl

/-- A search finds the descendants of its site. -/
theorem run_below (site : Site) : (below site).run = ⟨[], site.descendants⟩ := by
  rw [run_eq, outcome, below, List.reverse_reverse, List.nil_append, descendants]

end Search

/-! ## Entering sites -/

namespace Node

/-- Whether a node that is anonymous has no named ones below it. -/
def StaysAnonymous (node : Node) : Prop :=
  node.isNamed = false → node.Everywhere fun inner => inner.isNamed = false

instance : DecidablePred StaysAnonymous := fun _ => inferInstanceAs (Decidable (_ → _))

/-- What holds of a node and of all below it is found on every way down. -/
theorem Everywhere.of_down {property : Node → Prop} {site found : Site} {way : List Nat}
    (everywhere : site.node.Everywhere property) (reached : site.down way = some found) :
    found.node.Everywhere property := by
  induction way generalizing site with
  | nil =>
    obtain rfl := Option.some.inj reached
    exact everywhere
  | cons number way ih =>
    obtain ⟨child, here, further⟩ := Site.down_cons_eq_some_iff.1 reached
    obtain ⟨node, inside, number, rfl⟩ :=
      Site.exists_of_mem_childrenFrom (List.mem_of_getElem? here)
    exact ih (everywhere.child inside) further

end Node

/-- Elements that tell nothing may be left out. -/
theorem flatMap_filter {α β : Type} {elements : List α} {keep : α → Bool} {told : α → List β}
    (silent : ∀ element ∈ elements, keep element = false → told element = []) :
    (elements.filter keep).flatMap told = elements.flatMap told := by
  induction elements with
  | nil => rfl
  | cons first rest ih =>
    obtain ⟨here, later⟩ := List.forall_mem_cons.1 silent
    cases kept : keep first with
    | true => rw [List.filter_cons_of_pos kept, List.flatMap_cons, List.flatMap_cons, ih later]
    | false =>
      rw [List.filter_cons_of_neg (Bool.eq_false_iff.1 kept), List.flatMap_cons, here kept,
        ih later, List.nil_append]

namespace Site

open Event

variable {site inner : Site}

/-- The sites that a walk enters strictly inside a site. -/
def enteredInside (site : Site) : List Site := site.eventsInside.filterMap entered?

theorem mem_enteredInside :
    inner ∈ site.enteredInside ↔ inner.node.isNamed = true ∧ site.IsAbove inner := by
  rw [enteredInside, mem_filterMap_entered?, mem_eventsInside]
  rfl

theorem enteredInside_eq (site : Site) :
    site.enteredInside = site.children.flatMap fun child => child.events.filterMap entered? :=
  List.filterMap_flatMap

/-- A walk through a named site enters it and then what is inside it. -/
theorem entered_of_isNamed (named : site.node.isNamed = true) :
    site.events.filterMap entered? = site :: site.enteredInside := by
  have enters : entered? (enter site) = some site := rfl
  have leaves : entered? (leave site) = none := rfl
  rw [events_of_isNamed named, List.filterMap_cons_some enters, List.filterMap_append,
    List.filterMap_cons_none leaves, List.filterMap_nil, List.append_nil, enteredInside]

/-- A walk tells nothing of nodes that are all anonymous. -/
theorem events_of_anonymous
    (anonymous : site.node.Everywhere fun node => node.isNamed = false) : site.events = [] := by
  refine List.eq_nil_iff_forall_not_mem.2 fun event told => ?_
  obtain ⟨named, way, reached⟩ := mem_events.1 told
  exact Bool.false_ne_true ((anonymous.of_down reached).self.symm.trans named)

/-- The sites of a worklist come before their descendants and in their order. -/
theorem preorder_eq_flatMap (sites : List Site) :
    preorder sites = sites.flatMap fun site => site :: site.descendants := by
  induction sites with
  | nil => rw [preorder, List.flatMap_nil]
  | cons first rest ih =>
    rw [preorder, preorder_append, ih, List.flatMap_cons, List.cons_append, descendants]

/-- **The descendants of a site are the sites that a walk enters inside it.** -/
theorem descendants_eq_enteredInside (tokens : site.node.Everywhere Node.StaysAnonymous) :
    site.descendants = site.enteredInside := by
  induction site using children_induction with
  | step site ih =>
    have below : ∀ child ∈ site.children, child.node.Everywhere Node.StaysAnonymous := by
      intro child member
      obtain ⟨node, inside, number, rfl⟩ := exists_of_mem_childrenFrom member
      exact tokens.child inside
    have entered : ∀ child ∈ site.namedChildren,
        child :: child.descendants = child.events.filterMap entered? := by
      intro child member
      obtain ⟨member, named⟩ := List.mem_filter.1 member
      rw [entered_of_isNamed named, ih child member (below child member)]
    have silent : ∀ child ∈ site.children, child.node.isNamed = false →
        child.events.filterMap entered? = [] := by
      intro child member anonymous
      rw [events_of_anonymous ((below child member).self anonymous), List.filterMap_nil]
    calc site.descendants
        = site.namedChildren.flatMap fun child => child :: child.descendants :=
          preorder_eq_flatMap _
      _ = site.namedChildren.flatMap fun child => child.events.filterMap entered? :=
          List.flatMap_congr entered
      _ = site.children.flatMap fun child => child.events.filterMap entered? :=
          flatMap_filter silent
      _ = site.enteredInside := site.enteredInside_eq.symm

end Site

namespace Tree

/-! ## The walk through a tree -/

/-- Notes a site that is entered. -/
def noteEntered : Event → StateM (List Site) Unit
  | .enter site => modify (· ++ [site])
  | .leave _ => pure ()

theorem run_forM_noteEntered (events : List Event) (noted : List Site) :
    (events.forM noteEntered).run noted = ((), noted ++ events.filterMap Event.entered?) := by
  induction events generalizing noted with
  | nil =>
    rw [List.filterMap_nil, List.append_nil]
    rfl
  | cons event rest ih =>
    show (rest.forM noteEntered).run ((noteEntered event).run noted).2 = _
    rw [ih]
    cases event with
    | enter site =>
      have enters : Event.entered? (.enter site) = some site := rfl
      rw [List.filterMap_cons_some enters, List.append_cons]
      rfl
    | leave site =>
      have leaves : Event.entered? (.leave site) = none := rfl
      rw [List.filterMap_cons_none leaves]
      rfl

variable {tree : Tree} {site : Site}

/-- What a walk enters inside a site it enters without a break. -/
theorem enteredInside_infix (held : tree.Holds site) : site.enteredInside <:+: tree.sites := by
  obtain ⟨way, reached⟩ := held
  exact (site.eventsInside_infix.trans (Site.events_infix_of_down reached)).filterMap _

/-- **The descendants of a site are what a walk enters strictly inside it.**  A search with a
stack ends and finds them.  A walk that notes the sites that it enters notes the descendants
without a break, each once and in the same order; they are all the sites it enters that are
below the site, and the site itself is none of them. -/
theorem descendants_entered_inside (tokens : tree.root.Everywhere Node.StaysAnonymous)
    (held : tree.Holds site) :
    (Search.below site).run = ⟨[], site.descendants⟩ ∧
      ∃ entered, (tree.traverse noteEntered).run [] = ((), entered) ∧
        site.descendants <:+: entered ∧ site.descendants.Nodup ∧
        (∀ inner, inner ∈ site.descendants ↔ inner ∈ entered ∧ site.IsAbove inner) ∧
        site ∉ site.descendants := by
  have walked : (tree.traverse noteEntered).run [] = ((), tree.sites) := by
    rw [traverse_eq_forM, run_forM_noteEntered, List.nil_append, sites]
  obtain ⟨way, reached⟩ := id held
  have unbroken : site.descendants <:+: tree.sites := by
    rw [Site.descendants_eq_enteredInside (tokens.of_down reached)]
    exact enteredInside_infix held
  have members : ∀ inner, inner ∈ site.descendants ↔
      inner.node.isNamed = true ∧ site.IsAbove inner := fun inner => by
    rw [Site.descendants_eq_enteredInside (tokens.of_down reached), Site.mem_enteredInside]
  refine ⟨Search.run_below site, tree.sites, walked, unbroken,
    tree.nodup_sites.sublist unbroken.sublist, fun inner => ?_,
    fun inside => site.not_isAbove_self ((members site).1 inside).2⟩
  constructor
  · exact fun inside => ⟨unbroken.mem inside, ((members inner).1 inside).2⟩
  · rintro ⟨entered, above⟩
    exact (members inner).2 ⟨(mem_sites.1 entered).1, above⟩

/-- What a parser makes of `f(a) + g(b);`. -/
def callSum : Tree where
  source := "f(a) + g(b);".toList
  root :=
    let named (kind : String) (start stop : Nat) (fields : List String) : Label :=
      ⟨kind, true, false, false, false, start, stop, fields⟩
    let mark (text : String) (start stop : Nat) (fields : List String) : Node :=
      .mk ⟨text, false, false, false, false, start, stop, fields⟩ []
    let call (start : Nat) (field : String) : Node :=
      .mk (named "call_expression" start (start + 4) [field])
        [.mk (named "identifier" start (start + 1) ["function"]) [],
          .mk (named "arguments" (start + 1) (start + 4) ["arguments"])
            [mark "(" (start + 1) (start + 2) [],
              .mk (named "identifier" (start + 2) (start + 3) []) [],
              mark ")" (start + 3) (start + 4) []]]
    .mk (named "program" 0 12 [])
      [.mk (named "expression_statement" 0 12 [])
        [.mk (named "binary_expression" 0 11 [])
          [call 0 "left", mark "+" 5 6 ["operator"], call 7 "right"], mark ";" 11 12 []]]

/-- The sum itself, below the statement. -/
def callSumSite : Site :=
  let statement := callSum.root.children[0]!
  (callSum.rootSite.child statement 0).child statement.children[0]! 0

/-- Both operands of the sum have something below them: the search goes through the first
with all of it before it comes to the second, as the walk does. -/
theorem descendants_entered_inside_callSum :
    callSum.root.Everywhere Node.StaysAnonymous ∧ callSum.Holds callSumSite ∧
      (Search.below callSumSite).run = ⟨[], callSumSite.descendants⟩ ∧
      callSumSite.descendants.map (fun site => (site.kind, site.node.label.start)) =
        [("call_expression", 0), ("identifier", 0), ("arguments", 1), ("identifier", 2),
          ("call_expression", 7), ("identifier", 7), ("arguments", 8), ("identifier", 9)] ∧
      ∃ entered, (callSum.traverse noteEntered).run [] = ((), entered) ∧
        callSumSite.descendants <:+: entered ∧ callSumSite ∉ callSumSite.descendants := by
  have tokens : callSum.root.Everywhere Node.StaysAnonymous := by decide
  have reached : callSum.rootSite.down [0, 0] = some callSumSite := rfl
  have held : callSum.Holds callSumSite := ⟨[0, 0], reached⟩
  obtain ⟨ended, entered, walked, unbroken, -, -, notItself⟩ :=
    descendants_entered_inside tokens held
  refine ⟨tokens, held, ended, ?_, entered, walked, unbroken, notItself⟩
  rw [Site.descendants_eq_enteredInside (tokens.of_down reached)]
  rfl

end Tree
end Retouch
