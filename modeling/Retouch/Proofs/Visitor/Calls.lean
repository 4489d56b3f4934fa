import Retouch.Proofs.Tree.Order
import Retouch.Visitor

/-!
# The calls of a visitor

Which calls a visitor makes depends on its patterns and on the hooks that its handlers
have, and not on what is done in a call.  This much of it is its outline.

At an event the calls are those of a single entry, the first for exactly the kind of the
site or, where there is none, the first for a category of the kind (`Outline.Decides`).
Along a walk they are made in the order of the events (`Outline.calls`), in dispatching the
sites one by one they are made site by site (`Outline.dispatchCalls`).  These are the same
calls, each made once, and the calls on entering a site come in the same order; they differ
in when a site is left (`Outline.callsAgree`).
-/

set_option autoImplicit false

namespace Retouch

/-! ## Outlines -/

/-- When a handler is called. -/
inductive Hook where
  | enter
  | leave
deriving DecidableEq

/-- The patterns of a visitor, each with the hooks that its handler has. -/
structure Outline where
  entries : List (NodePattern × (Hook → Bool))

/-- A call of the handler of an entry. -/
structure Call where
  entry : Nat
  hook : Hook
  site : Site

namespace Event

def hook : Event → Hook
  | enter _ => .enter
  | leave _ => .leave

theorem eq_of_hook_eq {event event' : Event} (hooks : event.hook = event'.hook)
    (sites : event.site = event'.site) : event = event' := by
  cases event <;> cases event'
  · exact congrArg enter sites
  · cases hooks
  · cases hooks
  · exact congrArg leave sites

/-- After a site is left nothing is told of the sites below it. -/
theorem Before.not_isAbove_of_leave {first second : Event} (before : first.Before second)
    (leaves : first.hook = .leave) : ¬ first.site.IsAbove second.site := by
  cases first with
  | enter outer => cases leaves
  | leave outer =>
    cases second with
    | enter inner => exact before.not_isAbove
    | leave inner =>
      rcases before with below | before
      · exact below.asymm
      · exact before.not_isAbove

theorem exists_eq (hook : Hook) (site : Site) :
    ∃ event : Event, event.hook = hook ∧ event.site = site := by
  cases hook with
  | enter => exact ⟨.enter site, rfl, rfl⟩
  | leave => exact ⟨.leave site, rfl, rfl⟩

end Event

namespace NodePattern

/-- Whether a pattern is a category of a kind. -/
def gathers (kind : String) : NodePattern → Bool
  | .kind _ => false
  | .category group => group.contains kind

theorem gathers_iff {kind : String} {pattern : NodePattern} :
    pattern.gathers kind = true ↔
      ∃ category, pattern = .category category ∧ kind ∈ category.members := by
  cases pattern with
  | kind named => simp [gathers]
  | category group => simp [gathers, Category.contains]

end NodePattern

/-- Whether a member of a list is the first that passes a test. -/
def IsFirst {α : Type} (list : List α) (test : α → Prop) (number : Nat) : Prop :=
  (∃ member, list[number]? = some member ∧ test member) ∧
    ∀ earlier < number, ∀ member, list[earlier]? = some member → ¬ test member

theorem findIdx?_eq_some_iff_isFirst {α : Type} {list : List α} {test : α → Bool} {number : Nat} :
    list.findIdx? test = some number ↔ IsFirst list (fun member => test member = true) number := by
  rw [List.findIdx?_eq_some_iff_getElem, IsFirst]
  constructor
  · rintro ⟨inside, passes, fail⟩
    refine ⟨⟨list[number], List.getElem?_eq_getElem inside, passes⟩, ?_⟩
    intro earlier before member found
    obtain ⟨within, rfl⟩ := List.getElem?_eq_some_iff.1 found
    exact fail earlier before
  · rintro ⟨⟨member, found, passes⟩, fail⟩
    obtain ⟨inside, rfl⟩ := List.getElem?_eq_some_iff.1 found
    exact ⟨inside, passes, fun earlier before =>
      fail earlier before _ (List.getElem?_eq_getElem (Nat.lt_trans before inside))⟩

namespace Outline

def patterns (outline : Outline) : List NodePattern := outline.entries.map Prod.fst

/-- Whether an entry is the one that handles the sites of a kind: the first for the kind
itself, or else the first for a category of it. -/
def Decides (outline : Outline) (kind : String) (entry : Nat) : Prop :=
  IsFirst outline.patterns (· = .kind kind) entry ∨
    .kind kind ∉ outline.patterns ∧
      IsFirst outline.patterns
        (fun pattern => ∃ category, pattern = .category category ∧ kind ∈ category.members) entry

/-- The entry that handles the sites of a kind. -/
def indexOf? (outline : Outline) (kind : String) : Option Nat :=
  (outline.patterns.findIdx? (· = .kind kind)).or (outline.patterns.findIdx? (·.gathers kind))

/-- Whether the handler of an entry has a hook. -/
def offers (outline : Outline) (entry : Nat) (hook : Hook) : Bool :=
  outline.entries[entry]?.any fun (_, offered) => offered hook

/-- The call that is made at an event. -/
def call? (outline : Outline) (event : Event) : Option Call :=
  (outline.indexOf? event.site.kind).bind fun entry =>
    if outline.offers entry event.hook then some ⟨entry, event.hook, event.site⟩ else none

/-- The calls along a walk. -/
def calls (outline : Outline) (tree : Tree) : List Call := tree.events.filterMap outline.call?

/-- The calls of a site that is entered and left at once. -/
def callsAt (outline : Outline) (site : Site) : List Call :=
  [.enter site, .leave site].filterMap outline.call?

/-- The calls when the named sites are handled one by one. -/
def dispatchCalls (outline : Outline) (tree : Tree) : List Call :=
  tree.sites.flatMap outline.callsAt

section Calls

variable {outline : Outline} {tree : Tree} {kind : String} {entry : Nat} {event event' : Event}
  {call : Call}

theorem indexOf?_eq_some_iff :
    outline.indexOf? kind = some entry ↔ outline.Decides kind entry := by
  have unnamed : outline.patterns.findIdx? (· = .kind kind) = none ↔
      .kind kind ∉ outline.patterns := by
    rw [List.findIdx?_eq_none_iff]
    exact ⟨fun other member => of_decide_eq_false (other _ member) rfl,
      fun absent pattern member => decide_eq_false fun same => absent (same ▸ member)⟩
  rw [indexOf?, Decides, ← unnamed, Option.or_eq_some_iff,
    findIdx?_eq_some_iff_isFirst, findIdx?_eq_some_iff_isFirst]
  simp only [decide_eq_true_eq, NodePattern.gathers_iff]

example : (Outline.mk [(.category .expression, fun _ => true), (.kind "string", fun _ => true),
    (.category .literal, fun _ => true)]).indexOf? "string" = some 1 := by decide

theorem Decides.unique {entry' : Nat} (decides : outline.Decides kind entry)
    (decides' : outline.Decides kind entry') : entry = entry' :=
  Option.some.inj ((indexOf?_eq_some_iff.2 decides).symm.trans (indexOf?_eq_some_iff.2 decides'))

theorem call?_eq_some_iff :
    outline.call? event = some call ↔ event.hook = call.hook ∧ event.site = call.site ∧
      outline.Decides call.site.kind call.entry ∧ outline.offers call.entry call.hook = true := by
  rw [call?, Option.bind_eq_some_iff]
  simp only [indexOf?_eq_some_iff]
  constructor
  · rintro ⟨entry, decides, made⟩
    split at made
    · rename_i offered
      obtain rfl := Option.some.inj made
      exact ⟨rfl, rfl, decides, offered⟩
    · cases made
  · rintro ⟨hooks, sites, decides, offered⟩
    rw [hooks, sites]
    exact ⟨call.entry, decides, if_pos offered⟩

/-- A call tells at which event it is made. -/
theorem eq_of_call?_eq (made : outline.call? event = some call)
    (made' : outline.call? event' = some call) : event = event' := by
  obtain ⟨hooks, sites, -⟩ := call?_eq_some_iff.1 made
  obtain ⟨hooks', sites', -⟩ := call?_eq_some_iff.1 made'
  exact Event.eq_of_hook_eq (hooks.trans hooks'.symm) (sites.trans sites'.symm)

theorem mem_calls : call ∈ outline.calls tree ↔
    (call.site.node.isNamed = true ∧ tree.Holds call.site) ∧
      outline.Decides call.site.kind call.entry ∧ outline.offers call.entry call.hook = true := by
  rw [calls, List.mem_filterMap]
  constructor
  · rintro ⟨event, told, made⟩
    obtain ⟨-, sites, further⟩ := call?_eq_some_iff.1 made
    rw [Tree.mem_events, sites] at told
    exact ⟨told, further⟩
  · rintro ⟨held, further⟩
    obtain ⟨event, hooks, sites⟩ := Event.exists_eq call.hook call.site
    exact ⟨event, Tree.mem_events.2 (sites ▸ held), call?_eq_some_iff.2 ⟨hooks, sites, further⟩⟩

theorem nodup_calls (outline : Outline) (tree : Tree) : (outline.calls tree).Nodup :=
  tree.nodup_events.filterMap fun _ _ _ made made' => eq_of_call?_eq made made'

/-- In handling the sites one by one each is left as soon as it has been entered. -/
theorem dispatchCalls_eq (outline : Outline) (tree : Tree) :
    outline.dispatchCalls tree =
      (tree.sites.flatMap fun site => [Event.enter site, .leave site]).filterMap outline.call? := by
  rw [dispatchCalls, List.filterMap_flatMap]
  rfl

theorem perm_dispatchCalls (outline : Outline) (tree : Tree) :
    (outline.calls tree).Perm (outline.dispatchCalls tree) := by
  rw [dispatchCalls_eq]
  exact tree.perm_events.filterMap _

/-- The calls on entering are made in the order in which the sites are entered. -/
theorem filter_enter (outline : Outline) (events : List Event) :
    (events.filterMap outline.call?).filter (·.hook = .enter) =
      (events.filterMap Event.entered?).filterMap fun site => outline.call? (.enter site) := by
  rw [List.filter_filterMap, List.filterMap_filterMap]
  refine List.filterMap_congr fun event _ => ?_
  cases made : outline.call? event with
  | none => cases event <;> simp [Event.entered?, made]
  | some call =>
    obtain ⟨hooks, -⟩ := call?_eq_some_iff.1 made
    cases event with
    | enter site => simp [Event.entered?, made, ← hooks, Event.hook]
    | leave site => simp [Event.entered?, ← hooks, Event.hook]

theorem filter_enter_calls (outline : Outline) (tree : Tree) :
    (outline.calls tree).filter (·.hook = .enter) =
      tree.sites.filterMap fun site => outline.call? (.enter site) :=
  outline.filter_enter tree.events

theorem filter_enter_dispatchCalls (outline : Outline) (tree : Tree) :
    (outline.dispatchCalls tree).filter (·.hook = .enter) =
      tree.sites.filterMap fun site => outline.call? (.enter site) := by
  have entered : (tree.sites.flatMap fun site => [Event.enter site, .leave site]).filterMap
      Event.entered? = tree.sites := by
    rw [List.filterMap_flatMap]
    exact List.flatMap_singleton' tree.sites
  rw [dispatchCalls_eq, filter_enter, entered]

end Calls

/-! ## Walking and dispatching -/

/-- How the calls along a walk compare with the calls when the sites are handled one by
one. -/
structure CallsAgree (outline : Outline) (tree : Tree) (walked dispatched : List Call) : Prop where
  /-- At every named site all hooks of the deciding entry are called, and no others. -/
  complete : ∀ call, call ∈ walked ↔ (call.site.node.isNamed = true ∧ tree.Holds call.site) ∧
    outline.Decides call.site.kind call.entry ∧ outline.offers call.entry call.hook = true
  single : ∀ call ∈ walked, ∀ other ∈ walked, call.site.kind = other.site.kind →
    call.entry = other.entry
  nodup : walked.Nodup
  perm : walked.Perm dispatched
  entering : walked.filter (·.hook = .enter) = dispatched.filter (·.hook = .enter)
  preorder : (walked.filter (·.hook = .enter)).Pairwise fun first second =>
    first.site.IsAbove second.site ∨ first.site.Precedes second.site
  /-- Along a walk a site is left after all calls below it. -/
  leavesLast : walked.Pairwise fun first second =>
    first.hook = .leave → ¬ first.site.IsAbove second.site
  /-- One by one a site is left right after it has been entered. -/
  leavesNext : ∀ entry site, ⟨entry, .enter, site⟩ ∈ dispatched →
    ⟨entry, .leave, site⟩ ∈ dispatched →
      [⟨entry, .enter, site⟩, ⟨entry, .leave, site⟩] <:+: dispatched

section CallsAgree

variable (outline : Outline) (tree : Tree)

theorem pairwise_enter_calls :
    ((outline.calls tree).filter (·.hook = .enter)).Pairwise fun first second =>
      first.site.IsAbove second.site ∨ first.site.Precedes second.site := by
  rw [filter_enter_calls]
  refine tree.pairwise_sites.filterMap _ fun site site' before first made second made' => ?_
  obtain ⟨-, same, -⟩ := call?_eq_some_iff.1 made
  obtain ⟨-, same', -⟩ := call?_eq_some_iff.1 made'
  rw [← same, ← same']
  exact before

theorem pairwise_leave_calls :
    (outline.calls tree).Pairwise fun first second =>
      first.hook = .leave → ¬ first.site.IsAbove second.site := by
  refine tree.pairwise_events.filterMap _ fun event event' before first made second made' => ?_
  obtain ⟨hooks, same, -⟩ := call?_eq_some_iff.1 made
  obtain ⟨-, same', -⟩ := call?_eq_some_iff.1 made'
  rw [← hooks, ← same, ← same']
  intro leaves
  exact before.not_isAbove_of_leave leaves

theorem infix_dispatchCalls {entry : Nat} {site : Site}
    (enters : ⟨entry, .enter, site⟩ ∈ outline.dispatchCalls tree)
    (leaves : ⟨entry, .leave, site⟩ ∈ outline.dispatchCalls tree) :
    [⟨entry, .enter, site⟩, ⟨entry, .leave, site⟩] <:+: outline.dispatchCalls tree := by
  rw [← (outline.perm_dispatchCalls tree).mem_iff, mem_calls] at enters leaves
  obtain ⟨member, decides, entering⟩ := enters
  obtain ⟨-, -, leaving⟩ := leaves
  have made : outline.callsAt site = [⟨entry, .enter, site⟩, ⟨entry, .leave, site⟩] := by
    have enter : outline.call? (.enter site) = some ⟨entry, .enter, site⟩ :=
      call?_eq_some_iff.2 ⟨rfl, rfl, decides, entering⟩
    have leave : outline.call? (.leave site) = some ⟨entry, .leave, site⟩ :=
      call?_eq_some_iff.2 ⟨rfl, rfl, decides, leaving⟩
    rw [callsAt, List.filterMap_cons_some enter, List.filterMap_cons_some leave,
      List.filterMap_nil]
  rw [← made]
  exact List.infix_of_mem_flatten (List.mem_map_of_mem (Tree.mem_sites.2 member))

/-- **Walking a tree and dispatching its sites lead to the same calls.** -/
theorem callsAgree : outline.CallsAgree tree (outline.calls tree) (outline.dispatchCalls tree) where
  complete _ := mem_calls
  single call member other member' same := by
    obtain ⟨-, decides, -⟩ := mem_calls.1 member
    obtain ⟨-, decides', -⟩ := mem_calls.1 member'
    exact decides.unique (same ▸ decides')
  nodup := outline.nodup_calls tree
  perm := outline.perm_dispatchCalls tree
  entering := by rw [filter_enter_calls, filter_enter_dispatchCalls]
  preorder := outline.pairwise_enter_calls tree
  leavesLast := outline.pairwise_leave_calls tree
  leavesNext _ _ enters leaves := outline.infix_dispatchCalls tree enters leaves

end CallsAgree
end Outline
end Retouch
