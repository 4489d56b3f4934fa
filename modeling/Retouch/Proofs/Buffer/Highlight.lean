import Mathlib.Data.List.Induction
import Mathlib.Data.List.Nodup
import Retouch.Buffer.Highlight

/-!
# Highlights through their history

What highlights there are follows from the history of what was done to them.  A source is
live if it was highlighted once and has been spared since (`Change.IsLive`).  The group of a
source dates from the moment at which it was last highlighted anew: it has kept the color
that was the next one at that moment, and it has the bindings given last
(`Highlight.MadeAfter`).

**Result.**  After every history there is one group for each live source, and the groups
come in the order in which they were made, under increasing colors, all of which have been
given out (`Highlights.Chronicles`).  Hence no color that is given out is in use, a group
keeps its color for as long as it is there, and a search finds the oldest group that covers
a selection (`Highlights.run_chronicles`).

What a change does is said once (`Highlights.groups_after`): it drops the groups that it does
not spare, gives the others their new bindings, and may add a group at the end.
-/

set_option autoImplicit false

namespace Retouch

/-- What can be done to highlights. -/
inductive Change where
  | highlight (source : Selection) (bindings : List Selection)
  | remove (source : Selection)
  | clear
deriving DecidableEq

namespace Change

/-- Whether a change leaves the group of a source there. -/
def spares (source : Selection) : Change → Bool
  | highlight _ _ => true
  | remove other => other ≠ source
  | clear => false

/-- The bindings that a change gives to a source. -/
def bindingsFor? (source : Selection) : Change → Option (List Selection)
  | highlight other bindings => if other = source then some bindings else none
  | remove _ => none
  | clear => none

/-- A group with the bindings that a change gives to its source. -/
def rebound (change : Change) (group : Highlight) : Highlight :=
  { group with bindings := (change.bindingsFor? group.source).getD group.bindings }

/-- Whether a source is highlighted after a history: it was once, and has been spared
since. -/
def IsLive (history : List Change) (source : Selection) : Prop :=
  ∃ earlier bindings later, history = earlier ++ highlight source bindings :: later ∧
    ∀ change ∈ later, change.spares source = true

@[simp] theorem source_rebound (change : Change) (group : Highlight) :
    (change.rebound group).source = group.source := rfl

theorem rebound_of_none {change : Change} {group : Highlight}
    (none : change.bindingsFor? group.source = none) : change.rebound group = group := by
  rw [rebound, none]
  rfl

/-- A list with one more item is split at that item or before it. -/
theorem concat_eq_append_cons_iff {α : Type} {items earlier later : List α} {item last : α} :
    items ++ [last] = earlier ++ item :: later ↔
      earlier = items ∧ last = item ∧ later = [] ∨
        ∃ between, items = earlier ++ item :: between ∧ later = between ++ [last] := by
  constructor
  · intro same
    rcases List.eq_nil_or_concat' later with rfl | ⟨between, final, rfl⟩
    · obtain ⟨rfl, ends⟩ := List.append_inj' same rfl
      exact .inl ⟨rfl, (List.cons.inj ends).1, rfl⟩
    · rw [← List.cons_append, ← List.append_assoc] at same
      obtain ⟨rfl, ends⟩ := List.append_inj' same rfl
      rw [(List.cons.inj ends).1]
      exact .inr ⟨between, rfl, rfl⟩
  · rintro (⟨rfl, rfl, rfl⟩ | ⟨between, rfl, rfl⟩)
    · rfl
    · simp

variable {history : List Change} {change : Change} {source : Selection}

theorem isLive_concat_iff :
    IsLive (history ++ [change]) source ↔
      (∃ bindings, change = highlight source bindings) ∨
        IsLive history source ∧ change.spares source = true := by
  constructor
  · rintro ⟨earlier, bindings, later, split, spared⟩
    rcases concat_eq_append_cons_iff.1 split with ⟨-, last, -⟩ | ⟨between, parted, rfl⟩
    · exact .inl ⟨bindings, last⟩
    · rw [List.forall_mem_append] at spared
      exact .inr ⟨⟨earlier, bindings, between, parted, spared.1⟩, spared.2 change (by simp)⟩
  · rintro (⟨bindings, rfl⟩ | ⟨⟨earlier, bindings, later, rfl, spared⟩, also⟩)
    · exact ⟨history, bindings, [], rfl, by simp⟩
    · refine ⟨earlier, bindings, later ++ [change], by simp, ?_⟩
      rw [List.forall_mem_append]
      exact ⟨spared, by simpa using also⟩

end Change

open Change

namespace Highlights

/-! ## A change -/

/-- The sources of the groups. -/
def sources (highlights : Highlights) : List Selection := highlights.groups.map Highlight.source

/-- The highlights after a change. -/
def after (highlights : Highlights) : Change → Highlights
  | .highlight source bindings => (highlights.highlight source bindings).2
  | .remove source => (highlights.remove source).2
  | .clear => empty

/-- The group that a change makes, if its source has none. -/
def made (highlights : Highlights) : Change → List Highlight
  | .highlight source bindings =>
    if source ∈ highlights.sources then [] else [⟨source, bindings, highlights.nextColor⟩]
  | .remove _ => []
  | .clear => []

section After

variable {highlights : Highlights} {source : Selection} {bindings : List Selection}
  {group : Highlight} {change : Change}

theorem ofSource?_eq_none_iff :
    highlights.ofSource? source = none ↔ source ∉ highlights.sources := by
  rw [ofSource?, List.find?_eq_none, sources, List.mem_map]
  simp

theorem ofSource?_eq_some_iff (distinct : highlights.sources.Nodup) :
    highlights.ofSource? source = some group ↔
      group ∈ highlights.groups ∧ group.source = source := by
  constructor
  · intro found
    exact ⟨List.mem_of_find?_eq_some found, by simpa using List.find?_some found⟩
  · rintro ⟨member, rfl⟩
    cases found : highlights.ofSource? group.source with
    | none => exact absurd (List.mem_map_of_mem member) (ofSource?_eq_none_iff.1 found)
    | some other =>
      have same : other.source = group.source := by simpa using List.find?_some found
      rw [List.inj_on_of_nodup_map distinct (List.mem_of_find?_eq_some found) member same]

theorem colorOf?_eq_some_iff (distinct : highlights.sources.Nodup) {color : Nat} :
    highlights.colorOf? source = some color ↔
      ∃ group ∈ highlights.groups, group.source = source ∧ group.color = color := by
  rw [colorOf?, Option.map_eq_some_iff]
  simp only [ofSource?_eq_some_iff distinct, and_assoc]

/-- Highlighting a source that has a group tells its color and gives it new bindings. -/
theorem highlight_of_mem (distinct : highlights.sources.Nodup) (member : group ∈ highlights.groups)
    (bindings : List Selection) :
    highlights.highlight group.source bindings =
      (group.color,
        { highlights with groups := rebind group.source bindings highlights.groups }) := by
  rw [highlight, (ofSource?_eq_some_iff distinct).2 ⟨member, rfl⟩]

/-- Highlighting a source that has no group makes one under the next color. -/
theorem highlight_of_notMem (fresh : source ∉ highlights.sources) (bindings : List Selection) :
    highlights.highlight source bindings =
      (highlights.nextColor,
        { groups := highlights.groups ++ [⟨source, bindings, highlights.nextColor⟩]
          nextColor := highlights.nextColor + 1 }) := by
  rw [highlight, ofSource?_eq_none_iff.2 fresh]

/-- Giving bindings to a source changes no group of another one. -/
theorem map_rebound_of_notMem {groups : List Highlight}
    (unbound : source ∉ groups.map Highlight.source) :
    groups.map (Change.highlight source bindings).rebound = groups := by
  conv_rhs => rw [← List.map_id groups]
  refine List.map_congr_left fun group member => rebound_of_none (if_neg fun same => unbound ?_)
  rw [same]
  exact List.mem_map_of_mem member

theorem rebind_eq_map {groups : List Highlight} (distinct : (groups.map Highlight.source).Nodup) :
    rebind source bindings groups = groups.map (Change.highlight source bindings).rebound := by
  induction groups with
  | nil => rfl
  | cons first rest ih =>
    obtain ⟨own, distinct⟩ := List.nodup_cons.1 distinct
    rw [rebind, List.map_cons]
    split
    · rename_i same
      subst same
      -- The first group is the only one with this source.
      rw [map_rebound_of_notMem own, rebound, bindingsFor?, if_pos rfl]
      rfl
    · rename_i other
      have unbound : (Change.highlight source bindings).bindingsFor? first.source = none :=
        if_neg (Ne.symm other)
      rw [ih distinct, rebound_of_none unbound]

theorem mem_made_iff :
    group ∈ highlights.made change ↔
      change = .highlight group.source group.bindings ∧ group.source ∉ highlights.sources ∧
        group.color = highlights.nextColor := by
  obtain ⟨source, bindings, color⟩ := group
  cases change with
  | highlight other given =>
    rw [made]
    split
    · rename_i known
      simp only [List.not_mem_nil, false_iff]
      rintro ⟨same, unknown, -⟩
      cases same
      exact unknown known
    · rename_i unknown
      simp only [List.mem_singleton, Highlight.mk.injEq, Change.highlight.injEq]
      constructor
      · rintro ⟨rfl, rfl, rfl⟩
        exact ⟨⟨rfl, rfl⟩, unknown, rfl⟩
      · rintro ⟨⟨rfl, rfl⟩, -, rfl⟩
        exact ⟨rfl, rfl, rfl⟩
  | remove other => simp [made]
  | clear => simp [made]

theorem pairwise_made {relation : Highlight → Highlight → Prop} :
    (highlights.made change).Pairwise relation := by
  cases change with
  | highlight source bindings =>
    rw [made]
    split
    · exact .nil
    · exact List.pairwise_singleton _ _
  | remove source => exact .nil
  | clear => exact .nil

/-- **What a change does to the groups**: it drops those that it does not spare, gives the
others their new bindings, and adds the one that it makes. -/
theorem groups_after (distinct : highlights.sources.Nodup) (change : Change) :
    (highlights.after change).groups =
      (highlights.groups.filter (change.spares ·.source)).map change.rebound ++
        highlights.made change := by
  cases change with
  | highlight source bindings =>
    have all : highlights.groups.filter
        ((Change.highlight source bindings).spares ·.source) = highlights.groups :=
      List.filter_eq_self.2 fun _ _ => rfl
    rw [all, made, after]
    by_cases known : source ∈ highlights.sources
    · obtain ⟨group, member, rfl⟩ := List.mem_map.1 known
      rw [highlight_of_mem distinct member, if_pos known, List.append_nil,
        ← rebind_eq_map distinct]
    · rw [highlight_of_notMem known, if_neg known, map_rebound_of_notMem known]
  | remove source =>
    have same : highlights.groups.filter ((Change.remove source).spares ·.source) =
        (highlights.remove source).2.groups :=
      List.filter_congr fun group _ => by simp [spares, eq_comm]
    rw [same, made, List.append_nil]
    exact (List.map_id _).symm
  | clear =>
    have none : highlights.groups.filter (Change.clear.spares ·.source) = [] :=
      List.filter_eq_nil_iff.2 fun _ _ => Bool.false_ne_true
    rw [none]
    rfl

theorem mem_groups_after_iff (distinct : highlights.sources.Nodup) :
    group ∈ (highlights.after change).groups ↔
      (∃ former ∈ highlights.groups, change.spares former.source = true ∧
        change.rebound former = group) ∨ group ∈ highlights.made change := by
  rw [groups_after distinct, List.mem_append, List.mem_map]
  simp only [List.mem_filter, and_assoc]

/-- Colors are given out in increasing order, except that clearing begins anew. -/
theorem nextColor_after (highlights : Highlights) (change : Change) :
    change = .clear ∨
      (highlights.after change).nextColor =
        highlights.nextColor + (highlights.made change).length := by
  cases change with
  | highlight source bindings =>
    rw [after, highlight, made]
    split
    · rename_i group found
      have known : source ∈ highlights.sources := by
        by_contra unknown
        rw [ofSource?_eq_none_iff.2 unknown] at found
        cases found
      rw [if_pos known]
      exact .inr rfl
    · rename_i unknown
      rw [if_neg (ofSource?_eq_none_iff.1 unknown)]
      exact .inr rfl
  | remove source => exact .inr rfl
  | clear => exact .inl rfl

end After

/-! ## A history -/

/-- The highlights after a history that begins with none. -/
def run (history : List Change) : Highlights := history.foldl after empty

theorem run_concat (history : List Change) (change : Change) :
    run (history ++ [change]) = (run history).after change := by
  rw [run, List.foldl_append]
  rfl

end Highlights

open Highlights

/-- **Whether a group dates from a moment of a history**: its source was highlighted then and
was not live before, and has been spared since; its color was the next one at that moment, and
its bindings are those given last. -/
def Highlight.MadeAfter (group : Highlight) (history earlier : List Change) : Prop :=
  ∃ bindings later, history = earlier ++ .highlight group.source bindings :: later ∧
    ¬ IsLive earlier group.source ∧
    (∀ change ∈ later, change.spares group.source = true) ∧
    group.bindings =
      (later.filterMap (bindingsFor? group.source)).getLast?.getD bindings ∧
    group.color = (run earlier).nextColor

namespace Highlight

variable {group : Highlight} {history earlier : List Change} {change : Change}
  {source : Selection}

theorem MadeAfter.isLive (made : group.MadeAfter history earlier) :
    IsLive history group.source := by
  obtain ⟨bindings, later, split, -, spared, -⟩ := made
  exact ⟨earlier, bindings, later, split, spared⟩

theorem MadeAfter.length_lt (made : group.MadeAfter history earlier) :
    earlier.length < history.length := by
  obtain ⟨bindings, later, rfl, -⟩ := made
  rw [List.length_append, List.length_cons]
  omega

theorem getD_getLast?_bindings (source : Selection) (later : List Change) (change : Change)
    (bindings : List Selection) :
    ((later ++ [change]).filterMap (bindingsFor? source)).getLast?.getD bindings =
      (change.bindingsFor? source).getD
        ((later.filterMap (bindingsFor? source)).getLast?.getD bindings) := by
  rw [List.filterMap_append, List.getLast?_append, List.filterMap_cons, List.filterMap_nil]
  cases change.bindingsFor? source <;> rfl

/-- **The groups after one change more** are those that it spares, with the bindings that it
gives them, and the one that it makes. -/
theorem madeAfter_concat_iff :
    group.MadeAfter (history ++ [change]) earlier ↔
      (∃ former : Highlight, former.MadeAfter history earlier ∧
        change.spares former.source = true ∧ change.rebound former = group) ∨
      earlier = history ∧ change = .highlight group.source group.bindings ∧
        ¬ IsLive history group.source ∧ group.color = (run history).nextColor := by
  constructor
  · rintro ⟨bindings, later, split, anew, spared, last, color⟩
    rcases concat_eq_append_cons_iff.1 split with ⟨rfl, rfl, rfl⟩ | ⟨between, parted, rfl⟩
    · exact .inr ⟨rfl, by rw [last]; rfl, anew, color⟩
    · rw [List.forall_mem_append] at spared
      refine .inl ⟨{ group with
        bindings := (between.filterMap (bindingsFor? group.source)).getLast?.getD bindings },
        ⟨bindings, between, parted, anew, spared.1, rfl, color⟩, spared.2 change (by simp), ?_⟩
      rw [getD_getLast?_bindings] at last
      rw [rebound, ← last]
  · rintro (⟨former, ⟨bindings, later, rfl, anew, spared, last, color⟩, also, rfl⟩ |
      ⟨rfl, rfl, anew, color⟩)
    · refine ⟨bindings, later ++ [change], by simp, anew, ?_, ?_, color⟩
      · rw [List.forall_mem_append]
        exact ⟨spared, by simpa using also⟩
      · rw [source_rebound, getD_getLast?_bindings, ← last]
        rfl
    · exact ⟨group.bindings, [], rfl, anew, by simp, rfl, color⟩

/-- The sources of the groups are the live ones. -/
theorem exists_madeAfter_iff :
    (∃ group earlier, Highlight.source group = source ∧ group.MadeAfter history earlier) ↔
      IsLive history source := by
  constructor
  · rintro ⟨group, earlier, rfl, made⟩
    exact made.isLive
  · intro live
    induction history using List.reverseRecOn with
    | nil =>
      obtain ⟨earlier, bindings, later, split, -⟩ := live
      simp at split
    | append_singleton history change ih =>
      by_cases before : IsLive history source
      · obtain ⟨former, earlier, rfl, made⟩ := ih before
        have spared : change.spares former.source = true := by
          rcases isLive_concat_iff.1 live with ⟨bindings, rfl⟩ | ⟨-, spared⟩
          · rfl
          · exact spared
        exact ⟨change.rebound former, earlier, rfl,
          madeAfter_concat_iff.2 (.inl ⟨former, made, spared, rfl⟩)⟩
      · obtain ⟨bindings, rfl⟩ :=
          (isLive_concat_iff.1 live).resolve_right fun both => before both.1
        exact ⟨⟨source, bindings, (run history).nextColor⟩, history, rfl,
          madeAfter_concat_iff.2 (.inr ⟨rfl, rfl, before, rfl⟩)⟩

/-- The group of a source stays, under its color, while its source is spared. -/
theorem MadeAfter.append (made : group.MadeAfter history earlier) {later : List Change}
    (spared : ∀ change ∈ later, change.spares group.source = true) :
    ∃ group' : Highlight, group'.source = group.source ∧ group'.color = group.color ∧
      group'.MadeAfter (history ++ later) earlier := by
  obtain ⟨bindings, between, rfl, anew, spared', -, color⟩ := made
  let given := (between ++ later).filterMap (bindingsFor? group.source)
  refine ⟨⟨group.source, given.getLast?.getD bindings, group.color⟩, rfl, rfl, bindings,
    between ++ later, by simp, anew, ?_, rfl, color⟩
  rw [List.forall_mem_append]
  exact ⟨spared', spared⟩

/-- What a group was made by is not followed by what a group of the same source is made by. -/
theorem MadeAfter.not_longer {group' : Highlight} {earlier' : List Change}
    (made : group.MadeAfter history earlier) (made' : group'.MadeAfter history earlier')
    (same : group.source = group'.source) : earlier'.length ≤ earlier.length := by
  obtain ⟨bindings, later, split, -, spared, -⟩ := made
  obtain ⟨bindings', later', split', anew, -⟩ := made'
  rcases List.append_eq_append_iff.1 (split.symm.trans split') with
    ⟨between, rfl, rest⟩ | ⟨between, rfl, -⟩
  · rcases between with _ | ⟨first, between⟩
    · simp
    · -- The source would have been live at the second moment.
      obtain ⟨rfl, rfl⟩ := List.cons.inj rest
      refine absurd ⟨earlier, bindings, between, by rw [same], ?_⟩ anew
      intro change member
      rw [← same]
      exact spared change (by simp [member])
  · rw [List.length_append]
    omega

end Highlight

namespace Highlights

/-- **What highlights are after a history.** -/
structure Chronicles (highlights : Highlights) (history : List Change) : Prop where
  /-- No source has two groups. -/
  distinct : highlights.sources.Nodup
  live : ∀ source, source ∈ highlights.sources ↔ IsLive history source
  /-- The groups are those that date from some moment of the history. -/
  dated : ∀ group, group ∈ highlights.groups ↔ ∃ earlier, group.MadeAfter history earlier
  /-- The groups come in the order in which they were made. -/
  ordered : highlights.groups.Pairwise fun first second =>
    ∀ earlier earlier', first.MadeAfter history earlier → second.MadeAfter history earlier' →
      earlier.length < earlier'.length
  increasing : highlights.groups.Pairwise fun first second => first.color < second.color
  /-- The colors have all been given out. -/
  given : ∀ group ∈ highlights.groups, group.color < highlights.nextColor

section Chronicles

variable {history earlier : List Change} {change : Change} {group : Highlight}

theorem chronicles_empty : empty.Chronicles [] where
  distinct := List.nodup_nil
  live source := by
    refine iff_of_false (List.not_mem_nil) ?_
    rintro ⟨earlier, bindings, later, split, -⟩
    simp at split
  dated group := by
    refine iff_of_false (List.not_mem_nil) ?_
    rintro ⟨earlier, made⟩
    exact Nat.not_lt_zero _ made.length_lt
  ordered := .nil
  increasing := .nil
  given _ member := by cases member

variable (before : (run history).Chronicles history)

include before

theorem Chronicles.mem_made_iff :
    group ∈ (run history).made change ↔
      change = .highlight group.source group.bindings ∧ ¬ IsLive history group.source ∧
        group.color = (run history).nextColor := by
  rw [Highlights.mem_made_iff, before.live]

/-- A group that a change only binds anew dates from the same moment as before. -/
theorem Chronicles.madeAfter_of_rebound (member : group ∈ (run history).groups)
    (made : (change.rebound group).MadeAfter (history ++ [change]) earlier) :
    group.MadeAfter history earlier := by
  rcases Highlight.madeAfter_concat_iff.1 made with ⟨former, made, -, same⟩ | ⟨-, -, anew, -⟩
  · have member' := (before.dated former).2 ⟨earlier, made⟩
    have source : former.source = group.source := by
      simpa only [source_rebound] using congrArg Highlight.source same
    rwa [← List.inj_on_of_nodup_map before.distinct member' member source]
  · exact absurd ((before.live _).1 (List.mem_map_of_mem member)) anew

/-- A group that a change makes dates from the moment before it. -/
theorem Chronicles.eq_of_mem_made (member : group ∈ (run history).made change)
    (made : group.MadeAfter (history ++ [change]) earlier) : earlier = history := by
  obtain ⟨-, anew, -⟩ := before.mem_made_iff.1 member
  rcases Highlight.madeAfter_concat_iff.1 made with ⟨former, made, -, same⟩ | ⟨now, -⟩
  · refine absurd made.isLive ?_
    rw [← same] at anew
    exact anew
  · exact now

theorem Chronicles.dated_after :
    group ∈ ((run history).after change).groups ↔
      ∃ earlier, group.MadeAfter (history ++ [change]) earlier := by
  simp only [mem_groups_after_iff before.distinct, before.mem_made_iff, before.dated,
    Highlight.madeAfter_concat_iff, exists_or, exists_eq_left]
  refine or_congr_left ⟨?_, ?_⟩
  · rintro ⟨former, ⟨earlier, made⟩, kept⟩
    exact ⟨earlier, former, made, kept⟩
  · rintro ⟨earlier, former, made, kept⟩
    exact ⟨former, ⟨earlier, made⟩, kept⟩

theorem Chronicles.ordered_after (change : Change) :
    ((run history).after change).groups.Pairwise fun first second => ∀ earlier earlier',
      first.MadeAfter (history ++ [change]) earlier →
        second.MadeAfter (history ++ [change]) earlier' → earlier.length < earlier'.length := by
  rw [groups_after before.distinct]
  refine List.pairwise_append.2 ⟨List.pairwise_map.2 ?_, pairwise_made, ?_⟩
  · refine (before.ordered.filter _).imp_of_mem ?_
    intro first second member member' order earlier earlier' made made'
    exact order earlier earlier'
      (before.madeAfter_of_rebound (List.mem_filter.1 member).1 made)
      (before.madeAfter_of_rebound (List.mem_filter.1 member').1 made')
  · intro first kept second new earlier earlier' made made'
    obtain ⟨former, member, rfl⟩ := List.mem_map.1 kept
    rw [before.eq_of_mem_made new made']
    exact (before.madeAfter_of_rebound (List.mem_filter.1 member).1 made).length_lt

/-- **One change more** is told by one change more. -/
theorem Chronicles.after (change : Change) :
    ((run history).after change).Chronicles (history ++ [change]) where
  distinct := by
    have distinct := List.pairwise_map.1 before.distinct
    rw [List.Nodup, sources, groups_after before.distinct, List.pairwise_map]
    refine List.pairwise_append.2 ⟨List.pairwise_map.2 (distinct.filter _), pairwise_made, ?_⟩
    intro first kept second new same
    obtain ⟨former, member, rfl⟩ := List.mem_map.1 kept
    refine (Highlights.mem_made_iff.1 new).2.1 ?_
    rw [← same]
    exact List.mem_map.2 ⟨former, (List.mem_filter.1 member).1, rfl⟩
  live source := by
    rw [← Highlight.exists_madeAfter_iff, sources, List.mem_map]
    simp only [before.dated_after]
    constructor
    · rintro ⟨group, ⟨earlier, made⟩, same⟩
      exact ⟨group, earlier, same, made⟩
    · rintro ⟨group, earlier, same, made⟩
      exact ⟨group, ⟨earlier, made⟩, same⟩
  dated _ := before.dated_after
  ordered := before.ordered_after change
  increasing := by
    rw [groups_after before.distinct]
    refine List.pairwise_append.2 ⟨List.pairwise_map.2 ?_, pairwise_made, ?_⟩
    · exact before.increasing.filter _
    · intro first kept second new
      obtain ⟨former, member, rfl⟩ := List.mem_map.1 kept
      rw [(before.mem_made_iff.1 new).2.2]
      exact before.given former (List.mem_filter.1 member).1
  given group member := by
    rcases (mem_groups_after_iff before.distinct).1 member with ⟨former, old, spared, rfl⟩ | new
    · rcases (run history).nextColor_after change with rfl | next
      · cases spared
      · rw [next]
        exact Nat.lt_add_right _ (before.given former old)
    · rcases (run history).nextColor_after change with rfl | next
      · cases new
      · rw [next, (before.mem_made_iff.1 new).2.2]
        exact Nat.lt_add_of_pos_right (List.length_pos_of_mem new)

omit before

theorem chronicles_run (history : List Change) : (run history).Chronicles history := by
  induction history using List.reverseRecOn with
  | nil => exact chronicles_empty
  | append_singleton history change before =>
    rw [run_concat]
    exact before.after change

/-- A source that has a color keeps it while it is spared. -/
theorem colorOf?_append {source : Selection} {color : Nat} {later : List Change}
    (known : (run history).colorOf? source = some color)
    (spared : ∀ change ∈ later, change.spares source = true) :
    (run (history ++ later)).colorOf? source = some color := by
  have before := chronicles_run history
  have since := chronicles_run (history ++ later)
  obtain ⟨group, member, rfl, rfl⟩ := (colorOf?_eq_some_iff before.distinct).1 known
  obtain ⟨earlier, made⟩ := (before.dated group).1 member
  obtain ⟨group', source, color, made'⟩ := made.append spared
  exact (colorOf?_eq_some_iff since.distinct).2
    ⟨group', (since.dated group').2 ⟨earlier, made'⟩, source, color⟩

theorem covers_iff {selection : Selection} :
    group.covers selection = true ↔ ∃ range ∈ group.ranges, selection.isInside range = true :=
  List.any_eq_true

/-- A search finds nothing when no group covers the selection. -/
theorem find?_eq_none_iff {selection : Selection} :
    (run history).find? selection = none ↔
      ∀ (group : Highlight) (earlier : List Change), group.MadeAfter history earlier →
        ∀ range ∈ group.ranges, selection.isInside range = false := by
  rw [find?, Option.map_eq_none_iff, List.find?_eq_none]
  simp only [(chronicles_run history).dated, covers_iff, not_exists, not_and, Bool.not_eq_true,
    forall_exists_index]

/-- The first group that covers a selection is older than every other. -/
theorem older_of_find?_covers {selection : Selection} {other : Highlight}
    (found : (run history).groups.find? (·.covers selection) = some group)
    (member : other ∈ (run history).groups) (covers : other.covers selection = true) :
    other = group ∨ ∀ earlier earlier', group.MadeAfter history earlier →
      other.MadeAfter history earlier' → earlier.length < earlier'.length := by
  obtain ⟨-, older, newer, split, refused⟩ := List.find?_eq_some_iff_append.1 found
  have ordered := (chronicles_run history).ordered
  rw [split] at member ordered
  rcases List.mem_append.1 member with old | here
  · have := refused other old
    rw [covers] at this
    cases this
  · obtain ⟨-, ordered, -⟩ := List.pairwise_append.1 ordered
    exact (List.mem_cons.1 here).imp_right ((List.pairwise_cons.1 ordered).1 other)

/-- **A search finds the oldest group that covers the selection.** -/
theorem find?_eq_some_iff {selection source : Selection} :
    (run history).find? selection = some source ↔
      ∃ (group : Highlight) (earlier : List Change), group.source = source ∧
        group.MadeAfter history earlier ∧
        (∃ range ∈ group.ranges, selection.isInside range = true) ∧
        ∀ (other : Highlight) (earlier' : List Change), other.MadeAfter history earlier' →
          (∃ range ∈ other.ranges, selection.isInside range = true) →
          earlier.length ≤ earlier'.length := by
  have dated := (chronicles_run history).dated
  simp only [← covers_iff]
  rw [find?, Option.map_eq_some_iff]
  constructor
  · rintro ⟨group, found, rfl⟩
    obtain ⟨earlier, made⟩ := (dated group).1 (List.mem_of_find?_eq_some found)
    refine ⟨group, earlier, rfl, made,
      List.find?_some (p := fun group : Highlight => group.covers selection) found, ?_⟩
    intro other earlier' made' covers
    rcases older_of_find?_covers found ((dated other).2 ⟨earlier', made'⟩) covers with rfl | older
    · exact made'.not_longer made rfl
    · exact Nat.le_of_lt (older earlier earlier' made made')
  · rintro ⟨group, earlier, rfl, made, covers, oldest⟩
    have member := (dated group).2 ⟨earlier, made⟩
    cases found : (run history).groups.find? (·.covers selection) with
    | none => exact absurd covers (List.find?_eq_none.1 found group member)
    | some other =>
      obtain ⟨earlier', made'⟩ := (dated other).1 (List.mem_of_find?_eq_some found)
      have covers' := List.find?_some (p := fun group : Highlight => group.covers selection) found
      rcases older_of_find?_covers found member covers with rfl | older
      · exact ⟨group, rfl, rfl⟩
      · exact absurd (older earlier' earlier made' made)
          (Nat.not_lt.2 (oldest other earlier' made' covers'))

/-- Highlighting tells the color of the group, an own one if there was no group before. -/
theorem highlight_tells {source : Selection} {bindings : List Selection} {color : Nat}
    {next : Highlights} (done : (run history).highlight source bindings = (color, next)) :
    next = run (history ++ [.highlight source bindings]) ∧ next.colorOf? source = some color ∧
      (IsLive history source → (run history).colorOf? source = some color ∧
        next.nextColor = (run history).nextColor ∧
        next.groups = (run history).groups.map (rebound (.highlight source bindings))) ∧
      (¬ IsLive history source → ∀ group ∈ (run history).groups, group.color ≠ color) := by
  have told := chronicles_run history
  have continued : next = run (history ++ [.highlight source bindings]) := by
    rw [run_concat, Highlights.after, done]
  by_cases live : IsLive history source
  · obtain ⟨group, member, rfl⟩ := List.mem_map.1 ((told.live source).2 live)
    rw [highlight_of_mem told.distinct member] at done
    obtain ⟨rfl, rfl⟩ := Prod.mk.inj done
    have known := (colorOf?_eq_some_iff told.distinct).2 ⟨group, member, rfl, rfl⟩
    refine ⟨continued, ?_, fun _ => ⟨known, rfl, rebind_eq_map told.distinct⟩, absurd live⟩
    rw [continued]
    exact colorOf?_append known (by simp [spares])
  · rw [highlight_of_notMem ((told.live source).not.2 live)] at done
    obtain ⟨rfl, rfl⟩ := Prod.mk.inj done
    refine ⟨continued, ?_, fun now => absurd now live, fun _ group member =>
      Nat.ne_of_lt (told.given group member)⟩
    have distinct := (chronicles_run (history ++ [.highlight source bindings])).distinct
    rw [← continued] at distinct
    exact (colorOf?_eq_some_iff distinct).2
      ⟨⟨source, bindings, (run history).nextColor⟩, by simp, rfl, rfl⟩

/-- Removing tells whether the source was highlighted and leaves the other groups. -/
theorem remove_tells {source : Selection} {answer : Bool} {next : Highlights}
    (done : (run history).remove source = (answer, next)) :
    next = run (history ++ [.remove source]) ∧ (answer = true ↔ IsLive history source) ∧
      next.nextColor = (run history).nextColor ∧ next.groups.Sublist (run history).groups ∧
      ∀ group, group ∈ next.groups ↔ group ∈ (run history).groups ∧ group.source ≠ source := by
  have continued : next = run (history ++ [.remove source]) := by
    rw [run_concat, Highlights.after, done]
  obtain ⟨rfl, rfl⟩ := Prod.mk.inj done
  refine ⟨continued, ?_, rfl, List.filter_sublist, fun group => ?_⟩
  · have fewer : ((run history).groups.filter (·.source ≠ source)).length <
        (run history).groups.length ↔ IsLive history source := by
      rw [List.length_filter_lt_length_iff_exists, ← (chronicles_run history).live, sources,
        List.mem_map]
      simp only [decide_eq_true_eq, Decidable.not_not]
    rw [← fewer, decide_eq_true_iff]
    exact ⟨Nat.lt_of_le_of_ne (List.length_filter_le _ _), Nat.ne_of_lt⟩
  · rw [List.mem_filter, decide_eq_true_eq]

/-- **What highlights are after every history**, and what they tell: a color on highlighting,
which stays that of the source while it is spared and is not in use if it is given out; on
removing, whether the source was highlighted; and on searching, the source of the oldest group
that covers a selection. -/
theorem run_chronicles (history : List Change) :
    (run history).Chronicles history ∧
      (∀ source bindings color next, (run history).highlight source bindings = (color, next) →
        next = run (history ++ [.highlight source bindings]) ∧
        next.colorOf? source = some color ∧
        (IsLive history source → (run history).colorOf? source = some color ∧
          next.nextColor = (run history).nextColor ∧
          next.groups = (run history).groups.map (rebound (.highlight source bindings))) ∧
        (¬ IsLive history source → ∀ group ∈ (run history).groups, group.color ≠ color)) ∧
      (∀ source color later, (run history).colorOf? source = some color →
        (∀ change ∈ later, change.spares source = true) →
          (run (history ++ later)).colorOf? source = some color) ∧
      (∀ source answer next, (run history).remove source = (answer, next) →
        next = run (history ++ [.remove source]) ∧ (answer = true ↔ IsLive history source) ∧
        next.nextColor = (run history).nextColor ∧ next.groups.Sublist (run history).groups ∧
        ∀ group, group ∈ next.groups ↔ group ∈ (run history).groups ∧ group.source ≠ source) ∧
      ∀ selection,
        ((run history).find? selection = none ↔
          ∀ (group : Highlight) (earlier : List Change), group.MadeAfter history earlier →
            ∀ range ∈ group.ranges, selection.isInside range = false) ∧
        ∀ source, (run history).find? selection = some source ↔
          ∃ (group : Highlight) (earlier : List Change), group.source = source ∧
            group.MadeAfter history earlier ∧
            (∃ range ∈ group.ranges, selection.isInside range = true) ∧
            ∀ (other : Highlight) (earlier' : List Change), other.MadeAfter history earlier' →
              (∃ range ∈ other.ranges, selection.isInside range = true) →
              earlier.length ≤ earlier'.length :=
  ⟨chronicles_run history, fun _ _ _ _ => highlight_tells, fun _ _ _ => colorOf?_append,
    fun _ _ _ => remove_tells, fun _ => ⟨find?_eq_none_iff, fun _ => find?_eq_some_iff⟩⟩

/-- A source that is removed and highlighted again gets a color of its own. -/
example :
    let source := Selection.cursorAt ⟨0, 0⟩
    let other := Selection.cursorAt ⟨1, 0⟩
    (run [.highlight source [], .highlight other [], .remove source,
      .highlight source []]).groups = [⟨other, [], 1⟩, ⟨source, [], 2⟩] := by
  decide

end Chronicles

end Highlights
end Retouch
