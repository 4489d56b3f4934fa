import Retouch.Proofs.Tree.Walk
import Retouch.Proofs.Visitor.Calls

/-!
# Running a visitor and dispatching it

A visitor is looked up at every event of a walk and at every site that it is dispatched on.
Both come to making the calls of its outline in turn, whatever monad its callbacks are in:
those along the walk when it is run (`Visitor.run_eq_forM`), those site by site when it is
dispatched on the sites of the tree (`Visitor.mapM_dispatch_eq`).

The calls can be observed by letting every callback note its call before it acts
(`Visitor.noting`).  This changes no pattern and no hook, so the calls stay what they are.

**Result.**  Running and dispatching a visitor whose callbacks do not fail makes the calls
that its outline tells, and dispatching tells for each site whether an entry handles it.
When callbacks fail, running makes the same calls up to the first that fails
(`Visitor.run_agrees_with_dispatch`).
-/

set_option autoImplicit false

namespace Retouch

section Handlers

variable {m : Type → Type}

/-- What a handler does at a hook. -/
def Handler.act? (handler : Handler m) : Hook → Option (Site → m Unit)
  | .enter => handler.entering?
  | .leave => handler.leaving?

namespace Visitor

variable (visitor : Visitor m)

def outline : Outline :=
  ⟨visitor.entries.map fun (pattern, handler) => (pattern, fun hook => (handler.act? hook).isSome)⟩

def handlerAt? (entry : Nat) : Option (Handler m) := visitor.entries[entry]?.map Prod.snd

/-- What the handler of an entry does at a hook. -/
def actAt? (entry : Nat) (hook : Hook) : Option (Site → m Unit) :=
  (visitor.handlerAt? entry).bind (·.act? hook)

/-- Makes a call. -/
def perform [Monad m] (made : Call) : m Unit := call (visitor.actAt? made.entry made.hook) made.site

/-! ## Looking up -/

theorem patterns_outline : visitor.outline.patterns = visitor.entries.map Prod.fst := by
  rw [outline, Outline.patterns, List.map_map]
  rfl

theorem offers_outline (entry : Nat) (hook : Hook) :
    visitor.outline.offers entry hook = (visitor.actAt? entry hook).isSome := by
  rw [outline, Outline.offers, List.getElem?_map, actAt?, handlerAt?]
  cases visitor.entries[entry]? <;> rfl

/-- The first handler whose pattern passes a test is that of the first pattern that does. -/
theorem findSome?_eq_bind (entries : List (NodePattern × Handler m)) (test : NodePattern → Bool) :
    (entries.findSome? fun (pattern, handler) => if test pattern then some handler else none) =
      ((entries.map Prod.fst).findIdx? test).bind fun entry => entries[entry]?.map Prod.snd := by
  induction entries with
  | nil => rfl
  | cons first rest ih =>
    rw [List.findSome?_cons, ih, List.map_cons, List.findIdx?_cons]
    by_cases passes : test first.1 = true
    · simp [passes]
    · simp [passes, Option.bind_map, Function.comp_def]

theorem ofKind?_eq_bind (kind : String) :
    visitor.ofKind? kind =
      (visitor.outline.patterns.findIdx? (· = .kind kind)).bind visitor.handlerAt? := by
  rw [patterns_outline]
  refine Eq.trans ?_ (findSome?_eq_bind visitor.entries (· = .kind kind))
  refine congrArg (List.findSome? · visitor.entries) (funext fun (pattern, handler) => ?_)
  cases pattern <;> simp

theorem ofCategory?_eq_bind (kind : String) :
    visitor.ofCategory? kind =
      (visitor.outline.patterns.findIdx? (·.gathers kind)).bind visitor.handlerAt? := by
  rw [patterns_outline]
  refine Eq.trans ?_ (findSome?_eq_bind visitor.entries (·.gathers kind))
  refine congrArg (List.findSome? · visitor.entries) (funext fun (pattern, handler) => ?_)
  cases pattern with
  | kind named => simp [NodePattern.gathers]
  | category group => rfl

theorem exists_handlerAt? {entry : Nat} {pattern : NodePattern}
    (found : visitor.outline.patterns[entry]? = some pattern) :
    ∃ handler, visitor.handlerAt? entry = some handler := by
  rw [patterns_outline, List.getElem?_map] at found
  obtain ⟨⟨_, handler⟩, found, -⟩ := Option.map_eq_some_iff.1 found
  exact ⟨handler, by rw [handlerAt?, found]; rfl⟩

/-- The handler of a kind is that of the entry that the outline finds. -/
theorem resolve?_eq_bind (kind : String) :
    visitor.resolve? kind = (visitor.outline.indexOf? kind).bind visitor.handlerAt? := by
  rw [resolve?, ofKind?_eq_bind, ofCategory?_eq_bind, Outline.indexOf?]
  cases named : visitor.outline.patterns.findIdx? (· = .kind kind) with
  | none => rfl
  | some entry =>
    obtain ⟨⟨pattern, found, -⟩, -⟩ := findIdx?_eq_some_iff_isFirst.1 named
    obtain ⟨handler, atEntry⟩ := visitor.exists_handlerAt? found
    simp [atEntry]

theorem isSome_resolve? (kind : String) :
    (visitor.resolve? kind).isSome = (visitor.outline.indexOf? kind).isSome := by
  rw [resolve?_eq_bind]
  cases decided : visitor.outline.indexOf? kind with
  | none => rfl
  | some entry =>
    rcases Outline.indexOf?_eq_some_iff.1 decided with first | ⟨-, first⟩
    all_goals
      obtain ⟨⟨pattern, found, -⟩, -⟩ := first
      obtain ⟨handler, atEntry⟩ := visitor.exists_handlerAt? found
      rw [Option.bind_some, atEntry]
      rfl

/-! ## Making the calls -/

variable [Monad m]

/-- At an event the call of the outline is made, if there is one. -/
theorem react_eq_perform (event : Event) :
    visitor.react event =
      match visitor.outline.call? event with
      | some made => visitor.perform made
      | none => pure () := by
  have looked_up : visitor.react event =
      call ((visitor.outline.indexOf? event.site.kind).bind (visitor.actAt? · event.hook))
        event.site := by
    rw [show visitor.react event =
      call ((visitor.resolve? event.site.kind).bind (·.act? event.hook)) event.site by
        cases event <;> rfl, resolve?_eq_bind, Option.bind_assoc]
    rfl
  rw [looked_up, Outline.call?]
  cases visitor.outline.indexOf? event.site.kind with
  | none => rfl
  | some entry =>
    rw [Option.bind_some, Option.bind_some, offers_outline]
    cases acts : visitor.actAt? entry event.hook with
    | none => rfl
    | some act =>
      show act event.site = visitor.perform ⟨entry, event.hook, event.site⟩
      rw [perform, acts]
      rfl

variable [LawfulMonad m]

theorem forM_react (events : List Event) :
    events.forM visitor.react = (events.filterMap visitor.outline.call?).forM visitor.perform := by
  induction events with
  | nil => rfl
  | cons event rest ih =>
    show (visitor.react event >>= fun _ => rest.forM visitor.react) = _
    rw [react_eq_perform, ih]
    cases made : visitor.outline.call? event with
    | none => rw [List.filterMap_cons_none made, pure_bind]
    | some made' =>
      rw [List.filterMap_cons_some made]
      rfl

/-- **Running a visitor makes the calls of its outline along the walk.** -/
theorem run_eq_forM (tree : Tree) :
    visitor.run tree = (visitor.outline.calls tree).forM visitor.perform := by
  rw [run, Tree.traverse_eq_forM, forM_react, Outline.calls]

/-- Dispatching a visitor on a site enters and leaves it. -/
theorem dispatch_eq_forM (site : Site) :
    visitor.dispatch site = (do
      (visitor.outline.callsAt site).forM visitor.perform
      pure (visitor.outline.indexOf? site.kind).isSome) := by
  have both : [Event.enter site, .leave site].forM visitor.react = (do
      call (visitor.resolve? site.kind >>= Handler.entering?) site
      call (visitor.resolve? site.kind >>= Handler.leaving?) site) :=
    bind_congr fun _ => bind_pure_unit
  rw [Outline.callsAt, ← forM_react, ← isSome_resolve?, both, dispatch]
  cases visitor.resolve? site.kind with
  | none => simp [call]
  | some handler => simp

/-- **Dispatching a visitor on the sites of a tree makes the calls site by site** and tells
which sites are handled. -/
theorem mapM_dispatch_eq (tree : Tree) :
    tree.sites.mapM visitor.dispatch = (do
      (visitor.outline.dispatchCalls tree).forM visitor.perform
      pure (tree.sites.map fun site => (visitor.outline.indexOf? site.kind).isSome)) := by
  rw [Outline.dispatchCalls]
  induction tree.sites with
  | nil =>
    rw [List.mapM_nil]
    exact (pure_bind () fun _ => pure []).symm
  | cons site rest ih =>
    rw [List.mapM_cons, dispatch_eq_forM, ih, List.flatMap_cons, List.map_cons]
    simp only [List.forM_eq_forM, List.forM_append, bind_assoc, pure_bind]

end Visitor
end Handlers

/-! ## Noting the calls -/

variable {ε σ : Type}

/-- A handler that notes its calls, given the number of its entry. -/
def Handler.noting (entry : Nat) :
    Handler (ExceptT ε (StateM σ)) → Handler (ExceptT ε (StateM (List Call × σ)))
  | .onEnter act => .onEnter fun site => Retouch.noting ⟨entry, .enter, site⟩ (act site)
  | .hooks enter leave => .hooks
      (enter.map fun act site => Retouch.noting ⟨entry, .enter, site⟩ (act site))
      (leave.map fun act site => Retouch.noting ⟨entry, .leave, site⟩ (act site))

theorem Handler.act?_noting (entry : Nat) (handler : Handler (ExceptT ε (StateM σ))) (hook : Hook) :
    (handler.noting entry).act? hook =
      (handler.act? hook).map fun act site => Retouch.noting ⟨entry, hook, site⟩ (act site) := by
  cases handler <;> cases hook <;> rfl

namespace Visitor

/-- The visitor that notes its calls and otherwise does the same. -/
def noting (visitor : Visitor (ExceptT ε (StateM σ))) :
    Visitor (ExceptT ε (StateM (List Call × σ))) :=
  ⟨visitor.entries.mapIdx fun entry (pattern, handler) => (pattern, handler.noting entry)⟩

/-- Whether no call of a visitor fails. -/
def NeverFails (visitor : Visitor (ExceptT ε (StateM σ))) : Prop :=
  ∀ entry hook act, visitor.actAt? entry hook = some act →
    ∀ site state, ∃ next, (act site).run.run state = (.ok (), next)

variable (visitor : Visitor (ExceptT ε (StateM σ)))

theorem actAt?_noting (entry : Nat) (hook : Hook) :
    visitor.noting.actAt? entry hook =
      (visitor.actAt? entry hook).map fun act site =>
        Retouch.noting ⟨entry, hook, site⟩ (act site) := by
  rw [actAt?, handlerAt?, noting, List.getElem?_mapIdx, actAt?, handlerAt?]
  cases visitor.entries[entry]? with
  | none => rfl
  | some found => exact found.2.act?_noting entry hook

theorem outline_noting : visitor.noting.outline = visitor.outline := by
  rw [outline, noting, outline, Outline.mk.injEq]
  refine List.ext_getElem? fun entry => ?_
  rw [List.getElem?_map, List.getElem?_mapIdx, List.getElem?_map]
  cases visitor.entries[entry]? with
  | none => rfl
  | some found =>
    refine congrArg (fun offered => some (found.1, offered)) (funext fun hook => ?_)
    rw [Handler.act?_noting, Option.isSome_map]

theorem perform_noting {made : Call}
    (offered : visitor.outline.offers made.entry made.hook = true) :
    visitor.noting.perform made = Retouch.noting made (visitor.perform made) := by
  rw [offers_outline, Option.isSome_iff_exists] at offered
  obtain ⟨act, acts⟩ := offered
  rw [perform, actAt?_noting, perform, acts]
  rfl

/-- Making calls with notes is noting each call and making it. -/
theorem forM_perform_noting {made : List Call}
    (offered : ∀ call ∈ made, visitor.outline.offers call.entry call.hook = true) :
    made.forM visitor.noting.perform =
      made.forM fun call => Retouch.noting call (visitor.perform call) := by
  induction made with
  | nil => rfl
  | cons first rest ih =>
    show (visitor.noting.perform first >>= fun _ => rest.forM visitor.noting.perform) = _
    rw [perform_noting visitor (offered first List.mem_cons_self),
      ih fun call member => offered call (List.mem_cons_of_mem _ member)]
    rfl

theorem perform_of_neverFails {visitor : Visitor (ExceptT ε (StateM σ))}
    (steady : visitor.NeverFails) (made : Call) (state : σ) :
    ∃ next, (visitor.perform made).run.run state = (.ok (), next) := by
  rw [perform]
  cases acts : visitor.actAt? made.entry made.hook with
  | none => exact ⟨state, rfl⟩
  | some act => exact steady made.entry made.hook act acts made.site state

theorem exists_delivers_run (tree : Tree) (state : σ) :
    ∃ delivered outcome,
      Delivers visitor.perform (visitor.outline.calls tree) state delivered outcome ∧
        (visitor.run tree).run.run state = outcome ∧
        (visitor.noting.run tree).run.run ([], state) = (outcome.1, (delivered, outcome.2)) := by
  rw [run_eq_forM, run_eq_forM, outline_noting,
    forM_perform_noting visitor fun call member => (Outline.mem_calls.1 member).2.2]
  exact exists_delivers_forM visitor.perform (visitor.outline.calls tree) [] state

theorem exists_mapM_dispatch (steady : visitor.NeverFails) (tree : Tree) (state : σ) :
    ∃ final, (tree.sites.mapM visitor.dispatch).run.run state =
        (.ok (tree.sites.map fun site => (visitor.outline.indexOf? site.kind).isSome), final) ∧
      (tree.sites.mapM visitor.noting.dispatch).run.run ([], state) =
        (.ok (tree.sites.map fun site => (visitor.outline.indexOf? site.kind).isSome),
          (visitor.outline.dispatchCalls tree, final)) := by
  rw [mapM_dispatch_eq, mapM_dispatch_eq, outline_noting,
    forM_perform_noting visitor fun call member =>
      (Outline.mem_calls.1 ((visitor.outline.perm_dispatchCalls tree).mem_iff.2 member)).2.2]
  obtain ⟨delivered, outcome, delivers, ran, noted⟩ :=
    exists_delivers_forM visitor.perform (visitor.outline.dispatchCalls tree) [] state
  obtain ⟨rfl, final, rfl⟩ := delivers.all_of_never_fails fun made _ =>
    perform_of_neverFails steady made
  exact ⟨final, run_bind_of_ok ran, run_bind_of_ok noted⟩

/-- **Running a visitor agrees with dispatching it.**  The calls along the walk are those
made site by site.  A visitor that never fails makes all of them in either way, and dispatching
it tells which sites have an entry.  One that fails makes the same calls along the walk up
to the first that fails, and ends with that failure. -/
theorem run_agrees_with_dispatch (tree : Tree) :
    visitor.outline.CallsAgree tree (visitor.outline.calls tree)
        (visitor.outline.dispatchCalls tree) ∧
      (visitor.NeverFails → ∀ state, ∃ handled final final',
        (visitor.run tree).run.run state = (.ok (), final) ∧
          (visitor.noting.run tree).run.run ([], state) =
            (.ok (), (visitor.outline.calls tree, final)) ∧
          (tree.sites.mapM visitor.dispatch).run.run state = (.ok handled, final') ∧
          (tree.sites.mapM visitor.noting.dispatch).run.run ([], state) =
            (.ok handled, (visitor.outline.dispatchCalls tree, final')) ∧
          List.Forall₂
            (fun site told => told = true ↔ ∃ entry, visitor.outline.Decides site.kind entry)
            tree.sites handled) ∧
      ∀ state, ∃ delivered outcome,
        Delivers visitor.perform (visitor.outline.calls tree) state delivered outcome ∧
          (visitor.run tree).run.run state = outcome ∧
          (visitor.noting.run tree).run.run ([], state) = (outcome.1, (delivered, outcome.2)) := by
  refine ⟨visitor.outline.callsAgree tree, fun steady state => ?_, visitor.exists_delivers_run tree⟩
  obtain ⟨delivered, outcome, delivers, ran, noted⟩ := visitor.exists_delivers_run tree state
  obtain ⟨rfl, final, rfl⟩ := delivers.all_of_never_fails fun made _ =>
    perform_of_neverFails steady made
  obtain ⟨final', dispatched, noted'⟩ := visitor.exists_mapM_dispatch steady tree state
  refine ⟨_, final, final', ran, noted, dispatched, noted', ?_⟩
  refine List.forall₂_map_right_iff.2 (List.forall₂_same.2 fun site _ => ?_)
  rw [Option.isSome_iff_exists]
  exact exists_congr fun entry => Outline.indexOf?_eq_some_iff

end Visitor
end Retouch
