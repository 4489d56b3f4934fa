/-!
# Delivering items to a callback

A callback is given items in turn.  It keeps a state and may fail, and no item is given to
it after one at which it has failed.  So it is either given all items or those up to the
first failure, which is what comes of the whole (`Delivers`, `exists_delivers_forM`).

That an item is delivered is observed by writing it down before the callback is called
(`noting`).  The notes change nothing else.
-/

set_option autoImplicit false

namespace Retouch

variable {α β ε σ : Type}

/-- Whether a callback takes items in turn without failing, from one state to another. -/
inductive Accepts (callback : α → ExceptT ε (StateM σ) Unit) : List α → σ → σ → Prop where
  | nil (state : σ) : Accepts callback [] state state
  | cons {item : α} {rest : List α} {state next final : σ}
      (here : (callback item).run.run state = (.ok (), next))
      (following : Accepts callback rest next final) :
      Accepts callback (item :: rest) state final

/-- What comes of giving items to a callback in turn: which of them are delivered, and the
result with the state that is left. -/
inductive Delivers (callback : α → ExceptT ε (StateM σ) Unit) (items : List α) (state : σ) :
    List α → Except ε Unit × σ → Prop where
  | all {final : σ} (accepted : Accepts callback items state final) :
      Delivers callback items state items (.ok (), final)
  | upTo {earlier later : List α} {item : α} {reached final : σ} {error : ε}
      (parted : items = earlier ++ item :: later)
      (accepted : Accepts callback earlier state reached)
      (fails : (callback item).run.run reached = (.error error, final)) :
      Delivers callback items state (earlier ++ [item]) (.error error, final)

/-- Notes an item and then acts. -/
def noting (item : α) (act : ExceptT ε (StateM σ) β) : ExceptT ε (StateM (List α × σ)) β :=
  ExceptT.mk fun (noted, state) =>
    let (result, final) := act.run.run state
    (result, (noted ++ [item], final))

section Run

variable {callback callback' : α → ExceptT ε (StateM σ) Unit} {items rest delivered : List α}
  {item : α} {state next final : σ} {outcome : Except ε Unit × σ}

theorem run_bind_of_ok {act : ExceptT ε (StateM σ) α} {further : α → ExceptT ε (StateM σ) β}
    {value : α} (ran : act.run.run state = (.ok value, next)) :
    (act >>= further).run.run state = (further value).run.run next := by
  rw [ExceptT.run_bind, StateT.run_bind, ran]
  rfl

theorem run_bind_of_error {act : ExceptT ε (StateM σ) α} {further : α → ExceptT ε (StateM σ) β}
    {error : ε} (ran : act.run.run state = (.error error, next)) :
    (act >>= further).run.run state = (.error error, next) := by
  rw [ExceptT.run_bind, StateT.run_bind, ran]
  rfl

theorem run_noting (item : α) (act : ExceptT ε (StateM σ) β) (noted : List α) (state : σ) :
    (noting item act).run.run (noted, state) =
      ((act.run.run state).1, (noted ++ [item], (act.run.run state).2)) := rfl

theorem Delivers.cons_of_ok (here : (callback item).run.run state = (.ok (), next))
    (delivers : Delivers callback rest next delivered outcome) :
    Delivers callback (item :: rest) state (item :: delivered) outcome := by
  cases delivers with
  | all accepted => exact .all (.cons here accepted)
  | upTo parted accepted fails =>
    exact .upTo (congrArg (item :: ·) parted) (.cons here accepted) fails

theorem Delivers.cons_of_error {error : ε}
    (fails : (callback item).run.run state = (.error error, final)) :
    Delivers callback (item :: rest) state [item] (.error error, final) :=
  .upTo (List.nil_append _).symm (.nil state) fails

/-- **Items are delivered up to the first failure.** -/
theorem exists_delivers_forM (callback : α → ExceptT ε (StateM σ) Unit) (items noted : List α)
    (state : σ) :
    ∃ delivered outcome, Delivers callback items state delivered outcome ∧
      (items.forM callback).run.run state = outcome ∧
      (items.forM fun item => noting item (callback item)).run.run (noted, state) =
        (outcome.1, (noted ++ delivered, outcome.2)) := by
  -- The callback and the one that takes notes run side by side, from the same state.
  induction items generalizing noted state with
  | nil => exact ⟨[], _, .all (.nil state), rfl, by rw [List.append_nil]; rfl⟩
  | cons item rest ih =>
    have run_cons : ∀ {τ : Type} (callback : α → ExceptT ε (StateM τ) Unit) (state : τ),
        ((item :: rest).forM callback).run.run state =
          (callback item >>= fun _ => rest.forM callback).run.run state := fun _ _ => rfl
    rw [run_cons, run_cons]
    cases here : (callback item).run.run state with
    | mk result next =>
      have noted_here := run_noting item (callback item) noted state
      rw [here] at noted_here
      cases result with
      | error error =>
        exact ⟨_, _, .cons_of_error here, run_bind_of_error here, run_bind_of_error noted_here⟩
      | ok value =>
        obtain ⟨delivered, outcome, delivers, ran, noted_ran⟩ := ih (noted ++ [item]) next
        refine ⟨_, _, delivers.cons_of_ok here, (run_bind_of_ok here).trans ran, ?_⟩
        rw [run_bind_of_ok noted_here, noted_ran, List.append_assoc, List.singleton_append]

/-- A callback that never fails is given all items. -/
theorem Delivers.all_of_never_fails (delivers : Delivers callback items state delivered outcome)
    (steady : ∀ item ∈ items, ∀ state, ∃ next, (callback item).run.run state = (.ok (), next)) :
    delivered = items ∧ ∃ final, outcome = (.ok (), final) := by
  cases delivers with
  | all accepted => exact ⟨rfl, _, rfl⟩
  | @upTo earlier later item reached final error parted accepted fails =>
    obtain ⟨next, succeeds⟩ := steady item (by rw [parted]; simp) reached
    cases succeeds.symm.trans fails

end Run
end Retouch
