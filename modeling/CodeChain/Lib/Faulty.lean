import CodeChain.Lib.Fault

/-!
# Failing computations over a state

A computation of `Faulty σ ε α` changes a state of type `σ` and ends in a
value, an error or a panic.  The changes made before an error stay: whoever
called the computation decides whether to keep them or to revert them, as code
that writes through caches with checkpoints does.
-/

namespace CodeChain

/-- A computation that changes a `σ` and returns an `α`, fails with an `ε`, or
panics. -/
abbrev Faulty (σ ε α : Type) := ExceptT (Fault ε) (StateM σ) α

namespace Faulty

variable {σ ε α β : Type}

/-- Run from a state: the outcome and the final state. -/
def run (computation : Faulty σ ε α) (state : σ) : Except (Fault ε) α × σ :=
  StateT.run (ExceptT.run computation) state

/-- A step that reads and changes the state, or fails and leaves the state as
it was. -/
def update (step : σ → Except (Fault ε) (α × σ)) : Faulty σ ε α :=
  ExceptT.mk fun state => match step state with
    | .ok (a, after) => (.ok a, after)
    | .error fault => (.error fault, state)

/-- Run a computation and return its outcome, keeping its changes whatever the
outcome. -/
def attempt (computation : Faulty σ ε α) : Faulty σ ε (Except (Fault ε) α) :=
  ExceptT.lift (ExceptT.run computation)

@[simp]
theorem run_pure (a : α) (state : σ) : (pure a : Faulty σ ε α).run state = (.ok a, state) :=
  rfl

theorem run_bind (computation : Faulty σ ε α) (next : α → Faulty σ ε β) (state : σ) :
    (computation >>= next).run state = match computation.run state with
      | (.ok a, after) => (next a).run after
      | (.error fault, after) => (.error fault, after) := by
  unfold run ExceptT.run StateT.run
  simp only [bind, ExceptT.bind, ExceptT.mk, StateT.bind, ExceptT.bindCont]
  cases computation state with
  | mk outcome after => cases outcome <;> rfl

theorem run_map (change : α → β) (computation : Faulty σ ε α) (state : σ) :
    (change <$> computation).run state = match computation.run state with
      | (.ok a, after) => (.ok (change a), after)
      | (.error fault, after) => (.error fault, after) := by
  rw [map_eq_pure_bind, run_bind]
  cases computation.run state with
  | mk outcome after => cases outcome <;> rfl

/-- A bind that succeeds ran both of its parts to success. -/
theorem run_bind_eq_ok {computation : Faulty σ ε α} {next : α → Faulty σ ε β} {state after : σ}
    {b : β} (ran : (computation >>= next).run state = (.ok b, after)) :
    ∃ a middle, computation.run state = (.ok a, middle) ∧ (next a).run middle = (.ok b, after) := by
  rw [run_bind] at ran
  match first : computation.run state, ran with
  | (.ok a, middle), ran => exact ⟨a, middle, rfl, ran⟩

@[simp]
theorem run_throw (fault : Fault ε) (state : σ) :
    (throw fault : Faulty σ ε α).run state = (.error fault, state) :=
  rfl

@[simp]
theorem run_liftM (outcome : Except (Fault ε) α) (state : σ) :
    (liftM outcome : Faulty σ ε α).run state = (outcome, state) :=
  rfl

@[simp]
theorem run_update (step : σ → Except (Fault ε) (α × σ)) (state : σ) :
    (update step).run state = match step state with
      | .ok (a, after) => (.ok a, after)
      | .error fault => (.error fault, state) :=
  rfl

theorem run_update_eq_ok {step : σ → Except (Fault ε) (α × σ)} {state after : σ} {a : α}
    (ran : (update step).run state = (.ok a, after)) : step state = .ok (a, after) := by
  simp only [run_update] at ran
  split at ran
  · rename_i stepped
    cases ran
    exact stepped
  · cases ran

@[simp]
theorem run_modifyGet (change : σ → α × σ) (state : σ) :
    (modifyGet change : Faulty σ ε α).run state = (.ok (change state).1, (change state).2) :=
  rfl

@[simp]
theorem run_get (state : σ) : (get : Faulty σ ε σ).run state = (.ok state, state) :=
  rfl

@[simp]
theorem run_modify (change : σ → σ) (state : σ) :
    (modify change : Faulty σ ε Unit).run state = (.ok (), change state) :=
  rfl

end Faulty

end CodeChain
