import Mathlib

/-!
# Loops that drain a stack

Rust code walks a graph with `while let Some(item) = stack.pop() { ... }`,
pushing what it finds as it goes.  Nothing makes such a loop end: a node may
name itself.  `run visit fuel stack state` runs it for at most `fuel` pops and
is `none` when the fuel runs out.  `visit item state` is `.error stop` where the
body returns early with `stop`, and otherwise the next state and the items
pushed, in the order they are pushed.

`Runs visit stack state outcome` says the same without fuel: the loop started
on this stack ends with this outcome.  `run` is sound and complete for it, and
a run over a stack is a run over its top part followed by one over the rest,
which is how a depth-first walk is taken apart.

A computation that runs such loops is an `ExceptT ε Option α`: it ends in a
value or an error, or is `none` because a loop ran out of fuel.  Its lemmas
peel a `do` block apart one bind at a time.
-/

namespace CodeChain

namespace Worklist

variable {α σ β : Type}

/-- The stack after `pushed` is pushed onto it in order: the last one pushed is
on top, at the head of the list. -/
def push (pushed stack : List α) : List α :=
  pushed.reverse ++ stack

@[simp]
theorem push_nil (stack : List α) : push [] stack = stack :=
  rfl

theorem push_append (pushed stack rest : List α) : push pushed stack ++ rest = push pushed (stack ++ rest) := by
  simp [push]

theorem mem_push {item : α} {pushed stack : List α} : item ∈ push pushed stack ↔ item ∈ pushed ∨ item ∈ stack := by
  simp [push]

/-- The loop, for at most `fuel` pops. -/
def run (visit : α → σ → Except β (σ × List α)) : ℕ → List α → σ → Option (Except β σ)
  | _, [], state => some (.ok state)
  | 0, _ :: _, _ => none
  | fuel + 1, item :: stack, state =>
    match visit item state with
    | .error stop => some (.error stop)
    | .ok (next, pushed) => run visit fuel (push pushed stack) next

variable {visit : α → σ → Except β (σ × List α)}

@[simp]
theorem run_nil (fuel : ℕ) (state : σ) : run visit fuel [] state = some (.ok state) := by
  cases fuel <;> rfl

@[simp]
theorem run_zero_cons (item : α) (stack : List α) (state : σ) : run visit 0 (item :: stack) state = none :=
  rfl

theorem run_succ_cons (fuel : ℕ) (item : α) (stack : List α) (state : σ) :
    run visit (fuel + 1) (item :: stack) state =
      match visit item state with
      | .error stop => some (.error stop)
      | .ok (next, pushed) => run visit fuel (push pushed stack) next :=
  rfl

/-- More fuel changes nothing once the loop has ended. -/
theorem run_add {fuel : ℕ} {stack : List α} {state : σ} {outcome : Except β σ}
    (ran : run visit fuel stack state = some outcome) (extra : ℕ) :
    run visit (fuel + extra) stack state = some outcome := by
  induction fuel generalizing stack state with
  | zero =>
    cases stack with
    | nil => rwa [run_nil] at ran ⊢
    | cons item stack => simp at ran
  | succ fuel ih =>
    cases stack with
    | nil => rwa [run_nil] at ran ⊢
    | cons item stack =>
      rw [Nat.add_right_comm, run_succ_cons]
      rw [run_succ_cons] at ran
      cases visited : visit item state with
      | error stop =>
        rw [visited] at ran
        exact ran
      | ok result =>
        rw [visited] at ran
        exact ih ran

theorem run_mono {fuel more : ℕ} {stack : List α} {state : σ} {outcome : Except β σ}
    (ran : run visit fuel stack state = some outcome) (enough : fuel ≤ more) :
    run visit more stack state = some outcome := by
  obtain ⟨extra, rfl⟩ : ∃ extra, more = fuel + extra := ⟨more - fuel, by omega⟩
  exact run_add ran extra

/-- The loop started on `stack` in `state` ends with `outcome`. -/
inductive Runs (visit : α → σ → Except β (σ × List α)) : List α → σ → Except β σ → Prop
  | done (state : σ) : Runs visit [] state (.ok state)
  | stop {item : α} {stack : List α} {state : σ} {stop : β} :
      visit item state = .error stop → Runs visit (item :: stack) state (.error stop)
  | next {item : α} {stack : List α} {state next : σ} {pushed : List α} {outcome : Except β σ} :
      visit item state = .ok (next, pushed) → Runs visit (push pushed stack) next outcome →
      Runs visit (item :: stack) state outcome

/-- What `run` returns, the loop ends with. -/
theorem runs_of_run {fuel : ℕ} {stack : List α} {state : σ} {outcome : Except β σ}
    (ran : run visit fuel stack state = some outcome) : Runs visit stack state outcome := by
  induction fuel generalizing stack state with
  | zero =>
    cases stack with
    | nil =>
      rw [run_nil, Option.some_inj] at ran
      exact ran ▸ .done state
    | cons item stack => simp at ran
  | succ fuel ih =>
    cases stack with
    | nil =>
      rw [run_nil, Option.some_inj] at ran
      exact ran ▸ .done state
    | cons item stack =>
      rw [run_succ_cons] at ran
      cases visited : visit item state with
      | error stop =>
        rw [visited, Option.some_inj] at ran
        exact ran ▸ .stop visited
      | ok result =>
        rw [visited] at ran
        exact .next visited (ih ran)

/-- A loop that ends does so within some fuel. -/
theorem exists_run_of_runs {stack : List α} {state : σ} {outcome : Except β σ}
    (runs : Runs visit stack state outcome) : ∃ fuel, run visit fuel stack state = some outcome := by
  induction runs with
  | done state => exact ⟨0, run_nil 0 state⟩
  | stop visited => exact ⟨1, by rw [run_succ_cons, visited]⟩
  | next visited _ ih =>
    obtain ⟨fuel, ran⟩ := ih
    exact ⟨fuel + 1, by rw [run_succ_cons, visited]; exact ran⟩

theorem runs_iff {stack : List α} {state : σ} {outcome : Except β σ} :
    Runs visit stack state outcome ↔ ∃ fuel, run visit fuel stack state = some outcome :=
  ⟨exists_run_of_runs, fun ⟨_, ran⟩ => runs_of_run ran⟩

/-- The loop is deterministic. -/
theorem Runs.determ {stack : List α} {state : σ} {first second : Except β σ}
    (runs : Runs visit stack state first) (again : Runs visit stack state second) : first = second := by
  induction runs generalizing second with
  | done state =>
    cases again
    rfl
  | stop visited =>
    cases again with
    | stop visited' => rw [visited] at visited'; cases visited'; rfl
    | next visited' _ => rw [visited] at visited'; cases visited'
  | next visited _ ih =>
    cases again with
    | stop visited' => rw [visited] at visited'; cases visited'
    | next visited' rest =>
      rw [visited] at visited'
      cases visited'
      exact ih rest

/-- A loop that empties the top part of its stack goes on with the rest. -/
theorem Runs.append {top rest : List α} {state middle : σ} {outcome : Except β σ}
    (first : Runs visit top state (.ok middle)) (second : Runs visit rest middle outcome) :
    Runs visit (top ++ rest) state outcome := by
  generalize okMiddle : (Except.ok middle : Except β σ) = firstOutcome at first
  induction first with
  | done state =>
    cases okMiddle
    exact second
  | stop _ => cases okMiddle
  | next visited _ ih =>
    rw [List.cons_append]
    refine .next visited ?_
    rw [← push_append]
    exact ih okMiddle

theorem Runs.cons {item : α} {stack : List α} {state middle : σ} {outcome : Except β σ}
    (first : Runs visit [item] state (.ok middle)) (second : Runs visit stack middle outcome) :
    Runs visit (item :: stack) state outcome :=
  first.append second

/-- An early stop is what one visit returned. -/
theorem Runs.exists_visit_of_error {stack : List α} {state : σ} {stop : β}
    (runs : Runs visit stack state (.error stop)) : ∃ item state, visit item state = .error stop := by
  generalize stopped : (Except.error stop : Except β σ) = outcome at runs
  induction runs with
  | done state => cases stopped
  | stop visited =>
    cases stopped
    exact ⟨_, _, visited⟩
  | next _ _ ih => exact ih stopped

end Worklist

namespace Fueled

variable {ε α β : Type}

@[simp]
theorem run_liftExcept (outcome : Except ε α) : (liftM outcome : ExceptT ε Option α).run = some outcome := by
  cases outcome <;> rfl

@[simp]
theorem run_liftOption (outcome : Option α) : (liftM outcome : ExceptT ε Option α).run = outcome.map .ok := by
  cases outcome <;> rfl

@[simp]
theorem run_pure (a : α) : (pure a : ExceptT ε Option α).run = some (.ok a) :=
  rfl

@[simp]
theorem run_throw (e : ε) : (throw e : ExceptT ε Option α).run = some (.error e) :=
  rfl

theorem run_bind (x : ExceptT ε Option α) (f : α → ExceptT ε Option β) :
    (x >>= f).run = match x.run with
      | some (.ok a) => (f a).run
      | some (.error e) => some (.error e)
      | none => none := by
  rw [ExceptT.run_bind]
  rcases x.run with _ | _ | _ <;> rfl

/-- A bind that ends in a value ran both of its parts to a value. -/
theorem run_bind_eq_ok {x : ExceptT ε Option α} {f : α → ExceptT ε Option β} {b : β} :
    (x >>= f).run = some (.ok b) ↔ ∃ a, x.run = some (.ok a) ∧ (f a).run = some (.ok b) := by
  rw [run_bind]
  constructor
  · intro ran
    match first : x.run, ran with
    | some (.ok a), ran => exact ⟨a, rfl, ran⟩
  · rintro ⟨a, first, ran⟩
    rw [first]
    exact ran

/-- A bind on a lifted `Except` that ends in a value: the lifted computation
gave a value. -/
theorem run_liftExcept_bind_eq_ok {x : Except ε α} {f : α → ExceptT ε Option β} {b : β} :
    ((liftM x : ExceptT ε Option α) >>= f).run = some (.ok b) ↔ ∃ a, x = .ok a ∧ (f a).run = some (.ok b) := by
  rw [run_bind_eq_ok, run_liftExcept]
  simp only [Option.some_inj]

/-- A bind on a lifted `Option` that ends in a value: the lifted computation
gave a value. -/
theorem run_liftOption_bind_eq_ok {o : Option α} {f : α → ExceptT ε Option β} {b : β} :
    ((liftM o : ExceptT ε Option α) >>= f).run = some (.ok b) ↔ ∃ a, o = some a ∧ (f a).run = some (.ok b) := by
  rw [run_bind_eq_ok, run_liftOption]
  constructor
  · rintro ⟨a, lifted, ran⟩
    obtain ⟨found, present, same⟩ := Option.map_eq_some_iff.mp lifted
    cases same
    exact ⟨_, present, ran⟩
  · rintro ⟨a, present, ran⟩
    exact ⟨a, by rw [present]; rfl, ran⟩

theorem run_bind_of_ok {x : ExceptT ε Option α} {a : α} (first : x.run = some (.ok a))
    (f : α → ExceptT ε Option β) : (x >>= f).run = (f a).run := by
  rw [run_bind, first]

/-- A loop over a list that ends in a value keeps what each turn keeps, the
invariant naming the items done so far. -/
theorem foldlM_invariant (P : List α → β → Prop) {f : β → α → ExceptT ε Option β} {items : List α}
    {init last : β} (ran : (items.foldlM f init).run = some (.ok last)) (start : P [] init)
    (turn : ∀ done acc item next, P done acc → (f acc item).run = some (.ok next) → P (done ++ [item]) next) :
    P items last := by
  -- the loop is taken from any point of the list, with the items before it done
  suffices general : ∀ done init, P done init → (items.foldlM f init).run = some (.ok last) →
      P (done ++ items) last by
    simpa using general [] init start ran
  clear ran
  induction items with
  | nil =>
    intro done init holds ran
    rw [List.foldlM_nil, run_pure, Option.some_inj, Except.ok.injEq] at ran
    rw [List.append_nil]
    exact ran ▸ holds
  | cons item items ih =>
    intro done init holds ran
    rw [List.foldlM_cons, run_bind_eq_ok] at ran
    obtain ⟨next, first, rest⟩ := ran
    rw [← List.singleton_append, ← List.append_assoc]
    exact ih (done ++ [item]) next (turn done init item next holds first) rest

end Fueled

end CodeChain
