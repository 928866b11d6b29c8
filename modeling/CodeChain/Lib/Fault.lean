import Mathlib

/-!
# Results that may panic

A Rust function returns `Result<T, E>`, and it may also panic: an `assert!`,
an `expect` or `unwrap` on a missing value, an `unreachable!`.  A panic stops
the node, which an `Err` does not, so the two are kept apart: a computation of
the model returns `Except (Fault ε) α`, where `Fault.error` is an `Err` handed
to the caller and `Fault.panic` is a panic with its message.

The lemmas peel a `do` block apart one bind at a time, so that a proof about a
translated function never has to unfold the monad.
-/

namespace CodeChain

/-- Why a computation stopped: an `Err` value, or a panic with its message. -/
inductive Fault (ε : Type) where
  | error (e : ε)
  | panic (message : String)
  deriving DecidableEq, Repr

namespace Fault

variable {ε α β : Type}

/-- `Err(e)`: stop and hand `e` to the caller. -/
def fail (e : ε) : Except (Fault ε) α :=
  .error (.error e)

/-- `Option::expect`: the value, or a panic with the given message. -/
def expect (value : Option α) (message : String) : Except (Fault ε) α :=
  match value with
  | some a => .ok a
  | none => .error (.panic message)

/-- `assert!`: continue when the condition holds, panic otherwise. -/
def ensure (condition : Bool) (message : String) : Except (Fault ε) Unit :=
  if condition then .ok () else .error (.panic message)

/-- `if condition { return Err(e) }`: stop with `e` when the condition holds. -/
def failIf (condition : Prop) [Decidable condition] (e : ε) : Except (Fault ε) Unit :=
  if condition then fail e else pure ()

/-- `assert_eq!`: continue when the two sides are equal, panic otherwise. -/
def assertEq {α : Type} [DecidableEq α] (left right : α) : Except (Fault ε) Unit :=
  ensure (decide (left = right)) "assertion failed: `(left == right)`"

/-- The `?` conversion of an `Err` into the caller's error type; a panic stays
a panic. -/
def mapError {ε' : Type} (convert : ε → ε') : Except (Fault ε) α → Except (Fault ε') α
  | .ok a => .ok a
  | .error (.error e) => .error (.error (convert e))
  | .error (.panic message) => .error (.panic message)

/-- The computation ended in a panic. -/
def Panics (result : Except (Fault ε) α) : Prop :=
  ∃ message, result = .error (.panic message)

instance (result : Except (Fault ε) α) : Decidable (Panics result) :=
  match result with
  | .ok _ => isFalse fun ⟨_, h⟩ => nomatch h
  | .error (.error _) => isFalse fun ⟨_, h⟩ => nomatch h
  | .error (.panic message) => isTrue ⟨message, rfl⟩

@[simp]
theorem ok_bind {a : α} {f : α → Except (Fault ε) β} : (Except.ok a >>= f) = f a :=
  rfl

@[simp]
theorem pure_eq_ok {a b : α} : (pure a : Except (Fault ε) α) = .ok b ↔ a = b := by
  simp [pure, Except.pure]

@[simp]
theorem bind_eq_ok {x : Except (Fault ε) α} {f : α → Except (Fault ε) β} {b : β} :
    x >>= f = .ok b ↔ ∃ a, x = .ok a ∧ f a = .ok b := by
  cases x with
  | error e => simp [bind, Except.bind]
  | ok a => simp [bind, Except.bind]

@[simp]
theorem expect_some {a : α} {message : String} : (expect (some a) message : Except (Fault ε) α) = .ok a :=
  rfl

@[simp]
theorem expect_eq_ok {value : Option α} {message : String} {a : α} :
    (expect value message : Except (Fault ε) α) = .ok a ↔ value = some a := by
  cases value <;> simp [expect]

@[simp]
theorem ensure_eq_ok {condition : Bool} {message : String} {u : Unit} :
    (ensure condition message : Except (Fault ε) Unit) = .ok u ↔ condition = true := by
  cases condition <;> simp [ensure]

@[simp]
theorem failIf_eq_ok {condition : Prop} [Decidable condition] {e : ε} {u : Unit} :
    failIf condition e = .ok u ↔ ¬ condition := by
  by_cases holds : condition <;> simp [failIf, holds, fail, pure, Except.pure]

@[simp]
theorem fail_ne_ok {e : ε} {a : α} : (fail e : Except (Fault ε) α) ≠ .ok a := by
  simp [fail]

@[simp]
theorem fail_bind {e : ε} {f : α → Except (Fault ε) β} : (fail e >>= f) = fail e :=
  rfl

@[simp]
theorem fail_not_panics {e : ε} : ¬ Panics (fail e : Except (Fault ε) α) := by
  rintro ⟨message, h⟩
  cases h

@[simp]
theorem ok_not_panics {a : α} : ¬ Panics (.ok a : Except (Fault ε) α) := by
  rintro ⟨message, h⟩
  cases h

@[simp]
theorem expect_none_panics {message : String} :
    Panics (expect none message : Except (Fault ε) α) :=
  ⟨message, rfl⟩

@[simp]
theorem mapError_eq_ok {ε' : Type} {convert : ε → ε'} {x : Except (Fault ε) α} {a : α} :
    mapError convert x = .ok a ↔ x = .ok a := by
  rcases x with (e | e) | a'
  all_goals simp [mapError]

@[simp]
theorem mapError_panics {ε' : Type} {convert : ε → ε'} {x : Except (Fault ε) α} :
    Panics (mapError convert x) ↔ Panics x := by
  rcases x with (e | e) | a
  all_goals simp [mapError, Panics]

@[simp]
theorem map_panics {change : α → β} {x : Except (Fault ε) α} :
    Panics (x.map change) ↔ Panics x := by
  rcases x with (e | e) | a
  all_goals simp [Except.map, Panics]

@[simp]
theorem functor_map_panics {change : α → β} {x : Except (Fault ε) α} :
    Panics (change <$> x) ↔ Panics x :=
  map_panics

/-- A bind panics exactly when its first part panics, or it succeeds and the
rest panics. -/
theorem bind_panics {x : Except (Fault ε) α} {f : α → Except (Fault ε) β} :
    Panics (x >>= f) ↔ Panics x ∨ ∃ a, x = .ok a ∧ Panics (f a) := by
  cases x with
  | error e =>
      cases e <;> simp [bind, Except.bind, Panics]
  | ok a => simp [bind, Except.bind]

/-- A bind does not panic when its first part does not, nor the rest after
any success. -/
theorem not_panics_bind {x : Except (Fault ε) α} {f : α → Except (Fault ε) β}
    (first : ¬ Panics x) (rest : ∀ a, x = .ok a → ¬ Panics (f a)) : ¬ Panics (x >>= f) := by
  rw [bind_panics]
  rintro (panicked | ⟨a, succeeded, panicked⟩)
  · exact first panicked
  · exact rest a succeeded panicked

/-- The computation ends in `Ok` or in a panic, never in an `Err`. -/
def NeverFails (result : Except (Fault ε) α) : Prop :=
  ∀ e, result ≠ .error (.error e)

@[simp]
theorem neverFails_ok {a : α} : NeverFails (.ok a : Except (Fault ε) α) := by
  intro e failed
  cases failed

@[simp]
theorem neverFails_pure {a : α} : NeverFails (pure a : Except (Fault ε) α) :=
  neverFails_ok

@[simp]
theorem neverFails_ensure {condition : Bool} {message : String} :
    NeverFails (ensure condition message : Except (Fault ε) Unit) := by
  intro e failed
  cases condition <;> cases failed

@[simp]
theorem neverFails_expect {value : Option α} {message : String} :
    NeverFails (expect value message : Except (Fault ε) α) := by
  intro e failed
  cases value <;> cases failed

theorem neverFails_bind {x : Except (Fault ε) α} {f : α → Except (Fault ε) β}
    (first : NeverFails x) (rest : ∀ a, x = .ok a → NeverFails (f a)) : NeverFails (x >>= f) := by
  intro e failed
  rcases x with (e' | message) | a
  · exact first e' rfl
  · cases failed
  · exact rest a rfl e failed

/-- A bind that cannot return an `Err` panics when the rest panics after every
success. -/
theorem bind_panics_of_neverFails {x : Except (Fault ε) α} {f : α → Except (Fault ε) β}
    (first : NeverFails x) (rest : ∀ a, x = .ok a → Panics (f a)) : Panics (x >>= f) := by
  rcases x with (e | message) | a
  · exact absurd rfl (first e)
  · exact ⟨message, rfl⟩
  · exact rest a rfl

/-- A loop whose iterations never return an `Err` never does either. -/
theorem neverFails_foldlM {γ : Type} {f : β → γ → Except (Fault ε) β} {items : List γ}
    (step : ∀ acc, ∀ item ∈ items, NeverFails (f acc item)) (start : β) :
    NeverFails (items.foldlM f start) := by
  induction items generalizing start with
  | nil => exact neverFails_pure
  | cons item items ih =>
      rw [List.foldlM_cons]
      refine neverFails_bind (step start item List.mem_cons_self) fun next _ => ?_
      exact ih (fun acc other member => step acc other (List.mem_cons_of_mem _ member)) next

/-- A loop in `Result` returns when every iteration does. -/
theorem forM_eq_ok {γ : Type} {f : γ → Except (Fault ε) Unit} {items : List γ} :
    items.forM f = .ok () ↔ ∀ item ∈ items, f item = .ok () := by
  induction items with
  | nil => simp [List.forM, pure, Except.pure]
  | cons item items ih =>
      simp only [List.forM, List.forall_mem_cons, ← ih]
      cases f item with
      | error fault => simp [bind, Except.bind]
      | ok u => simp [bind, Except.bind]

/-- A loop of `assert!`s returns when every condition holds. -/
theorem forM_ensure_eq_ok {γ : Type} {condition : γ → Bool} {message : String} {items : List γ} :
    (items.forM fun item => (ensure (condition item) message : Except (Fault ε) Unit)) = .ok () ↔
      ∀ item ∈ items, condition item = true := by
  simp only [forM_eq_ok, ensure_eq_ok]

/-- A loop of `assert!`s panics at the first condition that fails. -/
theorem forM_ensure_panics {γ : Type} {condition : γ → Bool} {message : String} {items : List γ} :
    Panics (items.forM fun item => (ensure (condition item) message : Except (Fault ε) Unit)) ↔
      ∃ item ∈ items, condition item = false := by
  induction items with
  | nil => simp [List.forM, pure, Except.pure]
  | cons item items ih =>
      have unfolded : (item :: items).forM (fun item => (ensure (condition item) message : Except (Fault ε) Unit)) =
          ensure (condition item) message >>= fun _ => items.forM fun item => ensure (condition item) message :=
        rfl
      rw [unfolded, bind_panics, ih]
      simp only [List.mem_cons, or_and_right, exists_or, exists_eq_left]
      cases condition item <;> simp [ensure, Panics]

/-- A loop in `Result` that returned `Ok` kept every invariant of its
accumulator that each successful iteration keeps. -/
theorem foldlM_invariant {γ : Type} (P : β → Prop) {f : β → γ → Except (Fault ε) β}
    {items : List γ}
    (step : ∀ acc, P acc → ∀ item ∈ items, ∀ next, f acc item = .ok next → P next)
    {start result : β} (holds : P start) (run : items.foldlM f start = .ok result) : P result := by
  induction items generalizing start with
  | nil =>
      cases run
      exact holds
  | cons item items ih =>
      rw [List.foldlM_cons, bind_eq_ok] at run
      obtain ⟨next, first, rest⟩ := run
      have later : ∀ acc, P acc → ∀ item ∈ items, ∀ next, f acc item = .ok next → P next :=
        fun acc holds item member => step acc holds item (List.mem_cons_of_mem _ member)
      exact ih later (step start holds item List.mem_cons_self next first) rest

/-- A loop in `Result` each of whose iterations, from where the pure loop `next`
has got to, returns what `next` returns, is that pure loop. -/
theorem foldlM_eq_ok_foldl {γ : Type} {f : β → γ → Except (Fault ε) β} (next : β → γ → β)
    {items : List γ} {start : β}
    (step : ∀ done item rest, items = done ++ item :: rest →
      f (done.foldl next start) item = .ok (next (done.foldl next start) item)) :
    items.foldlM f start = .ok (items.foldl next start) := by
  induction items generalizing start with
  | nil => rfl
  | cons item items ih =>
      have first := step [] item items rfl
      rw [List.foldl_nil] at first
      rw [List.foldlM_cons, first, ok_bind, List.foldl_cons]
      -- the rest of the loop starts where the first iteration left
      refine ih fun done other rest split => ?_
      have shifted := step (item :: done) other rest (by rw [split, List.cons_append])
      rwa [List.foldl_cons] at shifted

/-- A map in `Result` each of whose calls returns what the pure map `g` returns
is that pure map. -/
theorem mapM_eq_ok_map {γ : Type} {f : γ → Except (Fault ε) β} (g : γ → β) {items : List γ}
    (each : ∀ item ∈ items, f item = .ok (g item)) : items.mapM f = .ok (items.map g) := by
  induction items with
  | nil => rfl
  | cons item items ih =>
      rw [List.mapM_cons, each item List.mem_cons_self, ok_bind,
        ih fun other member => each other (List.mem_cons_of_mem _ member)]
      rfl

end Fault

end CodeChain
