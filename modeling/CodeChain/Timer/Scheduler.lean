import CodeChain.Lib.Fault

/-!
# The scheduler of the timer loop

`TimerLoop` (`util/timer/src/timer.rs`) runs the timeouts of every timer of the
node.  `SchedulerInner` keeps, for each `ScheduleId` (a timer and one of its
tokens), the `ScheduleStateControl` of its live schedule, and a heap of the
pending schedules ordered by the instant they are due.  A cancelled schedule
stays in the heap, detached from `states`; the comment above `SchedulerInner`
argues from three rules that a detached control is always `Cancelled`.

Every call of the API and every iteration of the loop of `handle_timeout` runs
under the scheduler's mutex, and a worker runs a callback under the lock of its
schedule's state, so a run of the timer loop is a sequence of the atomic
events of `Event`.  A control is shared through an `Arc` and compared with
`Arc::ptr_eq`: it is the index of its allocation in `controls`.  The
`Instant`s are natural numbers that each event reads.  The heap is a list, and
a pop takes the first pushed of the schedules due earliest.

Rule 1 does not hold.  `cancel` detaches a repeating schedule, and a new one
for the same id attaches another control; when the detached schedule comes
due, `try_reschedule` finds the new control attached and not cancelled, and
reaches `unreachable!`.
-/

namespace CodeChain

namespace Timer

/-- `ScheduleId`: a timer and one of its tokens. -/
structure ScheduleId where
  timerId : ℕ
  timerToken : ℕ
  deriving DecidableEq, Repr

/-- `ScheduleState`. -/
inductive ScheduleState where
  | wait
  | waitRepeating
  | timeout
  | cancelled
  deriving DecidableEq, Repr

/-- `ScheduleError`; the timer loop of the model is never dropped. -/
inductive ScheduleError where
  | tokenAlreadyScheduled
  deriving DecidableEq, Repr

/-- `Schedule`: the instant it is due (`at`), its repeat interval (`repeat`),
and its control.  Its handler is that of its timer. -/
structure Schedule where
  instant : ℕ
  scheduleId : ScheduleId
  interval : Option ℕ
  stateControl : ℕ
  deriving DecidableEq, Repr

/-- `Callback`: what a worker runs. -/
structure Callback where
  scheduleId : ScheduleId
  fromOneshotSchedule : Bool
  stateControl : ℕ
  deriving DecidableEq, Repr

/-- `SchedulerInner`. -/
structure SchedulerInner where
  states : AList fun _ : ScheduleId => ℕ
  heap : List Schedule
  stop : Bool

/-- The timer loop: the scheduler, the state of every control allocated so
far, the handler of each timer (alive or dropped), the worker queue, and the
`on_timeout` calls made, in order. -/
structure TimerLoop where
  inner : SchedulerInner
  controls : List ScheduleState
  handlers : AList fun _ : ℕ => Bool
  workerQueue : List Callback
  onTimeouts : List Callback

/-- The result of a step: a panic, or an `Err` handed to the caller. -/
abbrev TimerResult (α : Type) := Except (Fault ScheduleError) α

namespace TimerLoop

/-- A timer loop with no timer and no schedule. -/
def new : TimerLoop :=
  ⟨⟨∅, [], false⟩, [], ∅, [], []⟩

/-- The state of a control; every control of a schedule was allocated. -/
def controlState (loop : TimerLoop) (control : ℕ) : TimerResult ScheduleState :=
  Fault.expect loop.controls[control]? "control allocated"

/-- `ScheduleStateControl::is_cancelled`. -/
def isCancelled (loop : TimerLoop) (control : ℕ) : TimerResult Bool := do
  pure ((← loop.controlState control) = .cancelled)

/-- `Arc::new(ScheduleStateControl::new_auto(repeat))`: a control in state
`WaitRepeating` for a repeating schedule and `Wait` otherwise. -/
def allocate (loop : TimerLoop) (interval : Option ℕ) : ℕ × TimerLoop :=
  (loop.controls.length,
    { loop with controls := loop.controls ++ [if interval.isSome then .waitRepeating else .wait] })

/-- `TimerApi::set_handler`. -/
def setHandler (loop : TimerLoop) (timer : ℕ) : TimerResult TimerLoop := do
  Fault.ensure (loop.handlers.lookup timer).isNone "Timer handler cannot be changed once it is set"
  pure { loop with handlers := loop.handlers.insert timer true }

/-- The handler of a timer is dropped by its owner; its weak references no
longer upgrade. -/
def dropHandler (loop : TimerLoop) (timer : ℕ) : TimerLoop :=
  if timer ∈ loop.handlers then { loop with handlers := loop.handlers.insert timer false } else loop

/-- `Weak::upgrade` of a timer's handler. -/
def handlerAlive (loop : TimerLoop) (timer : ℕ) : Bool :=
  (loop.handlers.lookup timer).getD false

/-- `SchedulerInner::schedule`, at instant `now`. -/
def schedule (loop : TimerLoop) (timer token now after : ℕ) (interval : Option ℕ) :
    TimerResult TimerLoop := do
  if loop.inner.stop then
    return loop
  let scheduleId : ScheduleId := ⟨timer, token⟩
  let _ ← Fault.expect (loop.handlers.lookup timer) "TimeoutHandler must be set"
  match loop.inner.states.lookup scheduleId with
  | some attached =>
      if !(← loop.isCancelled attached) then
        Fault.fail .tokenAlreadyScheduled
  | none => pure ()
  -- a vacant entry gets a new control, and so does a cancelled one, which is detached
  let (control, loop) := loop.allocate interval
  pure { loop with inner := { loop.inner with
    states := loop.inner.states.insert scheduleId control
    heap := loop.inner.heap ++ [⟨now + after, scheduleId, interval, control⟩] } }

/-- A schedule for an id with no control attached attaches a new control and
is pushed. -/
theorem schedule_of_vacant {loop : TimerLoop} {timer token now after : ℕ} {interval : Option ℕ}
    (running : loop.inner.stop = false) (set : timer ∈ loop.handlers)
    (vacant : loop.inner.states.lookup ⟨timer, token⟩ = none) :
    loop.schedule timer token now after interval = .ok
      { loop with
        controls := loop.controls ++ [if interval.isSome then .waitRepeating else .wait]
        inner := { loop.inner with
          states := loop.inner.states.insert ⟨timer, token⟩ loop.controls.length
          heap := loop.inner.heap ++ [⟨now + after, ⟨timer, token⟩, interval, loop.controls.length⟩] } } := by
  obtain ⟨handler, found⟩ := Option.isSome_iff_exists.mp (AList.lookup_isSome.mpr set)
  simp [schedule, running, found, vacant, allocate, Fault.expect]

/-- `ScheduleStateControl::cancel`. -/
def cancelControl (loop : TimerLoop) (control : ℕ) : TimerResult (Bool × TimerLoop) := do
  match ← loop.controlState control with
  | .wait | .waitRepeating => pure (true, { loop with controls := loop.controls.set control .cancelled })
  | _ => pure (false, loop)

/-- `SchedulerInner::cancel`: detach the control of the id, and cancel it. -/
def cancel (loop : TimerLoop) (timer token : ℕ) : TimerResult (Bool × TimerLoop) :=
  let scheduleId : ScheduleId := ⟨timer, token⟩
  match loop.inner.states.lookup scheduleId with
  | none => pure (false, loop)
  | some control =>
      { loop with inner := { loop.inner with states := loop.inner.states.erase scheduleId } }.cancelControl
        control

/-- Cancelling an attached schedule that waits detaches and cancels it. -/
theorem cancel_of_waiting {loop : TimerLoop} {timer token control : ℕ}
    (attached : loop.inner.states.lookup ⟨timer, token⟩ = some control)
    (waiting : loop.controls[control]? = some .wait ∨ loop.controls[control]? = some .waitRepeating) :
    loop.cancel timer token = .ok (true,
      { loop with
        controls := loop.controls.set control .cancelled
        inner := { loop.inner with states := loop.inner.states.erase ⟨timer, token⟩ } }) := by
  rcases waiting with waiting | waiting <;>
    simp [cancel, attached, cancelControl, controlState, waiting, Fault.expect]

/-- `SchedulerInner::clear_and_stop`: every schedule of the heap is cancelled. -/
def clearAndStop (loop : TimerLoop) : TimerResult TimerLoop := do
  let loop ← loop.inner.heap.foldlM (fun loop schedule => do
    pure (← loop.cancelControl schedule.stateControl).2) loop
  pure { loop with inner := ⟨∅, [], true⟩ }

/-- The schedule `BinaryHeap::pop` takes: the first pushed of those due
earliest. -/
def earliest : List Schedule → Option Schedule
  | [] => none
  | schedule :: rest =>
      match earliest rest with
      | none => some schedule
      | some later => if later.instant < schedule.instant then some later else some schedule

theorem earliest_mem {heap : List Schedule} {schedule : Schedule} (found : earliest heap = some schedule) :
    schedule ∈ heap := by
  induction heap with
  | nil => cases found
  | cons first rest ih =>
      simp only [earliest] at found
      split at found
      · cases found
        exact List.mem_cons_self
      · split at found <;> cases found
        · exact List.mem_cons_of_mem _ (ih ‹_›)
        · exact List.mem_cons_self

/-- A schedule due strictly before every other of the heap is the one popped. -/
theorem earliest_eq_of_lt {heap : List Schedule} {schedule : Schedule} (mem : schedule ∈ heap)
    (first : ∀ other ∈ heap, other = schedule ∨ schedule.instant < other.instant) :
    earliest heap = some schedule := by
  induction heap with
  | nil => cases mem
  | cons head rest ih =>
      have restFirst : ∀ other ∈ rest, other = schedule ∨ schedule.instant < other.instant :=
        fun other member => first other (List.mem_cons_of_mem _ member)
      simp only [earliest]
      rcases List.mem_cons.mp mem with same | inRest
      · -- the schedule is the head: nothing of the rest is due before it
        subst same
        split
        · rfl
        · rename_i later found
          rcases restFirst later (earliest_mem found) with same | before
          · subst same
            simp
          · simp [Nat.not_lt.mpr before.le]
      · rw [ih inRest restFirst]
        rcases first head List.mem_cons_self with same | before
        · subst same
          simp
        · simp [before]

/-- `SchedulerInner::try_reschedule`: push a repeating schedule again if its
control is the attached one. -/
def tryReschedule (loop : TimerLoop) (now : ℕ) (schedule : Schedule) : TimerResult (Bool × TimerLoop) := do
  let interval ← Fault.expect schedule.interval "Schedule should have repeat interval"
  let schedule := { schedule with instant := now + interval }
  match loop.inner.states.lookup schedule.scheduleId with
  | none => pure (false, loop)
  | some attached =>
      if attached = schedule.stateControl then
        pure (true, { loop with inner := { loop.inner with heap := loop.inner.heap ++ [schedule] } })
      else if ← loop.isCancelled attached then
        pure (false, { loop with inner := { loop.inner with
          states := loop.inner.states.erase schedule.scheduleId } })
      else
        .error (.panic "internal error: entered unreachable code: Rule 1 was violated")

/-- The branch that `unreachable!` guards: the id of a repeating schedule has
another control attached, which is not cancelled. -/
theorem tryReschedule_panics {loop : TimerLoop} {now interval attached : ℕ} {schedule : Schedule}
    {state : ScheduleState} (repeating : schedule.interval = some interval)
    (other : loop.inner.states.lookup schedule.scheduleId = some attached) (apart : attached ≠ schedule.stateControl)
    (allocated : loop.controls[attached]? = some state) (live : state ≠ .cancelled) :
    Fault.Panics (loop.tryReschedule now schedule) := by
  simp [tryReschedule, repeating, other, apart, isCancelled, controlState, allocated, live, Fault.expect,
    Fault.Panics]

/-- `WorkerQueue::enqueue`. -/
def enqueue (loop : TimerLoop) (callback : Callback) : TimerLoop :=
  { loop with workerQueue := loop.workerQueue ++ [callback] }

/-- The body of the loop of `SchedulerInner::handle_timeout` for a schedule
that is due: a repeating one is rescheduled and its callback queued while it
is attached; a one-shot one is detached, and its callback queued if it was
attached and not cancelled. -/
def handleTimedOut (loop : TimerLoop) (now : ℕ) (timedOut : Schedule) : TimerResult TimerLoop := do
  let callback : Callback :=
    ⟨timedOut.scheduleId, timedOut.interval.isNone, timedOut.stateControl⟩
  let alive := loop.handlerAlive timedOut.scheduleId.timerId
  if timedOut.interval.isSome then
    if alive then
      let (rescheduled, loop) ← loop.tryReschedule now timedOut
      pure (if rescheduled then loop.enqueue callback else loop)
    else
      pure loop
  else
    let (enqueue, loop) ← match loop.inner.states.lookup timedOut.scheduleId with
      | some attached =>
          if attached = timedOut.stateControl then do
            let cancelled ← loop.isCancelled timedOut.stateControl
            pure (!cancelled, { loop with inner := { loop.inner with
              states := loop.inner.states.erase timedOut.scheduleId } })
          else pure (false, loop)
      | none => pure (false, loop)
    if alive then
      if enqueue then
        pure (loop.enqueue callback)
      else
        Fault.ensure (← loop.isCancelled timedOut.stateControl)
          "assertion failed: timed_out.state_control.is_cancelled()"
        pure loop
    else
      pure loop

/-- One iteration of the loop of `handle_timeout` at instant `now`: pop the
earliest schedule if it is due; otherwise the loop returns. -/
def handleTimeout (loop : TimerLoop) (now : ℕ) : TimerResult TimerLoop :=
  match earliest loop.inner.heap with
  | none => pure loop
  | some timedOut =>
      if now < timedOut.instant then pure loop
      else
        { loop with inner := { loop.inner with heap := loop.inner.heap.erase timedOut } }.handleTimedOut now
          timedOut

theorem handleTimeout_of_due {loop : TimerLoop} {now : ℕ} {timedOut : Schedule}
    (popped : earliest loop.inner.heap = some timedOut) (due : timedOut.instant ≤ now) :
    loop.handleTimeout now =
      { loop with inner := { loop.inner with heap := loop.inner.heap.erase timedOut } }.handleTimedOut now
        timedOut := by
  simp [handleTimeout, popped, Nat.not_lt.mpr due]

/-- A repeating schedule whose handler is alive goes through `try_reschedule`. -/
theorem handleTimedOut_panics {loop : TimerLoop} {now interval : ℕ} {timedOut : Schedule}
    (repeating : timedOut.interval = some interval) (alive : loop.handlerAlive timedOut.scheduleId.timerId = true)
    (panics : Fault.Panics (loop.tryReschedule now timedOut)) : Fault.Panics (loop.handleTimedOut now timedOut) := by
  simp only [handleTimedOut, repeating, alive, Option.isSome_some, if_true]
  exact Fault.bind_panics.mpr (.inl panics)

/-- One iteration of `worker_loop`: the first callback runs under the lock of
its control, calling `on_timeout` unless it was cancelled. -/
def work (loop : TimerLoop) : TimerResult TimerLoop :=
  match loop.workerQueue with
  | [] => pure loop
  | callback :: rest => do
      let loop := { loop with workerQueue := rest }
      let state ← loop.controlState callback.stateControl
      Fault.ensure (state ≠ .timeout) "assertion failed: `(left != right)`"
      if state ≠ .cancelled then
        let loop := { loop with onTimeouts := loop.onTimeouts ++ [callback] }
        Fault.ensure (callback.fromOneshotSchedule == (state == .wait)) "assertion failed: `(left == right)`"
        if callback.fromOneshotSchedule then
          -- `set_timeout`
          match state with
          | .wait => pure { loop with controls := loop.controls.set callback.stateControl .timeout }
          | _ => .error (.panic "internal error: entered unreachable code: invalid transition")
        else
          pure loop
      else
        pure loop

end TimerLoop

/-- What happens to a timer loop: a call of the API of a timer, an iteration
of the scheduler's loop, or one of a worker. -/
inductive Event where
  | setHandler (timer : ℕ)
  | dropHandler (timer : ℕ)
  | scheduleOnce (timer token now after : ℕ)
  | scheduleRepeat (timer token now after : ℕ)
  | cancel (timer token : ℕ)
  | handleTimeout (now : ℕ)
  | work
  | clearAndStop
  deriving DecidableEq, Repr

namespace TimerLoop

/-- An `Err` goes back to the caller and leaves the loop as it was; a panic
stops the run. -/
def settle (loop : TimerLoop) : TimerResult TimerLoop → Except (Fault Empty) TimerLoop
  | .ok loop' => .ok loop'
  | .error (.error _) => .ok loop
  | .error (.panic message) => .error (.panic message)

/-- One event. -/
def step (loop : TimerLoop) : Event → Except (Fault Empty) TimerLoop
  | .setHandler timer => loop.settle (loop.setHandler timer)
  | .dropHandler timer => .ok (loop.dropHandler timer)
  | .scheduleOnce timer token now after => loop.settle (loop.schedule timer token now after none)
  | .scheduleRepeat timer token now after => loop.settle (loop.schedule timer token now after (some after))
  | .cancel timer token => loop.settle ((·.2) <$> loop.cancel timer token)
  | .handleTimeout now => loop.settle (loop.handleTimeout now)
  | .work => loop.settle loop.work
  | .clearAndStop => loop.settle loop.clearAndStop

/-- The events in turn; the first panic ends the run. -/
def run (loop : TimerLoop) : List Event → Except (Fault Empty) TimerLoop
  | [] => .ok loop
  | event :: events => do
      run (← loop.step event) events

@[simp]
theorem settle_ok (loop loop' : TimerLoop) : loop.settle (.ok loop') = .ok loop' :=
  rfl

theorem settle_panics {loop : TimerLoop} {result : TimerResult TimerLoop} (panics : Fault.Panics result) :
    Fault.Panics (loop.settle result) := by
  obtain ⟨message, panicked⟩ := panics
  exact ⟨message, by rw [panicked]; rfl⟩

/-- A repeating schedule, cancelled and scheduled again, panics the
scheduler once the first schedule comes due, from any state of the loop in
which the id has no schedule attached, the timer's handler is alive and no
other schedule is due before. -/
theorem rescheduled_after_cancel_panics {loop : TimerLoop} {timer token now₁ after₁ now₂ after₂ now₃ : ℕ}
    (running : loop.inner.stop = false) (alive : loop.handlers.lookup timer = some true)
    (vacant : loop.inner.states.lookup ⟨timer, token⟩ = none)
    (due : now₁ + after₁ ≤ now₃) (later : now₃ < now₂ + after₂)
    (nothingElseDue : ∀ schedule ∈ loop.inner.heap, now₃ < schedule.instant) :
    Fault.Panics (loop.run [.scheduleRepeat timer token now₁ after₁, .cancel timer token,
      .scheduleRepeat timer token now₂ after₂, .handleTimeout now₃]) := by
  have set : timer ∈ loop.handlers := AList.lookup_isSome.mp (by rw [alive]; rfl)
  simp only [run, step]
  -- the first call attaches the control allocated next
  rw [schedule_of_vacant running set vacant]
  simp only [settle_ok, Fault.ok_bind, Option.isSome_some, if_true]
  -- the cancel detaches and cancels it
  rw [@cancel_of_waiting _ timer token loop.controls.length]
  case attached => simp
  case waiting => simp
  simp only [Functor.map, Except.map, settle_ok, Fault.ok_bind]
  -- the second call attaches the control allocated after it
  rw [schedule_of_vacant]
  case running => exact running
  case set => exact set
  case vacant => simp
  simp only [settle_ok, Fault.ok_bind, Option.isSome_some, if_true]
  -- the first schedule is popped, and its control is no longer the attached one
  refine Fault.bind_panics.mpr (.inl (settle_panics ?_))
  rw [@handleTimeout_of_due _ now₃ ⟨now₁ + after₁, ⟨timer, token⟩, some after₁, loop.controls.length⟩]
  case popped =>
    refine earliest_eq_of_lt (by simp) fun other member => ?_
    simp only [List.append_assoc, List.mem_append, List.mem_singleton] at member
    rcases member with inHeap | first | second
    · exact .inr (lt_of_le_of_lt due (nothingElseDue other inHeap))
    · exact .inl first
    · subst second
      exact .inr (lt_of_le_of_lt due (by simpa using later))
  case due => exact due
  refine handleTimedOut_panics rfl (by simp [handlerAlive, alive])
    (@tryReschedule_panics _ now₃ after₁ (loop.controls.length + 1) _ .waitRepeating rfl ?_ ?_ ?_ (by decide))
  · simp
  · simp
  · simp

/-- A loop with one timer, `0`, whose handler is alive, and no schedule. -/
def oneTimer : TimerLoop :=
  { new with handlers := (∅ : AList fun _ : ℕ => Bool).insert 0 true }

/-- Token `7` of timer `0` repeats every ten instants from instant `0`, is
cancelled, and repeats every fifteen from instant `5`: at instant `10` the
scheduler panics. -/
theorem rescheduled_after_cancel_panics_at_ten :
    Fault.Panics (oneTimer.run [.scheduleRepeat 0 7 0 10, .cancel 0 7, .scheduleRepeat 0 7 5 15,
      .handleTimeout 10]) :=
  rescheduled_after_cancel_panics rfl rfl rfl (by decide) (by decide) (by simp [oneTimer, new])

end TimerLoop

end Timer

end CodeChain
