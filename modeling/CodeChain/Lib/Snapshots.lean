import Mathlib

/-!
# Nested transactions over a store

The abstract meaning of a store with checkpoints: the current state, and the
states saved by the open checkpoints, the newest first.  A checkpoint saves the
current state, a revert goes back to the newest saved state, and a discard
forgets it.

A block of code that opens as many checkpoints as it closes leaves the saved
states as it found them.  So a revert right after such a block, opened by a
checkpoint of its own, undoes the whole block.
-/

namespace CodeChain

namespace Snapshots

/-- A store under nested transactions. -/
structure Stack (σ : Type*) where
  current : σ
  saved : List σ

namespace Stack

variable {σ : Type*}

/-- Save the current state. -/
def checkpoint (stack : Stack σ) : Stack σ :=
  ⟨stack.current, stack.current :: stack.saved⟩

/-- Forget the newest saved state and keep the current one. -/
def discard (stack : Stack σ) : Stack σ :=
  ⟨stack.current, stack.saved.tail⟩

/-- Go back to the newest saved state; with none saved, nothing changes. -/
def revert (stack : Stack σ) : Stack σ :=
  match stack.saved with
  | [] => stack
  | newest :: rest => ⟨newest, rest⟩

/-- Change the current state. -/
def update (change : σ → σ) (stack : Stack σ) : Stack σ :=
  ⟨change stack.current, stack.saved⟩

@[simp]
theorem checkpoint_current (stack : Stack σ) : stack.checkpoint.current = stack.current :=
  rfl

@[simp]
theorem discard_current (stack : Stack σ) : stack.discard.current = stack.current :=
  rfl

@[simp]
theorem update_current (change : σ → σ) (stack : Stack σ) :
    (stack.update change).current = change stack.current :=
  rfl

@[simp]
theorem update_saved (change : σ → σ) (stack : Stack σ) :
    (stack.update change).saved = stack.saved :=
  rfl

@[simp]
theorem revert_checkpoint (stack : Stack σ) : stack.checkpoint.revert = stack :=
  rfl

@[simp]
theorem discard_checkpoint (stack : Stack σ) : stack.checkpoint.discard = stack :=
  rfl

/-- The blocks of code that leave the saved states alone: changes of the
current state, sequences of blocks, and blocks opened by a checkpoint and closed
by a discard or a revert. -/
inductive Balanced : (Stack σ → Stack σ) → Prop
  | update (change : σ → σ) : Balanced (update change)
  | skip : Balanced id
  | seq {first second} : Balanced first → Balanced second → Balanced (second ∘ first)
  | commit {inner} : Balanced inner → Balanced (fun stack => (inner stack.checkpoint).discard)
  | abort {inner} : Balanced inner → Balanced (fun stack => (inner stack.checkpoint).revert)

theorem Balanced.saved_eq {block : Stack σ → Stack σ} (balanced : Balanced block) (stack : Stack σ) :
    (block stack).saved = stack.saved := by
  induction balanced generalizing stack with
  | update change => rfl
  | skip => rfl
  | seq _ _ first second => exact (second _).trans (first stack)
  | @commit inner _ saved =>
      change (inner stack.checkpoint).saved.tail = stack.saved
      rw [saved stack.checkpoint]
      rfl
  | @abort inner _ saved =>
      have opened : (inner stack.checkpoint).saved = stack.current :: stack.saved :=
        saved stack.checkpoint
      simp only [revert, opened]

/-- A revert after a balanced block opened by a checkpoint undoes the block. -/
theorem Balanced.revert_eq {block : Stack σ → Stack σ} (balanced : Balanced block) (stack : Stack σ) :
    (block stack.checkpoint).revert = stack := by
  have saved : (block stack.checkpoint).saved = stack.current :: stack.saved :=
    balanced.saved_eq stack.checkpoint
  simp only [revert, saved]

end Stack

end Snapshots

end CodeChain
