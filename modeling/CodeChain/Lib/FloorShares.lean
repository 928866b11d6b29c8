import Mathlib

/-!
# Floored proportional shares

An amount shared out among weights in proportion to them, out of a total, each
share rounded down.  When the weights make up the total, the shares take at
most the amount, and what they leave is below the number of weights: each share
loses less than one unit.
-/

namespace CodeChain

namespace FloorShares

/-- The share of each weight: `⌊amount · weight / total⌋`. -/
def shares (amount total : ℕ) (weights : List ℕ) : List ℕ :=
  weights.map fun weight => amount * weight / total

/-- What each share loses to the rounding, times the total. -/
def losses (amount total : ℕ) (weights : List ℕ) : List ℕ :=
  weights.map fun weight => amount * weight % total

@[simp]
theorem shares_nil (amount total : ℕ) : shares amount total [] = [] :=
  rfl

@[simp]
theorem shares_cons (amount total weight : ℕ) (weights : List ℕ) :
    shares amount total (weight :: weights) = amount * weight / total :: shares amount total weights :=
  rfl

/-- The shares and their losses make up the amount times the weights. -/
theorem total_mul_sum_shares_add_sum_losses (amount total : ℕ) (weights : List ℕ) :
    total * (shares amount total weights).sum + (losses amount total weights).sum =
      amount * weights.sum := by
  induction weights with
  | nil => simp [losses]
  | cons weight weights ih =>
      have split := Nat.div_add_mod (amount * weight) total
      simp only [shares_cons, losses, List.map_cons, List.sum_cons] at ih ⊢
      rw [Nat.mul_add total, Nat.mul_add amount]
      linarith

/-- Each loss is below the total, so together they are below the total for
every weight. -/
theorem sum_losses_lt (amount : ℕ) {total : ℕ} (positive : 0 < total) {weights : List ℕ}
    (nonempty : weights ≠ []) : (losses amount total weights).sum < total * weights.length := by
  induction weights with
  | nil => exact absurd rfl nonempty
  | cons weight weights ih =>
      have first := Nat.mod_lt (amount * weight) positive
      simp only [losses, List.map_cons, List.sum_cons, List.length_cons] at ih ⊢
      by_cases empty : weights = []
      · subst empty
        simpa using first
      · have rest := ih empty
        rw [Nat.mul_add, Nat.mul_one]
        omega

/-- Weights within the total take at most the amount. -/
theorem sum_shares_le (amount : ℕ) {total : ℕ} {weights : List ℕ} (within : weights.sum ≤ total) :
    (shares amount total weights).sum ≤ amount := by
  rcases Nat.eq_zero_or_pos total with zero | positive
  · subst zero
    simp [shares]
  · have identity := total_mul_sum_shares_add_sum_losses amount total weights
    have scaled : total * (shares amount total weights).sum ≤ total * amount :=
      calc total * (shares amount total weights).sum
          ≤ amount * weights.sum := by omega
        _ ≤ amount * total := Nat.mul_le_mul_left amount within
        _ = total * amount := Nat.mul_comm amount total
    exact Nat.le_of_mul_le_mul_left scaled positive

/-- Weights that make up the total leave less than one unit per weight. -/
theorem sub_sum_shares_lt (amount : ℕ) {total : ℕ} (positive : 0 < total) {weights : List ℕ}
    (exact : weights.sum = total) (nonempty : weights ≠ []) :
    amount - (shares amount total weights).sum < weights.length := by
  have identity := total_mul_sum_shares_add_sum_losses amount total weights
  have lost := sum_losses_lt amount positive nonempty
  have taken := sum_shares_le amount exact.le
  rw [exact] at identity
  -- the amount left, times the total, is what the rounding lost
  have left : total * (amount - (shares amount total weights).sum) = (losses amount total weights).sum := by
    rw [Nat.mul_sub, Nat.mul_comm total amount]
    omega
  exact Nat.lt_of_mul_lt_mul_left (left ▸ lost)

/-! ### One share and what it leaves -/

/-- The share of `part` out of `whole` in `total` is no more than `total`. -/
theorem share_le {part whole : ℕ} (total : ℕ) (within : part ≤ whole) : part * total / whole ≤ total :=
  Nat.div_le_of_le_mul (Nat.mul_le_mul_right total within)

/-- A part below the whole takes less than all of a positive total. -/
theorem share_lt {part whole total : ℕ} (below : part < whole) (positive : 0 < total) :
    part * total / whole < total := by
  rw [Nat.div_lt_iff_lt_mul (by omega), Nat.mul_comm total whole]
  exact Nat.mul_lt_mul_of_pos_right below positive

/-- What the share leaves of the total is at least in proportion to what the
part leaves of the whole: the rounding favours what is left. -/
theorem mul_sub_le_sub_share_mul {part whole : ℕ} (total : ℕ) (within : part ≤ whole) :
    total * (whole - part) ≤ (total - part * total / whole) * whole := by
  have rounded : part * total / whole * whole ≤ part * total := Nat.div_mul_le_self _ _
  have bounded : part * total / whole * whole ≤ total * whole :=
    Nat.mul_le_mul_right whole (share_le total within)
  rw [Nat.mul_sub, Nat.sub_mul, Nat.mul_comm part total] at *
  omega

/-- A total that is a multiple of the whole is shared out exactly. -/
theorem share_of_multiple (part rate : ℕ) {whole : ℕ} (positive : 0 < whole) :
    part * (rate * whole) / whole = part * rate := by
  rw [← Nat.mul_assoc, Nat.mul_div_cancel _ positive]

end FloorShares

end CodeChain
