import CodeChain.VM.Executor
import CodeChain.Lib.Subsequence

/-!
# The multisignature check

`check_multi_sig` pops the signatures from the last, and for each pops public
keys from the last until one verifies it.  It is a greedy matcher, and greedy
is enough: a signature matched to the last key that verifies it leaves the
most keys for the signatures before it.  So the check passes exactly when the
signatures can be matched, in order, to distinct keys in the same order, for
any `verify` whatever.
-/

namespace CodeChain

namespace VM

open Subsequence

variable {Hash : Type} (verify : Item → Item → Hash → Bool) (txHash : Hash)

/-- The signature is verified by the key. -/
def Verifies (signature key : Item) : Prop :=
  verify key signature txHash = true

namespace checkMultiSig

@[simp]
theorem go_nil (keys : List Item) : go verify txHash keys [] = true := by
  simp [go]

@[simp]
theorem go_nil_cons (signature : Item) (signatures : List Item) :
    go verify txHash [] (signature :: signatures) = false := by
  simp [go, dropUntilVerified]

/-- One key popped: it either verifies the signature, which is then done, or is
dropped for good. -/
theorem go_cons_cons (key signature : Item) (keys signatures : List Item) :
    go verify txHash (key :: keys) (signature :: signatures) =
      if verify key signature txHash then go verify txHash keys signatures
      else go verify txHash keys (signature :: signatures) := by
  by_cases verified : verify key signature txHash
  · simp [go, dropUntilVerified, verified]
  · simp only [go, dropUntilVerified, verified, Bool.false_eq_true, if_false]

/-- The greedy loop, keys and signatures both in the order `Vec::pop` gives
them, passes exactly when the signatures match a sublist of the keys. -/
theorem go_iff_embeds (keys signatures : List Item) :
    go verify txHash keys signatures = true ↔ Embeds (Verifies verify txHash) signatures keys := by
  -- the loop pops one key per step, so the induction is on the keys
  induction keys generalizing signatures with
  | nil =>
    cases signatures with
    | nil => simp
    | cons signature signatures => simp
  | cons key keys ih =>
    cases signatures with
    | nil => simp
    | cons signature signatures =>
      rw [go_cons_cons]
      by_cases verified : verify key signature txHash = true
      · rw [if_pos verified, embeds_cons_cons_of_rel (show Verifies verify txHash signature key from verified)]
        exact ih signatures
      · rw [if_neg verified, embeds_cons_cons_of_not_rel (show ¬ Verifies verify txHash signature key from verified)]
        exact ih (signature :: signatures)

end checkMultiSig

theorem checkMultiSig_iff_exists_strictMono (pubkey signatures : List Item) :
    checkMultiSig verify txHash pubkey signatures = true ↔
      ∃ f : Fin signatures.length → Fin pubkey.length, StrictMono f ∧
        ∀ i, verify (pubkey.get (f i)) (signatures.get i) txHash = true := by
  rw [checkMultiSig, checkMultiSig.go_iff_embeds, embeds_reverse_iff, embeds_iff_exists_strictMono]
  rfl

/-- Signatures in the other order than their keys do not pass. -/
example : checkMultiSig (fun key signature (_ : Unit) => key == signature) () [[2], [1]] [[1], [2]] = false := by
  decide

end VM

end CodeChain
