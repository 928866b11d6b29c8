import CodeChain.Stake.Handler

/-!
# Collecting votes

`VoteCollector` (`consensus/vote_collector.rs`) files every vote the worker
accepts under its round, in a `StepCollector` per round.  A step collector
remembers every message it has seen, the last message of each signer index, and
the signatures per voted block.  A new message from an index that already voted
in the round is reported as a `DoubleVote` of the previous message and the new
one.

Whatever the order of the votes and of the calls to `throw_out_old`, every step
collector only holds messages of its own round, and the message it keeps for an
index is one of them, signed at that index.  So the two messages of a report
are different messages of one round at one index.
-/

namespace CodeChain

namespace Consensus

open Stake

variable {Hash Schnorr : Type} [DecidableEq Hash] [DecidableEq Schnorr]

/-- `StepCollector`: the votes of one round. -/
structure StepCollector (Hash Schnorr : Type) where
  voted : AList fun _ : Nat => ConsensusMessage Hash Schnorr
  blockVotes : AList fun _ : Option Hash => AList fun _ : Nat => Schnorr
  messages : Finset (ConsensusMessage Hash Schnorr)

/-- The empty step collector, `StepCollector::default`. -/
def StepCollector.empty : StepCollector Hash Schnorr :=
  ⟨∅, ∅, ∅⟩

/-- `DoubleVote`: two votes by one signer index in one round. -/
structure DoubleVote (Hash Schnorr : Type) where
  authorIndex : Nat
  voteOne : ConsensusMessage Hash Schnorr
  voteTwo : ConsensusMessage Hash Schnorr

/-- `DoubleVote::to_action`: the report as a stake transaction. -/
def DoubleVote.toAction {Address Signature : Type} (double : DoubleVote Hash Schnorr) :
    Action Address Hash Signature Schnorr :=
  .reportDoubleVote double.voteOne double.voteTwo

namespace StepCollector

/-- `StepCollector::insert`: a message seen before changes nothing; a message
from an index that already voted replaces the kept one and is reported with
it; otherwise the signature is filed under the voted block. -/
def insert (collector : StepCollector Hash Schnorr) (message : ConsensusMessage Hash Schnorr) :
    StepCollector Hash Schnorr × Option (DoubleVote Hash Schnorr) :=
  if message ∈ collector.messages then (collector, none)
  else
    let messages := Insert.insert message collector.messages
    let voted := collector.voted.insert message.signerIndex message
    match collector.voted.lookup message.signerIndex with
    | some previous =>
        ({ collector with voted, messages }, some ⟨message.signerIndex, previous, message⟩)
    | none =>
        let votes := (collector.blockVotes.lookup message.blockHash).getD ∅
        let blockVotes :=
          collector.blockVotes.insert message.blockHash (votes.insert message.signerIndex message.signature)
        ({ voted, blockVotes, messages }, none)

/-- A step collector of round `round`: its messages are of that round, and the
message kept for an index is one of them, signed at that index. -/
structure Consistent (round : VoteStep) (collector : StepCollector Hash Schnorr) : Prop where
  round_eq : ∀ message ∈ collector.messages, message.round = round
  voted_mem : ∀ index message, collector.voted.lookup index = some message →
    message ∈ collector.messages ∧ message.signerIndex = index

omit [DecidableEq Hash] [DecidableEq Schnorr] in
theorem consistent_empty (round : VoteStep) :
    Consistent round (empty : StepCollector Hash Schnorr) :=
  ⟨by simp [empty], by simp [empty]⟩

/-- Inserting a message of the collector's round keeps it consistent. -/
theorem Consistent.insert {round : VoteStep} {collector : StepCollector Hash Schnorr}
    (consistent : Consistent round collector) {message : ConsensusMessage Hash Schnorr}
    (sameRound : message.round = round) : Consistent round (collector.insert message).1 := by
  have inserted : Consistent round
      ⟨collector.voted.insert message.signerIndex message, collector.blockVotes,
        Insert.insert message collector.messages⟩ := by
    constructor
    · intro other member
      rcases Finset.mem_insert.mp member with rfl | old
      · exact sameRound
      · exact consistent.round_eq other old
    · intro index other found
      by_cases fresh : index = message.signerIndex
      · subst fresh
        rw [AList.lookup_insert, Option.some_inj] at found
        subst found
        exact ⟨Finset.mem_insert_self _ _, rfl⟩
      · rw [AList.lookup_insert_ne fresh] at found
        obtain ⟨member, signed⟩ := consistent.voted_mem index other found
        exact ⟨Finset.mem_insert_of_mem member, signed⟩
  unfold StepCollector.insert
  split
  · exact consistent
  -- the two branches differ from `inserted` only in the signatures per block
  split
  · exact inserted
  · exact ⟨inserted.round_eq, inserted.voted_mem⟩

/-- A reported double vote is two different messages of the collector's round
by the reported index. -/
theorem Consistent.insert_double {round : VoteStep} {collector : StepCollector Hash Schnorr}
    (consistent : Consistent round collector) {message : ConsensusMessage Hash Schnorr}
    (sameRound : message.round = round) {double : DoubleVote Hash Schnorr}
    (reported : (collector.insert message).2 = some double) :
    double.voteOne ≠ double.voteTwo ∧ double.voteOne.round = double.voteTwo.round ∧
      double.voteOne.signerIndex = double.authorIndex ∧
      double.voteTwo.signerIndex = double.authorIndex := by
  unfold StepCollector.insert at reported
  split at reported
  · cases reported
  rename_i unseen
  split at reported
  · rename_i previous found
    cases reported
    obtain ⟨member, signed⟩ := consistent.voted_mem _ previous found
    -- the kept message was seen, the new one was not
    have different : previous ≠ message := fun same => unseen (same ▸ member)
    exact ⟨different, (consistent.round_eq previous member).trans sameRound.symm, signed, rfl⟩
  · cases reported

end StepCollector

/-- `VoteCollector`: a step collector per round, ordered by round. -/
structure VoteCollector (Hash Schnorr : Type) where
  votes : AList fun _ : VoteStep => StepCollector Hash Schnorr

namespace VoteCollector

/-- The round of `VoteStep::default`: height 0, view 0, `Propose`. -/
def defaultRound : VoteStep :=
  ⟨0, 0, .propose⟩

/-- `VoteCollector::default`: an empty collector at the default round, so that
the oldest round is always present. -/
def empty : VoteCollector Hash Schnorr :=
  ⟨(∅ : AList fun _ : VoteStep => StepCollector Hash Schnorr).insert defaultRound .empty⟩

/-- `VoteCollector::vote`: insert into the collector of the message's round,
created empty when missing. -/
def vote (collector : VoteCollector Hash Schnorr) (message : ConsensusMessage Hash Schnorr) :
    VoteCollector Hash Schnorr × Option (DoubleVote Hash Schnorr) :=
  let step := (collector.votes.lookup message.round).getD .empty
  let (step, double) := step.insert message
  (⟨collector.votes.insert message.round step⟩, double)

/-- `VoteCollector::throw_out_old`: drop the rounds before `voteRound`; at
least one round must remain. -/
def throwOutOld {ε : Type} (collector : VoteCollector Hash Schnorr) (voteRound : VoteStep) :
    Except (Fault ε) (VoteCollector Hash Schnorr) := do
  let old := collector.votes.keys.filter fun round => decide (round < voteRound)
  let kept := old.foldl (fun kept round => kept.erase round) collector.votes
  Fault.ensure (!kept.keys.isEmpty) "assertion failed: !new_collector.is_empty()"
  pure ⟨kept⟩

/-- Every step collector is consistent with the round it is filed under. -/
def Consistent (collector : VoteCollector Hash Schnorr) : Prop :=
  ∀ round step, collector.votes.lookup round = some step → step.Consistent round

omit [DecidableEq Hash] [DecidableEq Schnorr] in
theorem consistent_empty : Consistent (empty : VoteCollector Hash Schnorr) := by
  intro round step found
  by_cases default : round = defaultRound
  · subst default
    simp only [empty, AList.lookup_insert, Option.some_inj] at found
    subst found
    exact StepCollector.consistent_empty _
  · rw [empty, AList.lookup_insert_ne default] at found
    cases found

omit [DecidableEq Hash] [DecidableEq Schnorr] in
/-- The step collector a vote goes into is consistent with its round. -/
theorem Consistent.lookup_getD {collector : VoteCollector Hash Schnorr}
    (consistent : Consistent collector) (round : VoteStep) :
    ((collector.votes.lookup round).getD .empty).Consistent round := by
  cases found : collector.votes.lookup round with
  | none => exact StepCollector.consistent_empty round
  | some step => exact consistent round step found

theorem Consistent.vote {collector : VoteCollector Hash Schnorr} (consistent : Consistent collector)
    (message : ConsensusMessage Hash Schnorr) : Consistent (collector.vote message).1 := by
  intro round step found
  by_cases filed : round = message.round
  · subst filed
    simp only [VoteCollector.vote, AList.lookup_insert, Option.some_inj] at found
    subst found
    exact (consistent.lookup_getD message.round).insert rfl
  · simp only [VoteCollector.vote, AList.lookup_insert_ne filed] at found
    exact consistent round step found

omit [DecidableEq Hash] [DecidableEq Schnorr] in
/-- Erasing rounds keeps the others as they were. -/
theorem Consistent.foldl_erase {votes : AList fun _ : VoteStep => StepCollector Hash Schnorr}
    (consistent : Consistent ⟨votes⟩) (rounds : List VoteStep) :
    Consistent ⟨rounds.foldl (fun kept round => kept.erase round) votes⟩ := by
  induction rounds generalizing votes with
  | nil => exact consistent
  | cons first rest ih =>
      refine ih ?_
      intro round step found
      by_cases erased : round = first
      · subst erased
        simp at found
      · rw [AList.lookup_erase_ne erased] at found
        exact consistent round step found

omit [DecidableEq Hash] [DecidableEq Schnorr] in
theorem Consistent.throwOutOld {ε : Type} {collector kept : VoteCollector Hash Schnorr}
    (consistent : Consistent collector) {voteRound : VoteStep}
    (thrown : (collector.throwOutOld voteRound : Except (Fault ε) _) = .ok kept) :
    Consistent kept := by
  simp only [VoteCollector.throwOutOld, Fault.bind_eq_ok, Fault.pure_eq_ok] at thrown
  obtain ⟨-, -, rfl⟩ := thrown
  exact consistent.foldl_erase _

/-- The collectors a worker can hold: the default one, changed by votes and by
dropping old rounds. -/
inductive Reachable : VoteCollector Hash Schnorr → Prop
  | empty : Reachable empty
  | vote {collector} (message : ConsensusMessage Hash Schnorr) :
      Reachable collector → Reachable (collector.vote message).1
  | throwOutOld {collector kept} (voteRound : VoteStep) :
      Reachable collector → (collector.throwOutOld voteRound : Except (Fault Unit) _) = .ok kept →
      Reachable kept

theorem Reachable.consistent {collector : VoteCollector Hash Schnorr}
    (reachable : Reachable collector) : Consistent collector := by
  induction reachable with
  | empty => exact consistent_empty
  | vote message _ ih => exact ih.vote message
  | throwOutOld voteRound _ thrown ih => exact ih.throwOutOld thrown

/-- In every reachable collector, a reported double vote is two different
messages of one round by the reported index. -/
theorem Reachable.vote_double {collector : VoteCollector Hash Schnorr}
    (reachable : Reachable collector) {message : ConsensusMessage Hash Schnorr}
    {double : DoubleVote Hash Schnorr} (reported : (collector.vote message).2 = some double) :
    double.voteOne ≠ double.voteTwo ∧ double.voteOne.round = double.voteTwo.round ∧
      double.voteOne.signerIndex = double.authorIndex ∧
      double.voteTwo.signerIndex = double.authorIndex :=
  (reachable.consistent.lookup_getD message.round).insert_double rfl reported

end VoteCollector

end Consensus

end CodeChain
