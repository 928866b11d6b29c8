import CodeChain.Stake.ActionData

/-!
# Candidate priorities and validator weights

`reprioritize` moves candidates, one target address at a time, to the
high-priority end of the list.  When the candidates' addresses are distinct and
the targets are the addresses of a sublist of them, the loop ends with the
candidates left behind, in order, followed by the moved ones, in order: a
stable partition.  `renew_candidates` moves the renewed validators this way,
and `add_deposit` the one entry it raised or appended.  The entry is found by
key but moved by address, so a key whose address is another candidate's moves
that other candidate instead.
-/

namespace CodeChain

namespace Stake

variable {Address Public : Type} [DecidableEq Address] (publicToAddress : Public → Address)

namespace Candidates

/-- No two candidates of the list have the same address. -/
def DistinctAddresses (list : List (Candidate Public)) : Prop :=
  (list.map fun candidate => publicToAddress candidate.pubkey).Nodup

instance (list : List (Candidate Public)) : Decidable (DistinctAddresses publicToAddress list) :=
  inferInstanceAs (Decidable (List.Nodup _))

/-- Whether `renew_candidates` renews the candidate: its key is that of a
validator whose address was not inactive. -/
def renews [DecidableEq Public] (validators : List (Validator Public)) (inactiveValidators : List Address)
    (candidate : Candidate Public) : Bool :=
  decide (candidate.pubkey ∈ (validators.map fun validator => validator.pubkey).filter
    fun pubkey => publicToAddress pubkey ∉ inactiveValidators)

/-- The entry `add_deposit` leaves for the key: the key's candidate with the
deposit added, or a new candidate. -/
def deposited [DecidableEq Public] (list : List (Candidate Public)) (pubkey : Public)
    (quantity nominationEndsAt : UInt64) (metadata : List UInt8) : Candidate Public :=
  match list.find? fun candidate => candidate.pubkey = pubkey with
  | some candidate =>
      { candidate with
        deposit := candidate.deposit + quantity
        nominationEndsAt := max candidate.nominationEndsAt nominationEndsAt
        metadata := metadata }
  | none =>
      { pubkey := pubkey, deposit := quantity, nominationEndsAt := nominationEndsAt, metadata := metadata }

/-- What the map of `renew_candidates` does to one candidate: a renewed one
gets the new nomination end. -/
def renewal (renewing : Candidate Public → Bool) (nominationEndsAt : UInt64) (candidate : Candidate Public) :
    Candidate Public :=
  if renewing candidate then { candidate with nominationEndsAt := nominationEndsAt } else candidate

variable {publicToAddress} [DecidableEq Public]

omit [DecidableEq Address] [DecidableEq Public] in
theorem DistinctAddresses.nodup {list : List (Candidate Public)}
    (distinct : DistinctAddresses publicToAddress list) : list.Nodup :=
  distinct.of_map _

omit [DecidableEq Address] [DecidableEq Public] in
/-- The candidates of one address are one candidate. -/
theorem DistinctAddresses.eq_of_address_eq {list : List (Candidate Public)}
    (distinct : DistinctAddresses publicToAddress list) {first second : Candidate Public}
    (firstMember : first ∈ list) (secondMember : second ∈ list)
    (same : publicToAddress first.pubkey = publicToAddress second.pubkey) : first = second :=
  List.inj_on_of_nodup_map distinct firstMember secondMember same

omit [DecidableEq Address] [DecidableEq Public] in
theorem DistinctAddresses.not_mem_middle {before after : List (Candidate Public)} {entry : Candidate Public}
    (distinct : DistinctAddresses publicToAddress (before ++ entry :: after)) : entry ∉ before ++ after :=
  (List.nodup_cons.mp (List.nodup_middle.mp distinct.nodup)).1

omit [DecidableEq Address] [DecidableEq Public] in
/-- In a list of distinct addresses, no other candidate has the key of one. -/
theorem DistinctAddresses.pubkey_ne_middle {before after : List (Candidate Public)} {entry : Candidate Public}
    (distinct : DistinctAddresses publicToAddress (before ++ entry :: after)) {candidate : Candidate Public}
    (member : candidate ∈ before ++ after) : candidate.pubkey ≠ entry.pubkey := by
  intro same
  have inList : candidate ∈ before ++ entry :: after := by
    rcases List.mem_append.mp member with early | late
    · exact List.mem_append_left _ early
    · exact List.mem_append_right _ (List.mem_cons_of_mem _ late)
  have entryMember : entry ∈ before ++ entry :: after := List.mem_append_right before List.mem_cons_self
  have isEntry := distinct.eq_of_address_eq inList entryMember (congrArg publicToAddress same)
  exact distinct.not_mem_middle (isEntry ▸ member)

/-- The candidate of a target address is the one `take_first` finds. -/
theorem takeFirst_address {kept : List (Candidate Public)}
    (distinct : DistinctAddresses publicToAddress kept) {target : Candidate Public}
    (member : target ∈ kept) :
    ListRemove.takeFirst (fun candidate => publicToAddress candidate.pubkey = publicToAddress target.pubkey)
        kept = some (target, kept.erase target) := by
  refine ListRemove.takeFirst_of_unique member (by simp) fun other otherMember same => ?_
  exact distinct.eq_of_address_eq otherMember member (of_decide_eq_true same)

/-- The loop of `reprioritize` over the addresses of a sublist of the kept
candidates moves that sublist, in its order, behind what it had moved. -/
theorem foldlM_reprioritize {ε : Type} {moved kept : List (Candidate Public)}
    (distinct : DistinctAddresses publicToAddress kept) (sublist : moved.Sublist kept)
    (renewed : List (Candidate Public)) :
    ((moved.map fun candidate => publicToAddress candidate.pubkey).foldlM
      (fun (acc : List (Candidate Public) × List (Candidate Public)) target => do
        let (candidate, rest) ← Fault.expect
          (ListRemove.takeFirst (fun candidate => publicToAddress candidate.pubkey = target) acc.1)
          "Reprioritize target should be a candidate"
        pure (rest, acc.2 ++ [candidate]))
      (kept, renewed) : Except (Fault ε) _) =
      .ok (kept.filter fun candidate => candidate ∉ moved, renewed ++ moved) := by
  -- one target per turn: the induction is on the moved candidates, from the first
  induction moved generalizing kept renewed with
  | nil => simp [pure, Except.pure]
  | cons first rest ih =>
      have member : first ∈ kept := sublist.subset List.mem_cons_self
      have restSublist : rest.Sublist (kept.erase first) := by
        simpa using sublist.erase first
      have restDistinct : DistinctAddresses publicToAddress (kept.erase first) :=
        distinct.sublist (List.erase_sublist.map _)
      rw [List.map_cons, List.foldlM_cons]
      rw [takeFirst_address distinct member, Fault.expect_some, Fault.ok_bind]
      dsimp only
      rw [pure_bind, ih restDistinct restSublist]
      -- what is left after the first turn is the kept list without the first target
      rw [distinct.nodup.erase_eq_filter, List.filter_filter]
      congr 2
      · refine List.filter_congr fun candidate _ => ?_
        -- the kept list has no repeats, so erasing the first target filters it out
        rw [Bool.and_comm]
        simp only [List.mem_cons, not_or, Bool.decide_and, decide_not]
        rfl
      · simp

omit [DecidableEq Address] [DecidableEq Public] in
/-- Whether the addresses are distinct depends on the keys alone. -/
theorem distinctAddresses_congr {list list' : List (Candidate Public)}
    (sameKeys : list'.map Candidate.pubkey = list.map Candidate.pubkey) :
    DistinctAddresses publicToAddress list' ↔ DistinctAddresses publicToAddress list := by
  have keys : ∀ list : List (Candidate Public),
      (list.map fun candidate => publicToAddress candidate.pubkey) =
        (list.map Candidate.pubkey).map publicToAddress := fun list => by
    simp
  rw [DistinctAddresses, DistinctAddresses, keys, keys, sameKeys]

/-- `reprioritize` on the addresses of a sublist moves the sublist, in order, to
the high-priority end and keeps the rest in order. -/
theorem reprioritize_sublist {ε : Type} {list moved : List (Candidate Public)}
    (distinct : DistinctAddresses publicToAddress list) (sublist : moved.Sublist list) :
    (reprioritize publicToAddress { list := list } (moved.map fun candidate => publicToAddress candidate.pubkey) :
      Except (Fault ε) _) =
      .ok { list := list.filter (fun candidate => candidate ∉ moved) ++ moved } := by
  rw [reprioritize, foldlM_reprioritize distinct sublist [], Fault.ok_bind, List.nil_append]
  rfl

/-- Moving one candidate: the others close up behind it. -/
theorem reprioritize_middle {ε : Type} {before after : List (Candidate Public)} {entry : Candidate Public}
    (distinct : DistinctAddresses publicToAddress (before ++ entry :: after)) :
    (reprioritize publicToAddress { list := before ++ entry :: after } [publicToAddress entry.pubkey] :
      Except (Fault ε) _) = .ok { list := before ++ after ++ [entry] } := by
  have member : entry ∈ before ++ entry :: after := List.mem_append_right before List.mem_cons_self
  rw [show [publicToAddress entry.pubkey] = [entry].map fun candidate => publicToAddress candidate.pubkey from rfl,
    reprioritize_sublist distinct (List.singleton_sublist.mpr member)]
  have others : ∀ candidate ∈ before ++ after, decide (candidate ∉ [entry]) = true := by
    intro candidate member
    simpa using ne_of_mem_of_not_mem member distinct.not_mem_middle
  rw [List.filter_append, List.filter_cons_of_neg (by simp), ← List.filter_append,
    List.filter_eq_self.mpr others]

omit [DecidableEq Address] in
/-- Without the candidate of a key, a list of distinct addresses closes up
around it. -/
theorem filter_pubkey_ne_middle {before after : List (Candidate Public)} {entry : Candidate Public}
    (distinct : DistinctAddresses publicToAddress (before ++ entry :: after)) :
    (before ++ entry :: after).filter (fun candidate => candidate.pubkey ≠ entry.pubkey) = before ++ after := by
  have others : ∀ candidate ∈ before ++ after, decide (candidate.pubkey ≠ entry.pubkey) = true :=
    fun candidate member => decide_eq_true (distinct.pubkey_ne_middle member)
  rw [List.filter_append, List.filter_cons_of_neg (by simp), ← List.filter_append,
    List.filter_eq_self.mpr others]

section Renewal

variable {renewing : Candidate Public → Bool} {nominationEndsAt : UInt64}

omit [DecidableEq Address] [DecidableEq Public] in
@[simp]
theorem pubkey_renewal (candidate : Candidate Public) :
    (renewal renewing nominationEndsAt candidate).pubkey = candidate.pubkey := by
  unfold renewal
  split <;> rfl

variable (keyOnly : ∀ candidate : Candidate Public,
  renewing { candidate with nominationEndsAt := nominationEndsAt } = renewing candidate)
include keyOnly

omit [DecidableEq Address] [DecidableEq Public] in
/-- The renewal is seen by the test of renewal, which reads the key only. -/
theorem renewing_renewal (candidate : Candidate Public) :
    renewing (renewal renewing nominationEndsAt candidate) = renewing candidate := by
  unfold renewal
  split
  · exact keyOnly candidate
  · rfl

omit [DecidableEq Address] [DecidableEq Public] in
/-- What the renewal map moves: the renewed candidates, in order, with the new
nomination end. -/
theorem filter_map_renewal (list : List (Candidate Public)) :
    (list.map (renewal renewing nominationEndsAt)).filter renewing =
      (list.filter renewing).map fun candidate => { candidate with nominationEndsAt := nominationEndsAt } := by
  have sameTest : renewing ∘ renewal renewing nominationEndsAt = renewing :=
    funext (renewing_renewal keyOnly)
  rw [List.filter_map, sameTest]
  refine List.map_congr_left fun candidate member => ?_
  rw [renewal, if_pos (List.mem_filter.mp member).2]

omit [DecidableEq Address] in
/-- What the renewal map leaves behind: the candidates not renewed, unchanged. -/
theorem filter_not_mem_renewal (list : List (Candidate Public)) :
    (list.map (renewal renewing nominationEndsAt)).filter
        (fun candidate => candidate ∉ (list.map (renewal renewing nominationEndsAt)).filter renewing) =
      list.filter fun candidate => !renewing candidate := by
  have staying : ∀ candidate ∈ list.map (renewal renewing nominationEndsAt),
      decide (candidate ∉ (list.map (renewal renewing nominationEndsAt)).filter renewing) =
        !renewing candidate := by
    intro candidate member
    simp [List.mem_filter, member]
  have sameTest : (fun candidate => !renewing candidate) ∘ renewal renewing nominationEndsAt =
      fun candidate => !renewing candidate :=
    funext fun candidate => by simp [renewing_renewal keyOnly]
  rw [List.filter_congr staying, List.filter_map, sameTest]
  conv_rhs => rw [← List.map_id (list.filter fun candidate => !renewing candidate)]
  refine List.map_congr_left fun candidate member => ?_
  rw [renewal, if_neg (by simpa using (List.mem_filter.mp member).2)]
  rfl

/-- The move at the end of `renew_candidates`, for a test of renewal that reads
the key only. -/
theorem reprioritize_renewal {ε : Type} {list : List (Candidate Public)}
    (distinct : DistinctAddresses publicToAddress list) :
    (reprioritize publicToAddress { list := list.map (renewal renewing nominationEndsAt) }
      (((list.map (renewal renewing nominationEndsAt)).filter renewing).map
        fun candidate => publicToAddress candidate.pubkey) : Except (Fault ε) _) =
      .ok { list :=
              list.filter (fun candidate => !renewing candidate) ++
                (list.filter renewing).map fun candidate =>
                  { candidate with nominationEndsAt := nominationEndsAt } } := by
  have keys : (list.map (renewal renewing nominationEndsAt)).map Candidate.pubkey = list.map Candidate.pubkey := by
    simp
  rw [reprioritize_sublist ((distinctAddresses_congr keys).mpr distinct) List.filter_sublist,
    filter_not_mem_renewal keyOnly, filter_map_renewal keyOnly]

end Renewal

/-- `renew_candidates` keeps the candidates it does not renew, in order, and
moves the renewed ones, in order and with the new nomination end, to the
high-priority end. -/
theorem renewCandidates_eq {ε : Type} (candidates : Candidates Public) (validators : List (Validator Public))
    (nominationEndsAt : UInt64) (inactiveValidators : List Address) (banned : Finset Address)
    (distinct : DistinctAddresses publicToAddress candidates.list)
    (notBanned : ∀ candidate ∈ candidates.list,
      renews publicToAddress validators inactiveValidators candidate = true → publicToAddress candidate.pubkey ∉ banned) :
    (renewCandidates publicToAddress candidates validators nominationEndsAt inactiveValidators banned :
      Except (Fault ε) _) =
      .ok { list :=
              candidates.list.filter
                  (fun candidate => !renews publicToAddress validators inactiveValidators candidate) ++
                (candidates.list.filter (renews publicToAddress validators inactiveValidators)).map
                  fun candidate => { candidate with nominationEndsAt := nominationEndsAt } } := by
  rw [renewCandidates]
  dsimp only
  -- no renewed candidate is banned, so the map returns
  rw [Fault.mapM_eq_ok_map (renewal (renews publicToAddress validators inactiveValidators) nominationEndsAt) ?each,
    Fault.ok_bind]
  · exact reprioritize_renewal (fun _ => rfl) distinct
  · intro candidate member
    by_cases chosen : renews publicToAddress validators inactiveValidators candidate = true
    · have allowed := notBanned candidate member chosen
      rw [renewal, if_pos chosen]
      simp only [renews] at chosen
      simp only [chosen, if_true]
      rw [Fault.ensure, if_pos (decide_eq_true allowed)]
      rfl
    · rw [renewal, if_neg chosen]
      simp only [renews] at chosen
      simp only [chosen]
      rfl

/-- `add_deposit` moves the key's entry, raised or new, to the high-priority end
and keeps the other candidates in order, provided that no candidate with
another key has the key's address. -/
theorem addDeposit_eq {ε : Type} (candidates : Candidates Public) (pubkey : Public)
    (quantity nominationEndsAt : UInt64) (metadata : List UInt8)
    (distinct : DistinctAddresses publicToAddress candidates.list)
    (ownAddress : ∀ candidate ∈ candidates.list,
      publicToAddress candidate.pubkey = publicToAddress pubkey → candidate.pubkey = pubkey) :
    (addDeposit publicToAddress candidates pubkey quantity nominationEndsAt metadata : Except (Fault ε) _) =
      .ok { list :=
              candidates.list.filter (fun candidate => candidate.pubkey ≠ pubkey) ++
                [deposited candidates.list pubkey quantity nominationEndsAt metadata] } := by
  obtain ⟨list⟩ := candidates
  dsimp only at distinct ownAddress ⊢
  rw [addDeposit, deposited]
  dsimp only
  cases found : list.find? fun candidate => candidate.pubkey = pubkey with
  | none =>
    -- a new entry is appended, and moving it leaves it where it is
    have absent : ∀ candidate ∈ list, ¬ candidate.pubkey = pubkey := by
      simpa using List.find?_eq_none.mp found
    have freshDistinct :
        DistinctAddresses publicToAddress (list ++ [⟨pubkey, quantity, nominationEndsAt, metadata⟩]) := by
      rw [DistinctAddresses, List.map_append, List.map_singleton, List.nodup_append]
      refine ⟨distinct, List.nodup_singleton _, ?_⟩
      simp only [List.mem_map, List.mem_singleton]
      rintro _ ⟨candidate, member, rfl⟩ _ rfl same
      exact absent candidate member (ownAddress candidate member same)
    rw [List.findIdx?_eq_none_iff.mpr (by simpa using absent)]
    dsimp only
    rw [reprioritize_middle freshDistinct, List.append_nil,
      List.filter_eq_self.mpr (by simpa using absent)]
  | some entry =>
    -- the entry is raised in place, then moved
    obtain ⟨keyed, before, after, rfl, earlier⟩ := List.find?_eq_some_iff_append.mp found
    obtain rfl : entry.pubkey = pubkey := of_decide_eq_true keyed
    have position : (before ++ entry :: after).findIdx? (fun candidate => candidate.pubkey = entry.pubkey) =
        some before.length := by
      rw [List.findIdx?_append, List.findIdx?_eq_none_iff.mpr (by simpa using earlier), List.findIdx?_cons,
        if_pos keyed]
      simp
    have modified : ∀ raise : Candidate Public → Candidate Public,
        (before ++ entry :: after).modify before.length raise = before ++ raise entry :: after := by
      intro raise
      rw [List.modify_eq_take_cons_drop (by simp)]
      simp
    rw [position]
    dsimp only
    rw [modified]
    have raisedDistinct : DistinctAddresses publicToAddress (before ++
        ⟨entry.pubkey, entry.deposit + quantity, max entry.nominationEndsAt nominationEndsAt, metadata⟩ :: after) :=
      (distinctAddresses_congr (by simp)).mpr distinct
    rw [reprioritize_middle raisedDistinct, filter_pubkey_ne_middle distinct]

theorem reprioritize_stable_partition {ε : Type} (candidates : Candidates Public)
    (distinct : DistinctAddresses publicToAddress candidates.list) :
    (∀ (validators : List (Validator Public)) (nominationEndsAt : UInt64) (inactiveValidators : List Address)
        (banned : Finset Address),
      (∀ candidate ∈ candidates.list, renews publicToAddress validators inactiveValidators candidate = true →
        publicToAddress candidate.pubkey ∉ banned) →
      (renewCandidates publicToAddress candidates validators nominationEndsAt inactiveValidators banned :
        Except (Fault ε) _) =
        .ok { list :=
                candidates.list.filter
                  (fun candidate => !renews publicToAddress validators inactiveValidators candidate) ++
                  (candidates.list.filter (renews publicToAddress validators inactiveValidators)).map
                    fun candidate => { candidate with nominationEndsAt := nominationEndsAt } }) ∧
    (∀ (pubkey : Public) (quantity nominationEndsAt : UInt64) (metadata : List UInt8),
      (∀ candidate ∈ candidates.list,
        publicToAddress candidate.pubkey = publicToAddress pubkey → candidate.pubkey = pubkey) →
      (addDeposit publicToAddress candidates pubkey quantity nominationEndsAt metadata : Except (Fault ε) _) =
        .ok { list :=
                candidates.list.filter (fun candidate => candidate.pubkey ≠ pubkey) ++
                  [deposited candidates.list pubkey quantity nominationEndsAt metadata] }) :=
  ⟨fun validators nominationEndsAt inactiveValidators banned notBanned =>
      renewCandidates_eq candidates validators nominationEndsAt inactiveValidators banned distinct notBanned,
    fun pubkey quantity nominationEndsAt metadata ownAddress =>
      addDeposit_eq candidates pubkey quantity nominationEndsAt metadata distinct ownAddress⟩

/-- Two candidates whose keys are their addresses. -/
def keyedPair : Candidates ℕ :=
  { list := [⟨1, 10, 5, []⟩, ⟨2, 20, 5, []⟩] }

theorem reprioritize_stable_partition_keyedPair :
    (∀ (validators : List (Validator ℕ)) (nominationEndsAt : UInt64) (inactiveValidators : List ℕ)
        (banned : Finset ℕ),
      (∀ candidate ∈ keyedPair.list,
        renews (fun pubkey : ℕ => pubkey) validators inactiveValidators candidate = true → candidate.pubkey ∉ banned) →
      (renewCandidates (fun pubkey : ℕ => pubkey) keyedPair validators nominationEndsAt inactiveValidators banned :
        Except (Fault Unit) _) =
        .ok { list :=
                keyedPair.list.filter
                    (fun candidate => !renews (fun pubkey : ℕ => pubkey) validators inactiveValidators candidate) ++
                  (keyedPair.list.filter (renews (fun pubkey : ℕ => pubkey) validators inactiveValidators)).map
                    fun candidate => { candidate with nominationEndsAt := nominationEndsAt } }) ∧
    (∀ (pubkey : ℕ) (quantity nominationEndsAt : UInt64) (metadata : List UInt8),
      (∀ candidate ∈ keyedPair.list, candidate.pubkey = pubkey → candidate.pubkey = pubkey) →
      (addDeposit (fun pubkey : ℕ => pubkey) keyedPair pubkey quantity nominationEndsAt metadata :
        Except (Fault Unit) _) =
        .ok { list :=
                keyedPair.list.filter (fun candidate => candidate.pubkey ≠ pubkey) ++
                  [deposited keyedPair.list pubkey quantity nominationEndsAt metadata] }) :=
  reprioritize_stable_partition keyedPair (by decide)

/-- A candidate whose key is its address, still a validator, and banned:
renewing it panics rather than moving it. -/
theorem reprioritize_stable_partition_fails :
    DistinctAddresses (fun pubkey : ℕ => pubkey) [⟨2, 10, 5, []⟩] ∧
      Fault.Panics (renewCandidates (fun pubkey : ℕ => pubkey) { list := [⟨2, 10, 5, []⟩] }
        [⟨10, 10, 10, 2⟩] 9 [] {2} : Except (Fault Unit) _) :=
  ⟨by decide, ⟨"is banned address", rfl⟩⟩

end Candidates

/-! ### Validator weights -/

section Weights

variable [Ord Public]

/-- The derived `Ord` of `Validator` as one comparator: weight, then
delegation, then deposit, then key. -/
@[reducible]
def Validator.compareFields : Validator Public → Validator Public → Ordering :=
  compareLex (compareOn Validator.weight) <| compareLex (compareOn Validator.delegation) <|
    compareLex (compareOn Validator.deposit) (compareOn Validator.pubkey)

theorem Validator.le_iff_compareFields (first second : Validator Public) :
    Validator.le first second = true ↔ Validator.compareFields first second ≠ .gt := by
  rw [Validator.le, bne_iff_ne]
  rfl

/-! With a lawful order on keys, as the derived order of `H512` is, the order
of validators is total and transitive, so the sort leaves them ascending. -/

theorem Validator.le_total [Std.TransOrd Public] (first second : Validator Public) :
    Validator.le first second = true ∨ Validator.le second first = true := by
  simp only [Validator.le_iff_compareFields]
  by_cases above : Validator.compareFields first second = .gt
  · refine .inr fun below => ?_
    rw [Std.OrientedCmp.gt_iff_lt.mp above] at below
    cases below
  · exact .inl above

theorem Validator.le_trans [Std.TransOrd Public] {first second third : Validator Public}
    (low : Validator.le first second = true) (high : Validator.le second third = true) :
    Validator.le first third = true := by
  rw [Validator.le_iff_compareFields] at *
  exact Std.TransCmp.le_trans low high

/-- `sort_unstable` by the derived `Ord` leaves the validators ascending. -/
theorem pairwise_insertionSort_le [Std.TransOrd Public] (validators : List (Validator Public)) :
    (validators.insertionSort fun first second => Validator.le first second).Pairwise
      fun first second => Validator.le first second = true := by
  have : Std.Total fun first second : Validator Public => Validator.le first second = true :=
    ⟨Validator.le_total⟩
  have : IsTrans (Validator Public) fun first second => Validator.le first second = true :=
    ⟨fun _ _ _ => Validator.le_trans⟩
  exact List.pairwise_insertionSort _ validators

omit [Ord Public] in
theorem toNat_saturatingSub (value amount : UInt64) :
    (saturatingSub value amount).toNat = value.toNat - amount.toNat := by
  unfold saturatingSub
  split
  · next within => rw [UInt64.toNat_sub_of_le _ _ within]
  · next exceeds =>
      rw [UInt64.not_le, UInt64.lt_iff_toNat_lt] at exceeds
      simp only [UInt64.toNat_zero]
      omega

/-- What `update_weight` never changes: the delegation, the deposit and the key. -/
def Validator.fields (validator : Validator Public) : UInt64 × UInt64 × Public :=
  (validator.delegation, validator.deposit, validator.pubkey)

/-- The validator with `loss` taken off its weight, stopping at zero. -/
def Validator.lowered (loss : ℕ) (validator : Validator Public) : Validator Public :=
  { validator with weight := UInt64.ofNat (validator.weight.toNat - loss) }

/-- The weights after a block, before sorting, as `Dynamic-Validator.md`
describes them: the author's validator loses the minimum delegation, each one
ranked above it twice that, and those below keep theirs. -/
def penalized (minDelegation : ℕ) (below : List (Validator Public)) (author : Validator Public)
    (above : List (Validator Public)) : List (Validator Public) :=
  below ++ author.lowered minDelegation :: above.map (Validator.lowered (2 * minDelegation))

/-- Once every weight is zero, every validator weighs its delegation again. -/
def renewWeights (validators : List (Validator Public)) : List (Validator Public) :=
  if validators.all fun validator => validator.weight = 0 then
    validators.map fun validator => { validator with weight := validator.delegation }
  else validators

namespace Validators

/-- The stored validators as `update_weight` expects and leaves them: at least
one, in ascending order, none weighing more than its delegation. -/
structure WellFormed (validators : Validators Public) : Prop where
  nonempty : validators.list ≠ []
  sorted : validators.list.Pairwise fun first second => Validator.le first second = true
  bounded : ∀ validator ∈ validators.list, validator.weight ≤ validator.delegation

variable {publicToAddress}

omit [Ord Public] in
theorem saturatingSub_le (value amount : UInt64) : saturatingSub value amount ≤ value := by
  rw [UInt64.le_iff_toNat_le, toNat_saturatingSub]
  omega

omit [Ord Public] in
/-- A saturating loss is a loss of the amount's value, stopping at zero. -/
theorem saturatingSub_weight (validator : Validator Public) (amount : UInt64) :
    { validator with weight := saturatingSub validator.weight amount } = validator.lowered amount.toNat := by
  rw [Validator.lowered]
  congr 1
  apply UInt64.toNat_inj.mp
  rw [toNat_saturatingSub, UInt64.toNat_ofNat']
  have := UInt64.toNat_lt validator.weight
  omega

omit [Ord Public] in
/-- The loop touches weights only. -/
theorem map_fields_lowerWeights (blockAuthor : Address) (minDelegation : UInt64)
    (validators : List (Validator Public)) :
    (lowerWeights publicToAddress blockAuthor minDelegation validators).map Validator.fields =
      validators.map Validator.fields := by
  induction validators with
  | nil => rfl
  | cons validator rest ih =>
      unfold lowerWeights
      split
      · rfl
      · rw [List.map_cons, ih]
        rfl

omit [Ord Public] in
/-- The loop only lowers weights. -/
theorem weight_le_of_mem_lowerWeights {blockAuthor : Address} {minDelegation : UInt64}
    {validators : List (Validator Public)} {validator : Validator Public}
    (member : validator ∈ lowerWeights publicToAddress blockAuthor minDelegation validators) :
    ∃ original ∈ validators, original.fields = validator.fields ∧ validator.weight ≤ original.weight := by
  induction validators with
  | nil => cases member
  | cons first rest ih =>
      unfold lowerWeights at member
      -- the first one is lowered; after the author the rest are untouched
      split at member
      · rcases List.mem_cons.mp member with rfl | later
        · exact ⟨first, List.mem_cons_self, rfl, saturatingSub_le _ _⟩
        · exact ⟨validator, List.mem_cons_of_mem _ later, rfl, UInt64.le_refl _⟩
      · rcases List.mem_cons.mp member with rfl | later
        · exact ⟨first, List.mem_cons_self, rfl, saturatingSub_le _ _⟩
        · obtain ⟨original, originalMember, same, lighter⟩ := ih later
          exact ⟨original, List.mem_cons_of_mem _ originalMember, same, lighter⟩

omit [Ord Public] in
/-- From the top down to the author's highest validator, those above lose the
doubled minimum, the author's loses the minimum, and the loop stops there. -/
theorem lowerWeights_append_cons {blockAuthor : Address} {minDelegation : UInt64}
    {above : List (Validator Public)} {author : Validator Public} (rest : List (Validator Public))
    (authored : publicToAddress author.pubkey = blockAuthor)
    (highest : ∀ validator ∈ above, publicToAddress validator.pubkey ≠ blockAuthor) :
    lowerWeights publicToAddress blockAuthor minDelegation (above ++ author :: rest) =
      above.map (fun validator => { validator with weight := saturatingSub validator.weight (minDelegation * 2) }) ++
        { author with weight := saturatingSub author.weight minDelegation } :: rest := by
  induction above with
  | nil => simp [lowerWeights, authored]
  | cons validator above ih =>
      rw [List.cons_append, lowerWeights, if_neg (highest validator List.mem_cons_self),
        ih fun other member => highest other (List.mem_cons_of_mem _ member)]
      rfl

omit [Ord Public] in
/-- The loop of `update_weight`, run from the top of the stored list, is the
lowering `Dynamic-Validator.md` describes while twice the minimum delegation
fits in a `u64`. -/
theorem reverse_lowerWeights_reverse {blockAuthor : Address} {minDelegation : UInt64}
    {below above : List (Validator Public)} {author : Validator Public}
    (authored : publicToAddress author.pubkey = blockAuthor)
    (highest : ∀ validator ∈ above, publicToAddress validator.pubkey ≠ blockAuthor)
    (fits : 2 * minDelegation.toNat < 2 ^ 64) :
    (lowerWeights publicToAddress blockAuthor minDelegation (below ++ author :: above).reverse).reverse =
      penalized minDelegation.toNat below author above := by
  have doubled : (minDelegation * 2).toNat = 2 * minDelegation.toNat := by
    rw [UInt64.toNat_mul]
    simp only [UInt64.reduceToNat]
    omega
  rw [List.reverse_append, List.reverse_cons, List.append_assoc, List.singleton_append,
    lowerWeights_append_cons _ authored fun validator member => highest validator (List.mem_reverse.mp member),
    List.reverse_append, List.reverse_cons, List.reverse_reverse, ← List.map_reverse, List.reverse_reverse,
    List.append_assoc, List.singleton_append, penalized, saturatingSub_weight, ← doubled]
  congr 2
  exact List.map_congr_left fun validator _ => saturatingSub_weight validator _

omit [Ord Public] in
theorem exists_minDelegation_eq_ok {ε : Type} {validators : Validators Public} (nonempty : validators.list ≠ []) :
    ∃ minDelegation, (validators.minDelegation : Except (Fault ε) UInt64) = .ok minDelegation := by
  cases least : (validators.list.map fun validator => validator.delegation).min? with
  | none => exact absurd (List.map_eq_nil_iff.mp (List.min?_eq_none_iff.mp least)) nonempty
  | some minDelegation => exact ⟨minDelegation, by rw [Validators.minDelegation, least, Fault.expect_some]⟩

/-- `update_weight` sorts the renewal of what its loop lowered. -/
theorem updateWeight_eq {ε : Type} (validators : Validators Public) (blockAuthor : Address)
    {minDelegation : UInt64} (minimum : (validators.minDelegation : Except (Fault ε) UInt64) = .ok minDelegation) :
    (updateWeight publicToAddress validators blockAuthor : Except (Fault ε) _) =
      .ok { list :=
              (renewWeights
                  (lowerWeights publicToAddress blockAuthor minDelegation validators.list.reverse).reverse).insertionSort
                fun first second => Validator.le first second } := by
  rw [updateWeight, minimum, Fault.ok_bind]
  rfl

end Validators

omit [Ord Public] in
theorem map_fields_renewWeights (validators : List (Validator Public)) :
    (renewWeights validators).map Validator.fields = validators.map Validator.fields := by
  unfold renewWeights
  split
  · rw [List.map_map]
    rfl
  · rfl

omit [Ord Public] in
theorem bounded_renewWeights {validators : List (Validator Public)}
    (bounded : ∀ validator ∈ validators, validator.weight ≤ validator.delegation) :
    ∀ validator ∈ renewWeights validators, validator.weight ≤ validator.delegation := by
  unfold renewWeights
  split
  · intro validator member
    obtain ⟨original, -, rfl⟩ := List.mem_map.mp member
    exact UInt64.le_refl _
  · exact bounded

omit [Ord Public] in
/-- After the renewal some weight is nonzero, unless every delegation is zero. -/
theorem renewWeights_not_all_zero (validators : List (Validator Public)) :
    (∃ validator ∈ renewWeights validators, validator.weight ≠ 0) ∨
      ∀ validator ∈ renewWeights validators, validator.delegation = 0 := by
  unfold renewWeights
  split
  · -- every weight is its delegation again
    by_cases someDelegation : ∃ validator ∈ validators, validator.delegation ≠ 0
    · obtain ⟨validator, member, nonzero⟩ := someDelegation
      exact .inl ⟨_, List.mem_map_of_mem member, nonzero⟩
    · refine .inr fun validator member => ?_
      obtain ⟨original, originalMember, rfl⟩ := List.mem_map.mp member
      exact not_not.mp fun nonzero => someDelegation ⟨original, originalMember, nonzero⟩
  · next notAllZero =>
      obtain ⟨validator, member, nonzero⟩ := List.all_eq_false.mp (Bool.eq_false_iff.mpr notAllZero)
      exact .inl ⟨validator, member, by simpa using nonzero⟩

namespace Validators

variable [Std.TransOrd Public]

/-- One block: from well-formed validators `update_weight` returns, and what it
returns is well formed, has the same delegations, deposits and keys, and some
nonzero weight unless every delegation is zero. -/
theorem updateWeight_wellFormed {ε : Type} {validators : Validators Public} (wellFormed : validators.WellFormed)
    (blockAuthor : Address) :
    ∃ updated, (updateWeight publicToAddress validators blockAuthor : Except (Fault ε) _) = .ok updated ∧
      updated.WellFormed ∧ (updated.list.map Validator.fields).Perm (validators.list.map Validator.fields) ∧
      ((∃ validator ∈ updated.list, validator.weight ≠ 0) ∨
        ∀ validator ∈ updated.list, validator.delegation = 0) := by
  obtain ⟨minDelegation, minimum⟩ :
      ∃ minDelegation, (validators.minDelegation : Except (Fault ε) UInt64) = .ok minDelegation :=
    exists_minDelegation_eq_ok wellFormed.nonempty
  set lowered := (lowerWeights publicToAddress blockAuthor minDelegation validators.list.reverse).reverse
  have sorting := List.perm_insertionSort (fun first second => Validator.le first second = true)
    (renewWeights lowered)
  have fields : (renewWeights lowered).map Validator.fields = validators.list.map Validator.fields := by
    rw [map_fields_renewWeights, List.map_reverse, map_fields_lowerWeights, List.map_reverse, List.reverse_reverse]
  -- the loop only lowers weights, and the renewal raises them to the delegation
  have bounded : ∀ validator ∈ lowered, validator.weight ≤ validator.delegation := by
    intro validator member
    obtain ⟨original, originalMember, same, lighter⟩ := weight_le_of_mem_lowerWeights (List.mem_reverse.mp member)
    have sameDelegation : validator.delegation = original.delegation := (congrArg Prod.fst same).symm
    rw [sameDelegation]
    exact UInt64.le_trans lighter (wellFormed.bounded original (List.mem_reverse.mp originalMember))
  have fieldsPerm := (sorting.map Validator.fields).trans (List.Perm.of_eq fields)
  refine ⟨_, updateWeight_eq validators blockAuthor minimum, ⟨?nonempty, pairwise_insertionSort_le _, ?bounded⟩,
    fieldsPerm, ?notAllZero⟩
  · intro empty
    have lengths := fieldsPerm.length_eq
    rw [List.length_map, List.length_map] at lengths
    apply wellFormed.nonempty
    rw [← List.length_eq_zero_iff, ← lengths]
    exact List.length_eq_zero_iff.mpr empty
  · exact fun validator member => bounded_renewWeights bounded validator (sorting.mem_iff.mp member)
  · rcases renewWeights_not_all_zero lowered with ⟨validator, member, nonzero⟩ | zero
    · exact .inl ⟨validator, sorting.mem_iff.mpr member, nonzero⟩
    · exact .inr fun validator member => zero validator (sorting.mem_iff.mp member)

theorem updateWeight_penalizes {ε : Type} (validators : Validators Public) (blockAuthor : Address)
    (wellFormed : validators.WellFormed) {below above : List (Validator Public)} {author : Validator Public}
    (split : validators.list = below ++ author :: above) (authored : publicToAddress author.pubkey = blockAuthor)
    (highest : ∀ validator ∈ above, publicToAddress validator.pubkey ≠ blockAuthor)
    {minDelegation : UInt64} (minimum : (validators.minDelegation : Except (Fault ε) UInt64) = .ok minDelegation)
    (fits : 2 * minDelegation.toNat < 2 ^ 64) :
    ∃ updated, (updateWeight publicToAddress validators blockAuthor : Except (Fault ε) _) = .ok updated ∧
      updated.WellFormed ∧ (updated.list.map Validator.fields).Perm (validators.list.map Validator.fields) ∧
      ((∃ validator ∈ updated.list, validator.weight ≠ 0) ∨
        ∀ validator ∈ updated.list, validator.delegation = 0) ∧
      updated.list.Perm (renewWeights (penalized minDelegation.toNat below author above)) := by
  obtain ⟨updated, returned, updatedWellFormed, fieldsPerm, notAllZero⟩ :=
    (updateWeight_wellFormed publicToAddress wellFormed blockAuthor :
      ∃ updated, (updateWeight publicToAddress validators blockAuthor : Except (Fault ε) _) = .ok updated ∧ _)
  refine ⟨updated, returned, updatedWellFormed, fieldsPerm, notAllZero, ?_⟩
  rw [updateWeight_eq validators blockAuthor minimum, Except.ok.injEq] at returned
  subst returned
  rw [split, reverse_lowerWeights_reverse authored highest fits]
  exact List.perm_insertionSort _ _

/-- Block after block over a term, `update_weight` returns and the validators
stay well formed. -/
theorem foldlM_updateWeight_wellFormed {ε : Type} (authors : List Address) {validators : Validators Public}
    (wellFormed : validators.WellFormed) :
    ∃ updated, (authors.foldlM (fun validators blockAuthor => updateWeight publicToAddress validators blockAuthor)
      validators : Except (Fault ε) _) = .ok updated ∧ updated.WellFormed := by
  -- the invariant of one block carries the run, block by block
  induction authors generalizing validators with
  | nil => exact ⟨validators, rfl, wellFormed⟩
  | cons blockAuthor rest ih =>
      obtain ⟨next, returned, nextWellFormed, -⟩ :=
        (updateWeight_wellFormed publicToAddress wellFormed blockAuthor :
          ∃ next, (updateWeight publicToAddress validators blockAuthor : Except (Fault ε) _) = .ok next ∧ _)
      rw [List.foldlM_cons, returned, Fault.ok_bind]
      exact ih nextWellFormed

/-- Two validators whose keys are their addresses, the lower one the author's. -/
def authoredPair : Validators ℕ :=
  { list := [⟨5, 5, 1, 1⟩, ⟨7, 7, 1, 2⟩] }

/-- A term of three blocks by the validators of `authoredPair`. -/
theorem foldlM_updateWeight_wellFormed_authoredPair :
    authoredPair.WellFormed ∧
      ∃ updated, ([1, 2, 1].foldlM (fun validators blockAuthor =>
          updateWeight (fun pubkey : ℕ => pubkey) validators blockAuthor) authoredPair :
            Except (Fault Unit) _) = .ok updated ∧ updated.WellFormed :=
  have wellFormed : authoredPair.WellFormed := ⟨List.cons_ne_nil _ _, by decide, by decide⟩
  ⟨wellFormed, foldlM_updateWeight_wellFormed (fun pubkey : ℕ => pubkey) [1, 2, 1] wellFormed⟩

theorem updateWeight_penalizes_authoredPair :
    ∃ updated, (updateWeight (fun pubkey : ℕ => pubkey) authoredPair 1 : Except (Fault Unit) _) = .ok updated ∧
      updated.WellFormed ∧ (updated.list.map Validator.fields).Perm (authoredPair.list.map Validator.fields) ∧
      ((∃ validator ∈ updated.list, validator.weight ≠ 0) ∨
        ∀ validator ∈ updated.list, validator.delegation = 0) ∧
      updated.list.Perm (renewWeights (penalized 5 [] ⟨5, 5, 1, 1⟩ [⟨7, 7, 1, 2⟩])) :=
  updateWeight_penalizes (fun pubkey : ℕ => pubkey) authoredPair 1 ⟨List.cons_ne_nil _ _, by decide, by decide⟩
    (show authoredPair.list = [] ++ ⟨5, 5, 1, 1⟩ :: [⟨7, 7, 1, 2⟩] from rfl) rfl (by decide) rfl (by decide)

/-- Two validators of delegation `2^63` and `2^63 + 1`, the lower one the
author's. -/
def wrappingPair : Validators ℕ :=
  { list := [⟨9223372036854775808, 9223372036854775808, 0, 1⟩, ⟨9223372036854775809, 9223372036854775809, 0, 2⟩] }

/-- Twice the minimum delegation `2^63` wraps to zero, so the validator ranked
above the author loses nothing; and a lone author that drops to zero is reset to
its delegation, so it loses nothing either. -/
theorem updateWeight_wraps_or_resets :
    wrappingPair.WellFormed ∧
      (updateWeight (fun pubkey : ℕ => pubkey) wrappingPair 1 : Except (Fault Unit) _) =
        .ok ⟨[⟨0, 9223372036854775808, 0, 1⟩, ⟨9223372036854775809, 9223372036854775809, 0, 2⟩]⟩ ∧
      (updateWeight (fun pubkey : ℕ => pubkey) ⟨[⟨10, 10, 0, 1⟩]⟩ 1 : Except (Fault Unit) _) =
        .ok ⟨[⟨10, 10, 0, 1⟩]⟩ :=
  ⟨⟨List.cons_ne_nil _ _, by decide, by decide⟩, rfl, rfl⟩

end Validators

end Weights

end Stake

end CodeChain
