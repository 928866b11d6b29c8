import CodeChain.Blockchain.HeaderChain

/-!
# The route between two headers

`tree_route(from, to)` walks the higher of the two headers back until both
have the same number, then both back together until they meet.  In a store
whose headers are filed under their own hashes and sit one above their stored
parents, and in which the two headers have a stored common ancestor, it meets
them at their lowest common ancestor: the blocks it retracts are those from
`from` down to that ancestor, and the blocks it enacts those from the ancestor
up to `to`.  Both loops then stop before their fuel runs out.

The ancestors are read through `ancestorAt`, the hash reached by following
parents through stored headers, and the paths through `pathFrom`, the hashes
met on the way.
-/

namespace CodeChain

namespace Blockchain

namespace HeaderChain

variable {Hash : Type} [DecidableEq Hash] (chain : HeaderChain Hash)

/-- The hash `steps` parents above `hash`, each header on the way stored. -/
def ancestorAt : Hash → ℕ → Option Hash
  | hash, 0 => some hash
  | hash, steps + 1 => (chain.blockHeader hash).bind fun header => ancestorAt header.parentHash steps

/-- The `steps` hashes from `hash` up, `hash` first. -/
def pathFrom : Hash → ℕ → Option (List Hash)
  | _, 0 => some []
  | hash, steps + 1 => (chain.blockHeader hash).bind fun header => (hash :: ·) <$> pathFrom header.parentHash steps

/-- `ancestor` is `hash` or one of its ancestors. -/
def IsAncestor (ancestor hash : Hash) : Prop :=
  ∃ steps, chain.ancestorAt hash steps = some ancestor

/-- A stored common ancestor of `source` and `target` of which every stored
common ancestor is an ancestor. -/
structure IsLowestCommonAncestor (ancestor source target : Hash) : Prop where
  stored : (chain.blockHeader ancestor).isSome
  ofSource : chain.IsAncestor ancestor source
  ofTarget : chain.IsAncestor ancestor target
  lowest : ∀ common, (chain.blockHeader common).isSome → chain.IsAncestor common source →
    chain.IsAncestor common target → chain.IsAncestor common ancestor

/-- A store of headers filed under their own hashes, each one above its parent
when the parent is stored. -/
structure IsTree : Prop where
  filed : ∀ hash header, chain.blockHeader hash = some header → header.hash = hash
  numbered : ∀ hash header parent, chain.blockHeader hash = some header →
    chain.blockHeader header.parentHash = some parent → parent.number + 1 = header.number

variable {chain}

/-! ### Ancestors -/

@[simp]
theorem ancestorAt_zero (hash : Hash) : chain.ancestorAt hash 0 = some hash :=
  rfl

theorem ancestorAt_succ {hash : Hash} {header : Header Hash} (stored : chain.blockHeader hash = some header)
    (steps : ℕ) : chain.ancestorAt hash (steps + 1) = chain.ancestorAt header.parentHash steps := by
  simp [ancestorAt, stored]

theorem ancestorAt_add (hash : Hash) (first second : ℕ) :
    chain.ancestorAt hash (first + second) = (chain.ancestorAt hash first).bind (chain.ancestorAt · second) := by
  induction first generalizing hash with
  | zero => simp
  | succ first ih =>
      rw [Nat.add_right_comm]
      cases stored : chain.blockHeader hash with
      | none => simp [ancestorAt, stored]
      | some header => rw [ancestorAt_succ stored, ancestorAt_succ stored, ih]

/-- The first header of a walk that reaches a stored header is stored. -/
theorem stored_of_ancestorAt {hash ancestor : Hash} {steps : ℕ}
    (reached : chain.ancestorAt hash steps = some ancestor) (stored : (chain.blockHeader ancestor).isSome) :
    (chain.blockHeader hash).isSome := by
  cases steps with
  | zero =>
      cases reached
      exact stored
  | succ steps =>
      cases found : chain.blockHeader hash with
      | none => simp [ancestorAt, found] at reached
      | some header => rfl

/-- In a tree, an ancestor `steps` parents up is `steps` below. -/
theorem number_of_ancestorAt (tree : chain.IsTree) {hash ancestor : Hash} {steps : ℕ}
    {header ancestorHeader : Header Hash} (reached : chain.ancestorAt hash steps = some ancestor)
    (stored : chain.blockHeader hash = some header) (ancestorStored : chain.blockHeader ancestor = some ancestorHeader) :
    ancestorHeader.number + steps = header.number := by
  induction steps generalizing hash header with
  | zero =>
      cases reached
      rw [stored] at ancestorStored
      cases ancestorStored
      rfl
  | succ steps ih =>
      rw [ancestorAt_succ stored] at reached
      obtain ⟨parent, parentStored⟩ :=
        Option.isSome_iff_exists.mp (stored_of_ancestorAt reached (by rw [ancestorStored]; rfl))
      have below := tree.numbered hash header parent stored parentStored
      have := ih reached parentStored
      omega

/-- Two walks that meet keep together. -/
theorem ancestorAt_eq_of_meet {left right meeting : Hash} {steps : ℕ}
    (leftReaches : chain.ancestorAt left steps = some meeting) (rightReaches : chain.ancestorAt right steps = some meeting)
    (more : ℕ) : chain.ancestorAt left (steps + more) = chain.ancestorAt right (steps + more) := by
  rw [ancestorAt_add, ancestorAt_add, leftReaches, rightReaches]

theorem ancestorAt_of_add {hash ancestor : Hash} {first second : ℕ}
    (reached : chain.ancestorAt hash (first + second) = some ancestor) :
    ∃ middle, chain.ancestorAt hash first = some middle ∧ chain.ancestorAt middle second = some ancestor := by
  rw [ancestorAt_add] at reached
  exact Option.bind_eq_some_iff.mp reached

/-! ### Paths -/

@[simp]
theorem pathFrom_zero (hash : Hash) : chain.pathFrom hash 0 = some [] :=
  rfl

theorem pathFrom_succ {hash : Hash} {header : Header Hash} (stored : chain.blockHeader hash = some header)
    (steps : ℕ) : chain.pathFrom hash (steps + 1) = (hash :: ·) <$> chain.pathFrom header.parentHash steps := by
  simp [pathFrom, stored]

/-- A walk that reaches a hash has a path, as long as the walk. -/
theorem pathFrom_of_ancestorAt {hash ancestor : Hash} {steps : ℕ}
    (reached : chain.ancestorAt hash steps = some ancestor) :
    ∃ path, chain.pathFrom hash steps = some path ∧ path.length = steps := by
  induction steps generalizing hash with
  | zero => exact ⟨[], rfl, rfl⟩
  | succ steps ih =>
      cases stored : chain.blockHeader hash with
      | none => simp [ancestorAt, stored] at reached
      | some header =>
          rw [ancestorAt_succ stored] at reached
          obtain ⟨path, found, length⟩ := ih reached
          exact ⟨hash :: path, by rw [pathFrom_succ stored, found]; rfl, by simp [length]⟩

theorem pathFrom_add {hash middle : Hash} {first second : ℕ} {front back : List Hash}
    (frontPath : chain.pathFrom hash first = some front) (reached : chain.ancestorAt hash first = some middle)
    (backPath : chain.pathFrom middle second = some back) :
    chain.pathFrom hash (first + second) = some (front ++ back) := by
  induction first generalizing hash front with
  | zero =>
      cases frontPath
      cases reached
      simpa using backPath
  | succ first ih =>
      cases stored : chain.blockHeader hash with
      | none => simp [ancestorAt, stored] at reached
      | some header =>
          rw [Nat.add_right_comm, pathFrom_succ stored]
          rw [pathFrom_succ stored] at frontPath
          rw [ancestorAt_succ stored] at reached
          obtain ⟨rest, restPath, rfl⟩ : ∃ rest, chain.pathFrom header.parentHash first = some rest ∧
              hash :: rest = front := by
            simpa using frontPath
          rw [ih restPath reached]
          rfl

/-! ### The two loops -/

section Loops

variable (tree : chain.IsTree)
include tree

/-- The parent of a stored header on a walk to a stored header is stored, and
filed under the parent hash. -/
theorem parent_of_ancestorAt {header : Header Hash} {ancestor : Hash} {steps : ℕ}
    (reached : chain.ancestorAt header.parentHash steps = some ancestor) (stored : (chain.blockHeader ancestor).isSome) :
    ∃ parent, chain.blockHeader header.parentHash = some parent ∧ parent.hash = header.parentHash := by
  obtain ⟨parent, found⟩ := Option.isSome_iff_exists.mp (stored_of_ancestorAt reached stored)
  exact ⟨parent, found, tree.filed _ _ found⟩

/-- A walk from a stored header to a stored ancestor passes, at each height
between the two, a stored header of that height. -/
theorem exists_level {hash ancestor : Hash} {header ancestorHeader : Header Hash} {steps : ℕ}
    (reached : chain.ancestorAt hash steps = some ancestor) (stored : chain.blockHeader hash = some header)
    (ancestorStored : chain.blockHeader ancestor = some ancestorHeader) (level : ℕ) (above : ancestorHeader.number ≤ level)
    (below : level ≤ header.number) :
    ∃ middle, chain.ancestorAt hash (header.number - level) = some middle.hash ∧
      chain.blockHeader middle.hash = some middle ∧ middle.number = level ∧
      chain.ancestorAt middle.hash (level - ancestorHeader.number) = some ancestor := by
  have numbers := number_of_ancestorAt tree reached stored ancestorStored
  rw [show steps = (header.number - level) + (level - ancestorHeader.number) by omega] at reached
  obtain ⟨middleHash, toMiddle, fromMiddle⟩ := ancestorAt_of_add reached
  obtain ⟨middle, middleStored⟩ :=
    Option.isSome_iff_exists.mp (stored_of_ancestorAt fromMiddle (by rw [ancestorStored]; rfl))
  have filed := tree.filed _ _ middleStored
  have middleNumber := number_of_ancestorAt tree toMiddle stored middleStored
  refine ⟨middle, by rw [filed]; exact toMiddle, by rw [filed]; exact middleStored, by omega, ?_⟩
  rw [filed]
  exact fromMiddle

/-- The first loop walks the higher end back by the difference of the
numbers, pushing the hashes it leaves. -/
theorem levelRoute_retract {fuel steps : ℕ} {retract enact top : Header Hash} {retracted enacted path : List Hash}
    (stored : chain.blockHeader retract.hash = some retract) (walk : chain.pathFrom retract.hash steps = some path)
    (reached : chain.ancestorAt retract.hash steps = some top.hash) (topStored : chain.blockHeader top.hash = some top)
    (levels : retract.number = enact.number + steps) (enough : steps < fuel) :
    chain.levelRoute fuel retract enact retracted enacted = some (top, enact, retracted ++ path, enacted) := by
  induction steps generalizing fuel retract retracted path with
  | zero =>
      obtain ⟨fuel, rfl⟩ := Nat.exists_eq_add_one.mpr enough
      cases walk
      have same : top = retract := by
        rw [← Option.some.inj reached, stored] at topStored
        exact (Option.some.inj topStored).symm
      subst same
      simp [levelRoute, levels]
  | succ steps ih =>
      obtain ⟨fuel, rfl⟩ := Nat.exists_eq_add_one.mpr (Nat.zero_lt_of_lt enough)
      rw [ancestorAt_succ stored] at reached
      rw [pathFrom_succ stored] at walk
      obtain ⟨parent, parentStored, parentHash⟩ := parent_of_ancestorAt tree reached (by rw [topStored]; rfl)
      obtain ⟨rest, restWalk, rfl⟩ : ∃ rest, chain.pathFrom retract.parentHash steps = some rest ∧
          retract.hash :: rest = path := by
        simpa using walk
      have below := tree.numbered _ _ _ stored parentStored
      -- the loop goes on from the parent, one hash further
      have step : chain.levelRoute fuel parent enact (retracted ++ [retract.hash]) enacted =
          some (top, enact, retracted ++ [retract.hash] ++ rest, enacted) :=
        ih (by rw [parentHash]; exact parentStored) (by rw [parentHash]; exact restWalk)
          (by rw [parentHash]; exact reached) (by omega) (by omega)
      simp only [levelRoute, show retract.number ≠ enact.number by omega, show retract.number > enact.number by omega,
        if_false, if_true, parentStored, Option.bind_eq_bind, Option.bind_some, step]
      simp

/-- When the other end is higher, the first loop walks it back instead. -/
theorem levelRoute_enact {fuel steps : ℕ} {retract enact top : Header Hash} {retracted enacted path : List Hash}
    (stored : chain.blockHeader enact.hash = some enact) (walk : chain.pathFrom enact.hash steps = some path)
    (reached : chain.ancestorAt enact.hash steps = some top.hash) (topStored : chain.blockHeader top.hash = some top)
    (levels : enact.number = retract.number + steps) (enough : steps < fuel) :
    chain.levelRoute fuel retract enact retracted enacted = some (retract, top, retracted, enacted ++ path) := by
  induction steps generalizing fuel enact enacted path with
  | zero =>
      obtain ⟨fuel, rfl⟩ := Nat.exists_eq_add_one.mpr enough
      cases walk
      have same : top = enact := by
        rw [← Option.some.inj reached, stored] at topStored
        exact (Option.some.inj topStored).symm
      subst same
      simp [levelRoute, levels]
  | succ steps ih =>
      obtain ⟨fuel, rfl⟩ := Nat.exists_eq_add_one.mpr (Nat.zero_lt_of_lt enough)
      rw [ancestorAt_succ stored] at reached
      rw [pathFrom_succ stored] at walk
      obtain ⟨parent, parentStored, parentHash⟩ := parent_of_ancestorAt tree reached (by rw [topStored]; rfl)
      obtain ⟨rest, restWalk, rfl⟩ : ∃ rest, chain.pathFrom enact.parentHash steps = some rest ∧
          enact.hash :: rest = path := by
        simpa using walk
      have below := tree.numbered _ _ _ stored parentStored
      have step : chain.levelRoute fuel retract parent retracted (enacted ++ [enact.hash]) =
          some (retract, top, retracted, enacted ++ [enact.hash] ++ rest) :=
        ih (by rw [parentHash]; exact parentStored) (by rw [parentHash]; exact restWalk)
          (by rw [parentHash]; exact reached) (by omega) (by omega)
      simp only [levelRoute, show retract.number ≠ enact.number by omega,
        show ¬ retract.number > enact.number by omega, if_false, parentStored, Option.bind_eq_bind,
        Option.bind_some, step]
      simp

/-- The second loop walks both ends back until they meet, pushing the hashes
each leaves. -/
theorem meetRoute_meets {fuel steps : ℕ} {retract enact : Header Hash} {meeting : Hash}
    {retracted enacted retractPath enactPath : List Hash}
    (retractStored : chain.blockHeader retract.hash = some retract)
    (enactStored : chain.blockHeader enact.hash = some enact)
    (retractReaches : chain.ancestorAt retract.hash steps = some meeting)
    (enactReaches : chain.ancestorAt enact.hash steps = some meeting)
    (meetingStored : (chain.blockHeader meeting).isSome)
    (apart : ∀ earlier < steps, chain.ancestorAt retract.hash earlier ≠ chain.ancestorAt enact.hash earlier)
    (retractWalk : chain.pathFrom retract.hash steps = some retractPath)
    (enactWalk : chain.pathFrom enact.hash steps = some enactPath) (enough : steps < fuel) :
    chain.meetRoute fuel retract enact retracted enacted =
      some (meeting, retracted ++ retractPath, enacted ++ enactPath) := by
  induction steps generalizing fuel retract enact retracted enacted retractPath enactPath with
  | zero =>
      obtain ⟨fuel, rfl⟩ := Nat.exists_eq_add_one.mpr enough
      cases retractWalk
      cases enactWalk
      cases retractReaches
      have met : retract.hash = enact.hash := Option.some.inj enactReaches.symm
      simp [meetRoute, met]
  | succ steps ih =>
      obtain ⟨fuel, rfl⟩ := Nat.exists_eq_add_one.mpr (Nat.zero_lt_of_lt enough)
      have distinct : retract.hash ≠ enact.hash := fun same => apart 0 (Nat.succ_pos _) (by rw [same])
      rw [ancestorAt_succ retractStored] at retractReaches
      rw [ancestorAt_succ enactStored] at enactReaches
      rw [pathFrom_succ retractStored] at retractWalk
      rw [pathFrom_succ enactStored] at enactWalk
      obtain ⟨retractParent, retractParentStored, retractParentHash⟩ :=
        parent_of_ancestorAt tree retractReaches meetingStored
      obtain ⟨enactParent, enactParentStored, enactParentHash⟩ :=
        parent_of_ancestorAt tree enactReaches meetingStored
      obtain ⟨retractRest, retractRestWalk, rfl⟩ : ∃ rest, chain.pathFrom retract.parentHash steps = some rest ∧
          retract.hash :: rest = retractPath := by
        simpa using retractWalk
      obtain ⟨enactRest, enactRestWalk, rfl⟩ : ∃ rest, chain.pathFrom enact.parentHash steps = some rest ∧
          enact.hash :: rest = enactPath := by
        simpa using enactWalk
      -- the parents have not met before `steps` either
      have parentsApart : ∀ earlier < steps,
          chain.ancestorAt retractParent.hash earlier ≠ chain.ancestorAt enactParent.hash earlier := by
        intro earlier before
        have := apart (earlier + 1) (by omega)
        rwa [ancestorAt_succ retractStored, ancestorAt_succ enactStored, ← retractParentHash,
          ← enactParentHash] at this
      have step : chain.meetRoute fuel retractParent enactParent (retracted ++ [retract.hash])
          (enacted ++ [enact.hash]) =
          some (meeting, retracted ++ [retract.hash] ++ retractRest, enacted ++ [enact.hash] ++ enactRest) :=
        ih (by rw [retractParentHash]; exact retractParentStored) (by rw [enactParentHash]; exact enactParentStored)
          (by rw [retractParentHash]; exact retractReaches) (by rw [enactParentHash]; exact enactReaches)
          parentsApart (by rw [retractParentHash]; exact retractRestWalk)
          (by rw [enactParentHash]; exact enactRestWalk) (by omega)
      simp only [meetRoute, distinct, if_false, retractParentStored, enactParentStored, Option.bind_eq_bind,
        Option.bind_some, step]
      simp

/-- The first loop brings both ends to the same height, whichever is higher. -/
theorem levelRoute_levels {fuel retractSteps enactSteps : ℕ} {retract enact retractTop enactTop : Header Hash}
    {retractPath enactPath : List Hash}
    (retractStored : chain.blockHeader retract.hash = some retract)
    (enactStored : chain.blockHeader enact.hash = some enact)
    (retractWalk : chain.pathFrom retract.hash retractSteps = some retractPath)
    (retractReached : chain.ancestorAt retract.hash retractSteps = some retractTop.hash)
    (retractTopStored : chain.blockHeader retractTop.hash = some retractTop)
    (enactWalk : chain.pathFrom enact.hash enactSteps = some enactPath)
    (enactReached : chain.ancestorAt enact.hash enactSteps = some enactTop.hash)
    (enactTopStored : chain.blockHeader enactTop.hash = some enactTop)
    (levelled : retractTop.number = enactTop.number) (oneSide : retractSteps = 0 ∨ enactSteps = 0)
    (enough : retractSteps + enactSteps < fuel) :
    chain.levelRoute fuel retract enact [] [] = some (retractTop, enactTop, retractPath, enactPath) := by
  have retractNumber := number_of_ancestorAt tree retractReached retractStored retractTopStored
  have enactNumber := number_of_ancestorAt tree enactReached enactStored enactTopStored
  rcases oneSide with rfl | rfl
  · -- the retract end is the lower one
    cases retractWalk
    have same : retractTop = retract := by
      rw [← Option.some.inj retractReached, retractStored] at retractTopStored
      exact (Option.some.inj retractTopStored).symm
    subst same
    have walked : chain.levelRoute fuel retractTop enact [] [] = some (retractTop, enactTop, [], [] ++ enactPath) :=
      levelRoute_enact tree enactStored enactWalk enactReached enactTopStored (by omega) (by omega)
    simpa using walked
  · cases enactWalk
    have same : enactTop = enact := by
      rw [← Option.some.inj enactReached, enactStored] at enactTopStored
      exact (Option.some.inj enactTopStored).symm
    subst same
    have walked : chain.levelRoute fuel retract enactTop [] [] = some (retractTop, enactTop, [] ++ retractPath, []) :=
      levelRoute_retract tree retractStored retractWalk retractReached retractTopStored (by omega) (by omega)
    simpa using walked

end Loops

/-- `tree_route` meets the two headers at their lowest common ancestor, and
returns the path from `from` down to it and the path from it up to `to`. -/
theorem treeRoute_lowestCommonAncestor (tree : chain.IsTree) {source target : Hash}
    {sourceHeader targetHeader : Header Hash}
    (sourceStored : chain.blockHeader source = some sourceHeader)
    (targetStored : chain.blockHeader target = some targetHeader)
    (common : ∃ ancestor, (chain.blockHeader ancestor).isSome ∧ chain.IsAncestor ancestor source ∧
      chain.IsAncestor ancestor target) :
    ∃ ancestor ancestorHeader retracted enacted,
      chain.IsLowestCommonAncestor ancestor source target ∧ chain.blockHeader ancestor = some ancestorHeader ∧
      chain.pathFrom source (sourceHeader.number - ancestorHeader.number) = some retracted ∧
      chain.pathFrom target (targetHeader.number - ancestorHeader.number) = some enacted ∧
      retracted.length = sourceHeader.number - ancestorHeader.number ∧
      enacted.length = targetHeader.number - ancestorHeader.number ∧
      chain.treeRoute source target = some ⟨ancestor, enacted.reverse, retracted⟩ := by
  classical
  obtain ⟨common, commonSome, ⟨sourceSteps, fromSource⟩, ⟨targetSteps, fromTarget⟩⟩ := common
  obtain ⟨commonHeader, commonStored⟩ := Option.isSome_iff_exists.mp commonSome
  have sourceNumber := number_of_ancestorAt tree fromSource sourceStored commonStored
  have targetNumber := number_of_ancestorAt tree fromTarget targetStored commonStored
  -- the first loop brings both ends to the lower of the two heights
  obtain ⟨retractTop, toRetractTop, retractTopStored, retractTopNumber, retractTopReaches⟩ :=
    exists_level tree fromSource sourceStored commonStored (min sourceHeader.number targetHeader.number)
      (by omega) (min_le_left _ _)
  obtain ⟨enactTop, toEnactTop, enactTopStored, enactTopNumber, enactTopReaches⟩ :=
    exists_level tree fromTarget targetStored commonStored (min sourceHeader.number targetHeader.number)
      (by omega) (min_le_right _ _)
  set level := min sourceHeader.number targetHeader.number
  -- the second loop stops at the first height at which the two walks meet
  have meets : ∃ steps, chain.ancestorAt retractTop.hash steps = chain.ancestorAt enactTop.hash steps ∧
      (chain.ancestorAt retractTop.hash steps).isSome :=
    ⟨level - commonHeader.number, by rw [retractTopReaches, enactTopReaches], by rw [retractTopReaches]; rfl⟩
  obtain ⟨met, metSome⟩ := Nat.find_spec meets
  obtain ⟨ancestor, retractReaches⟩ := Option.isSome_iff_exists.mp metSome
  have enactReaches : chain.ancestorAt enactTop.hash (Nat.find meets) = some ancestor := met ▸ retractReaches
  have early : Nat.find meets ≤ level - commonHeader.number :=
    Nat.find_min' meets ⟨by rw [retractTopReaches, enactTopReaches], by rw [retractTopReaches]; rfl⟩
  have apart : ∀ earlier < Nat.find meets,
      chain.ancestorAt retractTop.hash earlier ≠ chain.ancestorAt enactTop.hash earlier := by
    intro earlier before same
    obtain ⟨middle, reached, -⟩ := ancestorAt_of_add
      (show chain.ancestorAt retractTop.hash (earlier + (Nat.find meets - earlier)) = some ancestor by
        rw [Nat.add_sub_cancel' before.le]; exact retractReaches)
    exact Nat.find_min meets before ⟨same, by rw [reached]; rfl⟩
  -- the meeting point is stored: the walk goes on from it to the common ancestor
  have ancestorToCommon : chain.ancestorAt ancestor (level - commonHeader.number - Nat.find meets) = some common := by
    have walk := retractTopReaches
    rw [show level - commonHeader.number = Nat.find meets + (level - commonHeader.number - Nat.find meets) by omega,
      ancestorAt_add, retractReaches] at walk
    exact walk
  obtain ⟨ancestorHeader, ancestorStored⟩ :=
    Option.isSome_iff_exists.mp (stored_of_ancestorAt ancestorToCommon commonSome)
  have ancestorNumber := number_of_ancestorAt tree retractReaches retractTopStored ancestorStored
  -- the paths the loops push
  obtain ⟨sourcePath, sourceWalk, sourceLength⟩ := pathFrom_of_ancestorAt toRetractTop
  obtain ⟨targetPath, targetWalk, targetLength⟩ := pathFrom_of_ancestorAt toEnactTop
  obtain ⟨retractPath, retractWalk, retractLength⟩ := pathFrom_of_ancestorAt retractReaches
  obtain ⟨enactPath, enactWalk, enactLength⟩ := pathFrom_of_ancestorAt enactReaches
  have sourceFiled := tree.filed _ _ sourceStored
  have targetFiled := tree.filed _ _ targetStored
  have levelled : chain.levelRoute (sourceHeader.number + targetHeader.number + 1) sourceHeader targetHeader [] [] =
      some (retractTop, enactTop, sourcePath, targetPath) :=
    levelRoute_levels tree (by rw [sourceFiled]; exact sourceStored) (by rw [targetFiled]; exact targetStored)
      (by rw [sourceFiled]; exact sourceWalk) (by rw [sourceFiled]; exact toRetractTop) retractTopStored
      (by rw [targetFiled]; exact targetWalk) (by rw [targetFiled]; exact toEnactTop) enactTopStored
      (by omega) (by omega) (by omega)
  have metRoute : chain.meetRoute (sourceHeader.number + targetHeader.number + 1) retractTop enactTop sourcePath
      targetPath = some (ancestor, sourcePath ++ retractPath, targetPath ++ enactPath) :=
    meetRoute_meets tree retractTopStored enactTopStored retractReaches enactReaches (by rw [ancestorStored]; rfl)
      apart retractWalk enactWalk (by omega)
  have sourceSplit : sourceHeader.number - ancestorHeader.number =
      (sourceHeader.number - level) + Nat.find meets := by omega
  have targetSplit : targetHeader.number - ancestorHeader.number =
      (targetHeader.number - level) + Nat.find meets := by omega
  refine ⟨ancestor, ancestorHeader, sourcePath ++ retractPath, targetPath ++ enactPath, ⟨?_, ?_, ?_, ?_⟩,
    ancestorStored, ?_, ?_, ?_, ?_, ?_⟩
  · rw [ancestorStored]; rfl
  · exact ⟨_, by rw [ancestorAt_add, toRetractTop]; exact retractReaches⟩
  · exact ⟨_, by rw [ancestorAt_add, toEnactTop]; exact enactReaches⟩
  · -- a stored common ancestor is met by both walks at its height, so no earlier than `ancestor`
    rintro other otherSome ⟨otherSourceSteps, fromSourceOther⟩ ⟨otherTargetSteps, fromTargetOther⟩
    obtain ⟨otherHeader, otherStored⟩ := Option.isSome_iff_exists.mp otherSome
    have otherSourceNumber := number_of_ancestorAt tree fromSourceOther sourceStored otherStored
    have otherTargetNumber := number_of_ancestorAt tree fromTargetOther targetStored otherStored
    obtain ⟨retractMiddle, toRetractMiddle, -, -, retractMiddleReaches⟩ :=
      exists_level tree fromSourceOther sourceStored otherStored level (by omega) (min_le_left _ _)
    obtain ⟨enactMiddle, toEnactMiddle, -, -, enactMiddleReaches⟩ :=
      exists_level tree fromTargetOther targetStored otherStored level (by omega) (min_le_right _ _)
    rw [toRetractTop, Option.some.injEq] at toRetractMiddle
    rw [toEnactTop, Option.some.injEq] at toEnactMiddle
    rw [← toRetractMiddle] at retractMiddleReaches
    rw [← toEnactMiddle] at enactMiddleReaches
    have noEarlier : Nat.find meets ≤ level - otherHeader.number :=
      Nat.find_min' meets ⟨by rw [retractMiddleReaches, enactMiddleReaches], by rw [retractMiddleReaches]; rfl⟩
    rw [show level - otherHeader.number = Nat.find meets + (level - otherHeader.number - Nat.find meets) by omega,
      ancestorAt_add, retractReaches] at retractMiddleReaches
    exact ⟨_, retractMiddleReaches⟩
  · rw [sourceSplit]
    exact pathFrom_add sourceWalk toRetractTop retractWalk
  · rw [targetSplit]
    exact pathFrom_add targetWalk toEnactTop enactWalk
  · simp only [List.length_append, sourceLength, retractLength]
    omega
  · simp only [List.length_append, targetLength, enactLength]
    omega
  · simp only [treeRoute, sourceStored, targetStored, Option.bind_eq_bind, Option.bind_some, levelled, metRoute]
    rfl

/-- Genesis `0`, blocks `1` and `2` above it, and block `3` forking from
genesis. -/
def forkChain : HeaderChain ℕ where
  bestHeaderHash := 2
  bestProposalHeaderHash := 2
  headers := ((((∅ : AList fun _ : ℕ => Header ℕ).insert 0 ⟨0, 100, 0, 0⟩).insert 1 ⟨1, 0, 1, 1⟩).insert 2
    ⟨2, 1, 2, 1⟩).insert 3 ⟨3, 0, 1, 1⟩
  details := ∅
  hashes := ∅

example : forkChain.treeRoute 2 3 = some ⟨0, [3], [2, 1]⟩ := by
  decide

/-- From block `2` to block `3`, the route retracts `2` and `1` and enacts `3`
above genesis. -/
theorem treeRoute_forkChain :
    ∃ ancestor ancestorHeader retracted enacted,
      forkChain.IsLowestCommonAncestor ancestor 2 3 ∧ forkChain.blockHeader ancestor = some ancestorHeader ∧
      forkChain.pathFrom 2 (2 - ancestorHeader.number) = some retracted ∧
      forkChain.pathFrom 3 (1 - ancestorHeader.number) = some enacted ∧
      retracted.length = 2 - ancestorHeader.number ∧ enacted.length = 1 - ancestorHeader.number ∧
      forkChain.treeRoute 2 3 = some ⟨ancestor, enacted.reverse, retracted⟩ := by
  have entries : forkChain.headers.entries =
      [⟨3, ⟨3, 0, 1, 1⟩⟩, ⟨2, ⟨2, 1, 2, 1⟩⟩, ⟨1, ⟨1, 0, 1, 1⟩⟩, ⟨0, ⟨0, 100, 0, 0⟩⟩] :=
    rfl
  have tree : forkChain.IsTree := by
    constructor
    · intro hash header found
      have member := AList.mem_lookup_iff.mp found
      simp only [entries, List.mem_cons, List.not_mem_nil, or_false] at member
      rcases member with same | same | same | same <;> (cases same; rfl)
    · intro hash header parent found parentFound
      have member := AList.mem_lookup_iff.mp found
      simp only [entries, List.mem_cons, List.not_mem_nil, or_false] at member
      have parentMember := AList.mem_lookup_iff.mp parentFound
      simp only [entries, List.mem_cons, List.not_mem_nil, or_false] at parentMember
      -- the parent of each stored header is the stored header one below it
      rcases member with same | same | same | same <;> cases same <;>
        rcases parentMember with same | same | same | same <;> cases same <;> rfl
  exact treeRoute_lowestCommonAncestor tree rfl rfl
    ⟨0, rfl, show forkChain.IsAncestor 0 2 from ⟨2, rfl⟩, show forkChain.IsAncestor 0 3 from ⟨1, rfl⟩⟩

end HeaderChain

end Blockchain

end CodeChain
