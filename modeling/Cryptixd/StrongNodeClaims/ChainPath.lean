import Mathlib
import Cryptixd.Lib.Trace
import Cryptixd.StrongNodeClaims.KnownClaims
import Cryptixd.StrongNodeClaims.Pending

/-!
# ApplyChainPathUpdate

A chain update walks the removed blocks and then the added blocks. It trims the
window to `CLAIM_WINDOW_SIZE_BLOCKS` and the retention list to
`CLAIM_WINDOW_SIZE_BLOCKS + CLAIM_REORG_MARGIN_BLOCKS`, cleans the pending pool
and moves the sink. If anything changed, it recomputes the scores.

Every step of the update keeps `ChainInvariant`: the window and the retention
list with their sets (`ListedSet`), and the per-block claim invariant. Every
step also keeps `Untouched`: while the pass reports no change, the window, the
winners and the scores are those it started from. So an update either
recomputes the scores or leaves alone what they count
(`applyChainPathUpdate_scores`). Past its guard, every update ends within both
bounds (`applyChainPathUpdate_bounds`).
-/

set_option autoImplicit false

namespace Cryptixd.StrongNodeClaims

open Cryptixd.Atomic

/-- A hash list and the set kept beside it: no hash twice, and the set holds exactly
the list's hashes. -/
structure ListedSet (hashes : List DomainHash) (set : Map DomainHash Unit) : Prop where
  nodup : hashes.Nodup
  mem : ∀ blockHash, (set.lookup blockHash).isSome ↔ blockHash ∈ hashes

section Listed

variable {hashes : List DomainHash} {set : Map DomainHash Unit}

theorem listedSet_empty : ListedSet [] ∅ :=
  ⟨List.nodup_nil, fun _ => by simp⟩

theorem ListedSet.remove (listed : ListedSet hashes set) (key : DomainHash) :
    ListedSet (removeHashFromList hashes key) (set.erase key) where
  nodup := listed.nodup.erase key
  mem := by
    intro blockHash
    rw [removeHashFromList, listed.nodup.mem_erase_iff]
    by_cases same : blockHash = key
    · subst same
      simp
    · rw [AList.lookup_erase_ne same, listed.mem]
      simp [same]

theorem ListedSet.append (listed : ListedSet hashes set) {key : DomainHash}
    (absent : (set.lookup key).isNone) : ListedSet (hashes ++ [key]) (set.insert key ()) where
  nodup := by
    rw [← List.concat_eq_append]
    refine listed.nodup.concat fun member => ?_
    rw [← listed.mem] at member
    simp [Option.isNone_iff_eq_none.1 absent] at member
  mem := by
    intro blockHash
    rw [List.mem_append, List.mem_singleton]
    by_cases same : blockHash = key
    · subst same
      simp
    · rw [AList.lookup_insert_ne same, listed.mem]
      simp [same]

theorem ListedSet.tail {evicted : DomainHash} {rest : List DomainHash}
    (listed : ListedSet (evicted :: rest) set) : ListedSet rest (set.erase evicted) where
  nodup := (List.nodup_cons.1 listed.nodup).2
  mem := by
    intro blockHash
    have fresh := (List.nodup_cons.1 listed.nodup).1
    by_cases same : blockHash = evicted
    · subst same
      simp [fresh]
    · rw [AList.lookup_erase_ne same, listed.mem, List.mem_cons]
      simp [same]

end Listed

/-- What each step of a chain update keeps: the window and retention lists with
their sets, and the per-block claim invariant. -/
structure ChainInvariant (state : EngineState) : Prop where
  window : ListedSet state.windowHashes state.windowSet
  retention : ListedSet state.retentionHashes state.retentionSet
  claims : ClaimsInvariant state

/-- While a pass reports no change, what the scores count is as at `start`. -/
def Untouched (start : EngineState) (acc : Bool × EngineState) : Prop :=
  acc.1 = false → acc.2.windowHashes = start.windowHashes ∧
    (∀ blockHash, acc.2.winningClaimByBlock.lookup blockHash =
      start.winningClaimByBlock.lookup blockHash) ∧
    acc.2.scoreByNodeID = start.scoreByNodeID

def PassInvariant (start : EngineState) (acc : Bool × EngineState) : Prop :=
  ChainInvariant acc.2 ∧ Untouched start acc

theorem untouched_of_changed {start : EngineState} {state : EngineState} :
    Untouched start (true, state) := by
  intro changed
  cases changed

section Steps

variable {start : EngineState} {acc : Bool × EngineState}

@[simp] theorem purgeClaimStateForBlock_windowHashes (state : EngineState) (key : DomainHash) :
    (purgeClaimStateForBlock state key).2.windowHashes = state.windowHashes := rfl

@[simp] theorem purgeClaimStateForBlock_retentionHashes (state : EngineState) (key : DomainHash) :
    (purgeClaimStateForBlock state key).2.retentionHashes = state.retentionHashes := rfl

theorem dropFromWindow_pass (pass : PassInvariant start acc) (key : DomainHash) :
    PassInvariant start (dropFromWindow acc key) := by
  obtain ⟨chain, untouched⟩ := pass
  unfold dropFromWindow
  split_ifs
  · exact ⟨⟨chain.window.remove key, chain.retention, chain.claims.congr rfl rfl⟩,
      untouched_of_changed⟩
  · exact ⟨chain, untouched⟩

theorem dropFromRetention_pass (pass : PassInvariant start acc) (key : DomainHash) :
    PassInvariant start (dropFromRetention acc key) := by
  obtain ⟨chain, untouched⟩ := pass
  unfold dropFromRetention
  split_ifs
  · exact ⟨⟨chain.window, chain.retention.remove key, chain.claims.congr rfl rfl⟩,
      untouched_of_changed⟩
  · exact ⟨chain, untouched⟩

theorem purge_pass (pass : PassInvariant start acc) (key : DomainHash) :
    PassInvariant start
      (acc.1 || (purgeClaimStateForBlock acc.2 key).1, (purgeClaimStateForBlock acc.2 key).2) := by
  obtain ⟨chain, untouched⟩ := pass
  refine ⟨⟨chain.window, chain.retention, chain.claims.purge key⟩, fun unchanged => ?_⟩
  simp only [Bool.or_eq_false_iff] at unchanged
  obtain ⟨window, winners, score⟩ := untouched unchanged.1
  have noWinner : acc.2.winningClaimByBlock.lookup key = none := by
    simp only [purgeClaimStateForBlock, Bool.or_eq_false_iff, Option.isSome_eq_false_iff,
      Option.isNone_iff_eq_none] at unchanged
    exact unchanged.2.1.2
  refine ⟨window, fun blockHash => ?_, score⟩
  by_cases same : blockHash = key
  · subst same
    rw [purgeClaimStateForBlock, AList.lookup_erase, ← winners, noWinner]
  · rw [purgeClaimStateForBlock, AList.lookup_erase_ne same, winners]

theorem removeChainBlock_pass (pass : PassInvariant start acc) (removed : Option DomainHash) :
    PassInvariant start (removeChainBlock acc removed) := by
  cases removed with
  | none => exact pass
  | some key => exact purge_pass (dropFromRetention_pass (dropFromWindow_pass pass key) key) key

theorem addToRetention_pass (pass : PassInvariant start acc) (key : DomainHash) :
    PassInvariant start (addToRetention acc key) := by
  obtain ⟨chain, untouched⟩ := pass
  unfold addToRetention
  split_ifs with absent
  · exact ⟨⟨chain.window, chain.retention.append absent, chain.claims.congr rfl rfl⟩,
      untouched_of_changed⟩
  · exact ⟨chain, untouched⟩

theorem addToWindow_pass (pass : PassInvariant start acc) (key : DomainHash) :
    PassInvariant start (addToWindow acc key) := by
  obtain ⟨chain, untouched⟩ := pass
  unfold addToWindow
  split_ifs with absent
  · exact ⟨⟨chain.window.append absent, chain.retention, chain.claims.congr rfl rfl⟩,
      untouched_of_changed⟩
  · exact ⟨chain, untouched⟩

theorem promoteStep_spec (acc : Bool × EngineState) (record : ClaimRecord)
    (chain : ChainInvariant acc.2) :
    ChainInvariant (promoteStep acc record).2 ∧
      ((promoteStep acc record).1 = false → acc.1 = false ∧
        (promoteStep acc record).2.winningClaimByBlock = acc.2.winningClaimByBlock ∧
        (promoteStep acc record).2.scoreByNodeID = acc.2.scoreByNodeID ∧
        (promoteStep acc record).2.windowHashes = acc.2.windowHashes) := by
  have kept : ChainInvariant (insertKnownClaim acc.2 record).2 := by
    refine ⟨?_, ?_, chain.claims.insertKnownClaim record⟩
    · rw [insertKnownClaim_windowHashes, insertKnownClaim_windowSet]
      exact chain.window
    · rw [insertKnownClaim_retentionHashes, insertKnownClaim_retentionSet]
      exact chain.retention
  refine ⟨kept, fun unchanged => ?_⟩
  simp only [promoteStep, Bool.or_eq_false_iff] at unchanged
  rcases insertKnownClaim_cases acc.2 record with
    ⟨-, -, winning, score, -⟩ | ⟨-, -, -, -, inserted, -⟩
  · exact ⟨unchanged.1, winning, score, insertKnownClaim_windowHashes _ _⟩
  · rw [inserted] at unchanged
    cases unchanged.2

/-- What the promotion fold keeps: the chain invariant, and while nothing is
inserted, the winners, the scores and the window of `state`. -/
def PromoteKept (state : EngineState) (acc : Bool × EngineState) : Prop :=
  ChainInvariant acc.2 ∧ (acc.1 = false → acc.2.winningClaimByBlock = state.winningClaimByBlock ∧
    acc.2.scoreByNodeID = state.scoreByNodeID ∧ acc.2.windowHashes = state.windowHashes)

theorem promoteStep_kept {state : EngineState} {acc : Bool × EngineState} (record : ClaimRecord)
    (holds : PromoteKept state acc) : PromoteKept state (promoteStep acc record) := by
  obtain ⟨kept, same⟩ := promoteStep_spec acc record holds.1
  refine ⟨kept, fun unchanged => ?_⟩
  obtain ⟨before, winning, score, window⟩ := same unchanged
  obtain ⟨winning', score', window'⟩ := holds.2 before
  exact ⟨winning.trans winning', score.trans score', window.trans window'⟩

theorem promotePendingUnknownClaimsForBlock_spec (state : EngineState) (blockHash : DomainHash)
    (chain : ChainInvariant state) :
    PromoteKept state (promotePendingUnknownClaimsForBlock state blockHash) := by
  unfold promotePendingUnknownClaimsForBlock
  split
  · exact ⟨chain, fun _ => ⟨rfl, rfl, rfl⟩⟩
  · exact ⟨chain, fun _ => ⟨rfl, rfl, rfl⟩⟩
  · -- the fold of promoted claims, from the state without the block's pending list
    have initial : PromoteKept state (false,
        { state with pendingUnknownClaims := state.pendingUnknownClaims.erase blockHash }) :=
      ⟨⟨chain.window, chain.retention, chain.claims.congr rfl rfl⟩, fun _ => ⟨rfl, rfl, rfl⟩⟩
    exact @Transition.foldl_invariant _ _ (PromoteKept state) promoteStep
      (fun _ record holds => promoteStep_kept record holds) _ _ initial

theorem addChainBlock_pass (pass : PassInvariant start acc) (added : Option DomainHash) :
    PassInvariant start (addChainBlock acc added) := by
  cases added with
  | none => exact pass
  | some key =>
    obtain ⟨chain, untouched⟩ := addToWindow_pass (addToRetention_pass pass key) key
    obtain ⟨kept, same⟩ := promotePendingUnknownClaimsForBlock_spec _ key chain
    refine ⟨kept, fun unchanged => ?_⟩
    dsimp only [addChainBlock] at unchanged
    simp only [Bool.or_eq_false_iff] at unchanged
    obtain ⟨winning, score, window⟩ := same unchanged.2
    obtain ⟨window', winners', score'⟩ := untouched unchanged.1
    exact ⟨window.trans window',
      fun blockHash => (congrArg (AList.lookup blockHash) winning).trans (winners' blockHash),
      score.trans score'⟩

theorem evictWindowHashes_pass : ∀ (hashes : List DomainHash) (acc : Bool × EngineState),
    acc.2.windowHashes = hashes → PassInvariant start acc →
      PassInvariant start (evictWindowHashes hashes acc) ∧
      (evictWindowHashes hashes acc).2.windowHashes.length ≤ claimWindowSizeBlocks ∧
      (evictWindowHashes hashes acc).2.retentionHashes = acc.2.retentionHashes
  | [], acc, listed, pass => ⟨pass, by rw [evictWindowHashes, listed]; exact Nat.zero_le _, rfl⟩
  | evicted :: rest, acc, listed, pass => by
    obtain ⟨chain, _⟩ := pass
    unfold evictWindowHashes
    split_ifs with tooLong
    · have window := chain.window
      rw [listed] at window
      exact evictWindowHashes_pass rest _ rfl
        ⟨⟨window.tail, chain.retention, chain.claims.congr rfl rfl⟩, untouched_of_changed⟩
    · exact ⟨⟨chain, ‹_›⟩, by rw [listed]; omega, rfl⟩


theorem evictRetentionHashes_pass : ∀ (hashes : List DomainHash) (acc : Bool × EngineState),
    acc.2.retentionHashes = hashes → PassInvariant start acc →
      PassInvariant start (evictRetentionHashes hashes acc) ∧
      (evictRetentionHashes hashes acc).2.retentionHashes.length ≤
        claimWindowSizeBlocks + claimReorgMarginBlocks ∧
      (evictRetentionHashes hashes acc).2.windowHashes = acc.2.windowHashes
  | [], acc, listed, pass => ⟨pass, by rw [evictRetentionHashes, listed]; exact Nat.zero_le _, rfl⟩
  | evicted :: rest, acc, listed, pass => by
    obtain ⟨chain, _⟩ := pass
    unfold evictRetentionHashes
    split_ifs with tooLong
    · have retention := chain.retention
      rw [listed] at retention
      have trimmed : ChainInvariant { acc.2 with
          retentionHashes := rest, retentionSet := acc.2.retentionSet.erase evicted } :=
        ⟨chain.window, retention.tail, chain.claims.congr rfl rfl⟩
      exact evictRetentionHashes_pass rest _ rfl
        ⟨⟨trimmed.window, trimmed.retention, trimmed.claims.purge evicted⟩, untouched_of_changed⟩
    · exact ⟨⟨chain, ‹_›⟩, by rw [listed]; omega, rfl⟩

end Steps

/-! ## One update -/

/-- The pass of an update past its guard, up to the sink: the state it reaches and
whether it changed anything. -/
def updatePass (state : EngineState) (path : SelectedChainPath) (newSink : DomainHash)
    (nowMs : UInt64) : Bool × EngineState :=
  let acc := path.removed.foldl removeChainBlock (false, state)
  let acc := path.added.foldl addChainBlock acc
  let acc := evictWindowHashes acc.2.windowHashes acc
  let acc := evictRetentionHashes acc.2.retentionHashes acc
  let acc := (acc.1, cleanupPendingUnknownClaims acc.2 nowMs)
  if !acc.2.hasLastSink || acc.2.lastSinkHash ≠ newSink then
    (true, { acc.2 with lastSinkHash := newSink, hasLastSink := true })
  else acc

theorem applyChainPathUpdate_eq (engine : Engine) (state : EngineState)
    (path : SelectedChainPath) (newSink : DomainHash) (hardforkActive : Bool) (nowMs : UInt64) :
    applyChainPathUpdate engine state (some path) (some newSink) hardforkActive nowMs =
      if !engine.enabled || !hardforkActive then state
      else if (updatePass state path newSink nowMs).1 then
        { recomputeScores (updatePass state path newSink nowMs).2 with dirty := true }
      else (updatePass state path newSink nowMs).2 := rfl

theorem updatePass_spec (state : EngineState) (chain : ChainInvariant state)
    (path : SelectedChainPath) (newSink : DomainHash) (nowMs : UInt64) :
    PassInvariant state (updatePass state path newSink nowMs) ∧
      (updatePass state path newSink nowMs).2.windowHashes.length ≤ claimWindowSizeBlocks ∧
      (updatePass state path newSink nowMs).2.retentionHashes.length ≤
        claimWindowSizeBlocks + claimReorgMarginBlocks ∧
      pendingClaimsCount (updatePass state path newSink nowMs).2.pendingUnknownClaims ≤
        pendingUnknownClaimsCap := by
  have start : PassInvariant state (false, state) := ⟨chain, fun _ => ⟨rfl, fun _ => rfl, rfl⟩⟩
  have removed := @Transition.foldl_invariant _ _ (PassInvariant state) removeChainBlock
    (fun _ removed pass => removeChainBlock_pass pass removed) path.removed _ start
  have added := @Transition.foldl_invariant _ _ (PassInvariant state) addChainBlock
    (fun _ added pass => addChainBlock_pass pass added) path.added _ removed
  obtain ⟨windowPass, windowBound, -⟩ := evictWindowHashes_pass _ _ rfl added
  obtain ⟨⟨retentionChain, retentionUntouched⟩, retentionBound, windowKept⟩ :=
    evictRetentionHashes_pass _ _ rfl windowPass
  rw [← windowKept] at windowBound
  unfold updatePass
  dsimp only
  split_ifs
  · exact ⟨⟨⟨retentionChain.window, retentionChain.retention,
        retentionChain.claims.congr rfl rfl⟩, untouched_of_changed⟩,
      windowBound, retentionBound, pendingClaimsCount_cleanupPendingUnknownClaims _ _⟩
  · exact ⟨⟨⟨retentionChain.window, retentionChain.retention,
        retentionChain.claims.congr rfl rfl⟩, retentionUntouched⟩,
      windowBound, retentionBound, pendingClaimsCount_cleanupPendingUnknownClaims _ _⟩

theorem applyChainPathUpdate_chain (engine : Engine) (state : EngineState)
    (chain : ChainInvariant state) (path : Option SelectedChainPath) (newSink : Option DomainHash)
    (hardforkActive : Bool) (nowMs : UInt64) :
    ChainInvariant (applyChainPathUpdate engine state path newSink hardforkActive nowMs) := by
  cases path with
  | none => exact chain
  | some path =>
    cases newSink with
    | none => exact chain
    | some newSink =>
      obtain ⟨⟨passChain, -⟩, -⟩ := updatePass_spec state chain path newSink nowMs
      rw [applyChainPathUpdate_eq]
      split_ifs
      · exact chain
      · exact ⟨passChain.window, passChain.retention, passChain.claims.congr rfl rfl⟩
      · exact passChain

theorem applyChainPathUpdate_scores (engine : Engine) (state : EngineState)
    (chain : ChainInvariant state) (counted : ScoresCount state.scoreByNodeID (windowWins state))
    (path : Option SelectedChainPath) (newSink : Option DomainHash) (hardforkActive : Bool)
    (nowMs : UInt64) :
    ScoresCount (applyChainPathUpdate engine state path newSink hardforkActive nowMs).scoreByNodeID
      (windowWins (applyChainPathUpdate engine state path newSink hardforkActive nowMs)) := by
  cases path with
  | none => exact counted
  | some path =>
    cases newSink with
    | none => exact counted
    | some newSink =>
      obtain ⟨⟨-, untouched⟩, -⟩ := updatePass_spec state chain path newSink nowMs
      rw [applyChainPathUpdate_eq]
      split_ifs with guard changed
      · exact counted
      · exact recomputeScores_count _
      · obtain ⟨window, winners, score⟩ := untouched (by simpa using changed)
        rw [score]
        refine counted.congr fun nodeID => ?_
        rw [windowWins, windowWins, window]
        exact (winsIn_congr _ _ (fun blockHash _ => winners blockHash) nodeID).symm

/-- Past its guard, an update ends with the window within `CLAIM_WINDOW_SIZE_BLOCKS`,
the retention list within `CLAIM_WINDOW_SIZE_BLOCKS + CLAIM_REORG_MARGIN_BLOCKS` and
at most `PENDING_UNKNOWN_CLAIMS_CAP` claims pending. -/
theorem applyChainPathUpdate_bounds (engine : Engine) (state : EngineState)
    (chain : ChainInvariant state) (path : SelectedChainPath) (newSink : DomainHash)
    (hardforkActive : Bool) (nowMs : UInt64) (enabled : engine.enabled = true)
    (active : hardforkActive = true) :
    let after := applyChainPathUpdate engine state (some path) (some newSink) hardforkActive nowMs
    after.windowHashes.length ≤ claimWindowSizeBlocks ∧
      after.retentionHashes.length ≤ claimWindowSizeBlocks + claimReorgMarginBlocks ∧
      pendingClaimsCount after.pendingUnknownClaims ≤ pendingUnknownClaimsCap := by
  obtain ⟨-, windowBound, retentionBound, pending⟩ := updatePass_spec state chain path newSink nowMs
  intro after
  have past : (!engine.enabled || !hardforkActive) = false := by
    rw [enabled, active]
    rfl
  simp only [after, applyChainPathUpdate_eq, past, Bool.false_eq_true, if_false]
  split_ifs
  · exact ⟨windowBound, retentionBound, pending⟩
  · exact ⟨windowBound, retentionBound, pending⟩

end Cryptixd.StrongNodeClaims

