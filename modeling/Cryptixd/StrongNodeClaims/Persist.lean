import Mathlib
import Cryptixd.Lib.Trace
import Cryptixd.StrongNodeClaims.Convergence

/-!
# The persisted claim state read back

`persistState` writes the last sink (when there is one), the window and retention
lists, and one record per winner made from the winner's own fields, all hashes as
hex text. `decodeStateDisk` reads them back, keeps one claim per block (its winner)
as the block's recent claims, and recomputes the scores. The recent claims that did
not win and the pending pool are lost, but what the producer shares are computed
from comes back.

Two facts about reachable states make this so, and `SnapshotKeyed` collects them.
A state without a sink keeps the zero hash as its sink, since the disk has no field
for the sink hash of a state that has none. Every recent claim and every winner is
stored under its own block, since the disk writes the winner's own `BlockHash` and
not the map key. A fresh or decoded state holds it, and every call keeps it, the
ingestion through `insertKnownClaim` and the chain update pass by pass
(`snapshotKeyed_run`).

From there `decodeStateDisk_persistStateDisk` reads a state back: the lists keep no
hash twice (`ListedSet`), so the decoder's dedup keeps them whole; every winner is
valid for the engine's network, so the decoder keeps them all; and both score maps
count the wins of the same window (`ScoresCount`). `persistState_roundTrip` puts the
two together for every run. Go's maps are compared by their lookups, since the
snapshot writes the winners in block-hash order and not in the map's own.
-/

set_option autoImplicit false

namespace Cryptixd.StrongNodeClaims

open Cryptixd.Atomic

/-! ## Maps whose entries satisfy a predicate -/

section Entries

variable {K β : Type} [DecidableEq K]

def EntriesSatisfy (P : K → β → Prop) (map : Map K β) : Prop :=
  ∀ key value, map.lookup key = some value → P key value

variable {P : K → β → Prop} {map : Map K β}

theorem entriesSatisfy_empty : EntriesSatisfy P (∅ : Map K β) := by
  intro key value found
  cases found

theorem EntriesSatisfy.insert (holds : EntriesSatisfy P map) {key : K} {value : β}
    (satisfied : P key value) : EntriesSatisfy P (map.insert key value) := by
  intro other found lookedUp
  by_cases same : other = key
  · subst same
    rw [AList.lookup_insert, Option.some.injEq] at lookedUp
    exact lookedUp ▸ satisfied
  · rw [AList.lookup_insert_ne same] at lookedUp
    exact holds other found lookedUp

theorem EntriesSatisfy.erase (holds : EntriesSatisfy P map) (key : K) :
    EntriesSatisfy P (map.erase key) := by
  intro other found lookedUp
  by_cases same : other = key
  · subst same
    rw [AList.lookup_erase] at lookedUp
    cases lookedUp
  · rw [AList.lookup_erase_ne same] at lookedUp
    exact holds other found lookedUp

end Entries

/-! ## The keyed state -/

def ClaimOfBlock (blockHash : DomainHash) (record : ClaimRecord) : Prop :=
  record.blockHash = blockHash

def ClaimsOfBlock (blockHash : DomainHash) (claims : Map NodeID ClaimRecord) : Prop :=
  EntriesSatisfy (fun _ record => ClaimOfBlock blockHash record) claims

/-- What a snapshot needs of a state: the zero sink hash when there is no sink, and
every recent claim and every winner stored under its own block. -/
structure SnapshotKeyed (state : EngineState) : Prop where
  sinkCleared : state.hasLastSink = false → state.lastSinkHash = zeroHash
  recent : EntriesSatisfy ClaimsOfBlock state.recentClaimsByBlock
  winners : EntriesSatisfy ClaimOfBlock state.winningClaimByBlock

section Keyed

variable {state state' : EngineState}

theorem SnapshotKeyed.congr (holds : SnapshotKeyed state)
    (hasSink : state'.hasLastSink = state.hasLastSink) (sink : state'.lastSinkHash = state.lastSinkHash)
    (recent : state'.recentClaimsByBlock = state.recentClaimsByBlock)
    (winning : state'.winningClaimByBlock = state.winningClaimByBlock) : SnapshotKeyed state' where
  sinkCleared := by
    rw [hasSink, sink]
    exact holds.sinkCleared
  recent := by
    rw [recent]
    exact holds.recent
  winners := by
    rw [winning]
    exact holds.winners

theorem SnapshotKeyed.newEngineState : SnapshotKeyed newEngineState :=
  ⟨fun _ => rfl, entriesSatisfy_empty, entriesSatisfy_empty⟩

theorem SnapshotKeyed.purge (holds : SnapshotKeyed state) (blockHash : DomainHash) :
    SnapshotKeyed (purgeClaimStateForBlock state blockHash).2 :=
  ⟨holds.sinkCleared, holds.recent.erase blockHash, holds.winners.erase blockHash⟩

/-- `insertKnownClaim` stores claims under the block they name, and the winner it
picks is one of them. -/
theorem SnapshotKeyed.insertKnownClaim (holds : SnapshotKeyed state) (claims : ClaimsInvariant state)
    (record : ClaimRecord) : SnapshotKeyed (StrongNodeClaims.insertKnownClaim state record).2 := by
  have sinkCleared : (StrongNodeClaims.insertKnownClaim state record).2.hasLastSink = false →
      (StrongNodeClaims.insertKnownClaim state record).2.lastSinkHash = zeroHash := by
    rw [insertKnownClaim_hasLastSink, insertKnownClaim_lastSinkHash]
    exact holds.sinkCleared
  rcases insertKnownClaim_cases state record with
    ⟨-, recent, winning, -, -⟩ | ⟨stored, -, own, older, -, recent, winning, -⟩
  · -- a dropped claim: at most an empty map is stored for its block
    refine ⟨sinkCleared, ?_, by rw [winning]; exact holds.winners⟩
    rw [recent]
    split_ifs
    · exact holds.recent.insert entriesSatisfy_empty
    · exact holds.recent
  · -- the stored map holds the new claim and claims its block already held
    have ofBlock : ClaimsOfBlock record.blockHash stored := by
      intro nodeID found lookedUp
      rcases older nodeID found lookedUp with same | before
      · subst same
        rw [own, Option.some.injEq] at lookedUp
        rw [← lookedUp]
        rfl
      · cases held : state.recentClaimsByBlock.lookup record.blockHash with
        | none =>
          rw [held] at before
          cases before
        | some heldClaims =>
          rw [held] at before
          exact holds.recent _ _ held nodeID found before
    have keyed : ClaimsKeyed stored :=
      (claims.insertKnownClaim record).keyed record.blockHash stored
        (by rw [recent, AList.lookup_insert])
    have nonempty : (nodeIDsOf stored).Nonempty :=
      ⟨record.nodeID, (mem_nodeIDsOf stored).2 (by rw [own]; rfl)⟩
    obtain ⟨won, -⟩ := selectWinner_spec stored keyed nonempty
    refine ⟨sinkCleared, ?_, ?_⟩
    · rw [recent]
      exact holds.recent.insert ofBlock
    · rw [winning]
      exact holds.winners.insert (ofBlock _ _ won)

end Keyed

/-! ## IngestClaim -/

theorem ingestClaim_keyed (crypto : ClaimCrypto) (engine : Engine) {state : EngineState}
    (holds : SnapshotKeyed state) (claims : ClaimsInvariant state)
    (message : Option MsgBlockProducerClaimV1) (hardforkActive blockKnown : Bool)
    (expectedNodeID : Option NodeID) (nowMs : UInt64) :
    SnapshotKeyed
      (ingestClaim crypto engine state message hardforkActive blockKnown expectedNodeID nowMs).2 := by
  have cleaned : SnapshotKeyed (cleanupPendingUnknownClaims state nowMs) :=
    holds.congr rfl rfl rfl rfl
  rcases ingestClaim_cases crypto engine state message hardforkActive blockKnown expectedNodeID
    nowMs with same | ⟨record, _, enqueued | inserted⟩
  · rw [same]
    exact holds
  · -- an enqueue replaces the pending pool only
    obtain ⟨_, only⟩ := enqueuePendingUnknownClaim_pendingOnly
      (cleanupPendingUnknownClaims state nowMs) nowMs record
    rw [enqueued, only]
    exact cleaned.congr rfl rfl rfl rfl
  · rw [inserted]
    exact (cleaned.insertKnownClaim (claims.congr rfl rfl) record).congr rfl rfl rfl rfl

/-! ## ApplyChainPathUpdate, pass by pass -/

/-- What the passes of a chain update keep: the chain invariant, which the claim
insertions need, and the keyed state. -/
def KeyedPass (acc : Bool × EngineState) : Prop :=
  ChainInvariant acc.2 ∧ SnapshotKeyed acc.2

section Passes

variable {acc : Bool × EngineState}

theorem passInvariant_self (chain : ChainInvariant acc.2) : PassInvariant acc.2 acc :=
  ⟨chain, fun _ => ⟨rfl, fun _ => rfl, rfl⟩⟩

theorem dropFromWindow_keyed (holds : SnapshotKeyed acc.2) (key : DomainHash) :
    SnapshotKeyed (dropFromWindow acc key).2 := by
  unfold dropFromWindow
  split_ifs
  · exact holds.congr rfl rfl rfl rfl
  · exact holds

theorem dropFromRetention_keyed (holds : SnapshotKeyed acc.2) (key : DomainHash) :
    SnapshotKeyed (dropFromRetention acc key).2 := by
  unfold dropFromRetention
  split_ifs
  · exact holds.congr rfl rfl rfl rfl
  · exact holds

theorem addToRetention_keyed (holds : SnapshotKeyed acc.2) (key : DomainHash) :
    SnapshotKeyed (addToRetention acc key).2 := by
  unfold addToRetention
  split_ifs
  · exact holds.congr rfl rfl rfl rfl
  · exact holds

theorem addToWindow_keyed (holds : SnapshotKeyed acc.2) (key : DomainHash) :
    SnapshotKeyed (addToWindow acc key).2 := by
  unfold addToWindow
  split_ifs
  · exact holds.congr rfl rfl rfl rfl
  · exact holds

theorem removeChainBlock_keyed (holds : KeyedPass acc) (removed : Option DomainHash) :
    KeyedPass (removeChainBlock acc removed) := by
  refine ⟨(removeChainBlock_pass (passInvariant_self holds.1) removed).1, ?_⟩
  cases removed with
  | none => exact holds.2
  | some key => exact (dropFromRetention_keyed (dropFromWindow_keyed holds.2 key) key).purge key

theorem promoteStep_keyed (record : ClaimRecord) (holds : KeyedPass acc) :
    KeyedPass (promoteStep acc record) :=
  ⟨(promoteStep_spec acc record holds.1).1, holds.2.insertKnownClaim holds.1.claims record⟩

theorem promotePendingUnknownClaimsForBlock_keyed {state : EngineState} (blockHash : DomainHash)
    (chain : ChainInvariant state) (holds : SnapshotKeyed state) :
    SnapshotKeyed (promotePendingUnknownClaimsForBlock state blockHash).2 := by
  unfold promotePendingUnknownClaimsForBlock
  split
  · exact holds
  · exact holds
  · -- the fold of promoted claims, from the state without the block's pending list
    have initial : KeyedPass (false,
        { state with pendingUnknownClaims := state.pendingUnknownClaims.erase blockHash }) :=
      ⟨⟨chain.window, chain.retention, chain.claims.congr rfl rfl⟩, holds.congr rfl rfl rfl rfl⟩
    exact (@Transition.foldl_invariant _ _ KeyedPass promoteStep
      (fun _ record kept => promoteStep_keyed record kept) _ _ initial).2

theorem addChainBlock_keyed (holds : KeyedPass acc) (added : Option DomainHash) :
    KeyedPass (addChainBlock acc added) := by
  refine ⟨(addChainBlock_pass (passInvariant_self holds.1) added).1, ?_⟩
  cases added with
  | none => exact holds.2
  | some key =>
    have chain := (addToWindow_pass (addToRetention_pass (passInvariant_self holds.1) key) key).1
    exact promotePendingUnknownClaimsForBlock_keyed key chain
      (addToWindow_keyed (addToRetention_keyed holds.2 key) key)

theorem evictWindowHashes_keyed : ∀ (hashes : List DomainHash) (acc : Bool × EngineState),
    SnapshotKeyed acc.2 → SnapshotKeyed (evictWindowHashes hashes acc).2
  | [], _, holds => holds
  | evicted :: rest, acc, holds => by
    unfold evictWindowHashes
    split_ifs
    · exact evictWindowHashes_keyed rest _ (holds.congr rfl rfl rfl rfl)
    · exact holds

theorem evictRetentionHashes_keyed : ∀ (hashes : List DomainHash) (acc : Bool × EngineState),
    SnapshotKeyed acc.2 → SnapshotKeyed (evictRetentionHashes hashes acc).2
  | [], _, holds => holds
  | evicted :: rest, acc, holds => by
    unfold evictRetentionHashes
    split_ifs
    · have trimmed : SnapshotKeyed { acc.2 with
          retentionHashes := rest, retentionSet := acc.2.retentionSet.erase evicted } :=
        holds.congr rfl rfl rfl rfl
      exact evictRetentionHashes_keyed rest _ (trimmed.purge evicted)
    · exact holds

end Passes

theorem updatePass_keyed (state : EngineState) (chain : ChainInvariant state)
    (holds : SnapshotKeyed state) (path : SelectedChainPath) (newSink : DomainHash)
    (nowMs : UInt64) : SnapshotKeyed (updatePass state path newSink nowMs).2 := by
  have removed := @Transition.foldl_invariant _ _ KeyedPass removeChainBlock
    (fun _ removed kept => removeChainBlock_keyed kept removed) path.removed (false, state)
    ⟨chain, holds⟩
  have added := @Transition.foldl_invariant _ _ KeyedPass addChainBlock
    (fun _ added kept => addChainBlock_keyed kept added) path.added _ removed
  set passed := path.added.foldl addChainBlock (path.removed.foldl removeChainBlock (false, state))
  have windowEvicted := evictWindowHashes_keyed passed.2.windowHashes passed added.2
  set windowPassed := evictWindowHashes passed.2.windowHashes passed
  have evicted :=
    evictRetentionHashes_keyed windowPassed.2.retentionHashes windowPassed windowEvicted
  unfold updatePass
  dsimp only
  split_ifs
  · exact ⟨fun absent => (by cases absent), evicted.recent, evicted.winners⟩
  · exact evicted.congr rfl rfl rfl rfl

theorem applyChainPathUpdate_keyed (engine : Engine) (state : EngineState)
    (chain : ChainInvariant state) (holds : SnapshotKeyed state) (path : Option SelectedChainPath)
    (newSink : Option DomainHash) (hardforkActive : Bool) (nowMs : UInt64) :
    SnapshotKeyed (applyChainPathUpdate engine state path newSink hardforkActive nowMs) := by
  cases path with
  | none => exact holds
  | some path =>
    cases newSink with
    | none => exact holds
    | some newSink =>
      have passed := updatePass_keyed state chain holds path newSink nowMs
      rw [applyChainPathUpdate_eq]
      split_ifs
      · exact holds
      · -- recomputing the scores touches neither the sink nor the claims
        exact passed.congr rfl rfl rfl rfl
      · exact passed

/-! ## Runs -/

section Runs

variable (crypto : ClaimCrypto) (engine : Engine)

theorem SnapshotKeyed.exec {state : EngineState} (invariant : EngineInvariant state)
    (holds : SnapshotKeyed state) (call : EngineCall) :
    SnapshotKeyed (call.exec crypto engine state) := by
  cases call with
  | ingestClaim message hardforkActive blockKnown expectedNodeID nowMs =>
    exact ingestClaim_keyed crypto engine holds invariant.chain.claims message hardforkActive
      blockKnown expectedNodeID nowMs
  | applyChainPathUpdate path newSink hardforkActive nowMs =>
    exact applyChainPathUpdate_keyed engine state invariant.chain holds path newSink
      hardforkActive nowMs

theorem snapshotKeyed_run {start final : EngineState} {calls : List EngineCall}
    (invariant : EngineInvariant start) (holds : SnapshotKeyed start)
    (run : Transition.Trace (EngineStep crypto engine) start calls final) :
    EngineInvariant final ∧ SnapshotKeyed final := by
  refine @Transition.Trace.invariant _ _ _ (fun state => EngineInvariant state ∧ SnapshotKeyed state)
    _ ⟨invariant, holds⟩ (fun state call state' kept stepped => ?_) _ _ run
  rw [EngineStep] at stepped
  rw [← stepped]
  exact ⟨kept.1.exec crypto engine call, kept.2.exec crypto engine kept.1 call⟩

end Runs

section Decoded

variable (crypto : ClaimCrypto) (networkCode : UInt8)

theorem decodeWinnerStep_keyed {state state' : EngineState} {winner : ClaimDiskRecord}
    (holds : SnapshotKeyed state)
    (decoded : decodeWinnerStep crypto networkCode state winner = .ok state') :
    SnapshotKeyed state' := by
  rcases decodeWinnerStep_cases crypto networkCode decoded with same | ⟨record, stored⟩
  · rw [same]
    exact holds
  · rw [stored]
    exact ⟨holds.sinkCleared, holds.recent.insert (entriesSatisfy_empty.insert rfl),
      holds.winners.insert rfl⟩

/-- A decoded snapshot is keyed: its sink is set only from a persisted one, and each
winner is stored under the block it names. -/
theorem SnapshotKeyed.decodeStateDisk {disk : ClaimStateDisk} {state : EngineState}
    (decoded : StrongNodeClaims.decodeStateDisk crypto disk networkCode = .ok state) :
    SnapshotKeyed state := by
  obtain ⟨_, _, _, _, restored, cleared, -, -, winnersDecoded, rfl⟩ :=
    decodeStateDisk_cases crypto networkCode decoded
  have restoredKeyed : SnapshotKeyed restored :=
    @Transition.foldlM_invariant _ _ _ SnapshotKeyed _
      (fun _ _ _ holds stepped => decodeWinnerStep_keyed crypto networkCode holds stepped)
      disk.winners _ restored ⟨cleared, entriesSatisfy_empty, entriesSatisfy_empty⟩ winnersDecoded
  exact restoredKeyed.congr rfl rfl rfl rfl

end Decoded

/-! ## The snapshot read back -/

section RoundTrip

variable (crypto : ClaimCrypto) (networkCode : UInt8)

theorem decodeWinnerStep_encode (state : EngineState) {winner : ClaimRecord}
    (valid : claimRecordIsValid crypto winner networkCode = true) :
    decodeWinnerStep crypto networkCode state (claimDiskRecordOf winner) = .ok { state with
      winningClaimByBlock := state.winningClaimByBlock.insert winner.blockHash winner
      recentClaimsByBlock := state.recentClaimsByBlock.insert winner.blockHash
        ((∅ : Map NodeID ClaimRecord).insert winner.nodeID winner) } := by
  unfold decodeWinnerStep
  dsimp only [claimDiskRecordOf]
  simp only [decodeHex32_encode, decodeHex32_encode winner.nodeID, decodeHex64,
    decodeHexBytes_encode, wrapError, bind, Except.bind, pure, Except.pure]
  have eta : (⟨winner.blockHash, winner.nodeID, winner.pubKeyXOnly, winner.powNonce, winner.signature,
    winner.claimID, winner.receivedAtMs⟩ : ClaimRecord) = winner := rfl
  simp only [eta, valid]
  rfl

/-- Valid winners stored under their own blocks, written for distinct blocks they
hold, are read back as those blocks' winners; the other winners stay as they were. -/
theorem decodeWinners_encode (winners : Map DomainHash ClaimRecord)
    (keyed : EntriesSatisfy ClaimOfBlock winners)
    (valid : ∀ blockHash winner, winners.lookup blockHash = some winner →
      claimRecordIsValid crypto winner networkCode = true) :
    ∀ (blocks : List DomainHash) (state : EngineState), blocks.Nodup →
      (∀ blockHash ∈ blocks, blockHash ∈ winners) →
      ∃ winning recent, (blocks.map fun blockHash =>
          claimDiskRecordOf ((winners.lookup blockHash).getD emptyClaimRecord)).foldlM
            (decodeWinnerStep crypto networkCode) state =
          .ok { state with winningClaimByBlock := winning, recentClaimsByBlock := recent } ∧
        ∀ blockHash, winning.lookup blockHash =
          if blockHash ∈ blocks then winners.lookup blockHash
          else state.winningClaimByBlock.lookup blockHash
  | [], state, _, _ =>
    ⟨state.winningClaimByBlock, state.recentClaimsByBlock, rfl, fun blockHash => by simp⟩
  | blockHash :: rest, state, nodup, held => by
    rw [List.nodup_cons] at nodup
    obtain ⟨winner, found⟩ : ∃ winner, winners.lookup blockHash = some winner :=
      Option.isSome_iff_exists.1 (AList.lookup_isSome.2 (held blockHash List.mem_cons_self))
    have own : winner.blockHash = blockHash := keyed blockHash winner found
    obtain ⟨winning, recent, decoded, lookups⟩ := decodeWinners_encode winners keyed valid rest
      { state with
        winningClaimByBlock := state.winningClaimByBlock.insert winner.blockHash winner
        recentClaimsByBlock := state.recentClaimsByBlock.insert winner.blockHash
          ((∅ : Map NodeID ClaimRecord).insert winner.nodeID winner) }
      nodup.2 (fun other member => held other (List.mem_cons_of_mem _ member))
    refine ⟨winning, recent, ?_, fun other => ?_⟩
    · rw [List.map_cons, List.foldlM_cons, found, Option.getD_some,
        decodeWinnerStep_encode crypto networkCode state (valid blockHash winner found)]
      exact decoded
    · rw [lookups other]
      by_cases here : other = blockHash
      · subst here
        simp [nodup.1, found, own]
      · simp [here, own, AList.lookup_insert_ne here]

theorem decodeLastSink_persist {state : EngineState} (holds : SnapshotKeyed state) :
    decodeLastSink (persistStateDisk state).lastSink = .ok { newEngineState with
      lastSinkHash := state.lastSinkHash, hasLastSink := state.hasLastSink } := by
  cases sink : state.hasLastSink with
  | false =>
    simp only [persistStateDisk, sink, Bool.false_eq_true, if_false, decodeLastSink,
      holds.sinkCleared sink]
    rfl
  | true =>
    have written : Hex.encode state.lastSinkHash.toList ≠ [] := by
      rw [← List.length_pos_iff, Hex.length_encode, state.lastSinkHash.length_toList]
      decide
    simp only [persistStateDisk, sink, if_true, decodeLastSink, written, if_false,
      decodeHex32_encode, wrapError]
    rfl

/-- A state with both invariants, whose winners are valid for the network, is read
back from its snapshot with its sink, its lists, its winners, its conflict total and
its scores. -/
theorem decodeStateDisk_persistStateDisk {state : EngineState} (invariant : EngineInvariant state)
    (holds : SnapshotKeyed state)
    (valid : ∀ blockHash winner, state.winningClaimByBlock.lookup blockHash = some winner →
      claimRecordIsValid crypto winner networkCode = true) :
    ∃ decoded, decodeStateDisk crypto (persistStateDisk state) networkCode = .ok decoded ∧
      decoded.hasLastSink = state.hasLastSink ∧ decoded.lastSinkHash = state.lastSinkHash ∧
      decoded.windowHashes = state.windowHashes ∧ decoded.retentionHashes = state.retentionHashes ∧
      (∀ blockHash, decoded.winningClaimByBlock.lookup blockHash =
        state.winningClaimByBlock.lookup blockHash) ∧
      decoded.conflictTotal = state.conflictTotal ∧
      (∀ nodeID, decoded.scoreByNodeID.lookup nodeID = state.scoreByNodeID.lookup nodeID) := by
  -- the two lists keep no hash twice, so the decoder's dedup keeps them whole
  obtain ⟨windowSet, windowDecoded⟩ := decodeHashes_encode "invalid persisted window hash"
    state.windowHashes ([], ∅) invariant.chain.window.nodup (fun _ _ => rfl)
  obtain ⟨retentionSet, retentionDecoded⟩ := decodeHashes_encode "invalid persisted retention hash"
    state.retentionHashes ([], ∅) invariant.chain.retention.nodup (fun _ _ => rfl)
  have sorted := List.mergeSort_perm state.winningClaimByBlock.keys
    (fun a b => decide (a.toList.map UInt8.toNat ≤ b.toList.map UInt8.toNat))
  have members : ∀ blockHash, blockHash ∈ sortedWinnerHashes state.winningClaimByBlock ↔
      blockHash ∈ state.winningClaimByBlock :=
    fun blockHash => sorted.mem_iff.trans AList.mem_keys.symm
  obtain ⟨winning, recent, winnersDecoded, lookups⟩ := decodeWinners_encode crypto networkCode
    state.winningClaimByBlock holds.winners valid (sortedWinnerHashes state.winningClaimByBlock)
    { newEngineState with
      lastSinkHash := state.lastSinkHash, hasLastSink := state.hasLastSink,
      windowHashes := state.windowHashes, windowSet := windowSet,
      retentionHashes := state.retentionHashes, retentionSet := retentionSet }
    (sorted.nodup_iff.2 state.winningClaimByBlock.keys_nodup)
    (fun blockHash member => (members blockHash).1 member)
  have sameWinners : ∀ blockHash,
      winning.lookup blockHash = state.winningClaimByBlock.lookup blockHash := by
    intro blockHash
    rw [lookups blockHash]
    split_ifs with member
    · rfl
    · rw [members] at member
      exact (AList.lookup_eq_none.2 member).symm
  let restored : EngineState := { newEngineState with
    lastSinkHash := state.lastSinkHash, hasLastSink := state.hasLastSink,
    windowHashes := state.windowHashes, windowSet := windowSet,
    retentionHashes := state.retentionHashes, retentionSet := retentionSet,
    winningClaimByBlock := winning, recentClaimsByBlock := recent,
    conflictTotal := state.conflictTotal }
  refine ⟨recomputeScores restored, ?_, rfl, rfl, rfl, rfl, sameWinners, rfl, fun nodeID => ?_⟩
  · unfold decodeStateDisk
    simp only [persistStateDisk, ne_eq, not_true_eq_false, if_false]
    exact Except.bind_eq_ok.2 ⟨_, decodeLastSink_persist holds, Except.bind_eq_ok.2 ⟨_, windowDecoded,
      Except.bind_eq_ok.2 ⟨_, retentionDecoded, Except.bind_eq_ok.2 ⟨_, winnersDecoded, rfl⟩⟩⟩⟩
  · -- both score maps count the wins of the same window
    have sameWins : windowWins restored = windowWins state :=
      funext fun nodeID => winsIn_congr _ _ (fun blockHash _ => sameWinners blockHash) nodeID
    rw [recomputeScores_count restored nodeID, invariant.scores nodeID, sameWins]

end RoundTrip

/-- Every state a run reaches, from a fresh state or from a decoded snapshot, is read
back from what `persistState` writes for it, as long as its winners are valid claims
for the engine's network. -/
theorem persistState_roundTrip (crypto : ClaimCrypto) (engine : Engine)
    {start state : EngineState} {calls : List EngineCall}
    (origin : start = newEngineState ∨ ∃ disk networkCode,
      decodeStateDisk crypto disk networkCode = .ok start ∧ disk.windowHashes.length < 2 ^ 32)
    (run : Transition.Trace (EngineStep crypto engine) start calls state)
    (valid : ∀ blockHash winner, state.winningClaimByBlock.lookup blockHash = some winner →
      claimRecordIsValid crypto winner engine.networkCode = true) :
    ∃ decoded, decodeStateDisk crypto (persistStateDisk state) engine.networkCode = .ok decoded ∧
      decoded.hasLastSink = state.hasLastSink ∧ decoded.lastSinkHash = state.lastSinkHash ∧
      decoded.windowHashes = state.windowHashes ∧ decoded.retentionHashes = state.retentionHashes ∧
      (∀ blockHash, decoded.winningClaimByBlock.lookup blockHash =
        state.winningClaimByBlock.lookup blockHash) ∧
      decoded.conflictTotal = state.conflictTotal ∧
      (∀ nodeID, decoded.scoreByNodeID.lookup nodeID = state.scoreByNodeID.lookup nodeID) := by
  have init : EngineInvariant start ∧ SnapshotKeyed start := by
    rcases origin with fresh | ⟨disk, networkCode, decoded, fits⟩
    · rw [fresh]
      exact ⟨EngineInvariant.newEngineState, SnapshotKeyed.newEngineState⟩
    · exact ⟨EngineInvariant.decodeStateDisk crypto networkCode decoded fits,
        SnapshotKeyed.decodeStateDisk crypto networkCode decoded⟩
  obtain ⟨invariant, keyed⟩ := snapshotKeyed_run crypto engine init.1 init.2 run
  exact decodeStateDisk_persistStateDisk crypto engine.networkCode invariant keyed valid

def oneClaimFinal : EngineState :=
  (ingestFrom 1).exec acceptingCrypto claimsEngine newEngineState

theorem persistState_roundTrip_oneClaim :
    ∃ decoded, decodeStateDisk acceptingCrypto (persistStateDisk oneClaimFinal)
        claimsEngine.networkCode = .ok decoded ∧
      decoded.hasLastSink = oneClaimFinal.hasLastSink ∧
      decoded.lastSinkHash = oneClaimFinal.lastSinkHash ∧
      decoded.windowHashes = oneClaimFinal.windowHashes ∧
      decoded.retentionHashes = oneClaimFinal.retentionHashes ∧
      (∀ blockHash, decoded.winningClaimByBlock.lookup blockHash =
        oneClaimFinal.winningClaimByBlock.lookup blockHash) ∧
      decoded.conflictTotal = oneClaimFinal.conflictTotal ∧
      (∀ nodeID, decoded.scoreByNodeID.lookup nodeID =
        oneClaimFinal.scoreByNodeID.lookup nodeID) := by
  have stepped : EngineStep acceptingCrypto claimsEngine newEngineState (ingestFrom 1)
      oneClaimFinal := rfl
  have winners : oneClaimFinal.winningClaimByBlock = (∅ : Map DomainHash ClaimRecord).insert
      (copyBytes 32 (List.replicate 32 7))
      ⟨copyBytes 32 (List.replicate 32 7), copyBytes 32 (List.replicate 32 1),
        copyBytes 32 (List.replicate 32 1), 0, copyBytes 64 (List.replicate 64 0),
        copyBytes 32 (List.replicate 32 7), 0⟩ := rfl
  refine persistState_roundTrip acceptingCrypto claimsEngine (.inl rfl)
    (Transition.Trace.single stepped) fun blockHash winner found => ?_
  rw [winners] at found
  by_cases same : blockHash = copyBytes 32 (List.replicate 32 7)
  · rw [same, AList.lookup_insert, Option.some.injEq] at found
    rw [← found]
    decide
  · rw [AList.lookup_insert_ne same] at found
    cases found

end Cryptixd.StrongNodeClaims
