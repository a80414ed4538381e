import Mathlib
import Cryptixd.Lib.Trace
import Cryptixd.StrongNodeClaims.ChainPath

/-!
# The claim engine over whole runs

`EngineInvariant` is what every state the engine reaches keeps: the chain
invariant (the window and retention lists with their sets, the per-block claims),
a window of fewer than `2 ^ 32` blocks, scores that count the window's wins, and
at most `PENDING_UNKNOWN_CLAIMS_CAP` pending claims.

A fresh state holds it, and so does a decoded snapshot whose window list is
shorter than `2 ^ 32`: `decodeStateDisk` dedups the lists, stores each winner as a
one-claim block and rebuilds the scores. `IngestClaim` keeps it, since cleanup and
enqueue touch only the pending pool and a known claim moves one block's winner
with the matching score change (`EngineInvariant.ingestClaim`).
`ApplyChainPathUpdate` keeps it by the pass lemmas of `ChainPath`. So every run
keeps it (`engineInvariant_run`).

The length bounds are another matter. An update past its guard trims both lists,
but an ignored update leaves a decoded snapshot's overlong lists as they are.
From a fresh state the bounds hold throughout (`withinBounds_run`).
-/

set_option autoImplicit false

namespace Cryptixd.StrongNodeClaims

open Cryptixd.Atomic

/-- What every reachable engine state keeps. -/
structure EngineInvariant (state : EngineState) : Prop where
  chain : ChainInvariant state
  windowFits : state.windowHashes.length < 2 ^ 32
  scores : ScoresCount state.scoreByNodeID (windowWins state)
  pendingCapped : pendingClaimsCount state.pendingUnknownClaims ≤ pendingUnknownClaimsCap

/-- The window within `CLAIM_WINDOW_SIZE_BLOCKS` and the retention list within
`CLAIM_WINDOW_SIZE_BLOCKS + CLAIM_REORG_MARGIN_BLOCKS`. -/
def WithinBounds (state : EngineState) : Prop :=
  state.windowHashes.length ≤ claimWindowSizeBlocks ∧
    state.retentionHashes.length ≤ claimWindowSizeBlocks + claimReorgMarginBlocks

theorem ClaimsInvariant.of_empty {state : EngineState} (recent : state.recentClaimsByBlock = ∅)
    (winning : state.winningClaimByBlock = ∅) : ClaimsInvariant state where
  capped := by
    intro blockHash claims lookedUp
    rw [recent] at lookedUp
    cases lookedUp
  keyed := by
    intro blockHash claims lookedUp
    rw [recent] at lookedUp
    cases lookedUp
  winner := by
    intro blockHash nodeID
    simp only [winnerNodeID, retainedNodeIDs, recent, winning, AList.lookup_empty,
      Option.map_none, Option.getD_none, nodeIDsOf_empty, Finset.coe_empty, reduceCtorEq,
      false_iff]
    exact fun least => least.1

section Frame

variable {state state' : EngineState}

theorem EngineInvariant.congr (holds : EngineInvariant state)
    (window : state'.windowHashes = state.windowHashes) (windowSet : state'.windowSet = state.windowSet)
    (retention : state'.retentionHashes = state.retentionHashes)
    (retentionSet : state'.retentionSet = state.retentionSet)
    (recent : state'.recentClaimsByBlock = state.recentClaimsByBlock)
    (winning : state'.winningClaimByBlock = state.winningClaimByBlock)
    (score : state'.scoreByNodeID = state.scoreByNodeID)
    (pending : pendingClaimsCount state'.pendingUnknownClaims ≤ pendingUnknownClaimsCap) :
    EngineInvariant state' where
  chain := by
    refine ⟨?_, ?_, holds.chain.claims.congr recent winning⟩
    · rw [window, windowSet]
      exact holds.chain.window
    · rw [retention, retentionSet]
      exact holds.chain.retention
  windowFits := window ▸ holds.windowFits
  scores := by
    rw [score, windowWins, window, winning]
    exact holds.scores
  pendingCapped := pending

theorem EngineInvariant.setDirty (holds : EngineInvariant state) (dirty : Bool) :
    EngineInvariant { state with dirty := dirty } :=
  holds.congr rfl rfl rfl rfl rfl rfl rfl holds.pendingCapped

theorem EngineInvariant.cleanup (holds : EngineInvariant state) (nowMs : UInt64) :
    EngineInvariant (cleanupPendingUnknownClaims state nowMs) :=
  holds.congr rfl rfl rfl rfl rfl rfl rfl (pendingClaimsCount_cleanupPendingUnknownClaims state nowMs)

theorem EngineInvariant.enqueue (holds : EngineInvariant state) (record : ClaimRecord)
    (nowMs : UInt64) : EngineInvariant (enqueuePendingUnknownClaim state record nowMs).2 := by
  obtain ⟨window, windowSet, retention, retentionSet, recent, winning, score⟩ :=
    enqueuePendingUnknownClaim_frame state nowMs record
  exact holds.congr window windowSet retention retentionSet recent winning score
    (pendingClaimsCount_enqueuePendingUnknownClaim state nowMs record holds.pendingCapped)

/-- A known claim moves one block's winner; for a window block the score moves with
it, and a block outside the window counts for nobody. -/
theorem insertKnownClaim_scores (holds : EngineInvariant state) (record : ClaimRecord) :
    ScoresCount (insertKnownClaim state record).2.scoreByNodeID
      (windowWins (insertKnownClaim state record).2) := by
  rw [windowWins, insertKnownClaim_windowHashes]
  rcases insertKnownClaim_cases state record with
    ⟨-, -, winning, score, -⟩ | ⟨claims, -, -, -, -, -, winning, score⟩
  · rw [winning, score]
    exact holds.scores
  · rw [winning, score]
    split_ifs with inWindow
    · have member : record.blockHash ∈ state.windowHashes :=
        (holds.chain.window.mem record.blockHash).1 inWindow
      exact rescoreWinner_count holds.chain.window.nodup holds.windowFits holds.scores member _
    · have outside : record.blockHash ∉ state.windowHashes :=
        fun member => inWindow ((holds.chain.window.mem record.blockHash).2 member)
      exact holds.scores.congr fun nodeID =>
        (winsIn_insert_of_notMem _ _ outside (selectWinner claims) nodeID).symm

theorem EngineInvariant.insertKnownClaim (holds : EngineInvariant state) (record : ClaimRecord) :
    EngineInvariant (StrongNodeClaims.insertKnownClaim state record).2 where
  chain := by
    refine ⟨?_, ?_, holds.chain.claims.insertKnownClaim record⟩
    · rw [insertKnownClaim_windowHashes, insertKnownClaim_windowSet]
      exact holds.chain.window
    · rw [insertKnownClaim_retentionHashes, insertKnownClaim_retentionSet]
      exact holds.chain.retention
  windowFits := by
    rw [insertKnownClaim_windowHashes]
    exact holds.windowFits
  scores := insertKnownClaim_scores holds record
  pendingCapped := by
    rw [insertKnownClaim_pendingUnknownClaims]
    exact holds.pendingCapped

end Frame

/-! ## IngestClaim -/

/-- The states a validated claim can leave: the cleaned state after an enqueue or
after an insertion, with the dirty flag set or not. -/
def IngestResult (state : EngineState) (record : ClaimRecord) (nowMs : UInt64)
    (after : EngineState) : Prop :=
  ∃ dirty : Bool,
    after = { (enqueuePendingUnknownClaim (cleanupPendingUnknownClaims state nowMs) record
      nowMs).2 with dirty := dirty } ∨
    after = { (insertKnownClaim (cleanupPendingUnknownClaims state nowMs) record).2 with
      dirty := dirty }

section Ingest

variable (crypto : ClaimCrypto) (engine : Engine) (state : EngineState)

theorem ingestClaim_cases (message : Option MsgBlockProducerClaimV1)
    (hardforkActive blockKnown : Bool) (expectedNodeID : Option NodeID) (nowMs : UInt64) :
    (ingestClaim crypto engine state message hardforkActive blockKnown expectedNodeID nowMs).2 =
        state ∨
      ∃ record, IngestResult state record nowMs
        (ingestClaim crypto engine state message hardforkActive blockKnown expectedNodeID nowMs).2 := by
  unfold ingestClaim
  split_ifs with ignored
  · exact .inl rfl
  cases message with
  | none => exact .inl rfl
  | some message =>
    dsimp only
    cases validateClaimMessage crypto message engine.networkCode nowMs with
    | error _ => exact .inl rfl
    | ok record =>
      dsimp only
      split_ifs
      · exact .inl rfl
      · exact .inr ⟨record, _, .inl rfl⟩
      · exact .inr ⟨record, true, .inl rfl⟩
      · exact .inr ⟨record, _, .inr rfl⟩
      · exact .inr ⟨record, true, .inr rfl⟩

theorem EngineInvariant.ingestClaim {state : EngineState} (holds : EngineInvariant state)
    (message : Option MsgBlockProducerClaimV1) (hardforkActive blockKnown : Bool)
    (expectedNodeID : Option NodeID) (nowMs : UInt64) :
    EngineInvariant
      (StrongNodeClaims.ingestClaim crypto engine state message hardforkActive blockKnown
        expectedNodeID nowMs).2 := by
  rcases ingestClaim_cases crypto engine state message hardforkActive blockKnown expectedNodeID
    nowMs with same | ⟨record, _, enqueued | inserted⟩
  · rw [same]
    exact holds
  · rw [enqueued]
    exact ((holds.cleanup nowMs).enqueue record nowMs).setDirty _
  · rw [inserted]
    exact ((holds.cleanup nowMs).insertKnownClaim record).setDirty _

end Ingest

/-! ## ApplyChainPathUpdate -/

section Apply

variable (engine : Engine) (state : EngineState)

theorem applyChainPathUpdate_cases (path : Option SelectedChainPath)
    (newSink : Option DomainHash) (hardforkActive : Bool) (nowMs : UInt64)
    (chain : ChainInvariant state) :
    applyChainPathUpdate engine state path newSink hardforkActive nowMs = state ∨
      WithinBounds (applyChainPathUpdate engine state path newSink hardforkActive nowMs) ∧
      pendingClaimsCount
        (applyChainPathUpdate engine state path newSink hardforkActive nowMs).pendingUnknownClaims ≤
          pendingUnknownClaimsCap := by
  cases path with
  | none => exact .inl rfl
  | some path =>
    cases newSink with
    | none => exact .inl rfl
    | some newSink =>
      by_cases guard : (!engine.enabled || !hardforkActive) = true
      · left
        rw [applyChainPathUpdate_eq, if_pos guard]
      · right
        simp only [Bool.or_eq_true, Bool.not_eq_eq_eq_not, Bool.not_true, not_or,
          Bool.not_eq_false] at guard
        obtain ⟨window, retention, pending⟩ :=
          applyChainPathUpdate_bounds engine state chain path newSink hardforkActive nowMs
            guard.1 guard.2
        exact ⟨⟨window, retention⟩, pending⟩

theorem EngineInvariant.applyChainPathUpdate {state : EngineState} (holds : EngineInvariant state)
    (path : Option SelectedChainPath) (newSink : Option DomainHash) (hardforkActive : Bool)
    (nowMs : UInt64) :
    EngineInvariant
      (StrongNodeClaims.applyChainPathUpdate engine state path newSink hardforkActive nowMs) := by
  have chain := applyChainPathUpdate_chain engine state holds.chain path newSink hardforkActive nowMs
  have scores := applyChainPathUpdate_scores engine state holds.chain holds.scores path newSink
    hardforkActive nowMs
  rcases applyChainPathUpdate_cases engine state path newSink hardforkActive nowMs holds.chain with
    same | ⟨⟨window, -⟩, pending⟩
  · rw [same]
    exact holds
  · refine ⟨chain, ?_, scores, pending⟩
    calc _ ≤ claimWindowSizeBlocks := window
      _ < 2 ^ 32 := by decide

end Apply

/-! ## Runs -/

section Runs

variable (crypto : ClaimCrypto) (engine : Engine)

theorem EngineInvariant.exec {state : EngineState} (holds : EngineInvariant state)
    (call : EngineCall) : EngineInvariant (call.exec crypto engine state) := by
  cases call with
  | ingestClaim message hardforkActive blockKnown expectedNodeID nowMs =>
    exact holds.ingestClaim crypto engine message hardforkActive blockKnown expectedNodeID nowMs
  | applyChainPathUpdate path newSink hardforkActive nowMs =>
    exact holds.applyChainPathUpdate engine path newSink hardforkActive nowMs

theorem engineInvariant_run {start final : EngineState} {calls : List EngineCall}
    (init : EngineInvariant start)
    (run : Transition.Trace (EngineStep crypto engine) start calls final) :
    EngineInvariant final := by
  refine run.invariant init fun state call state' holds stepped => ?_
  rw [EngineStep] at stepped
  rw [← stepped]
  exact holds.exec crypto engine call

theorem WithinBounds.exec {state : EngineState} (holds : EngineInvariant state)
    (bounded : WithinBounds state) (call : EngineCall) :
    WithinBounds (call.exec crypto engine state) := by
  cases call with
  | ingestClaim message hardforkActive blockKnown expectedNodeID nowMs =>
    rcases ingestClaim_cases crypto engine state message hardforkActive blockKnown expectedNodeID
      nowMs with same | ⟨record, _, enqueued | inserted⟩
    · rw [EngineCall.exec, same]
      exact bounded
    · obtain ⟨window, -, retention, -⟩ :=
        enqueuePendingUnknownClaim_frame (cleanupPendingUnknownClaims state nowMs) nowMs record
      rw [EngineCall.exec, enqueued, WithinBounds]
      dsimp only
      rw [window, retention]
      exact bounded
    · rw [EngineCall.exec, inserted, WithinBounds]
      dsimp only
      rw [insertKnownClaim_windowHashes, insertKnownClaim_retentionHashes]
      exact bounded
  | applyChainPathUpdate path newSink hardforkActive nowMs =>
    rcases applyChainPathUpdate_cases engine state path newSink hardforkActive nowMs holds.chain
      with same | ⟨trimmed, -⟩
    · rw [EngineCall.exec, same]
      exact bounded
    · exact trimmed

theorem withinBounds_run {start final : EngineState} {calls : List EngineCall}
    (init : EngineInvariant start) (bounded : WithinBounds start)
    (run : Transition.Trace (EngineStep crypto engine) start calls final) :
    WithinBounds final := by
  refine (@Transition.Trace.invariant _ _ _ (fun state => EngineInvariant state ∧ WithinBounds state)
    _ ⟨init, bounded⟩ (fun state call state' holds stepped => ?_) _ _ run).2
  rw [EngineStep] at stepped
  rw [← stepped]
  exact ⟨holds.1.exec crypto engine call, holds.2.exec crypto engine holds.1 call⟩

end Runs

/-! ## Where runs start -/

theorem EngineInvariant.newEngineState : EngineInvariant newEngineState where
  chain := ⟨listedSet_empty, listedSet_empty, ClaimsInvariant.of_empty rfl rfl⟩
  windowFits := Nat.two_pow_pos 32
  scores := scoresCount_empty.congr fun _ => rfl
  pendingCapped := Nat.zero_le _

theorem withinBounds_newEngineState : WithinBounds newEngineState :=
  ⟨Nat.zero_le _, Nat.zero_le _⟩

section Snapshot

variable (crypto : ClaimCrypto) (networkCode : UInt8)

theorem decodeHashStep_cases {context : String} {acc acc' : List DomainHash × Map DomainHash Unit}
    {rawHash : List UInt8} (decoded : decodeHashStep context acc rawHash = .ok acc') :
    acc' = acc ∨ ∃ hash, (acc.2.lookup hash).isNone ∧ acc' = (acc.1 ++ [hash], acc.2.insert hash ()) := by
  unfold decodeHashStep at decoded
  obtain ⟨hash, -, decoded⟩ := Except.bind_eq_ok.1 decoded
  split_ifs at decoded with held
  · exact .inl (Except.ok.inj decoded).symm
  · refine .inr ⟨hash, ?_, (Except.ok.inj decoded).symm⟩
    exact Option.isNone_iff_eq_none.2 (Option.not_isSome_iff_eq_none.1 held)

theorem decodeHashes_spec (context : String) :
    ∀ (rawHashes : List (List UInt8)) (acc acc' : List DomainHash × Map DomainHash Unit),
      ListedSet acc.1 acc.2 → rawHashes.foldlM (decodeHashStep context) acc = .ok acc' →
      ListedSet acc'.1 acc'.2 ∧ acc'.1.length ≤ acc.1.length + rawHashes.length
  | [], acc, acc', listed, decoded => by
    have same : acc = acc' := Except.ok.inj decoded
    subst same
    exact ⟨listed, Nat.le_add_right _ _⟩
  | rawHash :: rest, acc, acc', listed, decoded => by
    rw [List.foldlM_cons] at decoded
    obtain ⟨mid, stepped, decoded⟩ := Except.bind_eq_ok.1 decoded
    have next : ListedSet mid.1 mid.2 ∧ mid.1.length ≤ acc.1.length + 1 := by
      rcases decodeHashStep_cases stepped with same | ⟨hash, absent, appended⟩
      · subst same
        exact ⟨listed, Nat.le_succ _⟩
      · subst appended
        exact ⟨listed.append absent, by rw [List.length_append, List.length_singleton]⟩
    obtain ⟨later, bound⟩ := decodeHashes_spec context rest mid acc' next.1 decoded
    refine ⟨later, ?_⟩
    rw [List.length_cons]
    omega

theorem decodeLastSink_fresh {lastSink : List UInt8} {state : EngineState}
    (decoded : decodeLastSink lastSink = .ok state) :
    ∃ sink hasSink, (hasSink = false → sink = zeroHash) ∧
      state = { newEngineState with lastSinkHash := sink, hasLastSink := hasSink } := by
  unfold decodeLastSink at decoded
  split_ifs at decoded
  · exact ⟨zeroHash, false, fun _ => rfl, (Except.ok.inj decoded).symm⟩
  · obtain ⟨sink, -, decoded⟩ := Except.bind_eq_ok.1 decoded
    exact ⟨sink, true, fun absent => (by cases absent), (Except.ok.inj decoded).symm⟩

theorem decodeWinnerStep_cases {state state' : EngineState} {winner : ClaimDiskRecord}
    (decoded : decodeWinnerStep crypto networkCode state winner = .ok state') :
    state' = state ∨ ∃ record : ClaimRecord, state' = { state with
      winningClaimByBlock := state.winningClaimByBlock.insert record.blockHash record
      recentClaimsByBlock := state.recentClaimsByBlock.insert record.blockHash
        ((∅ : Map NodeID ClaimRecord).insert record.nodeID record) } := by
  unfold decodeWinnerStep at decoded
  obtain ⟨blockHash, -, decoded⟩ := Except.bind_eq_ok.1 decoded
  obtain ⟨nodeID, -, decoded⟩ := Except.bind_eq_ok.1 decoded
  obtain ⟨pubKeyXOnly, -, decoded⟩ := Except.bind_eq_ok.1 decoded
  obtain ⟨signature, -, decoded⟩ := Except.bind_eq_ok.1 decoded
  obtain ⟨claimID, -, decoded⟩ := Except.bind_eq_ok.1 decoded
  dsimp only at decoded
  split_ifs at decoded
  · exact .inl (Except.ok.inj decoded).symm
  · exact .inr ⟨⟨blockHash, nodeID, pubKeyXOnly, winner.powNonce, signature, claimID,
      winner.receivedAtMs⟩, (Except.ok.inj decoded).symm⟩

theorem ClaimsInvariant.storeSingle {state state' : EngineState} (holds : ClaimsInvariant state)
    {blockHash : DomainHash} {record : ClaimRecord}
    (recent : state'.recentClaimsByBlock = state.recentClaimsByBlock.insert blockHash
      ((∅ : Map NodeID ClaimRecord).insert record.nodeID record))
    (winning : state'.winningClaimByBlock = state.winningClaimByBlock.insert blockHash record) :
    ClaimsInvariant state' := by
  have single : nodeIDsOf ((∅ : Map NodeID ClaimRecord).insert record.nodeID record) =
      {record.nodeID} := by
    rw [nodeIDsOf_insert, nodeIDsOf_empty]
    rfl
  refine holds.store ?_ (fun nodeID found lookedUp => ?_) recent (fun nodeID => ?_)
    (fun other same => by rw [winning, AList.lookup_insert_ne same])
  · rw [← card_nodeIDsOf, single, Finset.card_singleton]
    decide
  · by_cases same : nodeID = record.nodeID
    · subst same
      rw [AList.lookup_insert, Option.some.injEq] at lookedUp
      rw [← lookedUp]
    · rw [AList.lookup_insert_ne same] at lookedUp
      cases lookedUp
  · rw [winnerNodeID, winning, AList.lookup_insert, Option.map_some, Option.some.injEq, single,
      Finset.coe_singleton]
    exact ⟨fun same => same ▸ isLeast_singleton, fun least => isLeast_singleton.unique least⟩

theorem decodeWinners_spec (window : List DomainHash) :
    ∀ (winners : List ClaimDiskRecord) (state state' : EngineState),
      ChainInvariant state ∧ state.windowHashes = window ∧ state.pendingUnknownClaims = ∅ →
      winners.foldlM (decodeWinnerStep crypto networkCode) state = .ok state' →
      ChainInvariant state' ∧ state'.windowHashes = window ∧ state'.pendingUnknownClaims = ∅ := by
  refine Transition.foldlM_invariant _ fun state winner state' holds decoded => ?_
  obtain ⟨chain, window, pending⟩ := holds
  rcases decodeWinnerStep_cases crypto networkCode decoded with same | ⟨record, stored⟩
  · subst same
    exact ⟨chain, window, pending⟩
  · subst stored
    exact ⟨⟨chain.window, chain.retention, chain.claims.storeSingle rfl rfl⟩, window, pending⟩

/-- What a successful `decodeStateDisk` does: a fresh state with the persisted sink
and the two decoded lists, the winners stored one by one, then the conflict total
and the recomputed scores. -/
theorem decodeStateDisk_cases {disk : ClaimStateDisk} {state : EngineState}
    (decoded : decodeStateDisk crypto disk networkCode = .ok state) :
    ∃ (sink : DomainHash) (hasSink : Bool) (window retention : List DomainHash × Map DomainHash Unit)
      (restored : EngineState), (hasSink = false → sink = zeroHash) ∧
      disk.windowHashes.foldlM (decodeHashStep "invalid persisted window hash") ([], ∅) =
        .ok window ∧
      disk.retentionHashes.foldlM (decodeHashStep "invalid persisted retention hash") ([], ∅) =
        .ok retention ∧
      disk.winners.foldlM (decodeWinnerStep crypto networkCode) { newEngineState with
        lastSinkHash := sink, hasLastSink := hasSink, windowHashes := window.1,
        windowSet := window.2, retentionHashes := retention.1, retentionSet := retention.2 } =
        .ok restored ∧
      state = recomputeScores { restored with conflictTotal := disk.conflictTotal } := by
  unfold StrongNodeClaims.decodeStateDisk at decoded
  dsimp only at decoded
  split_ifs at decoded
  · obtain ⟨_, thrown, -⟩ := Except.bind_eq_ok.1 decoded
    cases thrown
  obtain ⟨fresh, sink, afterSink⟩ := Except.bind_eq_ok.1 decoded
  obtain ⟨window, windowDecoded, afterWindow⟩ := Except.bind_eq_ok.1 afterSink
  obtain ⟨retention, retentionDecoded, afterRetention⟩ := Except.bind_eq_ok.1 afterWindow
  obtain ⟨restored, winnersDecoded, finished⟩ := Except.bind_eq_ok.1 afterRetention
  obtain ⟨sinkHash, hasSink, cleared, rfl⟩ := decodeLastSink_fresh sink
  exact ⟨sinkHash, hasSink, window, retention, restored, cleared, windowDecoded, retentionDecoded,
    winnersDecoded, (Except.ok.inj finished).symm⟩

theorem EngineInvariant.decodeStateDisk {disk : ClaimStateDisk} {state : EngineState}
    (decoded : StrongNodeClaims.decodeStateDisk crypto disk networkCode = .ok state)
    (fits : disk.windowHashes.length < 2 ^ 32) : EngineInvariant state := by
  obtain ⟨_, _, window, retention, restored, -, windowDecoded, retentionDecoded, winnersDecoded,
    rfl⟩ := decodeStateDisk_cases crypto networkCode decoded
  obtain ⟨windowListed, windowLength⟩ :=
    decodeHashes_spec _ disk.windowHashes _ window listedSet_empty windowDecoded
  obtain ⟨retentionListed, -⟩ :=
    decodeHashes_spec _ disk.retentionHashes _ retention listedSet_empty retentionDecoded
  obtain ⟨chain, windowKept, pending⟩ := decodeWinners_spec crypto networkCode window.1
    disk.winners _ restored ⟨⟨windowListed, retentionListed, ClaimsInvariant.of_empty rfl rfl⟩,
      rfl, rfl⟩ winnersDecoded
  refine ⟨⟨chain.window, chain.retention, chain.claims.congr rfl rfl⟩, ?_,
    recomputeScores_count _, ?_⟩
  · show restored.windowHashes.length < 2 ^ 32
    have decodedLength : window.1.length ≤ 0 + disk.windowHashes.length := windowLength
    rw [windowKept]
    omega
  · show pendingClaimsCount restored.pendingUnknownClaims ≤ pendingUnknownClaimsCap
    rw [pending]
    exact Nat.zero_le _

theorem copyBytes_toList {n : ℕ} (bytes : Vector UInt8 n) : copyBytes n bytes.toList = bytes := by
  ext i within
  simp [copyBytes]

theorem decodeHexBytes_encode {n : ℕ} (bytes : Vector UInt8 n) :
    decodeHexBytes n (Hex.encode bytes.toList) = .ok bytes := by
  unfold decodeHexBytes
  rw [Hex.decode_encode]
  dsimp only
  rw [if_pos bytes.length_toList, copyBytes_toList]

theorem decodeHex32_encode (hash : DomainHash) : decodeHex32 (Hex.encode hash.toList) = .ok hash :=
  decodeHexBytes_encode hash

theorem decodeHashes_encode (context : String) :
    ∀ (hashes : List DomainHash) (acc : List DomainHash × Map DomainHash Unit), hashes.Nodup →
      (∀ hash ∈ hashes, acc.2.lookup hash = none) →
      ∃ set, (hashes.map fun hash => Hex.encode hash.toList).foldlM (decodeHashStep context) acc =
        .ok (acc.1 ++ hashes, set)
  | [], acc, _, _ => ⟨acc.2, by rw [List.append_nil]; rfl⟩
  | hash :: rest, acc, nodup, absent => by
    rw [List.nodup_cons] at nodup
    have stepped : decodeHashStep context acc (Hex.encode hash.toList) =
        .ok (acc.1 ++ [hash], acc.2.insert hash ()) := by
      unfold decodeHashStep
      rw [decodeHex32_encode]
      show (if (acc.2.lookup hash).isSome then pure acc
        else pure (acc.1 ++ [hash], acc.2.insert hash ())) = _
      rw [absent hash List.mem_cons_self]
      rfl
    have stillAbsent : ∀ other ∈ rest, (acc.2.insert hash ()).lookup other = none := by
      intro other member
      have differs : other ≠ hash := fun same => nodup.1 (same ▸ member)
      rw [AList.lookup_insert_ne differs]
      exact absent other (List.mem_cons_of_mem _ member)
    obtain ⟨set, later⟩ := decodeHashes_encode context rest (acc.1 ++ [hash], acc.2.insert hash ())
      nodup.2 stillAbsent
    refine ⟨set, ?_⟩
    rw [List.map_cons, List.foldlM_cons, stepped]
    rw [List.append_assoc, List.singleton_append] at later
    exact later

end Snapshot

/-! ## What the claim reads -/

/-- The state invariant read as counts: each node's score is the number of window
blocks it wins, with no entry for a node that wins none; the lists keep no hash
twice and their sets hold exactly their hashes; each block holds at most
`KNOWN_CLAIMS_PER_BLOCK_CAP` recent claims; at most `PENDING_UNKNOWN_CLAIMS_CAP` claims
are pending. -/
structure ClaimScoreInvariant (state : EngineState) : Prop where
  scores : ∀ nodeID, (state.scoreByNodeID.lookup nodeID).map UInt32.toNat =
    if windowWins state nodeID = 0 then none else some (windowWins state nodeID)
  window : ListedSet state.windowHashes state.windowSet
  retention : ListedSet state.retentionHashes state.retentionSet
  capped : ∀ blockHash claims, state.recentClaimsByBlock.lookup blockHash = some claims →
    claims.entries.length ≤ knownClaimsPerBlockCap
  pending : pendingClaimsCount state.pendingUnknownClaims ≤ pendingUnknownClaimsCap

theorem EngineInvariant.claimScore {state : EngineState} (holds : EngineInvariant state) :
    ClaimScoreInvariant state where
  scores := holds.scores.toNat fun nodeID =>
    lt_of_le_of_lt (winsIn_le_length _ _ nodeID) holds.windowFits
  window := holds.chain.window
  retention := holds.chain.retention
  capped := holds.chain.claims.capped
  pending := holds.pendingCapped

theorem claimScoreInvariant_of_run (crypto : ClaimCrypto) (engine : Engine)
    {start state : EngineState} {calls : List EngineCall}
    (origin : start = newEngineState ∨ ∃ disk networkCode,
      decodeStateDisk crypto disk networkCode = .ok start ∧ disk.windowHashes.length < 2 ^ 32)
    (run : Transition.Trace (EngineStep crypto engine) start calls state) :
    ClaimScoreInvariant state ∧
      (∀ path newSink nowMs, engine.enabled = true →
        WithinBounds (applyChainPathUpdate engine state (some path) (some newSink) true nowMs)) ∧
      (start = newEngineState → WithinBounds state) := by
  have init : EngineInvariant start := by
    rcases origin with fresh | ⟨disk, networkCode, decoded, fits⟩
    · rw [fresh]
      exact EngineInvariant.newEngineState
    · exact EngineInvariant.decodeStateDisk crypto networkCode decoded fits
  have holds := engineInvariant_run crypto engine init run
  refine ⟨holds.claimScore, fun path newSink nowMs enabled => ?_, fun fresh => ?_⟩
  · obtain ⟨window, retention, -⟩ :=
      applyChainPathUpdate_bounds engine state holds.chain path newSink true nowMs enabled rfl
    exact ⟨window, retention⟩
  · subst fresh
    exact withinBounds_run crypto engine EngineInvariant.newEngineState withinBounds_newEngineState
      run

/-- A crypto back end that accepts every claim and names a node by its public key. -/
def acceptingCrypto : ClaimCrypto where
  computeUnifiedNodeID key := key
  isValidUnifiedNodePoWNonce _ _ _ := true
  computeBlockProducerClaimDigest _ blockHash _ := blockHash
  verifyBlockProducerClaimSignature _ _ _ := true

def freshUpdateFinal : EngineState :=
  applyChainPathUpdate ⟨true, 0⟩ newEngineState
    (some { added := [some zeroHash], removed := [] }) (some zeroHash) true 0

theorem claimScoreInvariant_of_run_freshUpdate :
    ClaimScoreInvariant freshUpdateFinal ∧
      (∀ path newSink nowMs, (⟨true, 0⟩ : Engine).enabled = true →
        WithinBounds (applyChainPathUpdate ⟨true, 0⟩ freshUpdateFinal (some path) (some newSink)
          true nowMs)) ∧
      (newEngineState = newEngineState → WithinBounds freshUpdateFinal) := by
  have stepped : EngineStep acceptingCrypto ⟨true, 0⟩ newEngineState
      (.applyChainPathUpdate (some { added := [some zeroHash], removed := [] }) (some zeroHash) true 0)
      freshUpdateFinal := rfl
  exact claimScoreInvariant_of_run acceptingCrypto ⟨true, 0⟩ (.inl rfl) (Transition.Trace.single stepped)

def indexHash (i : ℕ) : DomainHash :=
  Vector.ofFn fun k => if k.val = 0 then UInt8.ofNat i else if k.val = 1 then UInt8.ofNat (i / 256) else 0

theorem indexHash_injOn {i j : ℕ} (small : i < 65536) (small' : j < 65536)
    (same : indexHash i = indexHash j) : i = j := by
  have low := congrArg (fun hash : DomainHash => (hash[0]).toNat) same
  have high := congrArg (fun hash : DomainHash => (hash[1]).toNat) same
  simp [indexHash] at low high
  omega

def overlongWindowDisk : ClaimStateDisk where
  schemaVersion := claimStateSchemaV1
  lastSink := []
  windowHashes := ((List.range 1001).map indexHash).map fun hash => Hex.encode hash.toList
  retentionHashes := []
  winners := []
  conflictTotal := 0

/-- A decoded snapshot keeps its overlong window through an ignored update. -/
theorem window_overlong_after_ignored_update :
    ∃ start : EngineState,
      decodeStateDisk acceptingCrypto overlongWindowDisk 0 = .ok start ∧
      overlongWindowDisk.windowHashes.length < 2 ^ 32 ∧
      Transition.Trace (EngineStep acceptingCrypto ⟨true, 0⟩) start
        [.applyChainPathUpdate (some { added := [], removed := [] }) (some zeroHash) false 0] start ∧
      claimWindowSizeBlocks < start.windowHashes.length := by
  have nodup : ((List.range 1001).map indexHash).Nodup :=
    List.nodup_range.map_on fun i member j member' same =>
      indexHash_injOn (by rw [List.mem_range] at member; omega)
        (by rw [List.mem_range] at member'; omega) same
  obtain ⟨set, windowDecoded⟩ := decodeHashes_encode "invalid persisted window hash"
    ((List.range 1001).map indexHash) ([], ∅) nodup (fun _ _ => rfl)
  rw [List.nil_append] at windowDecoded
  obtain ⟨start, decoded, window⟩ : ∃ start, decodeStateDisk acceptingCrypto overlongWindowDisk 0 =
      .ok start ∧ start.windowHashes = (List.range 1001).map indexHash := by
    apply Exists.intro
    constructor
    · unfold decodeStateDisk
      -- the disk's fields are unfolded by name: a defeq check would run the list
      dsimp only [overlongWindowDisk]
      simp only [ne_eq, not_true_eq_false, if_false]
      exact Except.bind_eq_ok.2 ⟨newEngineState, rfl, Except.bind_eq_ok.2 ⟨_, windowDecoded,
        Except.bind_eq_ok.2 ⟨([], ∅), rfl, Except.bind_eq_ok.2 ⟨_, rfl, rfl⟩⟩⟩⟩
    · dsimp only [recomputeScores]
  refine ⟨start, decoded, ?_, Transition.Trace.single rfl, ?_⟩
  · dsimp only [overlongWindowDisk]
    rw [List.length_map, List.length_map, List.length_range]
    decide
  · rw [window, List.length_map, List.length_range]
    decide

end Cryptixd.StrongNodeClaims
