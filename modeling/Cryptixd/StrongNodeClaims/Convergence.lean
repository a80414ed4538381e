import Mathlib
import Cryptixd.StrongNodeClaims.Invariant

/-!
# Claim winner convergence

A run of ingestions of valid claims for known blocks reaches `insertKnownClaim`
once per claim. Each insertion is a capped insertion of the claim's node id into
its block's node ids (`retainedNodeIDs_insertKnownClaim`), so after the run every
block holds the `KNOWN_CLAIMS_PER_BLOCK_CAP` smallest of what it held and what was
ingested for it (`knownIngests_run`). That set does not depend on the order of the
claims. The winner is the least of it, and the scores count the winners of the
window, which ingestions leave alone. So two orders of the same claims agree on
node ids, winners and scores (`claimWinner_convergence`).
-/

set_option autoImplicit false

namespace Cryptixd.StrongNodeClaims

open Cryptixd.Atomic Finset

def claimKey (crypto : ClaimCrypto) (message : MsgBlockProducerClaimV1) : DomainHash × NodeID :=
  (copyBytes 32 message.blockHash, crypto.computeUnifiedNodeID (copyBytes 32 message.nodePubkeyXOnly))

theorem validateClaimMessage_key {crypto : ClaimCrypto} {message : MsgBlockProducerClaimV1}
    {networkCode : UInt8} {nowMs : UInt64} {record : ClaimRecord}
    (valid : validateClaimMessage crypto message networkCode nowMs = .ok record) :
    (record.blockHash, record.nodeID) = claimKey crypto message := by
  unfold validateClaimMessage at valid
  split_ifs at valid
  · split at valid <;> cases valid
  · split at valid
    · cases valid
    dsimp only at valid
    split at valid
    · cases valid
    split at valid
    · cases valid
    obtain rfl := Except.ok.inj valid
    rfl

/-- A call that ingests a valid claim for a known block: the engine is on, the hard
fork is active, the message validates and matches the expected node, and its block
is known to the caller or held in the start state's retention or window set. -/
def KnownIngest (crypto : ClaimCrypto) (engine : Engine) (start : EngineState) : EngineCall → Prop
  | .ingestClaim message hardforkActive blockKnown expectedNodeID nowMs =>
    engine.enabled = true ∧ hardforkActive = true ∧
      ∃ claim record, message = some claim ∧
        validateClaimMessage crypto claim engine.networkCode nowMs = .ok record ∧
        expectedNodeID.any (· ≠ record.nodeID) = false ∧
        (blockKnown = true ∨ (start.retentionSet.lookup record.blockHash).isSome ∨
          (start.windowSet.lookup record.blockHash).isSome)
  | .applyChainPathUpdate .. => False

/-- The node an ingestion claims `blockHash` for, if its message names that block. -/
def EngineCall.claimedNode (crypto : ClaimCrypto) (blockHash : DomainHash) : EngineCall → Option NodeID
  | .ingestClaim (some message) _ _ _ _ =>
    if (claimKey crypto message).1 = blockHash then some (claimKey crypto message).2 else none
  | _ => none

def ingestedNodeIDs (crypto : ClaimCrypto) (calls : List EngineCall) (blockHash : DomainHash) :
    Finset NodeID :=
  (calls.filterMap (EngineCall.claimedNode crypto blockHash)).toFinset

section Ingested

variable (crypto : ClaimCrypto) (blockHash : DomainHash)

theorem ingestedNodeIDs_append_singleton (calls : List EngineCall) (call : EngineCall) :
    ingestedNodeIDs crypto (calls ++ [call]) blockHash =
      ingestedNodeIDs crypto calls blockHash ∪ (call.claimedNode crypto blockHash).toFinset := by
  unfold ingestedNodeIDs
  rw [List.filterMap_append, List.toFinset_append]
  cases claimed : call.claimedNode crypto blockHash <;> simp [claimed]

theorem ingestedNodeIDs_perm {calls calls' : List EngineCall} (perm : calls.Perm calls') :
    ingestedNodeIDs crypto calls blockHash = ingestedNodeIDs crypto calls' blockHash :=
  List.toFinset_eq_of_perm _ _ (perm.filterMap _)

end Ingested

theorem ingestClaim_known (crypto : ClaimCrypto) (engine : Engine) (state : EngineState)
    {message : MsgBlockProducerClaimV1} {hardforkActive blockKnown : Bool}
    {expectedNodeID : Option NodeID} {nowMs : UInt64} {record : ClaimRecord}
    (enabled : engine.enabled = true) (active : hardforkActive = true)
    (valid : validateClaimMessage crypto message engine.networkCode nowMs = .ok record)
    (expected : expectedNodeID.any (· ≠ record.nodeID) = false)
    (known : blockKnown = true ∨ (state.retentionSet.lookup record.blockHash).isSome ∨
      (state.windowSet.lookup record.blockHash).isSome) :
    ∃ dirty, (ingestClaim crypto engine state (some message) hardforkActive blockKnown
      expectedNodeID nowMs).2 =
        { (insertKnownClaim (cleanupPendingUnknownClaims state nowMs) record).2 with dirty := dirty } := by
  have knownAfterCleanup : (blockKnown ||
      ((cleanupPendingUnknownClaims state nowMs).retentionSet.lookup record.blockHash).isSome ||
      ((cleanupPendingUnknownClaims state nowMs).windowSet.lookup record.blockHash).isSome) = true := by
    simp only [cleanupPendingUnknownClaims_retentionSet, cleanupPendingUnknownClaims_windowSet,
      Bool.or_eq_true]
    tauto
  unfold ingestClaim
  rw [enabled, active, if_neg (by decide)]
  dsimp only
  rw [valid]
  dsimp only
  rw [if_neg (by rw [expected]; decide), knownAfterCleanup, if_neg (by decide)]
  split_ifs
  · exact ⟨_, rfl⟩
  · exact ⟨true, rfl⟩

theorem knownIngests_run (crypto : ClaimCrypto) (engine : Engine) {start final : EngineState}
    {calls : List EngineCall} (holds : EngineInvariant start)
    (admitted : ∀ call ∈ calls, KnownIngest crypto engine start call)
    (run : Transition.Trace (EngineStep crypto engine) start calls final) :
    EngineInvariant final ∧ final.windowHashes = start.windowHashes ∧
      final.windowSet = start.windowSet ∧ final.retentionSet = start.retentionSet ∧
      ∀ blockHash, retainedNodeIDs final blockHash = smallest knownClaimsPerBlockCap
        (retainedNodeIDs start blockHash ∪ ingestedNodeIDs crypto calls blockHash) := by
  induction run with
  | nil =>
    refine ⟨holds, rfl, rfl, rfl, fun blockHash => ?_⟩
    rw [ingestedNodeIDs, List.filterMap_nil, List.toFinset_nil, union_empty,
      smallest_eq_self (holds.chain.claims.retained_card_le blockHash)]
  | @snoc calls mid final call before last ih =>
    obtain ⟨midHolds, window, windowSet, retentionSet, retained⟩ :=
      ih fun call member => admitted call (List.mem_append_left _ member)
    have lastAdmitted := admitted call (List.mem_append_right _ (List.mem_singleton_self call))
    cases call with
    | applyChainPathUpdate => exact lastAdmitted.elim
    | ingestClaim message hardforkActive blockKnown expectedNodeID nowMs =>
      obtain ⟨enabled, active, claim, record, rfl, valid, expected, known⟩ := lastAdmitted
      rw [← retentionSet, ← windowSet] at known
      obtain ⟨dirty, inserted⟩ :=
        ingestClaim_known crypto engine mid enabled active valid expected known
      rw [EngineStep, EngineCall.exec, inserted] at last
      subst last
      refine ⟨((midHolds.cleanup nowMs).insertKnownClaim record).setDirty dirty, ?_, ?_, ?_,
        fun blockHash => ?_⟩
      · exact (insertKnownClaim_windowHashes _ record).trans window
      · exact (insertKnownClaim_windowSet _ record).trans windowSet
      · exact (insertKnownClaim_retentionSet _ record).trans retentionSet
      · have key := validateClaimMessage_key valid
        show retainedNodeIDs (insertKnownClaim (cleanupPendingUnknownClaims mid nowMs) record).2
          blockHash = _
        have cleaned : retainedNodeIDs (cleanupPendingUnknownClaims mid nowMs) blockHash =
            retainedNodeIDs mid blockHash := rfl
        rw [retainedNodeIDs_insertKnownClaim, ingestedNodeIDs_append_singleton, cleaned,
          retained blockHash]
        simp only [EngineCall.claimedNode, ← key]
        by_cases same : blockHash = record.blockHash
        · -- the claim's own block: one more capped insertion
          rw [if_pos same, if_pos same.symm, cappedInsert_smallest (by decide),
            Option.toFinset_some, ← union_assoc, union_comm _ {record.nodeID}, ← insert_eq]
        · rw [if_neg same, if_neg (Ne.symm same), Option.toFinset_none, union_empty]

theorem windowWins_congr {state state' : EngineState}
    (window : state'.windowHashes = state.windowHashes)
    (winners : ∀ blockHash, winnerNodeID state' blockHash = winnerNodeID state blockHash) :
    windowWins state' = windowWins state := by
  funext nodeID
  unfold windowWins winsIn
  rw [window]
  exact List.countP_congr fun blockHash _ => by rw [← winnerNodeID, ← winnerNodeID, winners]

theorem claimWinner_convergence (crypto : ClaimCrypto) (engine : Engine)
    {start final final' : EngineState} {calls calls' : List EngineCall}
    (holds : EngineInvariant start) (admitted : ∀ call ∈ calls, KnownIngest crypto engine start call)
    (perm : calls.Perm calls')
    (run : Transition.Trace (EngineStep crypto engine) start calls final)
    (run' : Transition.Trace (EngineStep crypto engine) start calls' final') :
    (∀ blockHash,
      retainedNodeIDs final blockHash = retainedNodeIDs final' blockHash ∧
      retainedNodeIDs final blockHash = smallest knownClaimsPerBlockCap
        (retainedNodeIDs start blockHash ∪ ingestedNodeIDs crypto calls blockHash) ∧
      winnerNodeID final blockHash = winnerNodeID final' blockHash ∧
      ∀ nodeID, winnerNodeID final blockHash = some nodeID ↔
        IsLeast (↑(retainedNodeIDs start blockHash ∪ ingestedNodeIDs crypto calls blockHash) :
          Set NodeID) nodeID) ∧
    ∀ nodeID, final.scoreByNodeID.lookup nodeID = final'.scoreByNodeID.lookup nodeID := by
  have admitted' : ∀ call ∈ calls', KnownIngest crypto engine start call :=
    fun call member => admitted call (perm.mem_iff.2 member)
  obtain ⟨holdsFinal, window, -, -, retained⟩ := knownIngests_run crypto engine holds admitted run
  obtain ⟨holdsFinal', window', -, -, retained'⟩ :=
    knownIngests_run crypto engine holds admitted' run'
  -- both runs leave every block the capped smallest of the same set, whose least wins
  have least : ∀ {state : EngineState}, EngineInvariant state → ∀ blockHash,
      retainedNodeIDs state blockHash = smallest knownClaimsPerBlockCap
        (retainedNodeIDs start blockHash ∪ ingestedNodeIDs crypto calls blockHash) →
      ∀ nodeID, winnerNodeID state blockHash = some nodeID ↔
        IsLeast (↑(retainedNodeIDs start blockHash ∪ ingestedNodeIDs crypto calls blockHash) :
          Set NodeID) nodeID := by
    intro state invariant blockHash held nodeID
    rw [invariant.chain.claims.winner, held, isLeast_smallest_iff (by decide)]
  have sameRetained : ∀ blockHash, retainedNodeIDs final' blockHash = smallest
      knownClaimsPerBlockCap (retainedNodeIDs start blockHash ∪ ingestedNodeIDs crypto calls blockHash) :=
    fun blockHash => (retained' blockHash).trans (by rw [ingestedNodeIDs_perm crypto blockHash perm])
  have sameWinner : ∀ blockHash, winnerNodeID final blockHash = winnerNodeID final' blockHash :=
    fun blockHash => Option.ext fun nodeID =>
      (least holdsFinal blockHash (retained blockHash) nodeID).trans
        (least holdsFinal' blockHash (sameRetained blockHash) nodeID).symm
  refine ⟨fun blockHash => ⟨(retained blockHash).trans (sameRetained blockHash).symm,
    retained blockHash, sameWinner blockHash, least holdsFinal blockHash (retained blockHash)⟩,
    fun nodeID => ?_⟩
  have wins : windowWins final' = windowWins final :=
    windowWins_congr (window'.trans window.symm) fun blockHash => (sameWinner blockHash).symm
  rw [holdsFinal.scores nodeID, holdsFinal'.scores nodeID, wins]

/-- A claim for one block from the node whose public key is `key` repeated. -/
def claimFrom (key : UInt8) : MsgBlockProducerClaimV1 :=
  ⟨claimSchemaVersion, 0, List.replicate 32 7, List.replicate 32 key, some 0, List.replicate 64 0⟩

def ingestFrom (key : UInt8) : EngineCall :=
  .ingestClaim (some (claimFrom key)) true true none 0

def claimsEngine : Engine := ⟨true, 0⟩

def twoClaimsFinal : EngineState :=
  (ingestFrom 2).exec acceptingCrypto claimsEngine
    ((ingestFrom 1).exec acceptingCrypto claimsEngine newEngineState)

def twoClaimsFinal' : EngineState :=
  (ingestFrom 1).exec acceptingCrypto claimsEngine
    ((ingestFrom 2).exec acceptingCrypto claimsEngine newEngineState)

theorem claimWinner_convergence_twoClaims :
    (∀ blockHash,
      retainedNodeIDs twoClaimsFinal blockHash = retainedNodeIDs twoClaimsFinal' blockHash ∧
      retainedNodeIDs twoClaimsFinal blockHash = smallest knownClaimsPerBlockCap
        (retainedNodeIDs newEngineState blockHash ∪
          ingestedNodeIDs acceptingCrypto [ingestFrom 1, ingestFrom 2] blockHash) ∧
      winnerNodeID twoClaimsFinal blockHash = winnerNodeID twoClaimsFinal' blockHash ∧
      ∀ nodeID, winnerNodeID twoClaimsFinal blockHash = some nodeID ↔
        IsLeast (↑(retainedNodeIDs newEngineState blockHash ∪
          ingestedNodeIDs acceptingCrypto [ingestFrom 1, ingestFrom 2] blockHash) : Set NodeID)
          nodeID) ∧
    ∀ nodeID, twoClaimsFinal.scoreByNodeID.lookup nodeID =
      twoClaimsFinal'.scoreByNodeID.lookup nodeID := by
  have admitted : ∀ call ∈ [ingestFrom 1, ingestFrom 2],
      KnownIngest acceptingCrypto claimsEngine newEngineState call := by
    intro call member
    rw [List.mem_cons, List.mem_singleton] at member
    rcases member with rfl | rfl
    · exact ⟨rfl, rfl, _, _, rfl, rfl, rfl, .inl rfl⟩
    · exact ⟨rfl, rfl, _, _, rfl, rfl, rfl, .inl rfl⟩
  have firstOfOne : EngineStep acceptingCrypto claimsEngine newEngineState (ingestFrom 1)
      ((ingestFrom 1).exec acceptingCrypto claimsEngine newEngineState) := rfl
  have firstOfTwo : EngineStep acceptingCrypto claimsEngine newEngineState (ingestFrom 2)
      ((ingestFrom 2).exec acceptingCrypto claimsEngine newEngineState) := rfl
  have run : Transition.Trace (EngineStep acceptingCrypto claimsEngine) newEngineState
      ([ingestFrom 1] ++ [ingestFrom 2]) twoClaimsFinal :=
    (Transition.Trace.single firstOfOne).snoc rfl
  have run' : Transition.Trace (EngineStep acceptingCrypto claimsEngine) newEngineState
      ([ingestFrom 2] ++ [ingestFrom 1]) twoClaimsFinal' :=
    (Transition.Trace.single firstOfTwo).snoc rfl
  exact claimWinner_convergence acceptingCrypto claimsEngine EngineInvariant.newEngineState admitted
    (List.Perm.swap (ingestFrom 2) (ingestFrom 1) []) run run'

end Cryptixd.StrongNodeClaims
