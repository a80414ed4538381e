import Mathlib
import Cryptixd.Atomic.Types
import Cryptixd.Lib.Hex
import Cryptixd.Lib.MapSum

/-!
# The strong-node claim engine

`app/protocol/strongnodeclaims/engine.go`.  A node keeps the block-producer
claims its peers relay: for each block of the selected chain's recent window,
the claims of at most `KNOWN_CLAIMS_PER_BLOCK_CAP` nodes, the winning claim
(the least node id) and, per node, the number of window blocks it won.  Claims
for blocks not yet known wait in a bounded pending pool.  Two entry points change
the state: `IngestClaim` (a claim from a peer) and `ApplyChainPathUpdate` (the
selected chain moved).  At start the node reloads its persisted snapshot
(`decodeStateDisk`).

The engine's mutex makes each call atomic, so each call is a function from
state to state.  Go maps are `AList` maps: their iteration order is the list
order, one of the orders Go may pick.  Node ids carry the order `bytes.Compare`
gives 32-byte arrays.  The identity and signature primitives of `netadapter`
stay abstract (`ClaimCrypto`), the clock is an argument, and JSON files enter
as their decoded records.  Go strings are byte lists.
-/

set_option autoImplicit false

namespace Cryptixd.StrongNodeClaims

open Cryptixd.Atomic

def claimWindowSizeBlocks : ℕ := 1000

def claimReorgMarginBlocks : ℕ := 256

def knownClaimsPerBlockCap : ℕ := 64

def pendingUnknownClaimsCap : ℕ := 4096

def pendingUnknownClaimsTTLSeconds : UInt64 := 180

def claimSchemaVersion : UInt32 := 1

def claimStateSchemaV1 : UInt32 := 1

/-! ## Node ids and claim records -/

def NodeID := Vector UInt8 32

/-- The bytes of a node id as numbers: `bytes.Compare` on two 32-byte arrays is
the lexicographic order of these lists. -/
def NodeID.bytes (nodeID : NodeID) : List ℕ :=
  (nodeID : Vector UInt8 32).toList.map UInt8.toNat

theorem NodeID.bytes_injective : Function.Injective NodeID.bytes := by
  intro a b same
  have bytesEq : (a : Vector UInt8 32).toList = (b : Vector UInt8 32).toList :=
    (List.map_injective_iff.2 fun _ _ h => UInt8.toNat_inj.1 h) same
  exact Vector.toList_inj.1 bytesEq

instance : LinearOrder NodeID := LinearOrder.lift' NodeID.bytes NodeID.bytes_injective

def zeroNodeID : NodeID := Vector.replicate 32 0

structure ClaimRecord where
  blockHash : DomainHash
  nodeID : NodeID
  pubKeyXOnly : DomainHash
  powNonce : UInt64
  signature : Vector UInt8 64
  claimID : DomainHash
  receivedAtMs : UInt64

def emptyClaimRecord : ClaimRecord :=
  ⟨zeroHash, zeroNodeID, zeroHash, 0, Vector.replicate 64 0, zeroHash, 0⟩

/-- The `netadapter` primitives the engine calls: the node id of a public key, the
node-identity proof of work, the claim digest and the claim signature check. -/
structure ClaimCrypto where
  computeUnifiedNodeID : DomainHash → NodeID
  isValidUnifiedNodePoWNonce : UInt8 → DomainHash → UInt64 → Bool
  computeBlockProducerClaimDigest : UInt8 → DomainHash → NodeID → DomainHash
  verifyBlockProducerClaimSignature : DomainHash → DomainHash → Vector UInt8 64 → Bool

/-- `engineState`; `LastFlushTime` belongs to the persistence timer, which is not
modelled. -/
structure EngineState where
  lastSinkHash : DomainHash
  hasLastSink : Bool
  windowHashes : List DomainHash
  windowSet : Map DomainHash Unit
  retentionHashes : List DomainHash
  retentionSet : Map DomainHash Unit
  recentClaimsByBlock : Map DomainHash (Map NodeID ClaimRecord)
  pendingUnknownClaims : Map DomainHash (List ClaimRecord)
  winningClaimByBlock : Map DomainHash ClaimRecord
  scoreByNodeID : Map NodeID UInt32
  lastClaimTimeByNodeID : Map NodeID UInt64
  lastClaimBlockByNodeID : Map NodeID DomainHash
  conflictTotal : UInt64
  dirty : Bool

def newEngineState : EngineState where
  lastSinkHash := zeroHash
  hasLastSink := false
  windowHashes := []
  windowSet := ∅
  retentionHashes := []
  retentionSet := ∅
  recentClaimsByBlock := ∅
  pendingUnknownClaims := ∅
  winningClaimByBlock := ∅
  scoreByNodeID := ∅
  lastClaimTimeByNodeID := ∅
  lastClaimBlockByNodeID := ∅
  conflictTotal := 0
  dirty := false

/-- The fields of `Engine` that the calls read. -/
structure Engine where
  enabled : Bool
  networkCode : UInt8

/-! ## Validation -/

structure MsgBlockProducerClaimV1 where
  schemaVersion : UInt32
  network : UInt32
  blockHash : List UInt8
  nodePubkeyXOnly : List UInt8
  nodePowNonce : Option UInt64
  signature : List UInt8

def copyBytes (n : ℕ) (bytes : List UInt8) : Vector UInt8 n :=
  Vector.ofFn fun i => bytes.getD i.val 0

def validateClaimMessage (crypto : ClaimCrypto) (message : MsgBlockProducerClaimV1)
    (expectedNetworkCode : UInt8) (nowMs : UInt64) : Except String ClaimRecord :=
  if message.schemaVersion ≠ claimSchemaVersion then
    .error ("invalid claim schema version " ++ toString message.schemaVersion)
  else if message.network ≠ expectedNetworkCode.toUInt32 then .error "claim network mismatch"
  else if message.blockHash.length ≠ 32 then .error "block hash must be exactly 32 bytes"
  else if message.nodePubkeyXOnly.length ≠ 32 then
    .error "node pubkey x-only must be exactly 32 bytes"
  else
    match message.nodePowNonce with
    | none => .error "node pow nonce is required"
    | some powNonce =>
      if message.signature.length ≠ 64 then .error "claim signature must be exactly 64 bytes"
      else
        let blockHash := copyBytes 32 message.blockHash
        let pubKey := copyBytes 32 message.nodePubkeyXOnly
        let signature := copyBytes 64 message.signature
        let nodeID := crypto.computeUnifiedNodeID pubKey
        if !crypto.isValidUnifiedNodePoWNonce expectedNetworkCode pubKey powNonce then
          .error "claim node identity proof-of-work is invalid"
        else
          let claimID := crypto.computeBlockProducerClaimDigest expectedNetworkCode blockHash nodeID
          if !crypto.verifyBlockProducerClaimSignature pubKey claimID signature then
            .error "claim signature verification failed"
          else .ok ⟨blockHash, nodeID, pubKey, powNonce, signature, claimID, nowMs⟩

def claimRecordIsValid (crypto : ClaimCrypto) (record : ClaimRecord)
    (expectedNetworkCode : UInt8) : Bool :=
  decide (crypto.computeUnifiedNodeID record.pubKeyXOnly = record.nodeID) &&
    crypto.isValidUnifiedNodePoWNonce expectedNetworkCode record.pubKeyXOnly record.powNonce &&
    decide (crypto.computeBlockProducerClaimDigest expectedNetworkCode record.blockHash
      record.nodeID = record.claimID) &&
    crypto.verifyBlockProducerClaimSignature record.pubKeyXOnly record.claimID record.signature

/-! ## Scores -/

def incrementScore (score : Map NodeID UInt32) (nodeID : NodeID) : Map NodeID UInt32 :=
  score.insert nodeID ((score.lookup nodeID).getD 0 + 1)

def decrementScore (score : Map NodeID UInt32) (nodeID : NodeID) : Map NodeID UInt32 :=
  match score.lookup nodeID with
  | none => score
  | some current => if current ≤ 1 then score.erase nodeID else score.insert nodeID (current - 1)

def dropWinnerScore (state : EngineState) (blockHash : DomainHash) : Map NodeID UInt32 :=
  match state.winningClaimByBlock.lookup blockHash with
  | some winner => decrementScore state.scoreByNodeID winner.nodeID
  | none => state.scoreByNodeID

def addWinnerScore (state : EngineState) (blockHash : DomainHash) : Map NodeID UInt32 :=
  match state.winningClaimByBlock.lookup blockHash with
  | some winner => incrementScore state.scoreByNodeID winner.nodeID
  | none => state.scoreByNodeID

/-- The update `insertKnownClaim` makes for a window block whose winner is now
`newWinner`: the old winner loses the block and the new one gains it, unless
the winner stayed the same. -/
def rescoreWinner (score : Map NodeID UInt32) (oldWinner : Option ClaimRecord)
    (newWinner : NodeID) : Map NodeID UInt32 :=
  let score :=
    match oldWinner with
    | some old => if old.nodeID ≠ newWinner then decrementScore score old.nodeID else score
    | none => score
  if oldWinner.all (·.nodeID ≠ newWinner) then incrementScore score newWinner else score

def recountStep (winners : Map DomainHash ClaimRecord)
    (acc : Map NodeID UInt32 × Map NodeID UInt64 × Map NodeID DomainHash)
    (blockHash : DomainHash) : Map NodeID UInt32 × Map NodeID UInt64 × Map NodeID DomainHash :=
  match winners.lookup blockHash with
  | none => acc
  | some winner =>
    (incrementScore acc.1 winner.nodeID, acc.2.1.insert winner.nodeID winner.receivedAtMs,
      acc.2.2.insert winner.nodeID winner.blockHash)

def recomputeScores (state : EngineState) : EngineState :=
  let rebuilt := state.windowHashes.foldl (recountStep state.winningClaimByBlock) (∅, ∅, ∅)
  { state with
    scoreByNodeID := rebuilt.1
    lastClaimTimeByNodeID := rebuilt.2.1
    lastClaimBlockByNodeID := rebuilt.2.2 }

/-! ## Known claims -/

def largestStep (acc : NodeID × Bool) (nodeID : NodeID) : NodeID × Bool :=
  if !acc.2 || acc.1 < nodeID then (nodeID, true) else acc

/-- `knownClaimEvictionCandidate`: the largest node id held, and whether the
incoming one is smaller (or nothing is held). -/
def knownClaimEvictionCandidate (claims : Map NodeID ClaimRecord) (incomingNodeID : NodeID) :
    NodeID × Bool :=
  let scan := claims.keys.foldl largestStep (zeroNodeID, false)
  if !scan.2 then (scan.1, true)
  else if scan.1 ≤ incomingNodeID then (scan.1, false)
  else (scan.1, true)

def winnerStep (acc : ClaimRecord × Bool) (entry : Σ _ : NodeID, ClaimRecord) :
    ClaimRecord × Bool :=
  if !acc.2 || entry.1 < acc.1.nodeID then (entry.2, true) else acc

def selectWinner (claims : Map NodeID ClaimRecord) : ClaimRecord :=
  (claims.entries.foldl winnerStep (emptyClaimRecord, false)).1

def insertKnownClaim (state : EngineState) (record : ClaimRecord) : Bool × EngineState :=
  let stored := state.recentClaimsByBlock.lookup record.blockHash
  let claimsForBlock := stored.getD ∅
  -- a block seen for the first time has its empty claim map stored before any return
  let state := if stored.isNone then
      { state with
        recentClaimsByBlock := state.recentClaimsByBlock.insert record.blockHash ∅ }
    else state
  if (claimsForBlock.lookup record.nodeID).isSome then (false, state)
  else
    let room : Option (Map NodeID ClaimRecord) :=
      if knownClaimsPerBlockCap ≤ claimsForBlock.entries.length then
        let candidate := knownClaimEvictionCandidate claimsForBlock record.nodeID
        if candidate.2 then some (claimsForBlock.erase candidate.1) else none
      else some claimsForBlock
    match room with
    | none => (false, state)
    | some claimsForBlock =>
      let claimsForBlock := claimsForBlock.insert record.nodeID record
      let newWinner := selectWinner claimsForBlock
      let oldWinner := state.winningClaimByBlock.lookup record.blockHash
      (true, { state with
        recentClaimsByBlock := state.recentClaimsByBlock.insert record.blockHash claimsForBlock
        conflictTotal :=
          if 1 < claimsForBlock.entries.length then state.conflictTotal + 1
          else state.conflictTotal
        winningClaimByBlock := state.winningClaimByBlock.insert record.blockHash newWinner
        scoreByNodeID :=
          if (state.windowSet.lookup record.blockHash).isSome then
            rescoreWinner state.scoreByNodeID oldWinner newWinner.nodeID
          else state.scoreByNodeID
        lastClaimTimeByNodeID :=
          state.lastClaimTimeByNodeID.insert newWinner.nodeID newWinner.receivedAtMs
        lastClaimBlockByNodeID :=
          state.lastClaimBlockByNodeID.insert newWinner.nodeID newWinner.blockHash })

/-! ## Pending claims -/

def pendingClaimsCount (pending : Map DomainHash (List ClaimRecord)) : ℕ :=
  AList.sumBy (fun _ list => list.length) pending

def largestPendingStep (largest : Option (ClaimRecord × ℕ)) (item : ClaimRecord × ℕ) :
    Option (ClaimRecord × ℕ) :=
  match largest with
  | none => some item
  | some top => if top.1.nodeID < item.1.nodeID then some item else largest

/-- `pendingClaimEvictionIndex`: the index of the largest node id (`-1` for an
empty list), and whether the incoming one is smaller. -/
def pendingClaimEvictionIndex (claims : List ClaimRecord) (incomingNodeID : NodeID) :
    Int × Bool :=
  match claims.zipIdx.foldl largestPendingStep none with
  | none => (-1, true)
  | some (top, index) => if top.nodeID ≤ incomingNodeID then (index, false) else (index, true)

/-- One block of the expiry pass of `cleanupPendingUnknownClaims`: the claims
younger than the TTL stay; a block left with none is deleted.  The age is a
`uint64` difference, so a claim from the future counts as expired. -/
def expirePendingStep (nowMs : UInt64) (pending : Map DomainHash (List ClaimRecord))
    (entry : Σ _ : DomainHash, List ClaimRecord) : Map DomainHash (List ClaimRecord) :=
  let filtered := entry.2.filter fun record =>
    nowMs - record.receivedAtMs ≤ pendingUnknownClaimsTTLSeconds * 1000
  if filtered.isEmpty then pending.erase entry.1 else pending.insert entry.1 filtered

def oldestStep (blockHash : DomainHash) (oldest : Option (DomainHash × ℕ × UInt64))
    (item : ClaimRecord × ℕ) : Option (DomainHash × ℕ × UInt64) :=
  match oldest with
  | none => some (blockHash, item.2, item.1.receivedAtMs)
  | some (_, _, oldestMs) =>
    if item.1.receivedAtMs < oldestMs then some (blockHash, item.2, item.1.receivedAtMs)
    else oldest

def oldestPendingClaim (pending : Map DomainHash (List ClaimRecord)) :
    Option (DomainHash × ℕ) :=
  (pending.entries.foldl (fun oldest entry => entry.2.zipIdx.foldl (oldestStep entry.1) oldest)
    none).map fun found => (found.1, found.2.1)

def removePendingClaim (pending : Map DomainHash (List ClaimRecord)) (blockHash : DomainHash)
    (index : ℕ) : Map DomainHash (List ClaimRecord) :=
  let list := ((pending.lookup blockHash).getD []).eraseIdx index
  if list.isEmpty then pending.erase blockHash else pending.insert blockHash list

/-- The cap loop of `cleanupPendingUnknownClaims`: while more than
`PENDING_UNKNOWN_CLAIMS_CAP` claims wait, the oldest goes.  Each pass removes one
claim, so as many passes as there are claims run the loop to its end. -/
def evictOldestPendingClaims : ℕ → Map DomainHash (List ClaimRecord) →
    Map DomainHash (List ClaimRecord)
  | 0, pending => pending
  | fuel + 1, pending =>
    if pendingUnknownClaimsCap < pendingClaimsCount pending then
      match oldestPendingClaim pending with
      | none => pending
      | some (blockHash, index) =>
        evictOldestPendingClaims fuel (removePendingClaim pending blockHash index)
    else pending

def cleanupPendingUnknownClaims (state : EngineState) (nowMs : UInt64) : EngineState :=
  let pending :=
    state.pendingUnknownClaims.entries.foldl (expirePendingStep nowMs) state.pendingUnknownClaims
  { state with pendingUnknownClaims := evictOldestPendingClaims (pendingClaimsCount pending) pending }

def enqueuePendingUnknownClaim (state : EngineState) (record : ClaimRecord) (nowMs : UInt64) :
    Bool × EngineState :=
  let list := (state.pendingUnknownClaims.lookup record.blockHash).getD []
  if list.any (·.nodeID = record.nodeID) then (false, state)
  else
    let room : Option (List ClaimRecord) :=
      if knownClaimsPerBlockCap ≤ list.length then
        let candidate := pendingClaimEvictionIndex list record.nodeID
        if candidate.2 then some (list.eraseIdx candidate.1.toNat) else none
      else some list
    match room with
    | none => (false, state)
    | some list =>
      (true, cleanupPendingUnknownClaims
        { state with
          pendingUnknownClaims := state.pendingUnknownClaims.insert record.blockHash (list ++ [record]) }
        nowMs)

/-- One claim of `promotePendingUnknownClaimsForBlock`: it goes through
`insertKnownClaim`, and the pass has changed something once one is inserted. -/
def promoteStep (acc : Bool × EngineState) (record : ClaimRecord) : Bool × EngineState :=
  let inserted := insertKnownClaim acc.2 record
  (acc.1 || inserted.1, inserted.2)

def promotePendingUnknownClaimsForBlock (state : EngineState) (blockHash : DomainHash) :
    Bool × EngineState :=
  match state.pendingUnknownClaims.lookup blockHash with
  | none => (false, state)
  | some [] => (false, state)
  | some list =>
    let state := { state with pendingUnknownClaims := state.pendingUnknownClaims.erase blockHash }
    -- `sort.Slice` by node id; the node ids of one pending list are distinct
    let sorted := list.mergeSort fun a b => decide (a.nodeID ≤ b.nodeID)
    sorted.foldl promoteStep (false, state)

def removeHashFromList (list : List DomainHash) (target : DomainHash) : List DomainHash :=
  list.erase target

def purgeClaimStateForBlock (state : EngineState) (blockHash : DomainHash) :
    Bool × EngineState :=
  ((state.recentClaimsByBlock.lookup blockHash).isSome ||
      (state.winningClaimByBlock.lookup blockHash).isSome ||
      (state.pendingUnknownClaims.lookup blockHash).isSome,
    { state with
      recentClaimsByBlock := state.recentClaimsByBlock.erase blockHash
      winningClaimByBlock := state.winningClaimByBlock.erase blockHash
      pendingUnknownClaims := state.pendingUnknownClaims.erase blockHash })

/-! ## IngestClaim -/

inductive IngestStatus
  | ignored
  | dropped
  | accepted
  | strike
  deriving DecidableEq, Repr

structure IngestOutcome where
  status : IngestStatus
  pending : Bool := false
  reason : String := ""
  nodeID : Option NodeID := none

def ingestClaim (crypto : ClaimCrypto) (engine : Engine) (state : EngineState)
    (message : Option MsgBlockProducerClaimV1) (hardforkActive blockKnown : Bool)
    (expectedNodeID : Option NodeID) (nowMs : UInt64) : IngestOutcome × EngineState :=
  if !engine.enabled || !hardforkActive then ({ status := .ignored }, state)
  else
    match message with
    | none => ({ status := .strike, reason := "nil block producer claim" }, state)
    | some message =>
      match validateClaimMessage crypto message engine.networkCode nowMs with
      | .error err => ({ status := .strike, reason := err }, state)
      | .ok record =>
        if expectedNodeID.any (· ≠ record.nodeID) then
          ({ status := .strike, reason := "claim node ID does not match peer handshake identity",
             nodeID := some record.nodeID }, state)
        else
          let state := cleanupPendingUnknownClaims state nowMs
          let known := blockKnown || (state.retentionSet.lookup record.blockHash).isSome ||
            (state.windowSet.lookup record.blockHash).isSome
          if !known then
            let enqueued := enqueuePendingUnknownClaim state record nowMs
            if !enqueued.1 then ({ status := .dropped }, enqueued.2)
            else ({ status := .accepted, pending := true }, { enqueued.2 with dirty := true })
          else
            let inserted := insertKnownClaim state record
            if !inserted.1 then ({ status := .dropped }, inserted.2)
            else ({ status := .accepted }, { inserted.2 with dirty := true })

/-! ## ApplyChainPathUpdate -/

/-- `SelectedChainPath`; nil entries are `none`. -/
structure SelectedChainPath where
  added : List (Option DomainHash)
  removed : List (Option DomainHash)

def dropFromWindow (acc : Bool × EngineState) (key : DomainHash) : Bool × EngineState :=
  if (acc.2.windowSet.lookup key).isSome then
    (true, { acc.2 with
      windowSet := acc.2.windowSet.erase key
      windowHashes := removeHashFromList acc.2.windowHashes key
      scoreByNodeID := dropWinnerScore acc.2 key })
  else acc

def dropFromRetention (acc : Bool × EngineState) (key : DomainHash) : Bool × EngineState :=
  if (acc.2.retentionSet.lookup key).isSome then
    (true, { acc.2 with
      retentionSet := acc.2.retentionSet.erase key
      retentionHashes := removeHashFromList acc.2.retentionHashes key })
  else acc

def removeChainBlock (acc : Bool × EngineState) (removed : Option DomainHash) :
    Bool × EngineState :=
  match removed with
  | none => acc
  | some key =>
    let acc := dropFromRetention (dropFromWindow acc key) key
    let purged := purgeClaimStateForBlock acc.2 key
    (acc.1 || purged.1, purged.2)

def addToRetention (acc : Bool × EngineState) (key : DomainHash) : Bool × EngineState :=
  if (acc.2.retentionSet.lookup key).isNone then
    (true, { acc.2 with
      retentionSet := acc.2.retentionSet.insert key ()
      retentionHashes := acc.2.retentionHashes ++ [key] })
  else acc

def addToWindow (acc : Bool × EngineState) (key : DomainHash) : Bool × EngineState :=
  if (acc.2.windowSet.lookup key).isNone then
    (true, { acc.2 with
      windowSet := acc.2.windowSet.insert key ()
      windowHashes := acc.2.windowHashes ++ [key]
      scoreByNodeID := addWinnerScore acc.2 key })
  else acc

def addChainBlock (acc : Bool × EngineState) (added : Option DomainHash) : Bool × EngineState :=
  match added with
  | none => acc
  | some key =>
    let acc := addToWindow (addToRetention acc key) key
    let promoted := promotePendingUnknownClaimsForBlock acc.2 key
    (acc.1 || promoted.1, promoted.2)

/-- The window eviction loop, run over the window's own hashes oldest first: while
the window is longer than `CLAIM_WINDOW_SIZE_BLOCKS`, its oldest hash leaves. -/
def evictWindowHashes : List DomainHash → Bool × EngineState → Bool × EngineState
  | [], acc => acc
  | evicted :: rest, acc =>
    if claimWindowSizeBlocks < (evicted :: rest).length then
      evictWindowHashes rest (true, { acc.2 with
        windowHashes := rest
        windowSet := acc.2.windowSet.erase evicted
        scoreByNodeID := dropWinnerScore acc.2 evicted })
    else acc

def evictRetentionHashes : List DomainHash → Bool × EngineState → Bool × EngineState
  | [], acc => acc
  | evicted :: rest, acc =>
    if claimWindowSizeBlocks + claimReorgMarginBlocks < (evicted :: rest).length then
      evictRetentionHashes rest (true, (purgeClaimStateForBlock { acc.2 with
        retentionHashes := rest
        retentionSet := acc.2.retentionSet.erase evicted } evicted).2)
    else acc

def applyChainPathUpdate (engine : Engine) (state : EngineState)
    (path : Option SelectedChainPath) (newSink : Option DomainHash) (hardforkActive : Bool)
    (nowMs : UInt64) : EngineState :=
  match path, newSink with
  | some path, some newSinkKey =>
    if !engine.enabled || !hardforkActive then state
    else
      let acc := path.removed.foldl removeChainBlock (false, state)
      let acc := path.added.foldl addChainBlock acc
      let acc := evictWindowHashes acc.2.windowHashes acc
      let acc := evictRetentionHashes acc.2.retentionHashes acc
      let acc := (acc.1, cleanupPendingUnknownClaims acc.2 nowMs)
      let acc := if !acc.2.hasLastSink || acc.2.lastSinkHash ≠ newSinkKey then
          (true, { acc.2 with lastSinkHash := newSinkKey, hasLastSink := true })
        else acc
      if acc.1 then { recomputeScores acc.2 with dirty := true } else acc.2
  | _, _ => state

/-! ## Runs -/

inductive EngineCall
  | ingestClaim (message : Option MsgBlockProducerClaimV1) (hardforkActive blockKnown : Bool)
      (expectedNodeID : Option NodeID) (nowMs : UInt64)
  | applyChainPathUpdate (path : Option SelectedChainPath) (newSink : Option DomainHash)
      (hardforkActive : Bool) (nowMs : UInt64)

def EngineCall.exec (crypto : ClaimCrypto) (engine : Engine) (state : EngineState) :
    EngineCall → EngineState
  | .ingestClaim message hardforkActive blockKnown expectedNodeID nowMs =>
    (StrongNodeClaims.ingestClaim crypto engine state message hardforkActive blockKnown
      expectedNodeID nowMs).2
  | .applyChainPathUpdate path newSink hardforkActive nowMs =>
    StrongNodeClaims.applyChainPathUpdate engine state path newSink hardforkActive nowMs

def EngineStep (crypto : ClaimCrypto) (engine : Engine) (state : EngineState) (call : EngineCall)
    (state' : EngineState) : Prop :=
  call.exec crypto engine state = state'

/-! ## The persisted snapshot -/

/-- `claimDiskRecord`, its hashes as hex text. -/
structure ClaimDiskRecord where
  blockHash : List UInt8
  nodeID : List UInt8
  pubKeyXOnly : List UInt8
  powNonce : UInt64
  signature : List UInt8
  claimID : List UInt8
  receivedAtMs : UInt64

/-- `claimStateDisk`, as `json.Unmarshal` fills it; absent fields are empty. -/
structure ClaimStateDisk where
  schemaVersion : UInt32
  lastSink : List UInt8
  windowHashes : List (List UInt8)
  retentionHashes : List (List UInt8)
  winners : List ClaimDiskRecord
  conflictTotal : UInt64

def decodeHexBytes (n : ℕ) (value : List UInt8) : Except String (Vector UInt8 n) :=
  match Hex.decode value with
  | .error err => .error err.text
  | .ok decoded =>
    if decoded.length = n then .ok (copyBytes n decoded)
    else .error ("expected " ++ toString n ++ " bytes, got " ++ toString decoded.length)

def decodeHex32 (value : List UInt8) : Except String DomainHash :=
  decodeHexBytes 32 value

def decodeHex64 (value : List UInt8) : Except String (Vector UInt8 64) :=
  decodeHexBytes 64 value

def wrapError {α : Type} (context : String) : Except String α → Except String α
  | .error err => .error (context ++ ": " ++ err)
  | .ok value => .ok value

def decodeHashStep (context : String) (acc : List DomainHash × Map DomainHash Unit)
    (rawHash : List UInt8) : Except String (List DomainHash × Map DomainHash Unit) := do
  let hash ← wrapError context (decodeHex32 rawHash)
  if (acc.2.lookup hash).isSome then pure acc else pure (acc.1 ++ [hash], acc.2.insert hash ())

def decodeWinnerStep (crypto : ClaimCrypto) (networkCode : UInt8) (state : EngineState)
    (winner : ClaimDiskRecord) : Except String EngineState := do
  let blockHash ← wrapError "invalid winner block hash" (decodeHex32 winner.blockHash)
  let nodeID ← wrapError "invalid winner node_id" (decodeHex32 winner.nodeID)
  let pubKeyXOnly ← wrapError "invalid winner pubkey_xonly" (decodeHex32 winner.pubKeyXOnly)
  let signature ← wrapError "invalid winner signature" (decodeHex64 winner.signature)
  let claimID ← wrapError "invalid winner claim_id" (decodeHex32 winner.claimID)
  let record : ClaimRecord :=
    ⟨blockHash, nodeID, pubKeyXOnly, winner.powNonce, signature, claimID, winner.receivedAtMs⟩
  if !claimRecordIsValid crypto record networkCode then pure state
  else
    pure { state with
      winningClaimByBlock := state.winningClaimByBlock.insert blockHash record
      recentClaimsByBlock :=
        state.recentClaimsByBlock.insert blockHash ((∅ : Map NodeID ClaimRecord).insert nodeID record) }

def decodeLastSink (lastSink : List UInt8) : Except String EngineState :=
  if lastSink = [] then .ok newEngineState
  else do
    let hash ← wrapError "invalid persisted last sink hash" (decodeHex32 lastSink)
    pure { newEngineState with lastSinkHash := hash, hasLastSink := true }

def decodeStateDisk (crypto : ClaimCrypto) (disk : ClaimStateDisk) (networkCode : UInt8) :
    Except String EngineState := do
  if disk.schemaVersion ≠ claimStateSchemaV1 then
    throw ("unsupported claim state schema version " ++ toString disk.schemaVersion)
  let state ← decodeLastSink disk.lastSink
  let window ← disk.windowHashes.foldlM (decodeHashStep "invalid persisted window hash")
    (state.windowHashes, state.windowSet)
  let retention ← disk.retentionHashes.foldlM
    (decodeHashStep "invalid persisted retention hash") (state.retentionHashes, state.retentionSet)
  let state := { state with
    windowHashes := window.1
    windowSet := window.2
    retentionHashes := retention.1
    retentionSet := retention.2 }
  let state ← disk.winners.foldlM (decodeWinnerStep crypto networkCode) state
  pure (recomputeScores { state with conflictTotal := disk.conflictTotal })

def claimDiskRecordOf (winner : ClaimRecord) : ClaimDiskRecord where
  blockHash := Hex.encode winner.blockHash.toList
  nodeID := Hex.encode (winner.nodeID : Vector UInt8 32).toList
  pubKeyXOnly := Hex.encode winner.pubKeyXOnly.toList
  powNonce := winner.powNonce
  signature := Hex.encode winner.signature.toList
  claimID := Hex.encode winner.claimID.toList
  receivedAtMs := winner.receivedAtMs

def sortedWinnerHashes (winners : Map DomainHash ClaimRecord) : List DomainHash :=
  winners.keys.mergeSort fun a b =>
    decide (a.toList.map UInt8.toNat ≤ b.toList.map UInt8.toNat)

/-- The `claimStateDisk` that `persistState` hands to `json.MarshalIndent`; the file
writes around it are not modelled. -/
def persistStateDisk (state : EngineState) : ClaimStateDisk where
  schemaVersion := claimStateSchemaV1
  lastSink := if state.hasLastSink then Hex.encode state.lastSinkHash.toList else []
  windowHashes := state.windowHashes.map fun hash => Hex.encode hash.toList
  retentionHashes := state.retentionHashes.map fun hash => Hex.encode hash.toList
  winners := (sortedWinnerHashes state.winningClaimByBlock).map fun blockHash =>
    claimDiskRecordOf ((state.winningClaimByBlock.lookup blockHash).getD emptyClaimRecord)
  conflictTotal := state.conflictTotal

end Cryptixd.StrongNodeClaims
