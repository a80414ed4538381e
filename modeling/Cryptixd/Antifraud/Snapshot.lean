import Mathlib
import Cryptixd.Atomic.Types

/-!
# The anti-fraud snapshot state of the connection manager

`infrastructure/network/connmanager/external_banlist.go`.  A signed snapshot
of banned IPs and node IDs reaches a node from the seed endpoint
(`refreshExternalBanlistIfNeeded`), from the snapshot it persisted
(`tryLoadPersistedAntiFraudSnapshot`) or from a majority of its peers
(`IngestPeerAntiFraudSnapshot`).  Each source hands the decoded snapshot to
`tryApplyAntiFraudSnapshotLocked`, the only writer of the applied sequence
number and root hash.

Each function is modelled on the fields of `ConnectionManager` it reads and
writes (`AntiFraudState`), with explicit state passing: a function returns the
state the Go code leaves behind, also on its error paths.  Decoding and
signature checks are the caller's input here: a call receives what
`fetchExternalBanlist`, `loadPersistedSnapshotFile` or
`decodeExternalBanlistSnapshotFromMessage` returned.  Times are nanoseconds.
-/

set_option autoImplicit false

namespace Cryptixd.Antifraud

open Cryptixd.Atomic

def externalBanlistPeerVoteMaxAge : Int := 2 * 60 * 1000000000

def externalBanlistPeerVoteMaxSize : Nat := 512

def externalBanlistFetchInterval : Int := 60 * 60 * 1000000000

def externalBanlistRetryInterval : Int := 15 * 1000000000

def antiFraudHashWindowLen : Nat := 3

/-- `externalBanlistSnapshot`, the fields the state machine reads. -/
structure ExternalBanlistSnapshot where
  snapshotSeq : UInt64
  antiFraudEnabled : Bool
  rootHash : DomainHash
  ips : Map String Unit
  nodeIDs : Map String Unit

/-- `peerAntiFraudVote`; the only writer stores a non-nil snapshot. -/
structure PeerAntiFraudVote where
  snapshot : ExternalBanlistSnapshot
  receivedAt : Int

/-- The anti-fraud fields of `ConnectionManager`.  A zero
`nextExternalBanlistFetch` is `none`; `antiFraudCurrentSnapshot` keeps the
applied snapshot itself in place of its `toAppMessage`. -/
structure AntiFraudState where
  externallyBannedIPs : Map String Unit
  externallyBannedNodeIDs : Map String Unit
  nextExternalBanlistFetch : Option Int
  externalSnapshotSeq : UInt64
  externalSnapshotRootHash : DomainHash
  hasExternalSnapshot : Bool
  antiFraudHashWindow : Vector DomainHash 3
  antiFraudCurrentSnapshot : Option ExternalBanlistSnapshot
  antiFraudRuntimeEnabled : Bool
  antiFraudPeerFallback : Bool
  externalBanlistRetryPending : Bool
  antiFraudPeerVotes : Map String PeerAntiFraudVote

def newAntiFraudState : AntiFraudState where
  externallyBannedIPs := ∅
  externallyBannedNodeIDs := ∅
  nextExternalBanlistFetch := none
  externalSnapshotSeq := 0
  externalSnapshotRootHash := zeroHash
  hasExternalSnapshot := false
  antiFraudHashWindow := Vector.replicate 3 zeroHash
  antiFraudCurrentSnapshot := none
  antiFraudRuntimeEnabled := false
  antiFraudPeerFallback := false
  externalBanlistRetryPending := false
  antiFraudPeerVotes := ∅

/-! ## Applying a snapshot -/

def advanceAntiFraudHashWindow (current : Vector DomainHash 3) (newHash : DomainHash) :
    Vector DomainHash 3 :=
  if newHash = zeroHash ∨ current[0] = newHash then current
  else
    -- the Go loop breaks once the window is full; a full list takes nothing more
    let ordered := current.toList.foldl (fun ordered hash =>
      if ordered.length = antiFraudHashWindowLen ∨ hash = zeroHash ∨ hash ∈ ordered then ordered
      else ordered ++ [hash]) [newHash]
    Vector.ofFn fun i => ordered.getD i zeroHash

def orderedStep (ordered : List DomainHash) (hash : DomainHash) : List DomainHash :=
  if ordered.length = antiFraudHashWindowLen ∨ hash = zeroHash ∨ hash ∈ ordered then ordered
  else ordered ++ [hash]

theorem advanceAntiFraudHashWindow_eq (current : Vector DomainHash 3) (newHash : DomainHash) :
    advanceAntiFraudHashWindow current newHash =
      if newHash = zeroHash ∨ current[0] = newHash then current
      else Vector.ofFn fun i => (current.toList.foldl orderedStep [newHash]).getD i zeroHash :=
  rfl

def applySnapshot (c : AntiFraudState) (snapshot : ExternalBanlistSnapshot) : AntiFraudState :=
  { c with
    externallyBannedIPs := snapshot.ips
    externallyBannedNodeIDs := snapshot.nodeIDs
    externalSnapshotSeq := snapshot.snapshotSeq
    externalSnapshotRootHash := snapshot.rootHash
    hasExternalSnapshot := true
    antiFraudCurrentSnapshot := some snapshot
    antiFraudHashWindow := advanceAntiFraudHashWindow c.antiFraudHashWindow snapshot.rootHash }

/-- `tryApplyAntiFraudSnapshotLocked`: whether the snapshot was applied, and
the state after.  Every check comes before the first write, so an error
leaves the state as it was.  Persisting to disk is not modelled; its error is
ignored by the Go code. -/
def tryApplyAntiFraudSnapshotLocked (snapshot : Option ExternalBanlistSnapshot)
    (c : AntiFraudState) : Except String (Bool × AntiFraudState) :=
  match snapshot with
  | none => .error "snapshot is nil"
  | some snapshot =>
    if !snapshot.antiFraudEnabled then .error "snapshot has antifraud_enabled=false"
    else if c.hasExternalSnapshot then
      if snapshot.snapshotSeq < c.externalSnapshotSeq then
        .error ("received older snapshot_seq (" ++ toString snapshot.snapshotSeq ++ " < " ++
          toString c.externalSnapshotSeq ++ ")")
      else if snapshot.snapshotSeq = c.externalSnapshotSeq then
        if snapshot.rootHash ≠ c.externalSnapshotRootHash then
          .error "same snapshot_seq with different root_hash"
        else .ok (false, c)
      else .ok (true, applySnapshot c snapshot)
    else .ok (true, applySnapshot c snapshot)

def tryApplyAntiFraudSnapshot (snapshot : Option ExternalBanlistSnapshot) (c : AntiFraudState) :
    Except String (Bool × AntiFraudState) :=
  tryApplyAntiFraudSnapshotLocked snapshot c

/-! ## The seed endpoint and the disk -/

def ensurePeerOnlyAntiFraudRuntime (now : Int) (c : AntiFraudState) : AntiFraudState :=
  if c.antiFraudRuntimeEnabled ∧ c.antiFraudPeerFallback ∧ !c.externalBanlistRetryPending then c
  else
    { c with
      antiFraudRuntimeEnabled := true
      antiFraudPeerFallback := true
      externalBanlistRetryPending := false
      nextExternalBanlistFetch := some (now + externalBanlistFetchInterval) }

def handleExternalBanlistRefreshFailure (now : Int) (c : AntiFraudState) : AntiFraudState :=
  let c := { c with antiFraudRuntimeEnabled := true }
  if c.antiFraudPeerFallback then
    { c with
      externalBanlistRetryPending := false
      nextExternalBanlistFetch := some (now + externalBanlistFetchInterval) }
  else if !c.externalBanlistRetryPending then
    { c with
      externalBanlistRetryPending := true
      nextExternalBanlistFetch := some (now + externalBanlistRetryInterval) }
  else
    { c with
      externalBanlistRetryPending := false
      antiFraudPeerFallback := true
      nextExternalBanlistFetch := some (now + externalBanlistFetchInterval) }

/-- `refreshExternalBanlistIfNeeded`, with what `fetchExternalBanlist`
returned: an error, no usable snapshot (`externalBanlistFetchUnavailable`),
or a validated snapshot.  Returns the `applied` flag it logs. -/
def refreshExternalBanlistIfNeeded (enableExternalBanlist : Bool) (now : Int)
    (fetched : Except String (Option ExternalBanlistSnapshot)) (c : AntiFraudState) :
    Bool × AntiFraudState :=
  if c.nextExternalBanlistFetch.any (now < ·) then (false, c)
  else if !enableExternalBanlist then (false, ensurePeerOnlyAntiFraudRuntime now c)
  else
    match fetched with
    | .error _ => (false, handleExternalBanlistRefreshFailure now c)
    | .ok none => (false, handleExternalBanlistRefreshFailure now c)
    | .ok (some snapshot) =>
      match tryApplyAntiFraudSnapshot (some snapshot) c with
      | .error _ => (false, handleExternalBanlistRefreshFailure now c)
      | .ok (applied, c) =>
        (applied,
          { c with
            nextExternalBanlistFetch := some (now + externalBanlistFetchInterval)
            antiFraudPeerFallback := false
            externalBanlistRetryPending := false
            antiFraudRuntimeEnabled := true })

def tryLoadPersistedAntiFraudSnapshot (loaded : Option ExternalBanlistSnapshot)
    (c : AntiFraudState) : Bool × AntiFraudState :=
  match loaded with
  | none => (false, c)
  | some loaded =>
    if !loaded.antiFraudEnabled then (false, c)
    else
      match tryApplyAntiFraudSnapshot (some loaded) c with
      | .error _ => (false, c)
      | .ok (applied, c) => (applied, c)

/-! ## Peer votes -/

def voteExpired (now : Int) (vote : PeerAntiFraudVote) : Bool :=
  now - vote.receivedAt > externalBanlistPeerVoteMaxAge

def voteBefore (vote1 vote2 : String × Int) : Bool :=
  if vote1.2 = vote2.2 then vote1.1 < vote2.1 else vote1.2 < vote2.2

def pruneAntiFraudPeerVotes (votes : Map String PeerAntiFraudVote) (now : Int) :
    Map String PeerAntiFraudVote :=
  if votes.entries.length = 0 then votes
  else
    let kept := votes.entries.foldl (fun kept entry =>
      if voteExpired now entry.2 then kept.erase entry.1 else kept) votes
    if kept.entries.length ≤ externalBanlistPeerVoteMaxSize then kept
    else
      let ordered := (kept.entries.map fun entry => (entry.1, entry.2.receivedAt)).mergeSort voteBefore
      let overflow := kept.entries.length - externalBanlistPeerVoteMaxSize
      (ordered.take overflow).foldl (fun kept entry => kept.erase entry.1) kept

def highestStep (highest : Option UInt64) (snapshotSeq : UInt64) : Option UInt64 :=
  match highest with
  | none => some snapshotSeq
  | some highestSeq => if snapshotSeq > highestSeq then some snapshotSeq else some highestSeq

def highestSnapshotSeq (votes : Map String PeerAntiFraudVote) : Option UInt64 :=
  (votes.entries.map (·.2.snapshot.snapshotSeq)).foldl highestStep none

def peerCandidates (votes : Map String PeerAntiFraudVote) (highestSeq : UInt64) :
    List ExternalBanlistSnapshot :=
  votes.entries.filterMap fun entry =>
    if entry.2.snapshot.snapshotSeq = highestSeq then some entry.2.snapshot else none

def countVoteStep (votesByHash : Map DomainHash Nat) (candidate : ExternalBanlistSnapshot) :
    Map DomainHash Nat :=
  votesByHash.insert candidate.rootHash ((votesByHash.lookup candidate.rootHash).getD 0 + 1)

def countVotesByHash (candidates : List ExternalBanlistSnapshot) : Map DomainHash Nat :=
  candidates.foldl countVoteStep ∅

def snapshotsByHash (candidates : List ExternalBanlistSnapshot) :
    Map DomainHash ExternalBanlistSnapshot :=
  candidates.foldl (fun byHash candidate => byHash.insert candidate.rootHash candidate) ∅

def winnerStep (winner : DomainHash × Nat) (entry : Sigma fun _ : DomainHash => Nat) :
    DomainHash × Nat :=
  if entry.2 > winner.2 then (entry.1, entry.2) else winner

def pickWinnerHash (votesByHash : Map DomainHash Nat) : DomainHash × Nat :=
  votesByHash.entries.foldl winnerStep (zeroHash, 0)

/-- The selection of `IngestPeerAntiFraudSnapshot` after pruning: the winning
snapshot, when the most voted root hash at the highest sequence number has
`required` votes.  A winning hash always has a snapshot, so the Go lookup never
yields nil. -/
def selectPeerMajority (votes : Map String PeerAntiFraudVote) : Option ExternalBanlistSnapshot :=
  match highestSnapshotSeq votes with
  | none => none
  | some highestSeq =>
    let candidates := peerCandidates votes highestSeq
    if candidates.length = 0 then none
    else
      let winner := pickWinnerHash (countVotesByHash candidates)
      let required := candidates.length / 2 + 1
      if winner.2 < required then none
      else (snapshotsByHash candidates).lookup winner.1

structure IngestPeerAntiFraudSnapshotResult where
  applied : Bool
  rootHash : DomainHash

def isAntiFraudPeerFallbackRequired (enableExternalBanlist : Bool) (c : AntiFraudState) : Bool :=
  c.antiFraudRuntimeEnabled && (!enableExternalBanlist || c.antiFraudPeerFallback)

/-- `IngestPeerAntiFraudSnapshot`, with `message` the peer's message (`none`
for nil) already run through `decodeExternalBanlistSnapshotFromMessage` for
this network.  The vote is recorded and the votes pruned before the
selection, so they stay also when the call fails. -/
def ingestPeerAntiFraudSnapshot (enableExternalBanlist : Bool) (peerID : String)
    (message : Option (Except String ExternalBanlistSnapshot)) (now : Int) (c : AntiFraudState) :
    Except String IngestPeerAntiFraudSnapshotResult × AntiFraudState :=
  if !isAntiFraudPeerFallbackRequired enableExternalBanlist c then (.ok ⟨false, zeroHash⟩, c)
  else if peerID = "" then (.error "peer ID is empty", c)
  else
    match message with
    | none => (.error "snapshot message is nil", c)
    | some (.error err) => (.error err, c)
    | some (.ok snapshot) =>
      let result : IngestPeerAntiFraudSnapshotResult := ⟨false, snapshot.rootHash⟩
      if !snapshot.antiFraudEnabled then (.ok result, c)
      else
        let c := { c with
          antiFraudPeerVotes :=
            pruneAntiFraudPeerVotes (c.antiFraudPeerVotes.insert peerID ⟨snapshot, now⟩) now }
        match selectPeerMajority c.antiFraudPeerVotes with
        | none => (.ok result, c)
        | some winner =>
          if !winner.antiFraudEnabled then (.ok result, c)
          else
            match tryApplyAntiFraudSnapshotLocked (some winner) c with
            | .error err => (.error err, c)
            | .ok (applied, c) => (.ok { result with applied := applied }, c)

end Cryptixd.Antifraud
