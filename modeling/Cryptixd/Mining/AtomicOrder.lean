import Mathlib
import Cryptixd.Atomic.Apply

/-!
# Block-template order of CAT transactions

`blocktemplatebuilder/atomic_order.go`. Before a block template is handed out,
`orderAtomicCandidateTransactions` moves the candidates that carry an atomic (CAT)
operation to the front and orders them so that a transaction comes after those it
needs: the one with its owner's previous nonce, the one with its pool's previous
pool nonce, and the one that creates the asset it refers to.

The ordering is Kahn's algorithm over the positions of the CAT candidates
(`orderAtomicCandidateIndices`). Each pass sorts the ready positions by
`compareAtomicOrderPriority` and emits the first one; the positions a cycle leaves
unemitted follow, sorted by the same priority. Go's maps from slots to positions
are modelled by their lookups (`byNonce`, `byPool`, `byCreatedAsset`), which are
the positions holding the slot in position order. Go's `sort.Slice` is modelled by
a stable merge sort, one of the orders it may produce. The loop runs on fuel, as
many passes as the initial ready list and all the edges can take, which
`AtomicOrderLoop` shows to be enough.

Go's three-way comparisons, `-1`, `0` and `1`, are `Ordering` values here, and
`bytes.Compare` of two 32-byte arrays is `compare` on the vectors, which is the
same lexicographic order.
-/

set_option autoImplicit false

namespace Cryptixd.Mining

open Cryptixd.Atomic

/-! ## Order information -/

structure TemplateAtomicOrderPriority where
  nonceKey : NonceKey
  nonce : UInt64
  poolAssetID : DomainHash
  poolNonce : UInt64
  txID : DomainHash
  deriving DecidableEq, Repr

structure TemplateAtomicOrderInfo where
  priority : TemplateAtomicOrderPriority
  nonceKey : NonceKey
  nonce : UInt64
  hasPool : Bool
  poolAssetID : DomainHash
  poolNonce : UInt64
  hasCreatedAsset : Bool
  createdAssetID : DomainHash
  hasReferencedAsset : Bool
  referencedAssetID : DomainHash
  deriving DecidableEq, Repr

/-- `templateAtomicItem`: a candidate's index and its order information. -/
structure TemplateAtomicItem where
  index : ℕ
  info : TemplateAtomicOrderInfo
  deriving DecidableEq, Repr

structure TemplateAtomicNonceSlot where
  key : NonceKey
  nonce : UInt64
  deriving DecidableEq, Repr

structure TemplateAtomicPoolSlot where
  assetID : DomainHash
  nonce : UInt64
  deriving DecidableEq, Repr

def zeroOrderPriority : TemplateAtomicOrderPriority :=
  ⟨⟨zeroHash, 0, zeroHash⟩, 0, zeroHash, 0, zeroHash⟩

def orderInfoOf (nonceKey : NonceKey) (nonce : UInt64) : TemplateAtomicOrderInfo :=
  ⟨zeroOrderPriority, nonceKey, nonce, false, zeroHash, 0, false, zeroHash, false, zeroHash⟩

/-- `templateAtomicOrderInfoForOp`: the pool an operation trades against, the asset it
creates (named by the transaction id) and the asset it refers to. -/
def templateAtomicOrderInfoForOp (nonceKey : NonceKey) (nonce : UInt64) (txID : DomainHash)
    (op : PayloadOp) : TemplateAtomicOrderInfo :=
  let info := orderInfoOf nonceKey nonce
  let info : TemplateAtomicOrderInfo := match op with
    | .transfer op => { info with hasReferencedAsset := true, referencedAssetID := op.assetID }
    | .mint op => { info with hasReferencedAsset := true, referencedAssetID := op.assetID }
    | .burn op => { info with hasReferencedAsset := true, referencedAssetID := op.assetID }
    | .buyLiquidityExactIn op =>
      { info with
        hasPool := true, poolAssetID := op.assetID, poolNonce := op.expectedPoolNonce
        hasReferencedAsset := true, referencedAssetID := op.assetID }
    | .sellLiquidityExactIn op =>
      { info with
        hasPool := true, poolAssetID := op.assetID, poolNonce := op.expectedPoolNonce
        hasReferencedAsset := true, referencedAssetID := op.assetID }
    | .claimLiquidityFees op =>
      { info with
        hasPool := true, poolAssetID := op.assetID, poolNonce := op.expectedPoolNonce
        hasReferencedAsset := true, referencedAssetID := op.assetID }
    | .createAsset _ | .createAssetWithMint _ | .createLiquidityAsset _ =>
      { info with hasCreatedAsset := true, createdAssetID := txID }
  { info with priority := ⟨nonceKey, nonce, info.poolAssetID, info.poolNonce, txID⟩ }

/-- `catNonceKey`: the same switch as the nonce rules' `nonceKeyForOp`; its default
case, for an operation type it does not know, cannot occur over `PayloadOp`. -/
def catNonceKey (parsed : ParsedPayload) (ownerID : DomainHash) : NonceKey :=
  nonceKeyForOp ownerID parsed.op

/-- The field of `candidateTx` the ordering reads; a nil candidate or a nil
transaction is `none`. -/
structure CandidateTx where
  domainTransaction : Option DomainTransaction

section Candidates

variable (blake2b256 : List UInt8 → DomainHash)

def templateAtomicOrderInfoForCandidate (candidate : CandidateTx) :
    Option TemplateAtomicOrderInfo :=
  match candidate.domainTransaction with
  | none => none
  | some tx =>
    if !isPayload tx.subnetworkID || tx.payload.length = 0 then none
    else
      match parsePayload tx.payload with
      | .error _ => none
      | .ok none => none
      | .ok (some parsed) =>
        match tx.inputs[parsed.authInputIndex.toNat]? with
        | none => none
        | some authInput =>
          match authInput.utxoEntry with
          | none => none
          | some entry =>
            match ownerIDFromScript blake2b256 entry.scriptPublicKey with
            | none => none
            | some ownerID =>
              some (templateAtomicOrderInfoForOp (catNonceKey parsed ownerID) parsed.nonce tx.id
                parsed.op)

end Candidates

/-! ## The priority -/

def compareAtomicNonceKey (left right : NonceKey) : Ordering :=
  match compare left.ownerID right.ownerID with
  | .eq =>
    if left.scopeKind < right.scopeKind then .lt
    else if left.scopeKind > right.scopeKind then .gt
    else compare left.scopeID right.scopeID
  | cmp => cmp

def compareAtomicOrderPriority (left right : TemplateAtomicOrderPriority) : Ordering :=
  match compareAtomicNonceKey left.nonceKey right.nonceKey with
  | .eq =>
    if left.nonce < right.nonce then .lt
    else if left.nonce > right.nonce then .gt
    else
      match compare left.poolAssetID right.poolAssetID with
      | .eq =>
        if left.poolNonce < right.poolNonce then .lt
        else if left.poolNonce > right.poolNonce then .gt
        else compare left.txID right.txID
      | cmp => cmp
  | cmp => cmp

/-! ## Kahn's algorithm over positions -/

section Positions

variable (atomicItems : List TemplateAtomicItem)

def infoAt (position : ℕ) : TemplateAtomicOrderInfo :=
  match atomicItems[position]? with
  | some item => item.info
  | none => orderInfoOf ⟨zeroHash, 0, zeroHash⟩ 0

def byNonce (slot : TemplateAtomicNonceSlot) : List ℕ :=
  (List.range atomicItems.length).filter fun position =>
    (infoAt atomicItems position).nonceKey = slot.key ∧ (infoAt atomicItems position).nonce = slot.nonce

def byPool (slot : TemplateAtomicPoolSlot) : List ℕ :=
  (List.range atomicItems.length).filter fun position =>
    (infoAt atomicItems position).hasPool ∧ (infoAt atomicItems position).poolAssetID = slot.assetID ∧
      (infoAt atomicItems position).poolNonce = slot.nonce

def byCreatedAsset (assetID : DomainHash) : List ℕ :=
  (List.range atomicItems.length).filter fun position =>
    (infoAt atomicItems position).hasCreatedAsset ∧ (infoAt atomicItems position).createdAssetID = assetID

def dependencyParents (info : TemplateAtomicOrderInfo) : List ℕ :=
  (if info.nonce > 1 then byNonce atomicItems ⟨info.nonceKey, info.nonce - 1⟩ else []) ++
  (if info.hasPool ∧ info.poolNonce > 1 then
    byPool atomicItems ⟨info.poolAssetID, info.poolNonce - 1⟩ else []) ++
  (if info.hasReferencedAsset then byCreatedAsset atomicItems info.referencedAssetID else [])

/-- `dependents` and `dependencyCounts`. -/
structure DependencyGraph where
  dependents : ℕ → List ℕ
  dependencyCounts : ℕ → ℕ

def addDependency (graph : DependencyGraph) (parent child : ℕ) : DependencyGraph :=
  ⟨Function.update graph.dependents parent (graph.dependents parent ++ [child]),
    Function.update graph.dependencyCounts child (graph.dependencyCounts child + 1)⟩

def addChildDependencies (graph : DependencyGraph) (childPosition : ℕ) : DependencyGraph :=
  (dependencyParents atomicItems (infoAt atomicItems childPosition)).foldl
    (fun graph parent => addDependency graph parent childPosition) graph

def dependencyGraph : DependencyGraph :=
  (List.range atomicItems.length).foldl (addChildDependencies atomicItems) ⟨fun _ => [], fun _ => 0⟩

def sortPositions (positions : List ℕ) : List ℕ :=
  positions.mergeSort fun left right =>
    (compareAtomicOrderPriority (infoAt atomicItems left).priority
      (infoAt atomicItems right).priority).isLE

/-- The variables of the emission loop. -/
structure OrderState where
  ready : List ℕ
  emitted : ℕ → Bool
  dependencyCounts : ℕ → ℕ
  orderedPositions : List ℕ

def releaseChild (acc : (ℕ → ℕ) × List ℕ) (child : ℕ) : (ℕ → ℕ) × List ℕ :=
  let counts := if acc.1 child > 0 then Function.update acc.1 child (acc.1 child - 1) else acc.1
  (counts, if counts child = 0 then acc.2 ++ [child] else acc.2)

/-- One pass of the emission loop: the least ready position is popped and, unless
already emitted, emitted and its children released. -/
def emitStep (dependents : ℕ → List ℕ) (state : OrderState) : OrderState :=
  match sortPositions atomicItems state.ready with
  | [] => state
  | position :: ready =>
    if state.emitted position then { state with ready := ready }
    else
      let released := (dependents position).foldl releaseChild (state.dependencyCounts, [])
      { ready := ready ++ released.2
        emitted := Function.update state.emitted position true
        dependencyCounts := released.1
        orderedPositions := state.orderedPositions ++ [position] }

def emitLoop (dependents : ℕ → List ℕ) : ℕ → OrderState → OrderState
  | 0, state => state
  | fuel + 1, state =>
    if state.ready = [] then state else emitLoop dependents fuel (emitStep atomicItems dependents state)

def emitFuel (graph : DependencyGraph) : ℕ :=
  atomicItems.length + ((List.range atomicItems.length).map fun p => (graph.dependents p).length).sum

def initialOrderState (graph : DependencyGraph) : OrderState :=
  ⟨(List.range atomicItems.length).filter (fun position => graph.dependencyCounts position = 0),
    fun _ => false, graph.dependencyCounts, []⟩

def orderedPositionsOf (state : OrderState) : List ℕ :=
  if state.orderedPositions.length < atomicItems.length then
    state.orderedPositions ++ sortPositions atomicItems
      ((List.range atomicItems.length).filter fun position => !state.emitted position)
  else state.orderedPositions

def orderAtomicCandidateIndices : List ℕ :=
  if atomicItems.length ≤ 1 then atomicItems.map (·.index)
  else
    let graph := dependencyGraph atomicItems
    let state := emitLoop atomicItems graph.dependents (emitFuel atomicItems graph)
      (initialOrderState atomicItems graph)
    (orderedPositionsOf atomicItems state).filterMap fun position =>
      atomicItems[position]?.map (·.index)

end Positions

/-! ## The candidates -/

section Order

variable {α : Type} (infoOf : α → Option TemplateAtomicOrderInfo)

def classifyCandidate (acc : List TemplateAtomicItem × List ℕ) (entry : α × ℕ) :
    List TemplateAtomicItem × List ℕ :=
  match infoOf entry.1 with
  | none => (acc.1, acc.2 ++ [entry.2])
  | some info => (acc.1 ++ [⟨entry.2, info⟩], acc.2)

def orderAtomicCandidates (candidateTxs : List α) : List α :=
  if candidateTxs.length ≤ 1 then candidateTxs
  else
    let classified := candidateTxs.zipIdx.foldl (classifyCandidate infoOf) ([], [])
    if classified.1.length ≤ 1 then candidateTxs
    else
      let orderedIndices := orderAtomicCandidateIndices classified.1 ++ classified.2
      if orderedIndices.length ≠ candidateTxs.length then candidateTxs
      else orderedIndices.filterMap fun index => candidateTxs[index]?

end Order

def orderAtomicCandidateTransactions (blake2b256 : List UInt8 → DomainHash)
    (candidateTxs : List CandidateTx) : List CandidateTx :=
  orderAtomicCandidates (templateAtomicOrderInfoForCandidate blake2b256) candidateTxs

end Cryptixd.Mining
