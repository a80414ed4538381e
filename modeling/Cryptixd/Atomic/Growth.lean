import Mathlib
import Cryptixd.Atomic.ApplySpec

/-!
# Per-block state growth limits

`atomicstate/growth.go`: before a transaction is applied, the number of new
persistent keys it would create (assets, balances, nonces, pools, anchor
owners) is estimated from the current state, checked against the block's
limits together with what the block already used, and committed to the
block's counter only after the transaction applied.  A nil
`*BlockStateGrowth` limits nothing; it is `none` here.

The entry point writes two things, the state and the block counter, and
either may be left behind by a failure; `validateAndApply_failureAtomic`
shows that neither is.
-/

set_option autoImplicit false

namespace Cryptixd.Atomic

structure StateGrowthLimits where
  maxNewAssets : UInt64
  maxNewBalanceKeys : UInt64
  maxNewNonceKeys : UInt64
  maxNewPools : UInt64
  maxNewAnchorOwnerKeys : UInt64
  deriving DecidableEq, Repr

structure StateGrowth where
  newAssets : UInt64
  newBalanceKeys : UInt64
  newNonceKeys : UInt64
  newPools : UInt64
  newAnchorOwnerKeys : UInt64
  deriving DecidableEq, Repr

abbrev BlockStateGrowth := Option StateGrowth

def BlockStateGrowth.used (growth : BlockStateGrowth) : StateGrowth :=
  growth.getD ⟨0, 0, 0, 0, 0⟩

def exceedsLimit (current delta limit : UInt64) : Bool :=
  delta > limit || current > limit - delta

def checkGrowthLimit (label : String) (current delta limit : UInt64) : Except String Unit :=
  if exceedsLimit current delta limit then
    .error ("atomic state growth limit exceeded for " ++ label ++ ": current=" ++
      toString current ++ " delta=" ++ toString delta ++ " limit=" ++ toString limit)
  else .ok ()

def ensureCanAdd (growth : BlockStateGrowth) (delta : StateGrowth) (limits : StateGrowthLimits) :
    Except String Unit :=
  match growth with
  | none => .ok ()
  | some used => do
    checkGrowthLimit "new assets" used.newAssets delta.newAssets limits.maxNewAssets
    checkGrowthLimit "new balance keys" used.newBalanceKeys delta.newBalanceKeys
      limits.maxNewBalanceKeys
    checkGrowthLimit "new nonce keys" used.newNonceKeys delta.newNonceKeys limits.maxNewNonceKeys
    checkGrowthLimit "new liquidity pools" used.newPools delta.newPools limits.maxNewPools
    checkGrowthLimit "new anchor owner keys" used.newAnchorOwnerKeys delta.newAnchorOwnerKeys
      limits.maxNewAnchorOwnerKeys

def commit (growth : BlockStateGrowth) (delta : StateGrowth) : BlockStateGrowth :=
  growth.map fun used =>
    { newAssets := used.newAssets + delta.newAssets
      newBalanceKeys := used.newBalanceKeys + delta.newBalanceKeys
      newNonceKeys := used.newNonceKeys + delta.newNonceKeys
      newPools := used.newPools + delta.newPools
      newAnchorOwnerKeys := used.newAnchorOwnerKeys + delta.newAnchorOwnerKeys }

section Hash

variable (blake2b256 : List UInt8 → DomainHash)

/-- The anchor-owner loop of the estimate: owners of outputs that have no
anchor count yet, each counted once. -/
def countNewAnchorOwners (tx : DomainTransaction) (state : State) : UInt64 :=
  (tx.outputs.foldl (fun (counted : List DomainHash × UInt64) output =>
    match ownerIDFromScript blake2b256 output.scriptPublicKey with
    | none => counted
    | some ownerID =>
      if (state.anchorCounts.lookup ownerID).isSome then counted
      else if counted.1.contains ownerID then counted
      else (ownerID :: counted.1, counted.2 + 1)) ([], 0)).2

def opStateGrowth (state : State) (txIDBytes ownerID : DomainHash) (op : PayloadOp)
    (growth : StateGrowth) : StateGrowth :=
  let newBalanceKey (key : BalanceKey) : StateGrowth :=
    if (state.balances.lookup key).isNone then
      { growth with newBalanceKeys := growth.newBalanceKeys + 1 }
    else growth
  match op with
  | .createAsset _ =>
    if (state.assets.lookup txIDBytes).isNone then { growth with newAssets := 1 } else growth
  | .createAssetWithMint op =>
    let growth := if (state.assets.lookup txIDBytes).isNone then { growth with newAssets := 1 }
      else growth
    if !op.initialMintAmount.isZero ∧ (state.balances.lookup ⟨txIDBytes, op.initialMintToOwnerID⟩).isNone
    then { growth with newBalanceKeys := growth.newBalanceKeys + 1 }
    else growth
  | .createLiquidityAsset op =>
    let growth := if (state.assets.lookup txIDBytes).isNone then
        { growth with newAssets := 1, newPools := 1 }
      else growth
    if op.launchBuySompi > 0 ∧ (state.balances.lookup ⟨txIDBytes, ownerID⟩).isNone then
      { growth with newBalanceKeys := growth.newBalanceKeys + 1 }
    else growth
  | .transfer op =>
    if op.amount.isZero then growth
    else if (⟨op.assetID, ownerID⟩ : BalanceKey) ≠ ⟨op.assetID, op.toOwnerID⟩ then
      newBalanceKey ⟨op.assetID, op.toOwnerID⟩
    else growth
  | .mint op => if op.amount.isZero then growth else newBalanceKey ⟨op.assetID, op.toOwnerID⟩
  | .buyLiquidityExactIn op => newBalanceKey ⟨op.assetID, ownerID⟩
  | .burn _ | .sellLiquidityExactIn _ | .claimLiquidityFees _ => growth

def estimateStateGrowthForTransaction (tx : DomainTransaction)
    (povDAAScore payloadHFActivationDAAScore : UInt64) (state : State) :
    Except String StateGrowth := do
  let growth : StateGrowth := ⟨0, 0, 0, 0, countNewAnchorOwners blake2b256 tx state⟩
  if !(povDAAScore ≥ payloadHFActivationDAAScore) ∨ !isPayload tx.subnetworkID ∨
      tx.payload.length = 0 then
    return growth
  let some parsedPayload ← parsePayload tx.payload | return growth
  let ownerID ← resolveOwnerFromPopulatedTx blake2b256 tx parsedPayload.authInputIndex
  let nonceKey := nonceKeyForOp ownerID parsedPayload.op
  let growth := if (state.nextNonces.lookup nonceKey).isNone then { growth with newNonceKeys := 1 }
    else growth
  return opStateGrowth state tx.id ownerID parsedPayload.op growth

/-- `ValidateAndApplyTransactionWithGrowthAndCreationContext`, on the state and
the block counter it writes through its two pointers. -/
def validateAndApplyTransactionWithGrowthAndCreationContext (tx : DomainTransaction)
    (povDAAScore payloadHFActivationDAAScore : UInt64) (creationContext : CreationContext)
    (limits : StateGrowthLimits) : EStateM String (State × BlockStateGrowth) Unit :=
  fun (state, growth) =>
    match estimateStateGrowthForTransaction blake2b256 tx povDAAScore payloadHFActivationDAAScore
        state with
    | .error message => .error message (state, growth)
    | .ok delta =>
      match ensureCanAdd growth delta limits with
      | .error message => .error message (state, growth)
      | .ok () =>
        match (validateAndApplyTransactionWithCreationContext blake2b256 tx povDAAScore
            payloadHFActivationDAAScore creationContext).run state with
        | .error message state' => .error message (state', growth)
        | .ok () state' => .ok () (state', commit growth delta)

/-- A failing transaction leaves the state, and with the growth counter also
the counter, exactly as it found them. -/
theorem validateAndApply_failureAtomic (tx : DomainTransaction)
    (povDAAScore payloadHFActivationDAAScore : UInt64) (creationContext : CreationContext)
    (limits : StateGrowthLimits) :
    EStateM.FailureAtomic (validateAndApplyTransactionWithCreationContext blake2b256 tx povDAAScore
        payloadHFActivationDAAScore creationContext) ∧
      EStateM.FailureAtomic (validateAndApplyTransactionWithGrowthAndCreationContext blake2b256 tx
        povDAAScore payloadHFActivationDAAScore creationContext limits) := by
  have plain := EStateM.failureAtomic_of_triple
    (validateAndApplyTransactionWithCreationContext_spec blake2b256 tx povDAAScore
      payloadHFActivationDAAScore creationContext)
  refine ⟨plain, ?_⟩
  rintro ⟨state, growth⟩ message final failed
  simp only [validateAndApplyTransactionWithGrowthAndCreationContext, EStateM.run] at failed
  split at failed
  · -- the estimate failed: nothing was written
    injection failed with _ final
    exact final.symm
  · split at failed
    · injection failed with _ final
      exact final.symm
    · split at failed
      · -- the transaction failed: it restored the state itself
        rename_i state' applyFailed
        injection failed with _ final
        rw [← final, plain state _ state' applyFailed]
      · cases failed

end Hash

end Cryptixd.Atomic

