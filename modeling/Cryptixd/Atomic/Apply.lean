import Mathlib
import Cryptixd.Atomic.LiquidityMath
import Cryptixd.Atomic.Owner

/-!
# Applying a transaction to the atomic state

`validateAndApplyTransactionWithCreationContext` is
`ValidateAndApplyTransactionWithCreationContext` (`atomicstate/apply.go`), a
function that checks a transaction against `*State` and writes into it.  Every
function of the source that writes through the state pointer is an
`EStateM String State` program here, writing at the point the source writes,
so that what an error leaves behind is part of the model; functions that only
read the state take it as an argument and return `Except`.  The nine cases of
`applyOp` are one definition each.

The transaction id `consensushashing.TransactionID(tx)` is the field `tx.id`;
owner ids are derived with the hash parameter `blake2b256` (`Owner.lean`).
Slices copied with `append([]byte(nil), ...)` or `clone` are plain values.
-/

set_option autoImplicit false

namespace Cryptixd.Atomic

open Cryptixd.Txscript

def hashHex (hash : DomainHash) : String := hexOf hash.toList

/-- A read-only check run inside the state monad: its error is thrown as is. -/
def liftExcept {α : Type} (result : Except String α) : EStateM String State α :=
  match result with
  | .ok value => pure value
  | .error message => throw message

/-! ## Writes -/

namespace State

@[simps]
def setNextNonce (state : State) (key : NonceKey) (value : UInt64) : State :=
  { state with nextNonces := state.nextNonces.insert key value }

@[simps]
def setBalance (state : State) (key : BalanceKey) (value : Uint128) : State :=
  { state with balances := state.balances.insert key value }

@[simps]
def eraseBalance (state : State) (key : BalanceKey) : State :=
  { state with balances := state.balances.erase key }

/-- The debit pattern of the source: a balance that reaches zero is deleted. -/
def storeBalance (state : State) (key : BalanceKey) (value : Uint128) : State :=
  if value.isZero then state.eraseBalance key else state.setBalance key value

@[simp] theorem storeBalance_balances (state : State) (key : BalanceKey) (value : Uint128) :
    (state.storeBalance key value).balances =
      state.balances.alter key (if value.isZero then none else some value) := by
  by_cases zero : value.isZero <;> simp [storeBalance, zero, AList.alter]

@[simp] theorem storeBalance_nextNonces (state : State) (key : BalanceKey) (value : Uint128) :
    (state.storeBalance key value).nextNonces = state.nextNonces := by
  unfold storeBalance; split <;> rfl

@[simp] theorem storeBalance_assets (state : State) (key : BalanceKey) (value : Uint128) :
    (state.storeBalance key value).assets = state.assets := by
  unfold storeBalance; split <;> rfl

@[simp] theorem storeBalance_anchorCounts (state : State) (key : BalanceKey) (value : Uint128) :
    (state.storeBalance key value).anchorCounts = state.anchorCounts := by
  unfold storeBalance; split <;> rfl

@[simp] theorem storeBalance_liquidityVaultOutpoints (state : State) (key : BalanceKey)
    (value : Uint128) :
    (state.storeBalance key value).liquidityVaultOutpoints = state.liquidityVaultOutpoints := by
  unfold storeBalance; split <;> rfl

@[simps]
def setAsset (state : State) (assetID : DomainHash) (asset : AssetState) : State :=
  { state with assets := state.assets.insert assetID asset }

@[simps]
def setVaultOutpoint (state : State) (outpoint : DomainOutpoint) (assetID : DomainHash) : State :=
  { state with liquidityVaultOutpoints := state.liquidityVaultOutpoints.insert outpoint assetID }

@[simps]
def eraseVaultOutpoint (state : State) (outpoint : DomainOutpoint) : State :=
  { state with liquidityVaultOutpoints := state.liquidityVaultOutpoints.erase outpoint }

end State

/-! ## Checks on state values -/

def validateStateTokenVersion (version : UInt8) : Except String Unit :=
  if 1 ≤ version ∧ version ≤ 99 ∧ version = 1 then .ok ()
  else .error ("unsupported atomic token version `" ++ toString version ++ "`")

def validateStateLiquidityCurveVersion (version : UInt8) : Except String Unit :=
  if 1 ≤ version ∧ version ≤ 99 ∧ version = 1 then .ok ()
  else .error ("unsupported atomic liquidity curve version `" ++ toString version ++ "`")

def validateLiquidityUnlockTargetForState (unlockTargetSompi : UInt64) : Except String Unit :=
  if unlockTargetSompi > maxSompi then
    .error ("liquidity unlock target `" ++ toString unlockTargetSompi ++ "` exceeds MaxSompi `" ++
      toString maxSompi ++ "`")
  else .ok ()

def liquiditySellLocked (pool : LiquidityPoolState) : Bool :=
  pool.unlockTargetSompi > 0 && !pool.unlocked

def payloadSupplyModeToState (mode : PayloadSupplyMode) : SupplyMode :=
  if mode = .capped then .capped else .uncapped

def nonceKeyForOp (ownerID : DomainHash) : PayloadOp → NonceKey
  | .createAsset _ | .createAssetWithMint _ | .createLiquidityAsset _ => ownerNonceKey ownerID
  | .transfer op => assetNonceKey ownerID op.assetID
  | .mint op => assetNonceKey ownerID op.assetID
  | .burn op => assetNonceKey ownerID op.assetID
  | .buyLiquidityExactIn op => assetNonceKey ownerID op.assetID
  | .sellLiquidityExactIn op => assetNonceKey ownerID op.assetID
  | .claimLiquidityFees op => assetNonceKey ownerID op.assetID

def opAllowsLiquidityVaultOutput : PayloadOp → Bool
  | .createLiquidityAsset _ | .buyLiquidityExactIn _ | .sellLiquidityExactIn _
  | .claimLiquidityFees _ => true
  | _ => false

def validateLiquidityInvariants (assetID : DomainHash) (asset : AssetState) : Except String Unit := do
  validateStateTokenVersion asset.tokenVersion
  if asset.assetClass ≠ .liquidity then return
  let some pool := asset.liquidity
    | throw ("liquidity state missing for asset `" ++ hashHex assetID ++ "`")
  if asset.supplyMode ≠ .capped then throw "liquidity assets must always use capped supply mode"
  validateStateLiquidityCurveVersion pool.curveVersion
  validateLiquidityCurveMode pool.curveMode
  validateLiquidityCurveParameters pool.curveMode pool.individualVirtualCPayReservesSompi
    pool.individualVirtualTokenMultiplierBPS
  validateLiquidityUnlockTargetForState pool.unlockTargetSompi
  if pool.unlockTargetSompi = 0 ∧ !pool.unlocked then
    throw "liquidity lock disabled pools must be marked unlocked"
  if pool.unlockTargetSompi > 0 ∧ !pool.unlocked ∧ pool.realCPayReservesSompi ≥ pool.unlockTargetSompi then
    throw ("liquidity lock target reached for asset `" ++ hashHex assetID ++ "` but pool is still locked")
  if pool.realCPayReservesSompi < minCPayReserve then
    throw ("real CPAY reserve below floor for liquidity asset `" ++ hashHex assetID ++ "`")
  if pool.realTokenReserves.compare (uint128FromUint64 minRealTokenReserve) < 0 then
    throw ("real token reserve below floor for liquidity asset `" ++ hashHex assetID ++ "`")
  if pool.virtualCPayReserves = 0 ∨ pool.virtualTokenReserves.isZero then
    throw ("virtual reserves must be non-zero for liquidity asset `" ++ hashHex assetID ++ "`")
  let some expectedVault := checkedAddUint64 pool.realCPayReservesSompi pool.unclaimedFeeTotalSompi
    | throw "vault invariant overflow"
  if pool.vaultValueSompi ≠ expectedVault then
    throw ("vault invariant violation for asset `" ++ hashHex assetID ++ "`")
  let some expectedTotal := asset.totalSupply.add pool.realTokenReserves
    | throw "supply invariant overflow"
  if expectedTotal.compare asset.maxSupply ≠ 0 then
    throw ("supply invariant violation for asset `" ++ hashHex assetID ++ "`")

/-! ## Fee recipients -/

section Hash

variable (blake2b256 : List UInt8 → DomainHash)

def buildFeeRecipientState (recipients : List PayloadRecipientAddress) :
    Except String (List LiquidityFeeRecipientState) :=
  recipients.mapM fun recipient =>
    match ownerIDFromAddressComponents blake2b256 recipient.addressVersion recipient.addressPayload with
    | none => .error "invalid liquidity fee recipient address encoding"
    | some ownerID => .ok ⟨ownerID, recipient.addressVersion, recipient.addressPayload, 0⟩

end Hash

/-- `applyFeeToPool`, which updates the recipients and the total through
pointers; a failure aborts the caller, so only the successful values matter. -/
def applyFeeToPool (recipients : List LiquidityFeeRecipientState) (unclaimedFeeTotalSompi : UInt64)
    (feeTrade : UInt64) : Except String (List LiquidityFeeRecipientState × UInt64) :=
  if feeTrade = 0 then .ok (recipients, unclaimedFeeTotalSompi)
  else
    match checkedAddUint64 unclaimedFeeTotalSompi feeTrade with
    | none => .error "unclaimed_fee_total overflow"
    | some nextTotal =>
      match recipients with
      | [] => .error "fee_trade > 0 but no fee recipients are configured"
      | [only] =>
        match checkedAddUint64 only.unclaimedSompi feeTrade with
        | none => .error "recipient fee overflow"
        | some next => .ok ([{ only with unclaimedSompi := next }], nextTotal)
      | [first, second] =>
        let fee0 := feeTrade / 2
        let fee1 := feeTrade - fee0
        match checkedAddUint64 first.unclaimedSompi fee0 with
        | none => .error "recipient0 fee overflow"
        | some next0 =>
          match checkedAddUint64 second.unclaimedSompi fee1 with
          | none => .error "recipient1 fee overflow"
          | some next1 =>
            .ok ([{ first with unclaimedSompi := next0 }, { second with unclaimedSompi := next1 }],
              nextTotal)
      | _ :: _ :: _ :: _ => .error "invalid recipient count in liquidity pool state"

/-! ## Vault outputs and inputs -/

/-- The name `ScriptClass.String` prints.  Class 4 is past the end of
`scriptClassToName`; `fmt` recovers the index panic and prints this text. -/
def scriptClassName (kind : ScriptClass) : String :=
  if kind = nonStandardTy then "nonstandard"
  else if kind = pubKeyTy then "pubkey"
  else if kind = pubKeyECDSATy then "pubkeyecdsa"
  else if kind = scriptHashTy then "scripthash"
  else if kind = liquidityVaultTy then
    "%!s(PANIC=String method: runtime error: index out of range [4] with length 4)"
  else "Invalid"

structure VaultTransition where
  inputValue : UInt64
  outputIndex : UInt32
  outputValue : UInt64
  deriving DecidableEq, Repr

def isVaultScript (scriptPublicKey : ScriptPublicKey) : Bool :=
  scriptClass scriptPublicKey = liquidityVaultTy

def isVaultInput (input : DomainTransactionInput) : Bool :=
  match input.utxoEntry with
  | none => false
  | some entry => isVaultScript entry.scriptPublicKey

/-- The loop over outputs shared by both vault resolvers: the index and value of
the only vault output, with the source's errors for a second one. -/
def findSingleVaultOutput (outputs : List DomainTransactionOutput) (duplicate : String) :
    Except String (Option (UInt32 × UInt64)) :=
  outputs.zipIdx.foldlM (fun found entry =>
    let (output, index) := entry
    if !isVaultScript output.scriptPublicKey then .ok found
    else if found.isSome then .error duplicate
    else if index > 0xffffffff then .error "vault output index overflow"
    else .ok (some (index.toUInt32, output.value))) none

def resolveCreateLiquidityVaultOutput (tx : DomainTransaction) : Except String (UInt32 × UInt64) := do
  if tx.inputs.any isVaultInput then throw "create-liquidity must not spend any LiquidityVault input"
  let some found ← findSingleVaultOutput tx.outputs
      "create-liquidity must have exactly one LiquidityVault output"
    | throw "create-liquidity must have exactly one LiquidityVault output"
  pure found

def resolveLiquidityVaultTransition (tx : DomainTransaction) (expectedVaultOutpoint : DomainOutpoint) :
    Except String VaultTransition := do
  let inputValue? ← tx.inputs.foldlM (fun found input =>
    match input.utxoEntry with
    | none => .ok found
    | some entry =>
      if !isVaultScript entry.scriptPublicKey then .ok found
      else if found.isSome then
        .error "liquidity transition must have exactly one LiquidityVault input"
      else if input.previousOutpoint ≠ expectedVaultOutpoint then
        .error ("liquidity vault outpoint mismatch: expected `" ++ expectedVaultOutpoint.toText ++
          "`, got `" ++ input.previousOutpoint.toText ++ "`")
      else .ok (some entry.amount)) (none : Option UInt64)
  let some inputValue := inputValue?
    | throw "liquidity transition must have exactly one LiquidityVault input"
  let some (outputIndex, outputValue) ← findSingleVaultOutput tx.outputs
      "liquidity transition must have exactly one LiquidityVault output"
    | throw "liquidity transition must have exactly one LiquidityVault output"
  pure ⟨inputValue, outputIndex, outputValue⟩

section Hash

variable (blake2b256 : List UInt8 → DomainHash)

def validatePayoutOutput (tx : DomainTransaction) (outputIndex : UInt16) (expectedValue : UInt64)
    (expectedOwnerID : Option DomainHash) : Except String Unit := do
  let some output := tx.outputs[outputIndex.toNat]?
    | throw ("payout output index `" ++ toString outputIndex ++ "` out of range")
  if output.value ≠ expectedValue then
    throw ("payout output value mismatch at index `" ++ toString outputIndex ++ "`: expected `" ++
      toString expectedValue ++ "`, got `" ++ toString output.value ++ "`")
  let kind := scriptClass output.scriptPublicKey
  if kind ≠ pubKeyTy ∧ kind ≠ pubKeyECDSATy ∧ kind ≠ scriptHashTy then
    throw ("payout script class `" ++ scriptClassName kind ++ "` at index `" ++
      toString outputIndex ++ "` is not allowed")
  if let some expected := expectedOwnerID then
    let some outputOwnerID := ownerIDFromScript blake2b256 output.scriptPublicKey
      | throw "payout output owner id cannot be derived"
    if outputOwnerID ≠ expected then
      throw "payout output owner does not match configured fee recipient"

def resolveOwnerFromPopulatedTx (tx : DomainTransaction) (authInputIndex : UInt16) :
    Except String DomainHash := do
  let some entry := (tx.inputs[authInputIndex.toNat]?).bind (·.utxoEntry)
    | throw ("auth_input_index `" ++ toString authInputIndex.toNat ++
        "` has no populated UTXO entry in contextual validation")
  let some ownerID := ownerIDFromScript blake2b256 entry.scriptPublicKey
    | throw ("auth input script public key is not a supported CAT owner authorization scheme " ++
        "(expected PubKey, PubKeyECDSA, or ScriptHash)")
  pure ownerID

/-! ## Owner anchors -/

def inputOwners (tx : DomainTransaction) : List (Option DomainHash) :=
  tx.inputs.map fun input => input.utxoEntry.bind fun entry =>
    ownerIDFromScript blake2b256 entry.scriptPublicKey

def outputOwners (tx : DomainTransaction) : List (Option DomainHash) :=
  tx.outputs.map fun output => ownerIDFromScript blake2b256 output.scriptPublicKey

def validateReplacementAnchor (tx : DomainTransaction) (ownerID : DomainHash) (state : State) :
    Except String Unit :=
  let beforeCount := state.anchorCount ownerID
  let spentForOwner := (inputOwners blake2b256 tx).foldl (fun spent inputOwnerID =>
    if inputOwnerID = some ownerID ∧ spent < maxUint64 then spent + 1 else spent) 0
  if saturatingSub beforeCount spentForOwner > 0 then .ok ()
  else if (outputOwners blake2b256 tx).any (· = some ownerID) then .ok ()
  else .error "auth owner would lose the final anchor UTXO without a replacement owner output"

end Hash

/-- `counts[ownerID]++` over every owner that is present. -/
def countOwners (owners : List (Option DomainHash)) : Map DomainHash UInt64 :=
  owners.foldl (fun counts owner =>
    match owner with
    | none => counts
    | some ownerID => counts.insert ownerID (((counts.lookup ownerID).getD 0) + 1)) ∅

/-- The new count of one owner: the source deletes a zero count. -/
def nextAnchorCount (spent created : Map DomainHash UInt64) (ownerID : DomainHash)
    (oldCount : Option UInt64) : Option UInt64 :=
  let newCount := saturatingAdd (saturatingSub (oldCount.getD 0) ((spent.lookup ownerID).getD 0))
    ((created.lookup ownerID).getD 0)
  if newCount = 0 then none else some newCount

section Hash

variable (blake2b256 : List UInt8 → DomainHash)

def applyAnchorDeltas (tx : DomainTransaction) (state : State) : State :=
  let spentCounts := countOwners (inputOwners blake2b256 tx)
  let createdCounts := countOwners (outputOwners blake2b256 tx)
  let owners : Map DomainHash Unit :=
    createdCounts.keys.foldl (fun owners ownerID => owners.insert ownerID ())
      (spentCounts.keys.foldl (fun owners ownerID => owners.insert ownerID ()) ∅)
  let anchorCounts := owners.keys.foldl (fun counts ownerID =>
    counts.alter ownerID (nextAnchorCount spentCounts createdCounts ownerID (counts.lookup ownerID)))
    state.anchorCounts
  { state with anchorCounts := anchorCounts }

@[simp] theorem applyAnchorDeltas_nextNonces (tx : DomainTransaction) (state : State) :
    (applyAnchorDeltas blake2b256 tx state).nextNonces = state.nextNonces := rfl

@[simp] theorem applyAnchorDeltas_assets (tx : DomainTransaction) (state : State) :
    (applyAnchorDeltas blake2b256 tx state).assets = state.assets := rfl

@[simp] theorem applyAnchorDeltas_balances (tx : DomainTransaction) (state : State) :
    (applyAnchorDeltas blake2b256 tx state).balances = state.balances := rfl

@[simp] theorem applyAnchorDeltas_liquidityVaultOutpoints (tx : DomainTransaction) (state : State) :
    (applyAnchorDeltas blake2b256 tx state).liquidityVaultOutpoints =
      state.liquidityVaultOutpoints := rfl

end Hash

/-! ## The vault index -/

def insertAssetState (assetID : DomainHash) (asset : AssetState) : EStateM String State Unit := do
  let state ← get
  if asset.assetClass = .liquidity then
    let some pool := asset.liquidity
      | throw ("liquidity state missing for asset `" ++ hashHex assetID ++ "`")
    if let some previousAssetID := state.liquidityVaultOutpoints.lookup pool.vaultOutpoint then
      if previousAssetID ≠ assetID then
        throw ("multiple liquidity assets share vault outpoint `" ++ pool.vaultOutpoint.toText ++ "`")
  if let some previousAsset := state.assets.lookup assetID then
    if let some previousPool := previousAsset.liquidity then
      modify (·.eraseVaultOutpoint previousPool.vaultOutpoint)
  modify (·.setAsset assetID asset)
  if asset.assetClass = .liquidity then
    if let some pool := asset.liquidity then
      modify (·.setVaultOutpoint pool.vaultOutpoint assetID)

/-- The liquidity asset whose current vault is `outpoint`, through the index
and else by ranging over the assets. -/
def findLiquidityAssetByVaultOutpoint (state : State) (outpoint : DomainOutpoint) :
    Except String (Option DomainHash) :=
  match state.liquidityVaultOutpoints.lookup outpoint with
  | some assetID =>
    match state.assets.lookup assetID with
    | none => .error ("liquidity vault index references missing asset `" ++ hashHex assetID ++ "`")
    | some asset =>
      if asset.assetClass ≠ .liquidity ∨ (asset.liquidity.map (·.vaultOutpoint)) ≠ some outpoint then
        .error ("liquidity vault index mismatch for outpoint `" ++ outpoint.toText ++ "`")
      else .ok (some assetID)
  | none =>
    state.assets.entries.foldlM (fun matched entry =>
      if entry.2.assetClass ≠ .liquidity ∨ (entry.2.liquidity.map (·.vaultOutpoint)) ≠ some outpoint then
        .ok matched
      else if matched.isSome then
        .error ("multiple liquidity assets share vault outpoint `" ++ outpoint.toText ++ "`")
      else .ok (some entry.1)) none

def collectSpentLiquidityVaultInputs (tx : DomainTransaction) (state : State) :
    Except String (List DomainOutpoint) :=
  tx.inputs.foldlM (fun spent input =>
    if !isVaultInput input then .ok spent
    else
      match findLiquidityAssetByVaultOutpoint state input.previousOutpoint with
      | .error message => .error message
      | .ok none =>
        .error ("unknown LiquidityVault input outpoint `" ++ input.previousOutpoint.toText ++ "`")
      | .ok (some _) => .ok (spent ++ [input.previousOutpoint])) []

/-! ## The operations -/

section Hash

variable (blake2b256 : List UInt8 → DomainHash)

def standardAssetState (ownerID : DomainHash) (tokenVersion : UInt8)
    (mintAuthorityOwnerID : DomainHash) (decimals : UInt8) (supplyMode : SupplyMode)
    (maxSupply totalSupply : Uint128) (name symbol metadata platformTag : List UInt8)
    (creationContext : CreationContext) : AssetState :=
  { creatorOwnerID := ownerID
    assetClass := .standard
    tokenVersion := tokenVersion
    mintAuthorityOwnerID := mintAuthorityOwnerID
    decimals := decimals
    supplyMode := supplyMode
    maxSupply := maxSupply
    totalSupply := totalSupply
    name := name
    symbol := symbol
    metadata := metadata
    platformTag := platformTag
    createdBlockHash := creationContext.createdBlockHash
    createdDAAScore := creationContext.createdDAAScore
    createdAt := creationContext.createdAt
    liquidity := none }

def applyCreateAsset (assetID ownerID : DomainHash) (op : CreateAssetOp)
    (creationContext : CreationContext) : EStateM String State Unit := do
  let state ← get
  if (state.assets.lookup assetID).isSome then
    throw ("asset `" ++ hashHex assetID ++ "` already exists")
  liftExcept (validateStateTokenVersion op.tokenVersion)
  insertAssetState assetID (standardAssetState ownerID op.tokenVersion op.mintAuthorityOwnerID
    op.decimals (payloadSupplyModeToState op.supplyMode) op.maxSupply 0 op.name op.symbol
    op.metadata op.platformTag creationContext)

def applyCreateAssetWithMint (assetID ownerID : DomainHash) (op : CreateAssetWithMintOp)
    (creationContext : CreationContext) : EStateM String State Unit := do
  let state ← get
  if (state.assets.lookup assetID).isSome then
    throw ("asset `" ++ hashHex assetID ++ "` already exists")
  liftExcept (validateStateTokenVersion op.tokenVersion)
  let supplyMode := payloadSupplyModeToState op.supplyMode
  let initialMint : Option (BalanceKey × Uint128) ←
    if op.initialMintAmount.isZero then pure none
    else do
      if supplyMode = .capped ∧ op.initialMintAmount.compare op.maxSupply > 0 then
        throw ("initial mint exceeds cap for asset `" ++ hashHex assetID ++ "`")
      let key : BalanceKey := ⟨assetID, op.initialMintToOwnerID⟩
      let some receiverAfter := (state.balance key).add op.initialMintAmount
        | throw ("balance overflow while create-and-mint asset `" ++ hashHex assetID ++ "`")
      pure (some (key, receiverAfter))
  insertAssetState assetID (standardAssetState ownerID op.tokenVersion op.mintAuthorityOwnerID
    op.decimals supplyMode op.maxSupply (if initialMint.isSome then op.initialMintAmount else 0)
    op.name op.symbol op.metadata op.platformTag creationContext)
  if let some (key, receiverAfter) := initialMint then
    modify (·.setBalance key receiverAfter)

/-- The launch buy of a liquidity creation, with the values it changes. -/
structure LaunchBuy where
  realCPayReservesSompi : UInt64
  realTokenReserves : Uint128
  virtualCPayReserves : UInt64
  virtualTokenReserves : Uint128
  feeRecipients : List LiquidityFeeRecipientState
  unclaimedFeeTotalSompi : UInt64
  tokenOut : Uint128
  receiverBalance : Uint128

/-- The pool of a new liquidity asset, after its optional launch buy. -/
def createdPoolState (op : CreateLiquidityAssetOp) (vaultOutpoint : DomainOutpoint)
    (vaultValueSompi virtualCPayReserves : UInt64) (virtualTokenReserves : Uint128)
    (feeRecipients : List LiquidityFeeRecipientState) (launch : Option LaunchBuy) :
    LiquidityPoolState :=
  let realCPayReservesSompi := (launch.map (·.realCPayReservesSompi)).getD initialRealCPayReserves
  { poolNonce := 1
    curveVersion := op.curveVersion
    curveMode := op.curveMode
    individualVirtualCPayReservesSompi := op.individualVirtualCPayReservesSompi
    individualVirtualTokenMultiplierBPS := op.individualVirtualTokenMultiplierBPS
    realCPayReservesSompi := realCPayReservesSompi
    realTokenReserves := (launch.map (·.realTokenReserves)).getD op.maxSupply
    virtualCPayReserves := (launch.map (·.virtualCPayReserves)).getD virtualCPayReserves
    virtualTokenReserves := (launch.map (·.virtualTokenReserves)).getD virtualTokenReserves
    unclaimedFeeTotalSompi := (launch.map (·.unclaimedFeeTotalSompi)).getD 0
    feeBPS := op.feeBPS
    feeRecipients := (launch.map (·.feeRecipients)).getD feeRecipients
    vaultOutpoint := vaultOutpoint
    vaultValueSompi := vaultValueSompi
    unlockTargetSompi := op.unlockTargetSompi
    unlocked := op.unlockTargetSompi = 0 || realCPayReservesSompi ≥ op.unlockTargetSompi }

def liquidityAssetState (ownerID : DomainHash) (op : CreateLiquidityAssetOp)
    (creationContext : CreationContext) (pool : LiquidityPoolState) (totalSupply : Uint128) :
    AssetState :=
  { creatorOwnerID := ownerID
    assetClass := .liquidity
    tokenVersion := op.tokenVersion
    mintAuthorityOwnerID := zeroHash
    decimals := op.decimals
    supplyMode := .capped
    maxSupply := op.maxSupply
    totalSupply := totalSupply
    name := op.name
    symbol := op.symbol
    metadata := op.metadata
    platformTag := op.platformTag
    createdBlockHash := creationContext.createdBlockHash
    createdDAAScore := creationContext.createdDAAScore
    createdAt := creationContext.createdAt
    liquidity := some pool }

/-- The launch buy of `applyCreateLiquidityAsset`, the block under
`op.LaunchBuySompi > 0`: it only reads the state. -/
def launchBuy (state : State) (assetID ownerID : DomainHash) (op : CreateLiquidityAssetOp)
    (virtualCPayReserves : UInt64) (virtualTokenReserves : Uint128)
    (feeRecipients : List LiquidityFeeRecipientState) : Except String (Option LaunchBuy) := do
  if op.launchBuySompi > 0 then
    let feeTrade ← calculateTradeFee op.launchBuySompi op.feeBPS
    let some launchBuyNet := checkedSubUint64 op.launchBuySompi feeTrade
      | throw "launch buy fee underflow"
    let (tokenOut, newRealTokenReserves, newVirtualCPayReserves, newVirtualTokenReserves) ←
      cpmmBuy op.maxSupply virtualCPayReserves virtualTokenReserves launchBuyNet
    if tokenOut.compare op.launchBuyMinTokenOut < 0 then
      throw "launch buy min_token_out violated"
    let canonicalLaunchBuy ← minGrossInputForTokenOut op.maxSupply virtualCPayReserves
      virtualTokenReserves tokenOut op.feeBPS
    if op.launchBuySompi ≠ canonicalLaunchBuy then
      throw ("launch buy CPAY input is not canonical: expected `" ++ toString canonicalLaunchBuy ++
        "`, got `" ++ toString op.launchBuySompi ++ "`")
    if tokenOut.isZero then throw "launch buy produced zero token_out"
    let some realCPayReservesSompi := checkedAddUint64 initialRealCPayReserves launchBuyNet
      | throw "real_cpay_reserves overflow on launch buy"
    let (feeRecipients, unclaimedFeeTotalSompi) ← applyFeeToPool feeRecipients 0 feeTrade
    let some receiverBalance := (state.balance ⟨assetID, ownerID⟩).add tokenOut
      | throw ("balance overflow while launch-buy minting liquidity asset `" ++ hashHex assetID ++
          "`")
    pure (some ⟨realCPayReservesSompi, newRealTokenReserves, newVirtualCPayReserves,
      newVirtualTokenReserves, feeRecipients, unclaimedFeeTotalSompi, tokenOut, receiverBalance⟩)
  else pure none

def applyCreateLiquidityAsset (tx : DomainTransaction) (assetID ownerID : DomainHash)
    (op : CreateLiquidityAssetOp) (creationContext : CreationContext) :
    EStateM String State Unit := do
  let state ← get
  if (state.assets.lookup assetID).isSome then
    throw ("asset `" ++ hashHex assetID ++ "` already exists")
  liftExcept (validateStateTokenVersion op.tokenVersion)
  liftExcept (validateStateLiquidityCurveVersion op.curveVersion)
  liftExcept (validateLiquidityCurveMode op.curveMode)
  liftExcept (validateLiquidityCurveParameters op.curveMode op.individualVirtualCPayReservesSompi
    op.individualVirtualTokenMultiplierBPS)
  liftExcept (validateLiquidityCreateParams op.decimals op.maxSupply op.seedReserveSompi)
  liftExcept (validateLiquidityUnlockTargetForState op.unlockTargetSompi)
  let (vaultOutputIndex, vaultOutputValue) ← liftExcept (resolveCreateLiquidityVaultOutput tx)
  let some expectedVaultValue := checkedAddUint64 op.seedReserveSompi op.launchBuySompi
    | throw "vault value overflow on create"
  if vaultOutputValue ≠ expectedVaultValue then
    throw ("create liquidity vault output mismatch: expected `" ++ toString expectedVaultValue ++
      "`, got `" ++ toString vaultOutputValue ++ "`")
  let feeRecipients ← liftExcept (buildFeeRecipientState blake2b256 op.recipients)
  if op.feeBPS > 0 ∧ feeRecipients.length = 0 then
    throw "fee_bps > 0 requires at least one recipient"
  let virtualCPayReserves ← liftExcept
    (initialVirtualCPayReservesForCurve op.curveMode op.individualVirtualCPayReservesSompi)
  let virtualTokenReserves ← liftExcept (initialVirtualTokenReservesForMaxSupplyAndCurve
    op.maxSupply op.curveMode op.individualVirtualTokenMultiplierBPS)
  let launch ← liftExcept (launchBuy state assetID ownerID op virtualCPayReserves
    virtualTokenReserves feeRecipients)
  let asset := liquidityAssetState ownerID op creationContext
    (createdPoolState op ⟨tx.id, vaultOutputIndex⟩ vaultOutputValue virtualCPayReserves
      virtualTokenReserves feeRecipients launch)
    ((launch.map (·.tokenOut)).getD 0)
  liftExcept (validateLiquidityInvariants assetID asset)
  insertAssetState assetID asset
  if let some bought := launch then
    modify (·.setBalance ⟨assetID, ownerID⟩ bought.receiverBalance)

end Hash

def applyTransfer (ownerID : DomainHash) (op : TransferOp) : EStateM String State Unit := do
  let state ← get
  if (state.assets.lookup op.assetID).isNone then
    throw ("transfer references unknown asset `" ++ hashHex op.assetID ++ "`")
  let fromKey : BalanceKey := ⟨op.assetID, ownerID⟩
  let toKey : BalanceKey := ⟨op.assetID, op.toOwnerID⟩
  let senderBalance := state.balance fromKey
  if fromKey = toKey then
    if (senderBalance.sub op.amount).isNone then
      throw ("insufficient balance for self-transfer of asset `" ++ hashHex op.assetID ++ "`")
    return
  let some senderAfter := senderBalance.sub op.amount
    | throw ("insufficient balance for transfer of asset `" ++ hashHex op.assetID ++ "`")
  let some receiverAfter := (state.balance toKey).add op.amount
    | throw ("balance overflow for transfer receiver in asset `" ++ hashHex op.assetID ++ "`")
  modify (·.storeBalance fromKey senderAfter)
  modify (·.setBalance toKey receiverAfter)

def applyMint (ownerID : DomainHash) (op : MintOp) : EStateM String State Unit := do
  let state ← get
  let some asset := state.assets.lookup op.assetID
    | throw ("mint references unknown asset `" ++ hashHex op.assetID ++ "`")
  if asset.assetClass = .liquidity then
    throw ("legacy mint is invalid for liquidity asset `" ++ hashHex op.assetID ++ "`")
  if asset.mintAuthorityOwnerID ≠ ownerID then
    throw ("owner `" ++ hashHex ownerID ++ "` is not mint authority for asset `" ++
      hashHex op.assetID ++ "`")
  let some newTotalSupply := asset.totalSupply.add op.amount
    | throw ("supply overflow while minting asset `" ++ hashHex op.assetID ++ "`")
  if asset.supplyMode = .capped ∧ newTotalSupply.compare asset.maxSupply > 0 then
    throw ("mint would exceed cap for asset `" ++ hashHex op.assetID ++ "`")
  let key : BalanceKey := ⟨op.assetID, op.toOwnerID⟩
  let some receiverAfter := (state.balance key).add op.amount
    | throw ("balance overflow while minting asset `" ++ hashHex op.assetID ++ "`")
  insertAssetState op.assetID { asset with totalSupply := newTotalSupply }
  modify (·.setBalance key receiverAfter)

def applyBurn (ownerID : DomainHash) (op : BurnOp) : EStateM String State Unit := do
  let state ← get
  let some asset := state.assets.lookup op.assetID
    | throw ("burn references unknown asset `" ++ hashHex op.assetID ++ "`")
  if asset.assetClass = .liquidity then
    throw ("legacy burn is invalid for liquidity asset `" ++ hashHex op.assetID ++ "`")
  let senderKey : BalanceKey := ⟨op.assetID, ownerID⟩
  let some senderAfter := (state.balance senderKey).sub op.amount
    | throw ("insufficient balance for burn in asset `" ++ hashHex op.assetID ++ "`")
  let some supplyAfter := asset.totalSupply.sub op.amount
    | throw ("supply underflow while burning asset `" ++ hashHex op.assetID ++ "`")
  insertAssetState op.assetID { asset with totalSupply := supplyAfter }
  modify (·.storeBalance senderKey senderAfter)

/-- The lookup the three pool operations start with: a liquidity asset and its pool. -/
def liquidityAssetPool (state : State) (assetID : DomainHash) (kind : String) :
    Except String (AssetState × LiquidityPoolState) :=
  match state.assets.lookup assetID with
  | none => .error (kind ++ " references unknown asset `" ++ hashHex assetID ++ "`")
  | some asset =>
    match asset.liquidity with
    | some pool =>
      if asset.assetClass = .liquidity then .ok (asset, pool)
      else .error (kind ++ " is only valid for liquidity assets")
    | none => .error (kind ++ " is only valid for liquidity assets")

def staleNonceError (assetID : DomainHash) (poolNonce expected : UInt64) : String :=
  "stale liquidity nonce for asset `" ++ hashHex assetID ++ "`: expected `" ++ toString poolNonce ++
    "`, got `" ++ toString expected ++ "`"

def applyBuyLiquidityExactIn (tx : DomainTransaction) (ownerID : DomainHash)
    (op : BuyLiquidityExactInOp) : EStateM String State Unit := do
  let state ← get
  let (asset, pool) ← liftExcept (liquidityAssetPool state op.assetID "buy")
  if pool.poolNonce ≠ op.expectedPoolNonce then
    throw (staleNonceError op.assetID pool.poolNonce op.expectedPoolNonce)
  let vaultTransition ← liftExcept (resolveLiquidityVaultTransition tx pool.vaultOutpoint)
  let some vaultDelta := checkedSubUint64 vaultTransition.outputValue vaultTransition.inputValue
    | throw "buy requires vault_value to increase"
  if vaultDelta ≠ op.cpayInSompi then
    throw ("buy vault delta mismatch: expected `" ++ toString op.cpayInSompi ++ "`, got `" ++
      toString vaultDelta ++ "`")
  let feeTrade ← liftExcept (calculateTradeFee op.cpayInSompi pool.feeBPS)
  let some netIn := checkedSubUint64 op.cpayInSompi feeTrade | throw "buy fee underflow"
  let (tokenOut, newRealTokenReserves, newVirtualCPayReserves, newVirtualTokenReserves) ←
    liftExcept (cpmmBuy pool.realTokenReserves pool.virtualCPayReserves pool.virtualTokenReserves netIn)
  if tokenOut.compare op.minTokenOut < 0 then throw "buy min_token_out violated"
  let canonicalCPayIn ← liftExcept (minGrossInputForTokenOut pool.realTokenReserves
    pool.virtualCPayReserves pool.virtualTokenReserves tokenOut pool.feeBPS)
  if op.cpayInSompi ≠ canonicalCPayIn then
    throw ("buy CPAY input is not canonical: expected `" ++ toString canonicalCPayIn ++ "`, got `" ++
      toString op.cpayInSompi ++ "`")
  if tokenOut.isZero then throw "buy produced zero token_out"
  let some realCPayReservesSompi := checkedAddUint64 pool.realCPayReservesSompi netIn
    | throw ("real_cpay_reserves overflow while buying liquidity asset `" ++ hashHex op.assetID ++ "`")
  let unlocked :=
    pool.unlocked || (pool.unlockTargetSompi > 0 && realCPayReservesSompi ≥ pool.unlockTargetSompi)
  let (feeRecipients, unclaimedFeeTotalSompi) ←
    liftExcept (applyFeeToPool pool.feeRecipients pool.unclaimedFeeTotalSompi feeTrade)
  if pool.poolNonce = maxUint64 then throw "pool nonce overflow"
  let pool' : LiquidityPoolState :=
    { pool with
      poolNonce := pool.poolNonce + 1
      realCPayReservesSompi := realCPayReservesSompi
      realTokenReserves := newRealTokenReserves
      virtualCPayReserves := newVirtualCPayReserves
      virtualTokenReserves := newVirtualTokenReserves
      unclaimedFeeTotalSompi := unclaimedFeeTotalSompi
      feeRecipients := feeRecipients
      vaultOutpoint := ⟨tx.id, vaultTransition.outputIndex⟩
      vaultValueSompi := vaultTransition.outputValue
      unlocked := unlocked }
  let receiverKey : BalanceKey := ⟨op.assetID, ownerID⟩
  let some receiverAfter := (state.balance receiverKey).add tokenOut
    | throw ("receiver balance overflow while buying liquidity asset `" ++ hashHex op.assetID ++ "`")
  let some totalSupply := asset.totalSupply.add tokenOut
    | throw ("total_supply overflow while buying liquidity asset `" ++ hashHex op.assetID ++ "`")
  let asset' := { asset with totalSupply := totalSupply, liquidity := some pool' }
  liftExcept (validateLiquidityInvariants op.assetID asset')
  insertAssetState op.assetID asset'
  modify (·.setBalance receiverKey receiverAfter)

section Hash

variable (blake2b256 : List UInt8 → DomainHash)

def applySellLiquidityExactIn (tx : DomainTransaction) (ownerID : DomainHash)
    (op : SellLiquidityExactInOp) : EStateM String State Unit := do
  let state ← get
  let (asset, pool) ← liftExcept (liquidityAssetPool state op.assetID "sell")
  if pool.poolNonce ≠ op.expectedPoolNonce then
    throw (staleNonceError op.assetID pool.poolNonce op.expectedPoolNonce)
  if liquiditySellLocked pool then
    throw ("liquidity sell locked for asset `" ++ hashHex op.assetID ++
      "` until real CPAY reserve reaches `" ++ toString pool.unlockTargetSompi ++ "` sompi")
  let senderKey : BalanceKey := ⟨op.assetID, ownerID⟩
  let some senderAfter := (state.balance senderKey).sub op.tokenIn
    | throw ("insufficient balance for sell in liquidity asset `" ++ hashHex op.assetID ++ "`")
  let some supplyAfter := asset.totalSupply.sub op.tokenIn
    | throw ("total_supply underflow while selling liquidity asset `" ++ hashHex op.assetID ++ "`")
  let (grossOut, newRealCPayReservesSompi, newVirtualCPayReserves, newVirtualTokenReserves) ←
    liftExcept (cpmmSell pool.realCPayReservesSompi pool.virtualCPayReserves
      pool.virtualTokenReserves op.tokenIn)
  let feeTrade ← liftExcept (calculateTradeFee grossOut pool.feeBPS)
  let some cpayOut := checkedSubUint64 grossOut feeTrade | throw "sell fee underflow"
  if cpayOut = 0 then throw "sell produced zero cpay_out"
  if cpayOut < op.minCPayOutSompi then throw "sell min_cpay_out violated"
  if cpayOut < liquidityMinPayoutSompi then throw "sell payout below liquidity_min_payout_sompi"
  liftExcept (validatePayoutOutput blake2b256 tx op.cpayReceiveOutputIndex cpayOut none)
  let vaultTransition ← liftExcept (resolveLiquidityVaultTransition tx pool.vaultOutpoint)
  let some vaultDelta := checkedSubUint64 vaultTransition.inputValue vaultTransition.outputValue
    | throw "sell requires vault_value to decrease"
  if vaultDelta ≠ cpayOut then
    throw ("sell vault delta mismatch: expected `" ++ toString cpayOut ++ "`, got `" ++
      toString vaultDelta ++ "`")
  let some realTokenReserves := pool.realTokenReserves.add op.tokenIn
    | throw ("real_token_reserves overflow while selling liquidity asset `" ++ hashHex op.assetID ++
        "`")
  let (feeRecipients, unclaimedFeeTotalSompi) ←
    liftExcept (applyFeeToPool pool.feeRecipients pool.unclaimedFeeTotalSompi feeTrade)
  if pool.poolNonce = maxUint64 then throw "pool nonce overflow"
  let pool' : LiquidityPoolState :=
    { pool with
      poolNonce := pool.poolNonce + 1
      realCPayReservesSompi := newRealCPayReservesSompi
      realTokenReserves := realTokenReserves
      virtualCPayReserves := newVirtualCPayReserves
      virtualTokenReserves := newVirtualTokenReserves
      unclaimedFeeTotalSompi := unclaimedFeeTotalSompi
      feeRecipients := feeRecipients
      vaultOutpoint := ⟨tx.id, vaultTransition.outputIndex⟩
      vaultValueSompi := vaultTransition.outputValue }
  let asset' := { asset with totalSupply := supplyAfter, liquidity := some pool' }
  liftExcept (validateLiquidityInvariants op.assetID asset')
  insertAssetState op.assetID asset'
  modify (·.storeBalance senderKey senderAfter)

def applyClaimLiquidityFees (tx : DomainTransaction) (ownerID : DomainHash)
    (op : ClaimLiquidityFeesOp) : EStateM String State Unit := do
  let state ← get
  let (asset, pool) ← liftExcept (liquidityAssetPool state op.assetID "claim")
  if pool.poolNonce ≠ op.expectedPoolNonce then
    throw (staleNonceError op.assetID pool.poolNonce op.expectedPoolNonce)
  if liquiditySellLocked pool then
    throw ("liquidity fee claim locked for asset `" ++ hashHex op.assetID ++
      "` until real CPAY reserve reaches `" ++ toString pool.unlockTargetSompi ++ "` sompi")
  if op.claimAmountSompi < liquidityMinPayoutSompi then
    throw "claim amount below liquidity_min_payout_sompi"
  let some recipient := pool.feeRecipients[op.recipientIndex.toNat]?
    | throw ("claim recipient_index `" ++ toString op.recipientIndex.toNat ++ "` out of range")
  if recipient.unclaimedSompi < op.claimAmountSompi then
    throw "claim amount exceeds unclaimed recipient fees"
  if ownerID ≠ recipient.ownerID then
    throw "claim caller is not the configured liquidity fee recipient"
  liftExcept (validatePayoutOutput blake2b256 tx op.claimReceiveOutputIndex op.claimAmountSompi
    (some recipient.ownerID))
  let vaultTransition ← liftExcept (resolveLiquidityVaultTransition tx pool.vaultOutpoint)
  let some vaultDelta := checkedSubUint64 vaultTransition.inputValue vaultTransition.outputValue
    | throw "claim requires vault_value to decrease"
  if vaultDelta ≠ op.claimAmountSompi then throw "claim vault delta mismatch"
  let some unclaimedFeeTotalSompi := checkedSubUint64 pool.unclaimedFeeTotalSompi op.claimAmountSompi
    | throw "claim unclaimed_fee_total underflow"
  if pool.poolNonce = maxUint64 then throw "pool nonce overflow"
  let pool' : LiquidityPoolState :=
    { pool with
      poolNonce := pool.poolNonce + 1
      unclaimedFeeTotalSompi := unclaimedFeeTotalSompi
      feeRecipients := pool.feeRecipients.set op.recipientIndex.toNat
        { recipient with unclaimedSompi := recipient.unclaimedSompi - op.claimAmountSompi }
      vaultOutpoint := ⟨tx.id, vaultTransition.outputIndex⟩
      vaultValueSompi := vaultTransition.outputValue }
  let asset' := { asset with liquidity := some pool' }
  liftExcept (validateLiquidityInvariants op.assetID asset')
  insertAssetState op.assetID asset'

def applyOp (tx : DomainTransaction) (txIDBytes ownerID : DomainHash) (op : PayloadOp)
    (creationContext : CreationContext) : EStateM String State Unit :=
  match op with
  | .createAsset op => applyCreateAsset txIDBytes ownerID op creationContext
  | .createAssetWithMint op => applyCreateAssetWithMint txIDBytes ownerID op creationContext
  | .createLiquidityAsset op =>
    applyCreateLiquidityAsset blake2b256 tx txIDBytes ownerID op creationContext
  | .transfer op => applyTransfer ownerID op
  | .mint op => applyMint ownerID op
  | .burn op => applyBurn ownerID op
  | .buyLiquidityExactIn op => applyBuyLiquidityExactIn tx ownerID op
  | .sellLiquidityExactIn op => applySellLiquidityExactIn blake2b256 tx ownerID op
  | .claimLiquidityFees op => applyClaimLiquidityFees blake2b256 tx ownerID op

/-! ## The transaction -/

/-- The branch for a transaction that carries no CAT operation: vault scripts
are refused, anchors move. -/
def applyWithoutPayload (tx : DomainTransaction) (spentVaultInputs : List DomainOutpoint)
    (liquidityVaultOutputCount : Nat) : EStateM String State Unit := do
  if spentVaultInputs.length ≠ 0 ∨ liquidityVaultOutputCount > 0 then
    throw "reserved LiquidityVault scripts require a CAT liquidity payload"
  modify (applyAnchorDeltas blake2b256 tx)

def isVaultSpendingOp : PayloadOp → Bool
  | .buyLiquidityExactIn _ | .sellLiquidityExactIn _ | .claimLiquidityFees _ => true
  | _ => false

def isCreateLiquidityAssetOp : PayloadOp → Bool
  | .createLiquidityAsset _ => true
  | _ => false

def validateAndApplyTransactionWithCreationContext (tx : DomainTransaction)
    (povDAAScore payloadHFActivationDAAScore : UInt64) (creationContext : CreationContext) :
    EStateM String State Unit := do
  let state ← get
  let payloadHFActive := povDAAScore ≥ payloadHFActivationDAAScore
  if payloadHFActive ∧ state.isRootOnly then
    throw ("root-only Atomic consensus state cannot validate post-payload-HF transaction effects " ++
      "without a materialized Atomic state")
  let liquidityVaultOutputCount :=
    (tx.outputs.filter fun output => isVaultScript output.scriptPublicKey).length
  let spentVaultInputs ← liftExcept (collectSpentLiquidityVaultInputs tx state)
  if !payloadHFActive ∨ !isPayload tx.subnetworkID ∨ tx.payload.length = 0 then
    applyWithoutPayload blake2b256 tx spentVaultInputs liquidityVaultOutputCount
  else
    let some parsedPayload ← liftExcept (parsePayload tx.payload)
      | applyWithoutPayload blake2b256 tx spentVaultInputs liquidityVaultOutputCount
    let ownerID ← liftExcept (resolveOwnerFromPopulatedTx blake2b256 tx parsedPayload.authInputIndex)
    let nonceKey := nonceKeyForOp ownerID parsedPayload.op
    let expectedNonce := if state.nextNonce nonceKey = 0 then 1 else state.nextNonce nonceKey
    if parsedPayload.nonce ≠ expectedNonce then
      throw ("nonce baseline violation for owner `" ++ hashHex ownerID ++ "` scope `" ++
        toString nonceKey.scopeKind ++ ":" ++ hashHex nonceKey.scopeID ++ "`: expected `" ++
        toString expectedNonce ++ "`, got `" ++ toString parsedPayload.nonce ++ "`")
    if expectedNonce = maxUint64 then
      throw ("nonce progression overflow for owner `" ++ hashHex ownerID ++ "` scope `" ++
        toString nonceKey.scopeKind ++ ":" ++ hashHex nonceKey.scopeID ++ "`")
    if spentVaultInputs.length ≠ 0 ∧ !isVaultSpendingOp parsedPayload.op then
      throw "spending a LiquidityVault input is only valid for buy/sell/claim liquidity ops"
    if liquidityVaultOutputCount > 0 ∧ !opAllowsLiquidityVaultOutput parsedPayload.op then
      throw "creating a LiquidityVault output is only valid for create/buy/sell/claim liquidity ops"
    if isCreateLiquidityAssetOp parsedPayload.op ∧ spentVaultInputs.length ≠ 0 then
      throw "create-liquidity must not spend any LiquidityVault input"
    liftExcept (validateReplacementAnchor blake2b256 tx ownerID state)
    applyOp blake2b256 tx tx.id ownerID parsedPayload.op creationContext
    modify (·.setNextNonce nonceKey (expectedNonce + 1))
    modify (applyAnchorDeltas blake2b256 tx)

/-- `ApplyAnchorDeltasForTransaction`: only the owner-anchor delta. -/
def applyAnchorDeltasForTransaction (tx : DomainTransaction) : EStateM String State Unit :=
  modify (applyAnchorDeltas blake2b256 tx)

end Hash

end Cryptixd.Atomic

