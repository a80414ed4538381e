import Mathlib
import Cryptixd.Atomic.Apply
import Cryptixd.Lib.StateTriple

/-!
# What each operation does to the state

One triple per function of `Apply.lean` that writes the state.  Each pins the
starting state `s₀`; its success postcondition is an *effect*, a relation
between `s₀` and the final state that lists every check the code passed and
the writes it made, and its error postcondition is `s = s₀`: no function here
writes before its last check.  The invariant modules read a run through these
effects and never unfold the code again.

An effect quantifies the whole result of every call it depends on (a pair is
one variable, read with `.1` and `.2`), with the equation that produced it, so
that each verification condition closes by rewriting with its hypotheses.
-/

set_option autoImplicit false
set_option mvcgen.warning false

namespace Cryptixd.Atomic

open Std.Do

namespace State

/-- What `insertAssetState` writes when it succeeds: the vault of the stored
asset's previous pool leaves the index, the asset is stored, and a liquidity
asset's vault enters the index under its id. -/
def putAsset (state : State) (assetID : DomainHash) (asset : AssetState) : State :=
  let cleared := match (state.assets.lookup assetID).bind (·.liquidity) with
    | some previousPool => state.eraseVaultOutpoint previousPool.vaultOutpoint
    | none => state
  let stored := cleared.setAsset assetID asset
  match asset.assetClass, asset.liquidity with
  | .liquidity, some pool => stored.setVaultOutpoint pool.vaultOutpoint assetID
  | _, _ => stored

@[simp] theorem putAsset_assets (state : State) (assetID : DomainHash) (asset : AssetState) :
    (state.putAsset assetID asset).assets = state.assets.insert assetID asset := by
  unfold putAsset; split <;> split <;> rfl

@[simp] theorem putAsset_nextNonces (state : State) (assetID : DomainHash) (asset : AssetState) :
    (state.putAsset assetID asset).nextNonces = state.nextNonces := by
  unfold putAsset; split <;> split <;> rfl

@[simp] theorem putAsset_balances (state : State) (assetID : DomainHash) (asset : AssetState) :
    (state.putAsset assetID asset).balances = state.balances := by
  unfold putAsset; split <;> split <;> rfl

@[simp] theorem putAsset_anchorCounts (state : State) (assetID : DomainHash) (asset : AssetState) :
    (state.putAsset assetID asset).anchorCounts = state.anchorCounts := by
  unfold putAsset; split <;> split <;> rfl

/-- The balance write that ends a liquidity creation, made only when the
creation included a launch buy. -/
def creditLaunchBuy (state : State) (key : BalanceKey) (launch : Option LaunchBuy) : State :=
  match launch with
  | none => state
  | some bought => state.setBalance key bought.receiverBalance

@[simp] theorem creditLaunchBuy_balances (state : State) (key : BalanceKey)
    (launch : Option LaunchBuy) :
    (state.creditLaunchBuy key launch).balances =
      match launch with
      | none => state.balances
      | some bought => state.balances.insert key bought.receiverBalance := by
  cases launch <;> rfl

@[simp] theorem creditLaunchBuy_assets (state : State) (key : BalanceKey)
    (launch : Option LaunchBuy) : (state.creditLaunchBuy key launch).assets = state.assets := by
  cases launch <;> rfl

@[simp] theorem creditLaunchBuy_nextNonces (state : State) (key : BalanceKey)
    (launch : Option LaunchBuy) :
    (state.creditLaunchBuy key launch).nextNonces = state.nextNonces := by
  cases launch <;> rfl

@[simp] theorem creditLaunchBuy_anchorCounts (state : State) (key : BalanceKey)
    (launch : Option LaunchBuy) :
    (state.creditLaunchBuy key launch).anchorCounts = state.anchorCounts := by
  cases launch <;> rfl

@[simp] theorem creditLaunchBuy_liquidityVaultOutpoints (state : State) (key : BalanceKey)
    (launch : Option LaunchBuy) :
    (state.creditLaunchBuy key launch).liquidityVaultOutpoints = state.liquidityVaultOutpoints := by
  cases launch <;> rfl

end State

/-- The check `insertAssetState` makes before writing: the vault of a
liquidity asset is free in the index or already its own. -/
def VaultSlotFree (state : State) (assetID : DomainHash) (asset : AssetState) : Prop :=
  asset.assetClass = .liquidity → ∃ pool, asset.liquidity = some pool ∧
    ∀ previous, state.liquidityVaultOutpoints.lookup pool.vaultOutpoint = some previous →
      previous = assetID

/-! ## Building blocks -/

@[spec] theorem liftExcept_spec {α : Type} (result : Except String α) (s₀ : State) :
    ⦃fun s => ⌜s = s₀⌝⦄ liftExcept result
    ⦃post⟨fun value s => ⌜result = .ok value ∧ s = s₀⌝, fun _ s => ⌜s = s₀⌝⟩⦄ := by
  mvcgen [liftExcept]

@[spec] theorem insertAssetState_spec (assetID : DomainHash) (asset : AssetState) (s₀ : State) :
    ⦃fun s => ⌜s = s₀⌝⦄ insertAssetState assetID asset
    ⦃post⟨fun _ s => ⌜VaultSlotFree s₀ assetID asset ∧ s = s₀.putAsset assetID asset⌝,
      fun _ s => ⌜s = s₀⌝⟩⦄ := by
  mvcgen -trivial [insertAssetState]
  all_goals subst_vars
  all_goals simp_all +zetaDelta [State.putAsset, VaultSlotFree,
    ← Option.eq_none_iff_forall_ne_some, -Prod.exists]

/-! ## Standard assets -/

def TransferEffect (ownerID : DomainHash) (op : TransferOp) (s s' : State) : Prop :=
  (s.assets.lookup op.assetID).isSome ∧
  ((ownerID = op.toOwnerID ∧ (s.balance ⟨op.assetID, ownerID⟩).sub op.amount ≠ none ∧ s' = s) ∨
   (ownerID ≠ op.toOwnerID ∧ ∃ senderAfter receiverAfter,
      (s.balance ⟨op.assetID, ownerID⟩).sub op.amount = some senderAfter ∧
      (s.balance ⟨op.assetID, op.toOwnerID⟩).add op.amount = some receiverAfter ∧
      s' = (s.storeBalance ⟨op.assetID, ownerID⟩ senderAfter).setBalance
        ⟨op.assetID, op.toOwnerID⟩ receiverAfter))

theorem applyTransfer_spec (ownerID : DomainHash) (op : TransferOp) (s₀ : State) :
    ⦃fun s => ⌜s = s₀⌝⦄ applyTransfer ownerID op
    ⦃post⟨fun _ s => ⌜TransferEffect ownerID op s₀ s⌝, fun _ s => ⌜s = s₀⌝⟩⦄ := by
  mvcgen -trivial [applyTransfer]
  all_goals subst_vars
  all_goals simp_all +zetaDelta [TransferEffect, Option.isSome_iff_ne_none]

def MintEffect (ownerID : DomainHash) (op : MintOp) (s s' : State) : Prop :=
  ∃ asset newTotalSupply receiverAfter, s.assets.lookup op.assetID = some asset ∧
    asset.assetClass ≠ .liquidity ∧ asset.mintAuthorityOwnerID = ownerID ∧
    asset.totalSupply.add op.amount = some newTotalSupply ∧
    ¬(asset.supplyMode = .capped ∧ newTotalSupply.compare asset.maxSupply > 0) ∧
    (s.balance ⟨op.assetID, op.toOwnerID⟩).add op.amount = some receiverAfter ∧
    s' = (s.putAsset op.assetID { asset with totalSupply := newTotalSupply }).setBalance
      ⟨op.assetID, op.toOwnerID⟩ receiverAfter

theorem applyMint_spec (ownerID : DomainHash) (op : MintOp) (s₀ : State) :
    ⦃fun s => ⌜s = s₀⌝⦄ applyMint ownerID op
    ⦃post⟨fun _ s => ⌜MintEffect ownerID op s₀ s⌝, fun _ s => ⌜s = s₀⌝⟩⦄ := by
  mvcgen -trivial [applyMint]
  all_goals subst_vars
  all_goals simp_all +zetaDelta [MintEffect]

def BurnEffect (ownerID : DomainHash) (op : BurnOp) (s s' : State) : Prop :=
  ∃ asset senderAfter supplyAfter, s.assets.lookup op.assetID = some asset ∧
    asset.assetClass ≠ .liquidity ∧
    (s.balance ⟨op.assetID, ownerID⟩).sub op.amount = some senderAfter ∧
    asset.totalSupply.sub op.amount = some supplyAfter ∧
    s' = (s.putAsset op.assetID { asset with totalSupply := supplyAfter }).storeBalance
      ⟨op.assetID, ownerID⟩ senderAfter

theorem applyBurn_spec (ownerID : DomainHash) (op : BurnOp) (s₀ : State) :
    ⦃fun s => ⌜s = s₀⌝⦄ applyBurn ownerID op
    ⦃post⟨fun _ s => ⌜BurnEffect ownerID op s₀ s⌝, fun _ s => ⌜s = s₀⌝⟩⦄ := by
  mvcgen -trivial [applyBurn]
  all_goals subst_vars
  all_goals simp_all +zetaDelta [BurnEffect]

def CreateAssetEffect (assetID ownerID : DomainHash) (op : CreateAssetOp)
    (creationContext : CreationContext) (s s' : State) : Prop :=
  s.assets.lookup assetID = none ∧ validateStateTokenVersion op.tokenVersion = .ok () ∧
  s' = s.putAsset assetID (standardAssetState ownerID op.tokenVersion op.mintAuthorityOwnerID
    op.decimals (payloadSupplyModeToState op.supplyMode) op.maxSupply 0 op.name op.symbol
    op.metadata op.platformTag creationContext)

theorem applyCreateAsset_spec (assetID ownerID : DomainHash) (op : CreateAssetOp)
    (creationContext : CreationContext) (s₀ : State) :
    ⦃fun s => ⌜s = s₀⌝⦄ applyCreateAsset assetID ownerID op creationContext
    ⦃post⟨fun _ s => ⌜CreateAssetEffect assetID ownerID op creationContext s₀ s⌝,
      fun _ s => ⌜s = s₀⌝⟩⦄ := by
  mvcgen -trivial [applyCreateAsset]
  all_goals subst_vars
  all_goals simp_all +zetaDelta [CreateAssetEffect]

def CreateAssetWithMintEffect (assetID ownerID : DomainHash) (op : CreateAssetWithMintOp)
    (creationContext : CreationContext) (s s' : State) : Prop :=
  s.assets.lookup assetID = none ∧ validateStateTokenVersion op.tokenVersion = .ok () ∧
  let asset (totalSupply : Uint128) := standardAssetState ownerID op.tokenVersion
    op.mintAuthorityOwnerID op.decimals (payloadSupplyModeToState op.supplyMode) op.maxSupply
    totalSupply op.name op.symbol op.metadata op.platformTag creationContext
  ((op.initialMintAmount.isZero = true ∧ s' = s.putAsset assetID (asset 0)) ∨
   (op.initialMintAmount.isZero = false ∧
    ¬(payloadSupplyModeToState op.supplyMode = .capped ∧
      op.initialMintAmount.compare op.maxSupply > 0) ∧
    ∃ receiverAfter,
      (s.balance ⟨assetID, op.initialMintToOwnerID⟩).add op.initialMintAmount = some receiverAfter ∧
      s' = (s.putAsset assetID (asset op.initialMintAmount)).setBalance
        ⟨assetID, op.initialMintToOwnerID⟩ receiverAfter))

theorem applyCreateAssetWithMint_spec (assetID ownerID : DomainHash) (op : CreateAssetWithMintOp)
    (creationContext : CreationContext) (s₀ : State) :
    ⦃fun s => ⌜s = s₀⌝⦄ applyCreateAssetWithMint assetID ownerID op creationContext
    ⦃post⟨fun _ s => ⌜CreateAssetWithMintEffect assetID ownerID op creationContext s₀ s⌝,
      fun _ s => ⌜s = s₀⌝⟩⦄ := by
  mvcgen -trivial [applyCreateAssetWithMint]
  all_goals subst_vars
  all_goals simp_all +zetaDelta [CreateAssetWithMintEffect]

/-! ## Liquidity assets -/

def BuyEffect (tx : DomainTransaction) (ownerID : DomainHash) (op : BuyLiquidityExactInOp)
    (s s' : State) : Prop :=
  ∃ (found : AssetState × LiquidityPoolState) (transition : VaultTransition)
    (vaultDelta feeTrade netIn : UInt64) (curve : Uint128 × Uint128 × UInt64 × Uint128)
    (canonicalCPayIn realCPayReservesSompi : UInt64) (fee : List LiquidityFeeRecipientState × UInt64)
    (receiverAfter totalSupply : Uint128),
    liquidityAssetPool s op.assetID "buy" = .ok found ∧
    found.2.poolNonce = op.expectedPoolNonce ∧
    resolveLiquidityVaultTransition tx found.2.vaultOutpoint = .ok transition ∧
    checkedSubUint64 transition.outputValue transition.inputValue = some vaultDelta ∧
    vaultDelta = op.cpayInSompi ∧
    calculateTradeFee op.cpayInSompi found.2.feeBPS = .ok feeTrade ∧
    checkedSubUint64 op.cpayInSompi feeTrade = some netIn ∧
    cpmmBuy found.2.realTokenReserves found.2.virtualCPayReserves found.2.virtualTokenReserves netIn =
      .ok curve ∧
    ¬curve.1.compare op.minTokenOut < 0 ∧
    minGrossInputForTokenOut found.2.realTokenReserves found.2.virtualCPayReserves
      found.2.virtualTokenReserves curve.1 found.2.feeBPS = .ok canonicalCPayIn ∧
    op.cpayInSompi = canonicalCPayIn ∧
    curve.1.isZero = false ∧
    checkedAddUint64 found.2.realCPayReservesSompi netIn = some realCPayReservesSompi ∧
    applyFeeToPool found.2.feeRecipients found.2.unclaimedFeeTotalSompi feeTrade = .ok fee ∧
    found.2.poolNonce ≠ maxUint64 ∧
    (s.balance ⟨op.assetID, ownerID⟩).add curve.1 = some receiverAfter ∧
    found.1.totalSupply.add curve.1 = some totalSupply ∧
    let pool : LiquidityPoolState :=
      { found.2 with
        poolNonce := found.2.poolNonce + 1
        realCPayReservesSompi := realCPayReservesSompi
        realTokenReserves := curve.2.1
        virtualCPayReserves := curve.2.2.1
        virtualTokenReserves := curve.2.2.2
        unclaimedFeeTotalSompi := fee.2
        feeRecipients := fee.1
        vaultOutpoint := ⟨tx.id, transition.outputIndex⟩
        vaultValueSompi := transition.outputValue
        unlocked := found.2.unlocked ||
          (found.2.unlockTargetSompi > 0 && realCPayReservesSompi ≥ found.2.unlockTargetSompi) }
    let asset : AssetState := { found.1 with totalSupply := totalSupply, liquidity := some pool }
    validateLiquidityInvariants op.assetID asset = .ok () ∧ VaultSlotFree s op.assetID asset ∧
    s' = (s.putAsset op.assetID asset).setBalance ⟨op.assetID, ownerID⟩ receiverAfter

theorem applyBuyLiquidityExactIn_spec (tx : DomainTransaction) (ownerID : DomainHash)
    (op : BuyLiquidityExactInOp) (s₀ : State) :
    ⦃fun s => ⌜s = s₀⌝⦄ applyBuyLiquidityExactIn tx ownerID op
    ⦃post⟨fun _ s => ⌜BuyEffect tx ownerID op s₀ s⌝, fun _ s => ⌜s = s₀⌝⟩⦄ := by
  mvcgen -trivial [applyBuyLiquidityExactIn]
  all_goals subst_vars
  all_goals simp_all +zetaDelta [BuyEffect, ← Option.eq_none_iff_forall_ne_some, -Prod.exists]

section Hash

variable (blake2b256 : List UInt8 → DomainHash)

def CreateLiquidityAssetEffect (tx : DomainTransaction) (assetID ownerID : DomainHash)
    (op : CreateLiquidityAssetOp) (creationContext : CreationContext) (s s' : State) : Prop :=
  s.assets.lookup assetID = none ∧
  ∃ (vaultOutput : UInt32 × UInt64) (virtualCPayReserves : UInt64) (virtualTokenReserves : Uint128)
    (feeRecipients : List LiquidityFeeRecipientState) (launch : Option LaunchBuy),
    resolveCreateLiquidityVaultOutput tx = .ok vaultOutput ∧
    buildFeeRecipientState blake2b256 op.recipients = .ok feeRecipients ∧
    ¬(op.feeBPS > 0 ∧ feeRecipients.length = 0) ∧
    initialVirtualCPayReservesForCurve op.curveMode op.individualVirtualCPayReservesSompi =
      .ok virtualCPayReserves ∧
    initialVirtualTokenReservesForMaxSupplyAndCurve op.maxSupply op.curveMode
      op.individualVirtualTokenMultiplierBPS = .ok virtualTokenReserves ∧
    launchBuy s assetID ownerID op virtualCPayReserves virtualTokenReserves feeRecipients =
      .ok launch ∧
    let asset := liquidityAssetState ownerID op creationContext
      (createdPoolState op ⟨tx.id, vaultOutput.1⟩ vaultOutput.2 virtualCPayReserves
        virtualTokenReserves feeRecipients launch) ((launch.map (·.tokenOut)).getD 0)
    validateLiquidityInvariants assetID asset = .ok () ∧ VaultSlotFree s assetID asset ∧
    s' = (s.putAsset assetID asset).creditLaunchBuy ⟨assetID, ownerID⟩ launch

theorem applyCreateLiquidityAsset_spec (tx : DomainTransaction) (assetID ownerID : DomainHash)
    (op : CreateLiquidityAssetOp) (creationContext : CreationContext) (s₀ : State) :
    ⦃fun s => ⌜s = s₀⌝⦄ applyCreateLiquidityAsset blake2b256 tx assetID ownerID op creationContext
    ⦃post⟨fun _ s =>
        ⌜CreateLiquidityAssetEffect blake2b256 tx assetID ownerID op creationContext s₀ s⌝,
      fun _ s => ⌜s = s₀⌝⟩⦄ := by
  mvcgen -trivial [applyCreateLiquidityAsset]
  all_goals subst_vars
  all_goals simp_all +zetaDelta [CreateLiquidityAssetEffect, State.creditLaunchBuy,
    ← Option.eq_none_iff_forall_ne_some, -Prod.exists]

def SellEffect (tx : DomainTransaction) (ownerID : DomainHash) (op : SellLiquidityExactInOp)
    (s s' : State) : Prop :=
  ∃ (found : AssetState × LiquidityPoolState) (senderAfter supplyAfter : Uint128)
    (curve : UInt64 × UInt64 × UInt64 × Uint128) (feeTrade cpayOut : UInt64)
    (transition : VaultTransition) (vaultDelta : UInt64) (realTokenReserves : Uint128)
    (fee : List LiquidityFeeRecipientState × UInt64),
    liquidityAssetPool s op.assetID "sell" = .ok found ∧
    found.2.poolNonce = op.expectedPoolNonce ∧
    liquiditySellLocked found.2 = false ∧
    (s.balance ⟨op.assetID, ownerID⟩).sub op.tokenIn = some senderAfter ∧
    found.1.totalSupply.sub op.tokenIn = some supplyAfter ∧
    cpmmSell found.2.realCPayReservesSompi found.2.virtualCPayReserves found.2.virtualTokenReserves
      op.tokenIn = .ok curve ∧
    calculateTradeFee curve.1 found.2.feeBPS = .ok feeTrade ∧
    checkedSubUint64 curve.1 feeTrade = some cpayOut ∧
    cpayOut ≠ 0 ∧ ¬cpayOut < op.minCPayOutSompi ∧ ¬cpayOut < liquidityMinPayoutSompi ∧
    validatePayoutOutput blake2b256 tx op.cpayReceiveOutputIndex cpayOut none = .ok () ∧
    resolveLiquidityVaultTransition tx found.2.vaultOutpoint = .ok transition ∧
    checkedSubUint64 transition.inputValue transition.outputValue = some vaultDelta ∧
    vaultDelta = cpayOut ∧
    found.2.realTokenReserves.add op.tokenIn = some realTokenReserves ∧
    applyFeeToPool found.2.feeRecipients found.2.unclaimedFeeTotalSompi feeTrade = .ok fee ∧
    found.2.poolNonce ≠ maxUint64 ∧
    let pool : LiquidityPoolState :=
      { found.2 with
        poolNonce := found.2.poolNonce + 1
        realCPayReservesSompi := curve.2.1
        realTokenReserves := realTokenReserves
        virtualCPayReserves := curve.2.2.1
        virtualTokenReserves := curve.2.2.2
        unclaimedFeeTotalSompi := fee.2
        feeRecipients := fee.1
        vaultOutpoint := ⟨tx.id, transition.outputIndex⟩
        vaultValueSompi := transition.outputValue }
    let asset : AssetState := { found.1 with totalSupply := supplyAfter, liquidity := some pool }
    validateLiquidityInvariants op.assetID asset = .ok () ∧ VaultSlotFree s op.assetID asset ∧
    s' = (s.putAsset op.assetID asset).storeBalance ⟨op.assetID, ownerID⟩ senderAfter

theorem applySellLiquidityExactIn_spec (tx : DomainTransaction) (ownerID : DomainHash)
    (op : SellLiquidityExactInOp) (s₀ : State) :
    ⦃fun s => ⌜s = s₀⌝⦄ applySellLiquidityExactIn blake2b256 tx ownerID op
    ⦃post⟨fun _ s => ⌜SellEffect blake2b256 tx ownerID op s₀ s⌝, fun _ s => ⌜s = s₀⌝⟩⦄ := by
  mvcgen -trivial [applySellLiquidityExactIn]
  all_goals subst_vars
  all_goals simp_all +zetaDelta [SellEffect, ← Option.eq_none_iff_forall_ne_some, -Prod.exists]

def ClaimEffect (tx : DomainTransaction) (ownerID : DomainHash) (op : ClaimLiquidityFeesOp)
    (s s' : State) : Prop :=
  ∃ (found : AssetState × LiquidityPoolState) (recipient : LiquidityFeeRecipientState)
    (transition : VaultTransition) (vaultDelta unclaimed : UInt64),
    liquidityAssetPool s op.assetID "claim" = .ok found ∧
    found.2.poolNonce = op.expectedPoolNonce ∧
    liquiditySellLocked found.2 = false ∧
    ¬op.claimAmountSompi < liquidityMinPayoutSompi ∧
    found.2.feeRecipients[op.recipientIndex.toNat]? = some recipient ∧
    ¬recipient.unclaimedSompi < op.claimAmountSompi ∧
    ownerID = recipient.ownerID ∧
    validatePayoutOutput blake2b256 tx op.claimReceiveOutputIndex op.claimAmountSompi
      (some recipient.ownerID) = .ok () ∧
    resolveLiquidityVaultTransition tx found.2.vaultOutpoint = .ok transition ∧
    checkedSubUint64 transition.inputValue transition.outputValue = some vaultDelta ∧
    vaultDelta = op.claimAmountSompi ∧
    checkedSubUint64 found.2.unclaimedFeeTotalSompi op.claimAmountSompi = some unclaimed ∧
    found.2.poolNonce ≠ maxUint64 ∧
    let pool : LiquidityPoolState :=
      { found.2 with
        poolNonce := found.2.poolNonce + 1
        unclaimedFeeTotalSompi := unclaimed
        feeRecipients := found.2.feeRecipients.set op.recipientIndex.toNat
          { recipient with unclaimedSompi := recipient.unclaimedSompi - op.claimAmountSompi }
        vaultOutpoint := ⟨tx.id, transition.outputIndex⟩
        vaultValueSompi := transition.outputValue }
    let asset : AssetState := { found.1 with liquidity := some pool }
    validateLiquidityInvariants op.assetID asset = .ok () ∧ VaultSlotFree s op.assetID asset ∧
    s' = s.putAsset op.assetID asset

theorem applyClaimLiquidityFees_spec (tx : DomainTransaction) (ownerID : DomainHash)
    (op : ClaimLiquidityFeesOp) (s₀ : State) :
    ⦃fun s => ⌜s = s₀⌝⦄ applyClaimLiquidityFees blake2b256 tx ownerID op
    ⦃post⟨fun _ s => ⌜ClaimEffect blake2b256 tx ownerID op s₀ s⌝, fun _ s => ⌜s = s₀⌝⟩⦄ := by
  mvcgen -trivial [applyClaimLiquidityFees]
  all_goals subst_vars
  all_goals simp_all +zetaDelta [ClaimEffect, ← Option.eq_none_iff_forall_ne_some, -Prod.exists]

/-! ## The dispatch and the transaction -/

/-- The effect of `applyOp`: the effect of the operation's own function. -/
def OpEffect (tx : DomainTransaction) (txIDBytes ownerID : DomainHash)
    (creationContext : CreationContext) : PayloadOp → State → State → Prop
  | .createAsset op => CreateAssetEffect txIDBytes ownerID op creationContext
  | .createAssetWithMint op => CreateAssetWithMintEffect txIDBytes ownerID op creationContext
  | .createLiquidityAsset op =>
    CreateLiquidityAssetEffect blake2b256 tx txIDBytes ownerID op creationContext
  | .transfer op => TransferEffect ownerID op
  | .mint op => MintEffect ownerID op
  | .burn op => BurnEffect ownerID op
  | .buyLiquidityExactIn op => BuyEffect tx ownerID op
  | .sellLiquidityExactIn op => SellEffect blake2b256 tx ownerID op
  | .claimLiquidityFees op => ClaimEffect blake2b256 tx ownerID op

@[spec] theorem applyOp_spec (tx : DomainTransaction) (txIDBytes ownerID : DomainHash)
    (op : PayloadOp) (creationContext : CreationContext) (s₀ : State) :
    ⦃fun s => ⌜s = s₀⌝⦄ applyOp blake2b256 tx txIDBytes ownerID op creationContext
    ⦃post⟨fun _ s => ⌜OpEffect blake2b256 tx txIDBytes ownerID creationContext op s₀ s⌝,
      fun _ s => ⌜s = s₀⌝⟩⦄ := by
  cases op with
  | createAsset op => exact applyCreateAsset_spec txIDBytes ownerID op creationContext s₀
  | createAssetWithMint op =>
    exact applyCreateAssetWithMint_spec txIDBytes ownerID op creationContext s₀
  | createLiquidityAsset op =>
    exact applyCreateLiquidityAsset_spec blake2b256 tx txIDBytes ownerID op creationContext s₀
  | transfer op => exact applyTransfer_spec ownerID op s₀
  | mint op => exact applyMint_spec ownerID op s₀
  | burn op => exact applyBurn_spec ownerID op s₀
  | buyLiquidityExactIn op => exact applyBuyLiquidityExactIn_spec tx ownerID op s₀
  | sellLiquidityExactIn op => exact applySellLiquidityExactIn_spec blake2b256 tx ownerID op s₀
  | claimLiquidityFees op => exact applyClaimLiquidityFees_spec blake2b256 tx ownerID op s₀

@[spec] theorem applyWithoutPayload_spec (tx : DomainTransaction)
    (spentVaultInputs : List DomainOutpoint) (liquidityVaultOutputCount : Nat) (s₀ : State) :
    ⦃fun s => ⌜s = s₀⌝⦄ applyWithoutPayload blake2b256 tx spentVaultInputs liquidityVaultOutputCount
    ⦃post⟨fun _ s => ⌜spentVaultInputs.length = 0 ∧ liquidityVaultOutputCount = 0 ∧
        s = applyAnchorDeltas blake2b256 tx s₀⌝,
      fun _ s => ⌜s = s₀⌝⟩⦄ := by
  mvcgen -trivial [applyWithoutPayload]
  all_goals subst_vars
  all_goals simp_all +zetaDelta

/-- The nonce a key expects next: the stored one, an absent key reading as 1. -/
def State.expectedNonce (state : State) (key : NonceKey) : UInt64 :=
  if state.nextNonce key = 0 then 1 else state.nextNonce key

/-- The number of reserved vault outputs of a transaction. -/
def liquidityVaultOutputCount (tx : DomainTransaction) : Nat :=
  (tx.outputs.filter fun output => isVaultScript output.scriptPublicKey).length

theorem liquidityVaultOutputCount_eq (tx : DomainTransaction) :
    liquidityVaultOutputCount tx =
      (tx.outputs.filter fun output => isVaultScript output.scriptPublicKey).length := rfl

/-- A successful transaction that carries a CAT operation: the payload parses,
its owner and nonce check out, the vault and anchor guards pass, the operation
succeeds, and then the nonce advances and the anchors move. -/
def CatEffect (tx : DomainTransaction) (creationContext : CreationContext)
    (spentVaultInputs : List DomainOutpoint) (s s' : State) : Prop :=
  ∃ (parsedPayload : ParsedPayload) (ownerID : DomainHash) (applied : State),
    parsePayload tx.payload = .ok (some parsedPayload) ∧
    resolveOwnerFromPopulatedTx blake2b256 tx parsedPayload.authInputIndex = .ok ownerID ∧
    parsedPayload.nonce = s.expectedNonce (nonceKeyForOp ownerID parsedPayload.op) ∧
    s.expectedNonce (nonceKeyForOp ownerID parsedPayload.op) ≠ maxUint64 ∧
    ¬(spentVaultInputs.length ≠ 0 ∧ isVaultSpendingOp parsedPayload.op = false) ∧
    ¬(liquidityVaultOutputCount tx > 0 ∧ opAllowsLiquidityVaultOutput parsedPayload.op = false) ∧
    ¬(isCreateLiquidityAssetOp parsedPayload.op = true ∧ spentVaultInputs.length ≠ 0) ∧
    validateReplacementAnchor blake2b256 tx ownerID s = .ok () ∧
    OpEffect blake2b256 tx tx.id ownerID creationContext parsedPayload.op s applied ∧
    s' = applyAnchorDeltas blake2b256 tx
      (applied.setNextNonce (nonceKeyForOp ownerID parsedPayload.op)
        (s.expectedNonce (nonceKeyForOp ownerID parsedPayload.op) + 1))

/-- The effect of `validateAndApplyTransactionWithCreationContext`: a
transaction without a CAT operation only moves anchors; one with an operation
has the `CatEffect`. -/
def TransactionEffect (tx : DomainTransaction) (povDAAScore payloadHFActivationDAAScore : UInt64)
    (creationContext : CreationContext) (s s' : State) : Prop :=
  ¬(povDAAScore ≥ payloadHFActivationDAAScore ∧ s.isRootOnly = true) ∧
  ∃ spentVaultInputs, collectSpentLiquidityVaultInputs tx s = .ok spentVaultInputs ∧
    ((parsePayload tx.payload = .ok none ∨ ¬povDAAScore ≥ payloadHFActivationDAAScore ∨
        isPayload tx.subnetworkID = false ∨ tx.payload.length = 0) ∧
      spentVaultInputs.length = 0 ∧ liquidityVaultOutputCount tx = 0 ∧
      s' = applyAnchorDeltas blake2b256 tx s ∨
     povDAAScore ≥ payloadHFActivationDAAScore ∧ isPayload tx.subnetworkID = true ∧
      tx.payload.length ≠ 0 ∧ CatEffect blake2b256 tx creationContext spentVaultInputs s s')

theorem validateAndApplyTransactionWithCreationContext_spec (tx : DomainTransaction)
    (povDAAScore payloadHFActivationDAAScore : UInt64) (creationContext : CreationContext)
    (s₀ : State) :
    ⦃fun s => ⌜s = s₀⌝⦄
    validateAndApplyTransactionWithCreationContext blake2b256 tx povDAAScore
      payloadHFActivationDAAScore creationContext
    ⦃post⟨fun _ s => ⌜TransactionEffect blake2b256 tx povDAAScore payloadHFActivationDAAScore
        creationContext s₀ s⌝,
      fun _ s => ⌜s = s₀⌝⟩⦄ := by
  mvcgen -trivial [validateAndApplyTransactionWithCreationContext]
  all_goals subst_vars
  all_goals simp_all +zetaDelta [TransactionEffect, CatEffect, State.expectedNonce,
    ← liquidityVaultOutputCount_eq, ← Option.eq_none_iff_forall_ne_some, -Prod.exists]
  all_goals exact ⟨_, ‹_›, rfl⟩

theorem applyAnchorDeltasForTransaction_spec (tx : DomainTransaction) (s₀ : State) :
    ⦃fun s => ⌜s = s₀⌝⦄ applyAnchorDeltasForTransaction blake2b256 tx
    ⦃post⟨fun _ s => ⌜s = applyAnchorDeltas blake2b256 tx s₀⌝, fun _ s => ⌜s = s₀⌝⟩⦄ := by
  mvcgen -trivial [applyAnchorDeltasForTransaction]
  all_goals subst_vars
  all_goals simp_all +zetaDelta

end Hash

end Cryptixd.Atomic

