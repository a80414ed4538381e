import Mathlib
import Cryptixd.Atomic.Types

/-!
# The CAT payload format

`parsePayload` is `ParsePayload` (`atomicstate/payload.go`): a payload that
does not start with `CAT` is no atomic operation at all (`none`); one that
does is read field by field with a cursor, each truncated or out-of-range
field failing with the message the source gives it, and must be consumed
exactly.  The parser is where several guarantees of the state rules live:
transfer, mint and burn amounts are non-zero, a liquidity pool has at most two
fee recipients and has one exactly when it charges a fee, and every nonce is
at least 1.
-/

set_option autoImplicit false

namespace Cryptixd.Atomic

/-! ## Constants of the format -/

def catMagic : List UInt8 := "CAT".toUTF8.toList

def catVersion : UInt8 := 1
def currentTokenVersion : UInt8 := 1
def currentLiquidityCurveVersion : UInt8 := 1
def liquidityCurveModeBasic : UInt8 := 0
def liquidityCurveModeAggressive : UInt8 := 1
def liquidityCurveModeIndividual : UInt8 := 2
def defaultLiquidityCurveMode : UInt8 := liquidityCurveModeBasic
def individualMinVirtualCPay : UInt64 := 100000000000000
def individualMaxVirtualCPay : UInt64 := 800000000000000
def individualVirtualCPayStep : UInt64 := 10000000000000
def individualMinMultiplierBPS : UInt16 := 10100
def individualMaxMultiplierBPS : UInt16 := 20000
def individualMultiplierStepBPS : UInt16 := 100
def multiplierBPSDenominator : UInt16 := 10000
def maxTokenVersion : UInt8 := 99
def maxLiquidityCurveVersion : UInt8 := 99
def catMaxNameLen : Nat := 32
def catMaxSymbolLen : Nat := 10
def catMaxMetadataLen : Nat := 256
def catMaxPlatformTagLen : Nat := 50
def catMaxDecimals : UInt8 := 18
def maxLiquidityFeeRecipients : UInt8 := 2
def minLiquidityFeeBPS : UInt16 := 10
def maxLiquidityFeeBPS : UInt16 := 1000
def liquidityTokenDecimals : UInt8 := 0
def minLiquidityTokenSupplyRaw : UInt64 := 100000
def maxLiquidityTokenSupplyRaw : UInt64 := 10000000
def sompiPerCryptix : UInt64 := 100000000
def minLiquiditySeedReserve : UInt64 := sompiPerCryptix
def initialRealCPayReserves : UInt64 := sompiPerCryptix
def minCPayReserve : UInt64 := 1
def minRealTokenReserve : UInt64 := 1
def initialVirtualCPayReserves : UInt64 := 250000000000000
def aggressiveVirtualCPayReserve : UInt64 := 200000000000000
def maxSompi : UInt64 := 520395506 * sompiPerCryptix

/-! ## Operations -/

inductive PayloadSupplyMode where
  | uncapped
  | capped
  deriving DecidableEq, Repr

structure PayloadRecipientAddress where
  addressVersion : UInt8
  addressPayload : List UInt8
  deriving DecidableEq, Repr

structure CreateAssetOp where
  tokenVersion : UInt8
  decimals : UInt8
  supplyMode : PayloadSupplyMode
  maxSupply : Uint128
  mintAuthorityOwnerID : DomainHash
  name : List UInt8
  symbol : List UInt8
  metadata : List UInt8
  platformTag : List UInt8
  deriving DecidableEq, Repr

structure TransferOp where
  assetID : DomainHash
  toOwnerID : DomainHash
  amount : Uint128
  deriving DecidableEq, Repr

structure MintOp where
  assetID : DomainHash
  toOwnerID : DomainHash
  amount : Uint128
  deriving DecidableEq, Repr

structure BurnOp where
  assetID : DomainHash
  amount : Uint128
  deriving DecidableEq, Repr

structure CreateAssetWithMintOp where
  tokenVersion : UInt8
  decimals : UInt8
  supplyMode : PayloadSupplyMode
  maxSupply : Uint128
  mintAuthorityOwnerID : DomainHash
  name : List UInt8
  symbol : List UInt8
  metadata : List UInt8
  initialMintAmount : Uint128
  initialMintToOwnerID : DomainHash
  platformTag : List UInt8
  deriving DecidableEq, Repr

structure CreateLiquidityAssetOp where
  tokenVersion : UInt8
  curveVersion : UInt8
  curveMode : UInt8
  individualVirtualCPayReservesSompi : UInt64
  individualVirtualTokenMultiplierBPS : UInt16
  decimals : UInt8
  maxSupply : Uint128
  name : List UInt8
  symbol : List UInt8
  metadata : List UInt8
  seedReserveSompi : UInt64
  feeBPS : UInt16
  recipients : List PayloadRecipientAddress
  launchBuySompi : UInt64
  launchBuyMinTokenOut : Uint128
  platformTag : List UInt8
  unlockTargetSompi : UInt64
  deriving DecidableEq, Repr

structure BuyLiquidityExactInOp where
  assetID : DomainHash
  expectedPoolNonce : UInt64
  cpayInSompi : UInt64
  minTokenOut : Uint128
  deriving DecidableEq, Repr

structure SellLiquidityExactInOp where
  assetID : DomainHash
  expectedPoolNonce : UInt64
  tokenIn : Uint128
  minCPayOutSompi : UInt64
  cpayReceiveOutputIndex : UInt16
  deriving DecidableEq, Repr

structure ClaimLiquidityFeesOp where
  assetID : DomainHash
  expectedPoolNonce : UInt64
  recipientIndex : UInt8
  claimAmountSompi : UInt64
  claimReceiveOutputIndex : UInt16
  deriving DecidableEq, Repr

/-- `PayloadOp`: the nine operation types that implement the interface. -/
inductive PayloadOp where
  | createAsset (op : CreateAssetOp)
  | transfer (op : TransferOp)
  | mint (op : MintOp)
  | burn (op : BurnOp)
  | createAssetWithMint (op : CreateAssetWithMintOp)
  | createLiquidityAsset (op : CreateLiquidityAssetOp)
  | buyLiquidityExactIn (op : BuyLiquidityExactInOp)
  | sellLiquidityExactIn (op : SellLiquidityExactInOp)
  | claimLiquidityFees (op : ClaimLiquidityFeesOp)
  deriving DecidableEq, Repr

structure ParsedPayload where
  authInputIndex : UInt16
  nonce : UInt64
  op : PayloadOp
  deriving DecidableEq, Repr

/-! ## Reading fields at a cursor -/

/-- The cursor-passing reader: the cursor is the state, a failure its message
(the cursor a failure reaches is never read). -/
abbrev PayloadReader := ExceptT String (StateM Nat)

def leUint16 (bytes : List UInt8) : UInt16 := UInt16.ofNat (LittleEndian.ofListLE bytes)

def takeBytes (payload : List UInt8) (length cursor : Nat) : Option (List UInt8 × Nat) :=
  if cursor + length > payload.length then none
  else some ((payload.drop cursor).take length, cursor + length)

def takeByte (payload : List UInt8) (cursor : Nat) : Option (UInt8 × Nat) :=
  (takeBytes payload 1 cursor).map fun (bytes, next) => (bytes.headD 0, next)

def takeUint16LE (payload : List UInt8) (cursor : Nat) : Option (UInt16 × Nat) :=
  (takeBytes payload 2 cursor).map fun (bytes, next) => (leUint16 bytes, next)

def takeUint64LE (payload : List UInt8) (cursor : Nat) : Option (UInt64 × Nat) :=
  (takeBytes payload 8 cursor).map fun (bytes, next) => (leUint64 bytes, next)

def takeUint128LE (payload : List UInt8) (cursor : Nat) : Option (Uint128 × Nat) :=
  match takeBytes payload 16 cursor with
  | none => none
  | some (bytes, next) => (uint128FromLE bytes).map (·, next)

def take32 (payload : List UInt8) (cursor : Nat) : Option (DomainHash × Nat) :=
  (takeBytes payload 32 cursor).map fun (bytes, next) =>
    (Vector.ofFn fun index => bytes.getD index 0, next)

/-- A field read that fails with `message` when the payload is too short. -/
def expect {α : Type} (step : Nat → Option (α × Nat)) (message : String) : PayloadReader α := do
  match step (← get) with
  | some (value, next) =>
    set next
    pure value
  | none => throw message

/-- `utf8.Valid`: the bytes are a sequence of UTF-8 encoded scalar values. -/
def utf8Valid (bytes : List UInt8) : Bool := ByteArray.validateUTF8 ⟨bytes.toArray⟩

/-! ## Field validation shared with the state rules -/

def validatePayloadVersion (version current maximum : UInt8) (label : String) :
    Except String Unit :=
  if 1 ≤ version ∧ version ≤ maximum ∧ version = current then .ok ()
  else .error ("unsupported CAT " ++ label ++ " version `" ++ toString version ++ "`")

def validateLiquidityUnlockTarget (unlockTargetSompi : UInt64) : Except String Unit :=
  if unlockTargetSompi > maxSompi then
    .error ("liquidity unlock target `" ++ toString unlockTargetSompi ++
      "` exceeds MaxSompi `" ++ toString maxSompi ++ "`")
  else .ok ()

def validateLiquidityCurveMode (mode : UInt8) : Except String Unit :=
  if mode = liquidityCurveModeBasic ∨ mode = liquidityCurveModeAggressive ∨
      mode = liquidityCurveModeIndividual then .ok ()
  else .error ("unsupported CAT liquidity curve mode `" ++ toString mode ++ "`")

def validateIndividualLiquidityCurveParams (virtualCPayReservesSompi : UInt64)
    (virtualTokenMultiplierBPS : UInt16) : Except String Unit :=
  if virtualCPayReservesSompi < individualMinVirtualCPay ∨
      virtualCPayReservesSompi > individualMaxVirtualCPay then
    .error ("individual liquidity fixed CPAY `" ++ toString virtualCPayReservesSompi ++
      "` is outside allowed range")
  else if virtualCPayReservesSompi % individualVirtualCPayStep ≠ 0 then
    .error ("individual liquidity fixed CPAY `" ++ toString virtualCPayReservesSompi ++
      "` is not on the allowed step")
  else if virtualTokenMultiplierBPS < individualMinMultiplierBPS ∨
      virtualTokenMultiplierBPS > individualMaxMultiplierBPS then
    .error ("individual liquidity multiplier `" ++ toString virtualTokenMultiplierBPS ++
      "` is outside allowed range")
  else if virtualTokenMultiplierBPS % individualMultiplierStepBPS ≠ 0 then
    .error ("individual liquidity multiplier `" ++ toString virtualTokenMultiplierBPS ++
      "` is not on the allowed step")
  else .ok ()

def validateLiquidityCurveParameters (mode : UInt8) (individualVirtualCPayReservesSompi : UInt64)
    (individualVirtualTokenMultiplierBPS : UInt16) : Except String Unit :=
  if mode = liquidityCurveModeBasic ∨ mode = liquidityCurveModeAggressive then
    if individualVirtualCPayReservesSompi = 0 ∧ individualVirtualTokenMultiplierBPS = 0 then .ok ()
    else .error "non-individual liquidity curve must not encode individual parameters"
  else if mode = liquidityCurveModeIndividual then
    validateIndividualLiquidityCurveParams individualVirtualCPayReservesSompi
      individualVirtualTokenMultiplierBPS
  else .error ("unsupported CAT liquidity curve mode `" ++ toString mode ++ "`")

def isLiquidityMaxSupplyAllowed (maxSupply : Uint128) : Bool :=
  match maxSupply.uint64 with
  | none => false
  | some value => minLiquidityTokenSupplyRaw ≤ value && value ≤ maxLiquidityTokenSupplyRaw

def validateLiquidityCreateParams (decimals : UInt8) (maxSupply : Uint128)
    (seedReserveSompi : UInt64) : Except String Unit :=
  if decimals ≠ liquidityTokenDecimals then
    .error ("liquidity asset decimals must be `" ++ toString liquidityTokenDecimals ++ "`")
  else if !isLiquidityMaxSupplyAllowed maxSupply then
    .error ("liquidity asset max_supply must be in `" ++ toString minLiquidityTokenSupplyRaw ++
      "..=" ++ toString maxLiquidityTokenSupplyRaw ++ "`")
  else if seedReserveSompi ≠ minLiquiditySeedReserve then
    .error ("liquidity asset seed_reserve_sompi must be exactly `" ++
      toString minLiquiditySeedReserve ++ "`")
  else .ok ()

/-! ## The field groups -/

/-- Lift a validation result into the reader. -/
def check (result : Except String Unit) : PayloadReader Unit :=
  match result with
  | .ok () => pure ()
  | .error message => throw message

def parseStringFields (payload : List UInt8) :
    PayloadReader (List UInt8 × List UInt8 × List UInt8) := do
  let nameLen ← expect (takeByte payload) "truncated CAT name length"
  let symbolLen ← expect (takeByte payload) "truncated CAT symbol length"
  let metadataLen ← expect (takeUint16LE payload) "truncated CAT metadata length"
  if nameLen.toNat > catMaxNameLen ∨ symbolLen.toNat > catMaxSymbolLen ∨
      metadataLen.toNat > catMaxMetadataLen then
    throw "string field exceeds allowed length"
  let name ← expect (takeBytes payload nameLen.toNat) "truncated CAT name"
  let symbol ← expect (takeBytes payload symbolLen.toNat) "truncated CAT symbol"
  let metadata ← expect (takeBytes payload metadataLen.toNat) "truncated CAT metadata"
  if !utf8Valid name || !utf8Valid symbol then
    throw "name/symbol must be valid utf-8"
  pure (name, symbol, metadata)

/-- The fields `parseCreateAssetCommon` returns. -/
structure CreateAssetCommon where
  tokenVersion : UInt8
  decimals : UInt8
  supplyMode : PayloadSupplyMode
  maxSupply : Uint128
  mintAuthorityOwnerID : DomainHash
  name : List UInt8
  symbol : List UInt8
  metadata : List UInt8

def parseCreateAssetCommon (payload : List UInt8) : PayloadReader CreateAssetCommon := do
  let tokenVersion ← expect (takeByte payload) "truncated CAT token version"
  check (validatePayloadVersion tokenVersion currentTokenVersion maxTokenVersion "token")
  let decimals ← expect (takeByte payload) "truncated CAT decimals"
  if decimals > catMaxDecimals then
    throw ("decimals `" ++ toString decimals ++ "` above max `" ++ toString catMaxDecimals ++ "`")
  let rawSupplyMode ← expect (takeByte payload) "truncated CAT supply mode"
  let supplyMode ←
    if rawSupplyMode = 0 then pure PayloadSupplyMode.uncapped
    else if rawSupplyMode = 1 then pure PayloadSupplyMode.capped
    else throw ("invalid supply mode `" ++ toString rawSupplyMode ++ "`")
  let maxSupply ← expect (takeUint128LE payload) "truncated CAT max_supply"
  let mintAuthorityOwnerID ← expect (take32 payload) "truncated CAT mint authority"
  let (name, symbol, metadata) ← parseStringFields payload
  if supplyMode = .capped ∧ maxSupply.isZero then
    throw "capped assets require non-zero max_supply"
  if supplyMode = .uncapped ∧ !maxSupply.isZero then
    throw "uncapped assets must encode max_supply=0"
  pure ⟨tokenVersion, decimals, supplyMode, maxSupply, mintAuthorityOwnerID, name, symbol,
    metadata⟩

def parsePlatformTag (payload : List UInt8) : PayloadReader (List UInt8) := do
  let platformTagLen ← expect (takeByte payload) "truncated CAT platform tag length"
  if platformTagLen.toNat > catMaxPlatformTagLen then
    throw ("platform tag length exceeds max `" ++ toString catMaxPlatformTagLen ++ "`")
  let platformTag ← expect (takeBytes payload platformTagLen.toNat) "truncated CAT platform tag"
  if !utf8Valid platformTag then
    throw "platform tag must be valid utf-8"
  pure platformTag

def parseOptionalPlatformTagTail (payload : List UInt8) : PayloadReader (List UInt8) := do
  if (← get) = payload.length then return []
  parsePlatformTag payload

/-- The optional tail of a liquidity creation: platform tag, unlock target,
curve mode and, for the individual curve, its two parameters. -/
structure LiquidityCreateTail where
  platformTag : List UInt8
  unlockTargetSompi : UInt64
  curveMode : UInt8
  individualVirtualCPayReservesSompi : UInt64
  individualVirtualTokenMultiplierBPS : UInt16

def parseOptionalLiquidityCreateTail (payload : List UInt8) : PayloadReader LiquidityCreateTail := do
  if (← get) = payload.length then return ⟨[], 0, defaultLiquidityCurveMode, 0, 0⟩
  let platformTag ← parsePlatformTag payload
  let unlockTargetSompi ← expect (takeUint64LE payload) "truncated CAT liquidity unlock target"
  check (validateLiquidityUnlockTarget unlockTargetSompi)
  if (← get) = payload.length then
    return ⟨platformTag, unlockTargetSompi, defaultLiquidityCurveMode, 0, 0⟩
  let mode ← expect (takeByte payload) "truncated CAT liquidity curve mode"
  check (validateLiquidityCurveMode mode)
  if mode = liquidityCurveModeIndividual then
    let fixedCPay ← expect (takeUint64LE payload) "truncated CAT individual liquidity fixed CPAY"
    let multiplier ← expect (takeUint16LE payload) "truncated CAT individual liquidity multiplier"
    check (validateLiquidityCurveParameters mode fixedCPay multiplier)
    return ⟨platformTag, unlockTargetSompi, mode, fixedCPay, multiplier⟩
  check (validateLiquidityCurveParameters mode 0 0)
  return ⟨platformTag, unlockTargetSompi, mode, 0, 0⟩

def parseRecipientAddress (payload : List UInt8) : PayloadReader PayloadRecipientAddress := do
  let addressVersion ← expect (takeByte payload) "truncated CAT recipient address version"
  let expectedLen ←
    if addressVersion = 0 then pure 32
    else if addressVersion = 1 then pure 33
    else if addressVersion = 8 then pure 32
    else throw ("unsupported recipient address_version `" ++ toString addressVersion ++ "`")
  let addressPayload ← expect (takeBytes payload expectedLen)
    "truncated CAT recipient address payload"
  pure ⟨addressVersion, addressPayload⟩

/-- `string(a) > string(b)` on byte strings. -/
def bytesGreater : List UInt8 → List UInt8 → Bool
  | [], _ => false
  | _ :: _, [] => true
  | a :: rest, b :: rest' => if a = b then bytesGreater rest rest' else a > b

def recipientOrderGreater (left right : PayloadRecipientAddress) : Bool :=
  if left.addressVersion ≠ right.addressVersion then left.addressVersion > right.addressVersion
  else bytesGreater left.addressPayload right.addressPayload

/-- The recipient loop: `count` addresses, in order. -/
def parseRecipients (payload : List UInt8) : Nat → PayloadReader (List PayloadRecipientAddress)
  | 0 => pure []
  | count + 1 => do
      let recipient ← parseRecipientAddress payload
      let rest ← parseRecipients payload count
      pure (recipient :: rest)

/-! ## The operations -/

def parseCreateAsset (payload : List UInt8) : PayloadReader PayloadOp := do
  let common ← parseCreateAssetCommon payload
  let platformTag ← parseOptionalPlatformTagTail payload
  pure (.createAsset ⟨common.tokenVersion, common.decimals, common.supplyMode, common.maxSupply,
    common.mintAuthorityOwnerID, common.name, common.symbol, common.metadata, platformTag⟩)

def parseTransfer (payload : List UInt8) : PayloadReader PayloadOp := do
  let assetID ← expect (take32 payload) "truncated CAT asset_id"
  let toOwnerID ← expect (take32 payload) "truncated CAT to_owner_id"
  let amount ← expect (takeUint128LE payload) "truncated CAT transfer amount"
  if amount.isZero then throw "transfer amount must be non-zero"
  pure (.transfer ⟨assetID, toOwnerID, amount⟩)

def parseMint (payload : List UInt8) : PayloadReader PayloadOp := do
  let assetID ← expect (take32 payload) "truncated CAT asset_id"
  let toOwnerID ← expect (take32 payload) "truncated CAT to_owner_id"
  let amount ← expect (takeUint128LE payload) "truncated CAT mint amount"
  if amount.isZero then throw "mint amount must be non-zero"
  pure (.mint ⟨assetID, toOwnerID, amount⟩)

def parseBurn (payload : List UInt8) : PayloadReader PayloadOp := do
  let assetID ← expect (take32 payload) "truncated CAT asset_id"
  let amount ← expect (takeUint128LE payload) "truncated CAT burn amount"
  if amount.isZero then throw "burn amount must be non-zero"
  pure (.burn ⟨assetID, amount⟩)

def parseCreateAssetWithMint (payload : List UInt8) : PayloadReader PayloadOp := do
  let common ← parseCreateAssetCommon payload
  let initialMintAmount ← expect (takeUint128LE payload) "truncated CAT initial mint amount"
  let initialMintToOwnerID ← expect (take32 payload) "truncated CAT initial mint owner id"
  if initialMintAmount.isZero ∧ initialMintToOwnerID ≠ zeroHash then
    throw "initial_mint_to_owner_id must be zero when initial_mint_amount is zero"
  if !initialMintAmount.isZero ∧ initialMintToOwnerID = zeroHash then
    throw "initial_mint_to_owner_id must be non-zero when initial_mint_amount is non-zero"
  let platformTag ← parseOptionalPlatformTagTail payload
  pure (.createAssetWithMint ⟨common.tokenVersion, common.decimals, common.supplyMode,
    common.maxSupply, common.mintAuthorityOwnerID, common.name, common.symbol, common.metadata,
    initialMintAmount, initialMintToOwnerID, platformTag⟩)

def parseCreateLiquidityAsset (payload : List UInt8) : PayloadReader PayloadOp := do
  let tokenVersion ← expect (takeByte payload) "truncated CAT token version"
  check (validatePayloadVersion tokenVersion currentTokenVersion maxTokenVersion "token")
  let curveVersion ← expect (takeByte payload) "truncated CAT liquidity curve version"
  check (validatePayloadVersion curveVersion currentLiquidityCurveVersion
    maxLiquidityCurveVersion "liquidity curve")
  let decimals ← expect (takeByte payload) "truncated CAT decimals"
  if decimals ≠ liquidityTokenDecimals then
    throw ("liquidity asset decimals must be `" ++ toString liquidityTokenDecimals ++ "`")
  let maxSupply ← expect (takeUint128LE payload) "truncated CAT max_supply"
  if !isLiquidityMaxSupplyAllowed maxSupply then
    throw ("liquidity asset max_supply must be in `" ++ toString minLiquidityTokenSupplyRaw ++
      "..=" ++ toString maxLiquidityTokenSupplyRaw ++ "`")
  let (name, symbol, metadata) ← parseStringFields payload
  let seedReserveSompi ← expect (takeUint64LE payload) "truncated CAT seed reserve"
  check (validateLiquidityCreateParams decimals maxSupply seedReserveSompi)
  let feeBPS ← expect (takeUint16LE payload) "truncated CAT fee bps"
  if !(feeBPS = 0 ∨ (minLiquidityFeeBPS ≤ feeBPS ∧ feeBPS ≤ maxLiquidityFeeBPS)) then
    throw ("fee_bps must be 0 or in " ++ toString minLiquidityFeeBPS ++ "..=" ++
      toString maxLiquidityFeeBPS ++ ", got `" ++ toString feeBPS ++ "`")
  let recipientCount ← expect (takeByte payload) "truncated CAT recipient count"
  if recipientCount > maxLiquidityFeeRecipients then
    throw ("recipient_count above max `" ++ toString maxLiquidityFeeRecipients ++ "`")
  if feeBPS = 0 ∧ recipientCount ≠ 0 then
    throw "recipient_count must be 0 when fee_bps is 0"
  if feeBPS > 0 ∧ recipientCount = 0 then
    throw "recipient_count must be 1 or 2 when fee_bps > 0"
  let recipients ← parseRecipients payload recipientCount.toNat
  if let [first, second] := recipients then
    if first.addressVersion = second.addressVersion ∧
        first.addressPayload = second.addressPayload then
      throw "duplicate liquidity recipients are not allowed"
    if recipientOrderGreater first second then
      throw "liquidity recipients must be canonically sorted"
  let launchBuySompi ← expect (takeUint64LE payload) "truncated CAT launch buy sompi"
  let launchBuyMinTokenOut ← expect (takeUint128LE payload)
    "truncated CAT launch buy min token out"
  if launchBuySompi = 0 ∧ !launchBuyMinTokenOut.isZero then
    throw "launch_buy_min_token_out must be 0 when launch_buy_sompi is 0"
  if launchBuySompi > 0 ∧ launchBuyMinTokenOut.isZero then
    throw "launch_buy_min_token_out must be >0 when launch_buy_sompi is >0"
  let tail ← parseOptionalLiquidityCreateTail payload
  pure (.createLiquidityAsset ⟨tokenVersion, curveVersion, tail.curveMode,
    tail.individualVirtualCPayReservesSompi, tail.individualVirtualTokenMultiplierBPS, decimals,
    maxSupply, name, symbol, metadata, seedReserveSompi, feeBPS, recipients, launchBuySompi,
    launchBuyMinTokenOut, tail.platformTag, tail.unlockTargetSompi⟩)

def parseBuyLiquidityExactIn (payload : List UInt8) : PayloadReader PayloadOp := do
  let assetID ← expect (take32 payload) "truncated CAT asset_id"
  let expectedPoolNonce ← expect (takeUint64LE payload) "truncated CAT expected_pool_nonce"
  if expectedPoolNonce = 0 then throw "buy expected_pool_nonce must be >= 1"
  let cpayInSompi ← expect (takeUint64LE payload) "truncated CAT cpay in"
  let minTokenOut ← expect (takeUint128LE payload) "truncated CAT min token out"
  if cpayInSompi = 0 then throw "buy cpay_in_sompi must be >0"
  if minTokenOut.isZero then throw "buy min_token_out must be >0"
  pure (.buyLiquidityExactIn ⟨assetID, expectedPoolNonce, cpayInSompi, minTokenOut⟩)

def parseSellLiquidityExactIn (payload : List UInt8) : PayloadReader PayloadOp := do
  let assetID ← expect (take32 payload) "truncated CAT asset_id"
  let expectedPoolNonce ← expect (takeUint64LE payload) "truncated CAT expected_pool_nonce"
  if expectedPoolNonce = 0 then throw "sell expected_pool_nonce must be >= 1"
  let tokenIn ← expect (takeUint128LE payload) "truncated CAT token_in"
  let minCPayOutSompi ← expect (takeUint64LE payload) "truncated CAT min cpay out"
  let cpayReceiveOutputIndex ← expect (takeUint16LE payload)
    "truncated CAT cpay receive output index"
  if tokenIn.isZero then throw "sell token_in must be >0"
  if minCPayOutSompi = 0 then throw "sell min_cpay_out_sompi must be >0"
  pure (.sellLiquidityExactIn ⟨assetID, expectedPoolNonce, tokenIn, minCPayOutSompi,
    cpayReceiveOutputIndex⟩)

def parseClaimLiquidityFees (payload : List UInt8) : PayloadReader PayloadOp := do
  let assetID ← expect (take32 payload) "truncated CAT asset_id"
  let expectedPoolNonce ← expect (takeUint64LE payload) "truncated CAT expected_pool_nonce"
  if expectedPoolNonce = 0 then throw "claim expected_pool_nonce must be >= 1"
  let recipientIndex ← expect (takeByte payload) "truncated CAT claim recipient index"
  let claimAmountSompi ← expect (takeUint64LE payload) "truncated CAT claim amount"
  let claimReceiveOutputIndex ← expect (takeUint16LE payload)
    "truncated CAT claim receive output index"
  if claimAmountSompi = 0 then throw "claim amount must be >0"
  pure (.claimLiquidityFees ⟨assetID, expectedPoolNonce, recipientIndex, claimAmountSompi,
    claimReceiveOutputIndex⟩)

/-- The opcode dispatch of `ParsePayload`. -/
def parseOp (payload : List UInt8) (opcode : UInt8) : PayloadReader PayloadOp :=
  if opcode = 0 then parseCreateAsset payload
  else if opcode = 1 then parseTransfer payload
  else if opcode = 2 then parseMint payload
  else if opcode = 3 then parseBurn payload
  else if opcode = 4 then parseCreateAssetWithMint payload
  else if opcode = 5 then parseCreateLiquidityAsset payload
  else if opcode = 6 then parseBuyLiquidityExactIn payload
  else if opcode = 7 then parseSellLiquidityExactIn payload
  else parseClaimLiquidityFees payload

/-- Everything after the `CAT` prefix check. -/
def parsePayloadBody (payload : List UInt8) : PayloadReader ParsedPayload := do
  let magic ← expect (takeBytes payload catMagic.length) "truncated CAT magic"
  if magic ≠ catMagic then throw "invalid CAT magic"
  let version ← expect (takeByte payload) "truncated CAT version"
  if version ≠ catVersion then throw ("unsupported CAT version `" ++ toString version ++ "`")
  let opcode ← expect (takeByte payload) "truncated CAT op"
  if opcode > 8 then throw ("unsupported CAT op `" ++ toString opcode ++ "`")
  let flags ← expect (takeByte payload) "truncated CAT flags"
  if flags ≠ 0 then throw ("invalid CAT flags `" ++ toString flags ++ "`")
  let authInputIndex ← expect (takeUint16LE payload) "truncated CAT auth_input_index"
  let nonce ← expect (takeUint64LE payload) "truncated CAT nonce"
  if nonce = 0 then throw "nonce must be >= 1"
  let op ← parseOp payload opcode
  if (← get) ≠ payload.length then throw "unexpected trailing bytes"
  pure ⟨authInputIndex, nonce, op⟩

/-- `ParsePayload`: `none` for a payload that is not an atomic operation. -/
def parsePayload (payload : List UInt8) : Except String (Option ParsedPayload) :=
  if payload.length < catMagic.length ∨ payload.take catMagic.length ≠ catMagic then .ok none
  else some <$> ((parsePayloadBody payload).run.run' 0).run

end Cryptixd.Atomic
