import Mathlib
import Cryptixd.Atomic.Uint128
import Cryptixd.Lib.MapSum

/-!
# Transactions and the atomic token state

The data the atomic token rules read and write: the parts of
`externalapi.DomainTransaction` they look at, and `atomicstate.State` with its
assets, balances, scoped nonces, owner anchor counts and the liquidity vault
index (`atomicstate/state.go`).  Go maps are `AList`s; a read `m[k]` of an
absent key gives the zero value, as `balance`, `nextNonce` and `anchorCount`
do.  Slices and byte arrays are lists; a transaction keeps its id, computed by
`consensushashing.TransactionID` outside this package, as a field.
-/

set_option autoImplicit false

namespace Cryptixd.Atomic

abbrev Map (K V : Type) := AList (fun _ : K => V)

abbrev DomainHash := Vector UInt8 32

def zeroHash : DomainHash := Vector.replicate 32 0

/-- Lowercase hex of a byte, as `%x` prints it. -/
def hexByte (byte : UInt8) : String :=
  let digits := Nat.toDigits 16 byte.toNat
  String.ofList (if digits.length = 1 then '0' :: digits else digits)

/-- `%x` of a byte slice or array. -/
def hexOf (bytes : List UInt8) : String := String.join (bytes.map hexByte)

/-! ## Transactions -/

structure DomainOutpoint where
  transactionID : DomainHash
  index : UInt32
  deriving DecidableEq, Repr

def DomainOutpoint.toText (outpoint : DomainOutpoint) : String :=
  "(" ++ hexOf outpoint.transactionID.toList ++ ": " ++ toString outpoint.index ++ ")"

structure ScriptPublicKey where
  script : List UInt8
  version : UInt16
  deriving DecidableEq, Repr

structure UTXOEntry where
  amount : UInt64
  scriptPublicKey : ScriptPublicKey
  blockDAAScore : UInt64
  isCoinbase : Bool
  deriving DecidableEq, Repr

structure DomainTransactionInput where
  previousOutpoint : DomainOutpoint
  utxoEntry : Option UTXOEntry
  deriving DecidableEq, Repr

structure DomainTransactionOutput where
  value : UInt64
  scriptPublicKey : ScriptPublicKey
  deriving DecidableEq, Repr

abbrev DomainSubnetworkID := Vector UInt8 20

def subnetworkIDCoinbase : DomainSubnetworkID := (Vector.replicate 20 0).set 0 1

def subnetworkIDPayload : DomainSubnetworkID := (Vector.replicate 20 0).set 0 3

/-- A transaction as the atomic rules see it.  Its input and output slices have
Go lengths, which are below `2 ^ 63`. -/
structure DomainTransaction where
  inputs : List DomainTransactionInput
  outputs : List DomainTransactionOutput
  subnetworkID : DomainSubnetworkID
  payload : List UInt8
  id : DomainHash
  inputs_fit : inputs.length < 2 ^ 63
  outputs_fit : outputs.length < 2 ^ 63

/-- The bounds of the empty and one-element slices, as constants: a transaction
built with them holds no nested proof that another module could share. -/
theorem zero_lt_sliceBound : 0 < 2 ^ 63 := Nat.two_pow_pos 63

theorem one_lt_sliceBound : 1 < 2 ^ 63 := Nat.one_lt_two_pow (Nat.succ_ne_zero 62)

def isPayload (id : DomainSubnetworkID) : Bool := id == subnetworkIDPayload

def isCoinBase (tx : DomainTransaction) : Bool := tx.subnetworkID == subnetworkIDCoinbase

/-! ## The state -/

structure BalanceKey where
  assetID : DomainHash
  ownerID : DomainHash
  deriving DecidableEq, Repr

/-- `NonceScopeKind`, a raw byte: decoded keys may carry any value. -/
abbrev NonceScopeKind := UInt8

def nonceScopeOwner : NonceScopeKind := 0

def nonceScopeAsset : NonceScopeKind := 1

structure NonceKey where
  ownerID : DomainHash
  scopeKind : NonceScopeKind
  scopeID : DomainHash
  deriving DecidableEq, Repr

def ownerNonceKey (ownerID : DomainHash) : NonceKey := ⟨ownerID, nonceScopeOwner, zeroHash⟩

def assetNonceKey (ownerID assetID : DomainHash) : NonceKey := ⟨ownerID, nonceScopeAsset, assetID⟩

def NonceKey.validate (key : NonceKey) : Except String Unit :=
  if key.scopeKind = nonceScopeOwner then
    if key.scopeID = zeroHash then .ok ()
    else .error ("owner nonce scope for owner `" ++ hexOf key.ownerID.toList ++
      "` has non-zero scope id `" ++ hexOf key.scopeID.toList ++ "`")
  else if key.scopeKind = nonceScopeAsset then
    if key.scopeID ≠ zeroHash then .ok ()
    else .error ("asset nonce scope for owner `" ++ hexOf key.ownerID.toList ++
      "` has zero asset id")
  else .error ("atomic nonce for owner `" ++ hexOf key.ownerID.toList ++
    "` has invalid scope kind `" ++ toString key.scopeKind ++ "`")

inductive SupplyMode where
  | uncapped
  | capped
  deriving DecidableEq, Repr

inductive AssetClass where
  | standard
  | liquidity
  deriving DecidableEq, Repr

structure LiquidityFeeRecipientState where
  ownerID : DomainHash
  addressVersion : UInt8
  addressPayload : List UInt8
  unclaimedSompi : UInt64
  deriving DecidableEq, Repr

structure LiquidityPoolState where
  poolNonce : UInt64
  curveVersion : UInt8
  curveMode : UInt8
  individualVirtualCPayReservesSompi : UInt64
  individualVirtualTokenMultiplierBPS : UInt16
  realCPayReservesSompi : UInt64
  realTokenReserves : Uint128
  virtualCPayReserves : UInt64
  virtualTokenReserves : Uint128
  unclaimedFeeTotalSompi : UInt64
  feeBPS : UInt16
  feeRecipients : List LiquidityFeeRecipientState
  vaultOutpoint : DomainOutpoint
  vaultValueSompi : UInt64
  unlockTargetSompi : UInt64
  unlocked : Bool
  deriving DecidableEq, Repr

structure AssetState where
  creatorOwnerID : DomainHash
  assetClass : AssetClass
  tokenVersion : UInt8
  mintAuthorityOwnerID : DomainHash
  decimals : UInt8
  supplyMode : SupplyMode
  maxSupply : Uint128
  totalSupply : Uint128
  name : List UInt8
  symbol : List UInt8
  metadata : List UInt8
  platformTag : List UInt8
  createdBlockHash : Option DomainHash
  createdDAAScore : Option UInt64
  createdAt : Option UInt64
  liquidity : Option LiquidityPoolState
  deriving DecidableEq, Repr

structure State where
  nextNonces : Map NonceKey UInt64
  assets : Map DomainHash AssetState
  balances : Map BalanceKey Uint128
  anchorCounts : Map DomainHash UInt64
  liquidityVaultOutpoints : Map DomainOutpoint DomainHash
  rootHashOverride : Option DomainHash

def newState : State := ⟨∅, ∅, ∅, ∅, ∅, none⟩

namespace State

def isRootOnly (state : State) : Bool := state.rootHashOverride.isSome

def nextNonce (state : State) (key : NonceKey) : UInt64 := (state.nextNonces.lookup key).getD 0

def balance (state : State) (key : BalanceKey) : Uint128 := (state.balances.lookup key).getD 0

def anchorCount (state : State) (ownerID : DomainHash) : UInt64 :=
  (state.anchorCounts.lookup ownerID).getD 0

/-- `RebuildLiquidityVaultOutpointIndex`: the index recomputed by ranging over
the assets. -/
def rebuildLiquidityVaultOutpointIndex (state : State) : Map DomainOutpoint DomainHash :=
  state.assets.entries.foldl (fun index entry =>
    if entry.2.assetClass ≠ .liquidity then index
    else match entry.2.liquidity with
      | none => index
      | some pool => index.insert pool.vaultOutpoint entry.1) ∅

end State

/-! ## Creation context -/

structure CreationContext where
  sourceBlockHash : DomainHash
  sourceBlockDAAScore : UInt64
  sourceBlockTime : UInt64
  hasSource : Bool
  deriving DecidableEq, Repr

def emptyCreationContext : CreationContext := ⟨zeroHash, 0, 0, false⟩

namespace CreationContext

def createdBlockHash (context : CreationContext) : Option DomainHash :=
  if context.hasSource then some context.sourceBlockHash else none

def createdDAAScore (context : CreationContext) : Option UInt64 :=
  if context.hasSource then some context.sourceBlockDAAScore else none

def createdAt (context : CreationContext) : Option UInt64 :=
  if context.hasSource then some context.sourceBlockTime else none

end CreationContext

end Cryptixd.Atomic
