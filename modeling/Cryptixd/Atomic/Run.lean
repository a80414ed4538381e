import Mathlib
import Cryptixd.Atomic.ApplySpec
import Cryptixd.Lib.Trace

/-!
# Runs of the atomic state

The state changes only through two entry points:
`ValidateAndApplyTransactionWithCreationContext` for a transaction of a block
and `ApplyAnchorDeltasForTransaction` for one whose payload is checked
elsewhere (a coinbase).  A `Call` is one of them with its arguments, a `Step`
is a call that succeeds, and a `Run` is a trace of steps (`Lib/Trace.lean`).
Every state-level result is stated over runs; `Reachable` states are the ends
of runs from `newState`.

`step_cases` is the one inversion lemma the invariant modules use: a
successful call either only moves the owner anchors, or applies the CAT
operation its payload carries (`OpEffect`) and then advances the nonce and
moves the anchors.
-/

set_option autoImplicit false

namespace Cryptixd.Atomic

def PayloadOp.poolAsset : PayloadOp → Option DomainHash
  | .buyLiquidityExactIn op => some op.assetID
  | .sellLiquidityExactIn op => some op.assetID
  | .claimLiquidityFees op => some op.assetID
  | _ => none

/-- A call of one of the two entry points that write the state. -/
inductive Call where
  | validateAndApply (tx : DomainTransaction) (povDAAScore payloadHFActivationDAAScore : UInt64)
      (creationContext : CreationContext)
  | applyAnchorDeltas (tx : DomainTransaction)

namespace Call

def tx : Call → DomainTransaction
  | .validateAndApply tx _ _ _ => tx
  | .applyAnchorDeltas tx => tx

def creationContext : Call → CreationContext
  | .validateAndApply _ _ _ creationContext => creationContext
  | .applyAnchorDeltas _ => emptyCreationContext

/-- The CAT payload a call applies when it succeeds: a parsed payload on the
payload path of `validateAndApply…`, nothing otherwise. -/
def parsedPayload : Call → Option ParsedPayload
  | .validateAndApply tx povDAAScore payloadHFActivationDAAScore _ =>
    if povDAAScore ≥ payloadHFActivationDAAScore ∧ isPayload tx.subnetworkID = true ∧
        tx.payload.length ≠ 0 then
      match parsePayload tx.payload with
      | .ok parsed => parsed
      | .error _ => none
    else none
  | .applyAnchorDeltas _ => none

def op (call : Call) : Option PayloadOp := call.parsedPayload.map (·.op)

/-- The liquidity asset a call's pool operation (buy, sell or claim) trades on. -/
def poolAsset (call : Call) : Option DomainHash := call.op.bind PayloadOp.poolAsset

section Hash

variable (blake2b256 : List UInt8 → DomainHash)

def exec : Call → EStateM String State Unit
  | .validateAndApply tx povDAAScore payloadHFActivationDAAScore creationContext =>
    validateAndApplyTransactionWithCreationContext blake2b256 tx povDAAScore
      payloadHFActivationDAAScore creationContext
  | .applyAnchorDeltas tx => applyAnchorDeltasForTransaction blake2b256 tx

def ownerID (call : Call) : Option DomainHash :=
  call.parsedPayload.bind fun parsed =>
    match resolveOwnerFromPopulatedTx blake2b256 call.tx parsed.authInputIndex with
    | .ok ownerID => some ownerID
    | .error _ => none

def nonceKey (call : Call) : Option NonceKey :=
  match call.parsedPayload, call.ownerID blake2b256 with
  | some parsed, some ownerID => some (nonceKeyForOp ownerID parsed.op)
  | _, _ => none

end Hash

end Call

section Hash

variable (blake2b256 : List UInt8 → DomainHash)

def Step (s : State) (call : Call) (s' : State) : Prop :=
  (call.exec blake2b256).run s = .ok () s'

abbrev Run : State → List Call → State → Prop := Transition.Trace (Step blake2b256)

def Reachable (s : State) : Prop := ∃ calls, Run blake2b256 newState calls s

def Call.next (s : State) (call : Call) : Option State :=
  match (call.exec blake2b256).run s with
  | .ok () s' => some s'
  | .error _ _ => none

variable {blake2b256}

theorem step_of_next {s s' : State} {call : Call} (next : call.next blake2b256 s = some s') :
    Step blake2b256 s call s' := by
  unfold Call.next at next
  split at next
  · next result => cases next; exact result
  · cases next

theorem exists_run_of_runAll {s : State} {calls : List Call} {holds : State → Bool}
    (computed : (Transition.runAll (Call.next blake2b256) s calls).map holds = some true) :
    ∃ s', Run blake2b256 s calls s' ∧ holds s' = true :=
  Transition.Trace.exists_of_runAll (fun _ _ _ => step_of_next) computed

theorem parsedPayload_of_plain {tx : DomainTransaction}
    {povDAAScore payloadHFActivationDAAScore : UInt64} {creationContext : CreationContext}
    (plain : parsePayload tx.payload = .ok none ∨ ¬povDAAScore ≥ payloadHFActivationDAAScore ∨
      isPayload tx.subnetworkID = false ∨ tx.payload.length = 0) :
    (Call.validateAndApply tx povDAAScore payloadHFActivationDAAScore creationContext).parsedPayload =
      none := by
  simp only [Call.parsedPayload]
  split_ifs with path
  · obtain ⟨_, payloadNet, nonEmpty⟩ := path
    rcases plain with parsedNone | notActive | notPayload | empty
    · rw [parsedNone]
    · contradiction
    · rw [payloadNet] at notPayload
      contradiction
    · contradiction
  · rfl

theorem step_cases {s s' : State} {call : Call} (step : Step blake2b256 s call s') :
    (call.parsedPayload = none ∧ s' = applyAnchorDeltas blake2b256 call.tx s) ∨
    ∃ (parsed : ParsedPayload) (ownerID : DomainHash) (applied : State),
      call.parsedPayload = some parsed ∧
      resolveOwnerFromPopulatedTx blake2b256 call.tx parsed.authInputIndex = .ok ownerID ∧
      parsed.nonce = s.expectedNonce (nonceKeyForOp ownerID parsed.op) ∧
      s.expectedNonce (nonceKeyForOp ownerID parsed.op) ≠ maxUint64 ∧
      validateReplacementAnchor blake2b256 call.tx ownerID s = .ok () ∧
      OpEffect blake2b256 call.tx call.tx.id ownerID call.creationContext parsed.op s applied ∧
      s' = applyAnchorDeltas blake2b256 call.tx
        (applied.setNextNonce (nonceKeyForOp ownerID parsed.op)
          (s.expectedNonce (nonceKeyForOp ownerID parsed.op) + 1)) := by
  cases call with
  | applyAnchorDeltas tx =>
    left
    exact ⟨rfl, EStateM.ok_of_triple (applyAnchorDeltasForTransaction_spec blake2b256 tx s) rfl step⟩
  | validateAndApply tx povDAAScore payloadHFActivationDAAScore creationContext =>
    obtain ⟨-, spentVaultInputs, -, plain | cat⟩ := EStateM.ok_of_triple
      (validateAndApplyTransactionWithCreationContext_spec blake2b256 tx povDAAScore
        payloadHFActivationDAAScore creationContext s) rfl step
    · obtain ⟨noPayload, -, -, final⟩ := plain
      exact .inl ⟨parsedPayload_of_plain noPayload, final⟩
    · obtain ⟨active, payloadNet, nonEmpty, parsed, ownerID, applied, parsedOk, owner, nonce,
        notMax, -, -, -, anchor, effect, final⟩ := cat
      refine .inr ⟨parsed, ownerID, applied, ?_, owner, nonce, notMax, anchor, effect, final⟩
      simp [Call.parsedPayload, active, payloadNet, nonEmpty, parsedOk]

theorem collectSpentLiquidityVaultInputs_eq_nil {tx : DomainTransaction} (state : State)
    (noVaultInput : ∀ input ∈ tx.inputs, isVaultInput input = false) :
    collectSpentLiquidityVaultInputs tx state = .ok [] := by
  unfold collectSpentLiquidityVaultInputs
  generalize tx.inputs = inputs at noVaultInput
  induction inputs with
  | nil => rfl
  | cons input rest ih =>
    rw [List.foldlM_cons]
    simp only [noVaultInput input List.mem_cons_self, Bool.not_false, ↓reduceIte]
    exact ih (fun other member => noVaultInput other (List.mem_cons_of_mem _ member))

/-- The converse of the plain case of `step_cases`: a transaction that touches
no vault script and carries no CAT payload always applies, and only moves the
owner anchors. -/
theorem step_plain {tx : DomainTransaction} {povDAAScore payloadHFActivationDAAScore : UInt64}
    {creationContext : CreationContext} {s : State}
    (notRootOnly : ¬(povDAAScore ≥ payloadHFActivationDAAScore ∧ s.isRootOnly = true))
    (noVaultInput : ∀ input ∈ tx.inputs, isVaultInput input = false)
    (noVaultOutput : ∀ output ∈ tx.outputs, isVaultScript output.scriptPublicKey = false)
    (plain : ¬povDAAScore ≥ payloadHFActivationDAAScore ∨ isPayload tx.subnetworkID = false ∨
      tx.payload.length = 0) :
    Step blake2b256 s (.validateAndApply tx povDAAScore payloadHFActivationDAAScore creationContext)
      (applyAnchorDeltas blake2b256 tx s) := by
  have noVaultOutputs :
      (tx.outputs.filter fun output => isVaultScript output.scriptPublicKey) = [] :=
    List.filter_eq_nil_iff.mpr (fun output member => by simp [noVaultOutput output member])
  have plainPath : ((!decide (povDAAScore ≥ payloadHFActivationDAAScore)) = true ∨
      (!isPayload tx.subnetworkID) = true ∨ tx.payload.length = 0) := by
    simpa using plain
  simp only [Step, Call.exec, validateAndApplyTransactionWithCreationContext, EStateM.run,
    bind, EStateM.bind, get, getThe, MonadStateOf.get, EStateM.get, if_neg notRootOnly,
    collectSpentLiquidityVaultInputs_eq_nil s noVaultInput, liftExcept, pure, EStateM.pure,
    noVaultOutputs, if_pos plainPath, applyWithoutPayload, List.length_nil]
  rw [if_neg (by omega)]
  rfl

theorem ownerID_eq {call : Call} {parsed : ParsedPayload} {ownerID : DomainHash}
    (payload : call.parsedPayload = some parsed)
    (owner : resolveOwnerFromPopulatedTx blake2b256 call.tx parsed.authInputIndex = .ok ownerID) :
    call.ownerID blake2b256 = some ownerID ∧
      call.nonceKey blake2b256 = some (nonceKeyForOp ownerID parsed.op) := by
  have ownerSome : call.ownerID blake2b256 = some ownerID := by
    simp [Call.ownerID, payload, owner]
  exact ⟨ownerSome, by simp [Call.nonceKey, payload, ownerSome]⟩

/-! ## What an operation leaves alone -/

theorem OpEffect.frame {tx : DomainTransaction} {txIDBytes ownerID : DomainHash}
    {creationContext : CreationContext} {op : PayloadOp} {s s' : State}
    (effect : OpEffect blake2b256 tx txIDBytes ownerID creationContext op s s') :
    s'.nextNonces = s.nextNonces ∧ s'.anchorCounts = s.anchorCounts := by
  cases op with
  | createAsset op =>
    obtain ⟨-, -, rfl⟩ := effect
    simp
  | createAssetWithMint op =>
    obtain ⟨-, -, ⟨-, rfl⟩ | ⟨-, -, _, -, rfl⟩⟩ := effect <;> simp
  | createLiquidityAsset op =>
    obtain ⟨-, _, _, _, _, _, -, -, -, -, -, -, -, -, rfl⟩ := effect
    simp
  | transfer op =>
    obtain ⟨-, ⟨-, -, rfl⟩ | ⟨-, _, _, -, -, rfl⟩⟩ := effect <;> simp
  | mint op =>
    obtain ⟨_, _, _, -, -, -, -, -, -, rfl⟩ := effect
    simp
  | burn op =>
    obtain ⟨_, _, _, -, -, -, -, rfl⟩ := effect
    simp
  | buyLiquidityExactIn op =>
    obtain ⟨_, _, _, _, _, _, _, _, _, _, _, -, -, -, -, -, -, -, -, -, -, -, -, -, -, -, -, -, -, -,
      rfl⟩ := effect
    simp
  | sellLiquidityExactIn op =>
    obtain ⟨_, _, _, _, _, _, _, _, _, _, -, -, -, -, -, -, -, -, -, -, -, -, -, -, -, -, -, -, -, -,
      rfl⟩ := effect
    simp
  | claimLiquidityFees op =>
    obtain ⟨_, _, _, _, _, -, -, -, -, -, -, -, -, -, -, -, -, -, -, -, rfl⟩ := effect
    simp

end Hash

/-! ## Pools -/

def State.pool (state : State) (assetID : DomainHash) : Option LiquidityPoolState :=
  (state.assets.lookup assetID).bind (·.liquidity)

@[simp] theorem State.pool_setBalance (state : State) (key : BalanceKey) (value : Uint128)
    (assetID : DomainHash) : (state.setBalance key value).pool assetID = state.pool assetID := rfl

@[simp] theorem State.pool_storeBalance (state : State) (key : BalanceKey) (value : Uint128)
    (assetID : DomainHash) : (state.storeBalance key value).pool assetID = state.pool assetID := by
  simp [State.pool]

@[simp] theorem State.pool_creditLaunchBuy (state : State) (key : BalanceKey)
    (launch : Option LaunchBuy) (assetID : DomainHash) :
    (state.creditLaunchBuy key launch).pool assetID = state.pool assetID := by
  simp [State.pool]

@[simp] theorem State.pool_putAsset (state : State) (assetID other : DomainHash) (asset : AssetState) :
    (state.putAsset assetID asset).pool other =
      if other = assetID then asset.liquidity else state.pool other := by
  by_cases same : other = assetID
  · subst same
    simp [State.pool]
  · simp [State.pool, same, AList.lookup_insert_ne same]

theorem liquidityAssetPool_ok {state : State} {assetID : DomainHash} {kind : String}
    {found : AssetState × LiquidityPoolState}
    (lookup : liquidityAssetPool state assetID kind = .ok found) :
    state.assets.lookup assetID = some found.1 ∧ found.1.liquidity = some found.2 ∧
      found.1.assetClass = .liquidity := by
  unfold liquidityAssetPool at lookup
  split at lookup
  · cases lookup
  · rename_i asset present
    split at lookup
    · rename_i pool hasPool
      split_ifs at lookup with isLiquidity
      cases lookup
      exact ⟨present, hasPool, isLiquidity⟩
    · cases lookup

/-! ## A concrete CAT transaction -/

def anchorScript : ScriptPublicKey :=
  ⟨Txscript.opData32 :: List.replicate 32 0 ++ [Txscript.opCheckSig], 0⟩

def anchorEntry (isCoinbase : Bool) : UTXOEntry := ⟨1, anchorScript, 0, isCoinbase⟩

/-- The payload of a `createAsset` authorised by input 0 at `nonce`: an
uncapped asset with empty name, symbol and metadata and no platform tag. -/
def createAssetPayload (nonce : UInt64) : List UInt8 :=
  catMagic ++ [catVersion, 0, 0] ++ putUint16LE 0 ++ putUint64LE nonce ++
    [currentTokenVersion, 0, 0] ++ List.replicate 16 0 ++ List.replicate 32 0 ++ [0, 0] ++
    putUint16LE 0

/-- A `createAsset` transaction that spends an entry of `anchorScript` and pays
the same script again, so that its owner keeps an anchor. -/
def createAssetTx (id : DomainHash) (nonce : UInt64) (isCoinbase : Bool) : DomainTransaction where
  inputs := [⟨⟨zeroHash, 0⟩, some (anchorEntry isCoinbase)⟩]
  outputs := [⟨1, anchorScript⟩]
  subnetworkID := subnetworkIDPayload
  payload := createAssetPayload nonce
  id := id
  inputs_fit := one_lt_sliceBound
  outputs_fit := one_lt_sliceBound

end Cryptixd.Atomic

