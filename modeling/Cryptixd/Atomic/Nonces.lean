import Mathlib
import Cryptixd.Atomic.Run

/-!
# Scoped nonces and pool nonces

Replay protection (`ValidateAndApplyTransactionWithCreationContext`): a CAT
operation carries a payload nonce that must equal the next nonce of its scope,
an owner scope for creations and an asset scope for the rest
(`nonceKeyForOp`); a stored nonce of 0 or an absent key expects 1.  After the
operation the scope stores the expected nonce plus one.  Liquidity pools keep
a second counter, `PoolNonce`, that creation sets to 1 and every buy, sell and
claim raises by one.

Both are counters in the sense of `Transition.Trace.count_ticks`: each step
either raises one of them by one, showing its current value, or leaves it
alone.  `nonces_count_operations` reads them back over a run from
`NewState()`: every scope's nonce is one more than the number of operations
in that scope, whose payload nonces were exactly 1, 2, 3, …, and every pool's
nonce is one more than the number of trades and claims on it.
-/

set_option autoImplicit false

namespace Cryptixd.Atomic

def NoncesAdvanced (state : State) : Prop :=
  ∀ key value, state.nextNonces.lookup key = some value → 2 ≤ value.toNat

def State.poolNonce (state : State) (assetID : DomainHash) : ℕ :=
  ((state.pool assetID).map (·.poolNonce.toNat)).getD 1

theorem toNat_add_one_of_ne_max {value : UInt64} (notMax : value ≠ maxUint64) :
    (value + 1).toNat = value.toNat + 1 := by
  have bound := value.toNat_lt
  have notMaxNat : value.toNat ≠ 2 ^ 64 - 1 := by
    intro atMax
    exact notMax (UInt64.toNat_inj.mp (by rw [atMax]; rfl))
  rw [UInt64.toNat_add, UInt64.toNat_one, Nat.mod_eq_of_lt (by omega)]

theorem one_le_expectedNonce (state : State) (key : NonceKey) :
    1 ≤ (state.expectedNonce key).toNat := by
  unfold State.expectedNonce
  split_ifs with zero
  · rfl
  · rw [← UInt64.toNat_inj, UInt64.toNat_zero] at zero
    omega

theorem expectedNonce_congr {state state' : State} {key : NonceKey}
    (same : state'.nextNonces.lookup key = state.nextNonces.lookup key) :
    state'.expectedNonce key = state.expectedNonce key := by
  unfold State.expectedNonce State.nextNonce
  rw [same]

theorem expectedNonce_of_lookup {state : State} {key : NonceKey} {value : UInt64}
    (stored : state.nextNonces.lookup key = some value) (notZero : value ≠ 0) :
    state.expectedNonce key = value := by
  simp [State.expectedNonce, State.nextNonce, stored, notZero]

theorem expectedNonce_eq_of_advanced {state : State} (advanced : NoncesAdvanced state)
    (key : NonceKey) : state.expectedNonce key = (state.nextNonces.lookup key).getD 1 := by
  cases stored : state.nextNonces.lookup key with
  | none => simp [State.expectedNonce, State.nextNonce, stored]
  | some value =>
    have atLeastTwo := advanced key value stored
    have notZero : value ≠ 0 := by
      intro zero
      rw [zero, UInt64.toNat_zero] at atLeastTwo
      omega
    rw [expectedNonce_of_lookup stored notZero, Option.getD_some]

section Hash

variable {blake2b256 : List UInt8 → DomainHash}

theorem step_nextNonces {s s' : State} {call : Call} (step : Step blake2b256 s call s') :
    (call.nonceKey blake2b256 = none ∧ s'.nextNonces = s.nextNonces) ∨
    ∃ key, call.nonceKey blake2b256 = some key ∧
      call.parsedPayload.map ParsedPayload.nonce = some (s.expectedNonce key) ∧
      s.expectedNonce key ≠ maxUint64 ∧
      s'.nextNonces = s.nextNonces.insert key (s.expectedNonce key + 1) := by
  rcases step_cases step with ⟨noPayload, rfl⟩ | ⟨parsed, ownerID, applied, payload, owner, nonce,
    notMax, -, effect, rfl⟩
  · left
    simp [Call.nonceKey, noPayload]
  · right
    refine ⟨nonceKeyForOp ownerID parsed.op, (ownerID_eq payload owner).2, ?_, notMax, ?_⟩
    · simp [payload, nonce]
    · simp [(OpEffect.frame effect).1]

theorem step_noncesAdvanced {s s' : State} {call : Call} (step : Step blake2b256 s call s')
    (advanced : NoncesAdvanced s) : NoncesAdvanced s' := by
  intro key value stored
  rcases step_nextNonces step with ⟨-, same⟩ | ⟨written, -, -, notMax, inserted⟩
  · rw [same] at stored
    exact advanced key value stored
  · rw [inserted] at stored
    by_cases here : key = written
    · subst here
      rw [AList.lookup_insert, Option.some.injEq] at stored
      rw [← stored, toNat_add_one_of_ne_max notMax]
      have := one_le_expectedNonce s key
      omega
    · rw [AList.lookup_insert_ne here] at stored
      exact advanced key value stored

theorem step_expectedNonce {s s' : State} {call : Call} (step : Step blake2b256 s call s')
    (key : NonceKey) :
    (call.nonceKey blake2b256 = some key →
      ((call.parsedPayload.map ParsedPayload.nonce).getD 0).toNat = (s.expectedNonce key).toNat ∧
        (s'.expectedNonce key).toNat = (s.expectedNonce key).toNat + 1) ∧
    (call.nonceKey blake2b256 ≠ some key → s'.expectedNonce key = s.expectedNonce key) := by
  rcases step_nextNonces step with ⟨noKey, same⟩ | ⟨written, callKey, shown, notMax, inserted⟩
  · refine ⟨fun callKey => by simp [noKey] at callKey, fun _ => ?_⟩
    exact expectedNonce_congr (by rw [same])
  · constructor
    · intro sameKey
      rw [callKey, Option.some.injEq] at sameKey
      subst sameKey
      have advancedValue := toNat_add_one_of_ne_max notMax
      have notZero : s.expectedNonce written + 1 ≠ 0 := by
        intro zero
        rw [zero, UInt64.toNat_zero] at advancedValue
        omega
      have stored : s'.nextNonces.lookup written = some (s.expectedNonce written + 1) := by
        rw [inserted, AList.lookup_insert]
      refine ⟨by simp [shown], ?_⟩
      rw [expectedNonce_of_lookup stored notZero, advancedValue]
    · intro otherKey
      have different : key ≠ written := fun same => otherKey (same ▸ callKey)
      exact expectedNonce_congr (by rw [inserted, AList.lookup_insert_ne different])

/-- How an operation moves a pool nonce: a buy, sell or claim on the asset
raises it by one, anything else leaves it (a creation sets a new pool to 1,
the value an absent pool reads as). -/
theorem OpEffect.poolNonce {tx : DomainTransaction} {ownerID : DomainHash}
    {creationContext : CreationContext} {op : PayloadOp} {s s' : State}
    (effect : OpEffect blake2b256 tx tx.id ownerID creationContext op s s') (assetID : DomainHash) :
    s'.poolNonce assetID = s.poolNonce assetID + if op.poolAsset = some assetID then 1 else 0 := by
  cases op with
  | createAsset op =>
    obtain ⟨absent, -, rfl⟩ := effect
    by_cases here : assetID = tx.id
    · subst here
      simp [State.poolNonce, PayloadOp.poolAsset, State.pool, absent,
        standardAssetState]
    · simp [State.poolNonce, PayloadOp.poolAsset, here]
  | createAssetWithMint op =>
    obtain ⟨absent, -, ⟨-, rfl⟩ | ⟨-, -, _, -, rfl⟩⟩ := effect <;>
    · by_cases here : assetID = tx.id
      · subst here
        simp [State.poolNonce, PayloadOp.poolAsset, State.pool, absent,
          standardAssetState]
      · simp [State.poolNonce, PayloadOp.poolAsset, here]
  | createLiquidityAsset op =>
    obtain ⟨absent, _, _, _, _, launch, -, -, -, -, -, -, -, -, rfl⟩ := effect
    by_cases here : assetID = tx.id
    · subst here
      simp [State.poolNonce, PayloadOp.poolAsset, State.pool, absent, liquidityAssetState,
        createdPoolState]
    · simp [State.poolNonce, PayloadOp.poolAsset, here]
  | transfer op =>
    obtain ⟨-, ⟨-, -, rfl⟩ | ⟨-, _, _, -, -, rfl⟩⟩ := effect <;>
      simp [State.poolNonce, State.pool, PayloadOp.poolAsset]
  | mint op =>
    obtain ⟨asset, _, _, present, -, -, -, -, -, rfl⟩ := effect
    by_cases here : assetID = op.assetID
    · subst here
      simp [State.poolNonce, PayloadOp.poolAsset, State.pool, present]
    · simp [State.poolNonce, PayloadOp.poolAsset, here]
  | burn op =>
    obtain ⟨asset, _, _, present, -, -, -, rfl⟩ := effect
    by_cases here : assetID = op.assetID
    · subst here
      simp [State.poolNonce, PayloadOp.poolAsset, State.pool, present]
    · simp [State.poolNonce, PayloadOp.poolAsset, here]
  | buyLiquidityExactIn op =>
    obtain ⟨found, _, _, _, _, _, _, _, _, _, _, pool, -, -, -, -, -, -, -, -, -, -, -, -, -, notMax, -, -, -, -, rfl⟩ := effect
    obtain ⟨present, hasPool, -⟩ := liquidityAssetPool_ok pool
    by_cases here : assetID = op.assetID
    · subst here
      simp [State.poolNonce, PayloadOp.poolAsset, State.pool, present, hasPool,
        toNat_add_one_of_ne_max notMax]
    · simp [State.poolNonce, PayloadOp.poolAsset, here, Ne.symm here]
  | sellLiquidityExactIn op =>
    obtain ⟨found, _, _, _, _, _, _, _, _, _, pool, -, -, -, -, -, -, -, -, -, -, -, -, -, -, -, -, notMax, -, -, rfl⟩ := effect
    obtain ⟨present, hasPool, -⟩ := liquidityAssetPool_ok pool
    by_cases here : assetID = op.assetID
    · subst here
      simp [State.poolNonce, PayloadOp.poolAsset, State.pool, present, hasPool,
        toNat_add_one_of_ne_max notMax]
    · simp [State.poolNonce, PayloadOp.poolAsset, here, Ne.symm here]
  | claimLiquidityFees op =>
    obtain ⟨found, _, _, _, _, pool, -, -, -, -, -, -, -, -, -, -, -, notMax, -, -, rfl⟩ := effect
    obtain ⟨present, hasPool, -⟩ := liquidityAssetPool_ok pool
    by_cases here : assetID = op.assetID
    · subst here
      simp [State.poolNonce, PayloadOp.poolAsset, State.pool, present, hasPool,
        toNat_add_one_of_ne_max notMax]
    · simp [State.poolNonce, PayloadOp.poolAsset, here, Ne.symm here]

theorem step_poolNonce {s s' : State} {call : Call} (step : Step blake2b256 s call s')
    (assetID : DomainHash) :
    s'.poolNonce assetID = s.poolNonce assetID + if call.poolAsset = some assetID then 1 else 0 := by
  rcases step_cases step with ⟨noPayload, rfl⟩ | ⟨parsed, ownerID, applied, payload, -, -, -, -,
    effect, rfl⟩
  · simp [State.poolNonce, State.pool, Call.poolAsset, Call.op, noPayload]
  · have moved := OpEffect.poolNonce effect assetID
    have samePool : (applyAnchorDeltas blake2b256 call.tx (applied.setNextNonce
        (nonceKeyForOp ownerID parsed.op) (s.expectedNonce (nonceKeyForOp ownerID parsed.op) + 1))).poolNonce
          assetID = applied.poolNonce assetID := by
      simp [State.poolNonce, State.pool]
    rw [samePool, moved]
    simp [Call.poolAsset, Call.op, payload]

theorem newState_noncesAdvanced : NoncesAdvanced newState := by
  intro key value stored
  simp [newState] at stored

/-- Replay protection over a run from `NewState()`: a scope's nonce (absent
meaning 1) is one more than the number of operations applied in that scope,
whose payload nonces were exactly 1, 2, 3, …; and a pool's nonce is one more
than the number of buys, sells and claims on it. -/
theorem nonces_count_operations {calls : List Call} {s : State}
    (run : Run blake2b256 newState calls s) :
    (∀ key : NonceKey,
      ((s.nextNonces.lookup key).getD 1).toNat =
          1 + calls.countP (·.nonceKey blake2b256 = some key) ∧
        (calls.filter (·.nonceKey blake2b256 = some key)).map
            (fun call => ((call.parsedPayload.map ParsedPayload.nonce).getD 0).toNat) =
          List.range' 1 (calls.countP (·.nonceKey blake2b256 = some key))) ∧
    ∀ assetID asset pool, s.assets.lookup assetID = some asset → asset.liquidity = some pool →
      pool.poolNonce.toNat = 1 + calls.countP (·.poolAsset = some assetID) := by
  have advanced : NoncesAdvanced s :=
    Transition.Trace.invariant newState_noncesAdvanced
      (fun _ _ _ inv step => step_noncesAdvanced step inv) run
  have startNonce (key : NonceKey) : (newState.expectedNonce key).toNat = 1 := rfl
  refine ⟨fun key => ⟨?_, ?_⟩, ?_⟩
  · -- the scope's expected nonce is a counter of the operations in the scope
    have counted := Transition.Trace.count_ticks
      (g := fun state => (state.expectedNonce key).toNat)
      (p := fun call => call.nonceKey blake2b256 = some key)
      (fun _ _ _ step ticks => ((step_expectedNonce step key).1 ticks).2)
      (fun _ _ _ step idle => by rw [(step_expectedNonce step key).2 idle]) run
    rw [← expectedNonce_eq_of_advanced advanced, counted, startNonce]
  · have observed := Transition.Trace.ticks_observed
      (g := fun state => (state.expectedNonce key).toNat)
      (p := fun call => call.nonceKey blake2b256 = some key)
      (fun _ _ _ step ticks => (step_expectedNonce step key).1 ticks)
      (fun _ _ _ step idle => by rw [(step_expectedNonce step key).2 idle]) run
    rw [observed, startNonce]
  · intro assetID asset pool present hasPool
    have counted := Transition.Trace.count_ticks
      (g := fun state => state.poolNonce assetID)
      (p := fun call => call.poolAsset = some assetID)
      (fun _ _ _ step ticks => by rw [step_poolNonce step, if_pos ticks])
      (fun _ _ _ step idle => by rw [step_poolNonce step, if_neg idle, Nat.add_zero]) run
    have current : s.poolNonce assetID = pool.poolNonce.toNat := by
      simp [State.poolNonce, State.pool, present, hasPool]
    rw [← current, counted]
    rfl

end Hash

/-- Two creations by the owner of `anchorScript`, at owner-scope nonces 1 and 2. -/
def twoCreations : List Call :=
  [.validateAndApply (createAssetTx (Vector.replicate 32 1) 1 false) 1 0 emptyCreationContext,
    .validateAndApply (createAssetTx (Vector.replicate 32 2) 2 false) 1 0 emptyCreationContext]

theorem nonces_count_operations_twoCreations :
    ∃ s, Run (fun _ => zeroHash) newState twoCreations s ∧
      twoCreations.countP (·.nonceKey (fun _ => zeroHash) = some (ownerNonceKey zeroHash)) = 2 ∧
      ((∀ key : NonceKey,
        ((s.nextNonces.lookup key).getD 1).toNat =
            1 + twoCreations.countP (·.nonceKey (fun _ => zeroHash) = some key) ∧
          (twoCreations.filter (·.nonceKey (fun _ => zeroHash) = some key)).map
              (fun call => ((call.parsedPayload.map ParsedPayload.nonce).getD 0).toNat) =
            List.range' 1 (twoCreations.countP (·.nonceKey (fun _ => zeroHash) = some key))) ∧
      ∀ assetID asset pool, s.assets.lookup assetID = some asset → asset.liquidity = some pool →
        pool.poolNonce.toNat = 1 + twoCreations.countP (·.poolAsset = some assetID)) := by
  obtain ⟨s, run, -⟩ := exists_run_of_runAll
    (show (Transition.runAll (Call.next fun _ => zeroHash) newState twoCreations).map
      (fun _ => true) = some true by decide +kernel)
  exact ⟨s, run, by decide +kernel, nonces_count_operations run⟩

end Cryptixd.Atomic
