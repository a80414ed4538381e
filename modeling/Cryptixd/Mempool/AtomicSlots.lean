import Mathlib
import Cryptixd.Lib.Trace
import Cryptixd.Atomic.Payload
import Cryptixd.Atomic.Owner
import Cryptixd.Atomic.Run

/-!
# Atomic slots of the mempool

`domain/miningmanager/mempool`: a CAT transaction in the mempool holds the
nonce slot it consumes (nonce key and nonce) and, for a liquidity operation,
the pool slot (asset and expected pool nonce).  `addMempoolTransaction`
refuses a transaction one of whose slots is owned, and registers the slots of
the one it adds; `removeTransaction` releases the slots a transaction owns.
Every mempool operation (removals with or without redeemers, accepted
transactions and their conflicts, expiry, the capacity limit, unorphaning)
writes the slot maps only through these two, so the runs of these two are the
runs of the mempool as far as the slots go.

The pool keeps the owner map and the per-transaction slot lists in step
(`SlotInvariant`): the owners are exactly the recorded slots of the
transactions in the pool, and a CAT transaction in the pool has its slots
recorded.  No slot is then held twice (`SlotInvariant.exclusive`).  The pool's
other maps (chained transactions, fee order, high priority, the UTXO set) are
not modelled.

Go's `addMempoolTransaction` does not check that its transaction is new; its
callers do, and a transaction re-added under its own id finds its slots owned
by itself.  That needs the slots of an id to be the same each time, which
holds because the id hashes the transaction and the auth input's entry is
fixed by its outpoint; the run theorem takes it as the hypothesis
`sameSlots`.
-/

set_option autoImplicit false

namespace Cryptixd.Mempool

open Cryptixd.Atomic

inductive AtomicMempoolSlotKind where
  | nonce
  | liquidityPool
  deriving DecidableEq, Repr

/-- `atomicMempoolSlot`: a nonce slot fills the key and the nonce, a pool slot
the asset and the pool nonce, the other fields staying zero. -/
structure AtomicMempoolSlot where
  kind : AtomicMempoolSlotKind
  nonceKey : NonceKey
  nonce : UInt64
  assetID : DomainHash
  poolNonce : UInt64
  deriving DecidableEq, Repr

def zeroNonceKey : NonceKey := ⟨zeroHash, 0, zeroHash⟩

/-- The rejections of `atomicMempoolSlots` and `addMempoolTransaction`, with
what their messages report; the first four are `RejectInvalid` or
`RejectBadOrphan`, the conflict `RejectDuplicate`. -/
inductive MempoolError where
  | invalidPayload (err : String)
  | authInputOutOfBounds (authInputIndex : UInt16) (inputs : Nat)
  | authInputWithoutEntry (authInputIndex : UInt16)
  | unsupportedOwnerScript
  | slotConflict (transactionID existingTransactionID : DomainHash) (slot : AtomicMempoolSlot)
  deriving DecidableEq, Repr

def atomicPayloadSlots (parsed : ParsedPayload) (ownerID : DomainHash) :
    NonceKey × DomainHash × UInt64 × Bool :=
  match parsed.op with
  | .createAsset _ | .createAssetWithMint _ | .createLiquidityAsset _ =>
    (ownerNonceKey ownerID, zeroHash, 0, false)
  | .transfer op => (assetNonceKey ownerID op.assetID, zeroHash, 0, false)
  | .mint op => (assetNonceKey ownerID op.assetID, zeroHash, 0, false)
  | .burn op => (assetNonceKey ownerID op.assetID, zeroHash, 0, false)
  | .buyLiquidityExactIn op =>
    (assetNonceKey ownerID op.assetID, op.assetID, op.expectedPoolNonce, true)
  | .sellLiquidityExactIn op =>
    (assetNonceKey ownerID op.assetID, op.assetID, op.expectedPoolNonce, true)
  | .claimLiquidityFees op =>
    (assetNonceKey ownerID op.assetID, op.assetID, op.expectedPoolNonce, true)

section Slots

variable (blake2b256 : List UInt8 → DomainHash)

def atomicMempoolSlots (transaction : DomainTransaction) :
    Except MempoolError (List AtomicMempoolSlot) := do
  if !isPayload transaction.subnetworkID then return []
  let parsed ← match parsePayload transaction.payload with
    | .error err => throw (.invalidPayload err)
    | .ok parsed => pure parsed
  match parsed with
  | none => return []
  | some parsed =>
    let authInputIndex := parsed.authInputIndex.toNat
    match transaction.inputs[authInputIndex]? with
    | none => throw (.authInputOutOfBounds parsed.authInputIndex transaction.inputs.length)
    | some authInput =>
      match authInput.utxoEntry with
      | none => throw (.authInputWithoutEntry parsed.authInputIndex)
      | some entry =>
        match ownerIDFromScript blake2b256 entry.scriptPublicKey with
        | none => throw .unsupportedOwnerScript
        | some ownerID =>
          let (nonceKey, liquidityAssetID, liquidityPoolNonce, hasLiquidityPoolSlot) :=
            atomicPayloadSlots parsed ownerID
          let slots : List AtomicMempoolSlot := [⟨.nonce, nonceKey, parsed.nonce, zeroHash, 0⟩]
          if hasLiquidityPoolSlot then
            return slots ++ [⟨.liquidityPool, zeroNonceKey, 0, liquidityAssetID, liquidityPoolNonce⟩]
          else return slots

def isCATTransaction (transaction : DomainTransaction) : Bool :=
  isPayload transaction.subnetworkID && catMagic.length ≤ transaction.payload.length &&
    transaction.payload.take catMagic.length == catMagic

theorem parsePayload_isSome {payload : List UInt8} {result : Option ParsedPayload}
    (long : catMagic.length ≤ payload.length) (magic : payload.take catMagic.length = catMagic)
    (parsed : parsePayload payload = .ok result) : result.isSome := by
  unfold parsePayload at parsed
  rw [if_neg (by rw [not_or, not_lt, not_not]; exact ⟨long, magic⟩)] at parsed
  cases run : ((parsePayloadBody payload).run.run' 0).run with
  | error err => rw [run] at parsed; cases parsed
  | ok body => rw [run] at parsed; cases parsed; rfl

theorem atomicMempoolSlots_eq_nil {transaction : DomainTransaction}
    (empty : atomicMempoolSlots blake2b256 transaction = .ok []) :
    isPayload transaction.subnetworkID = false ∨ parsePayload transaction.payload = .ok none := by
  cases payloadSubnetwork : isPayload transaction.subnetworkID
  · exact .inl rfl
  · right
    unfold atomicMempoolSlots at empty
    cases parsed : parsePayload transaction.payload with
    | error err => simp [payloadSubnetwork, parsed] at empty; cases empty
    | ok result =>
      cases result with
      | none => rfl
      | some payload =>
        simp only [payloadSubnetwork, parsed, Bool.not_true, Bool.false_eq_true, if_false] at empty
        cases input : transaction.inputs[payload.authInputIndex.toNat]? with
        | none => simp [input] at empty
        | some authInput =>
          cases hasEntry : authInput.utxoEntry with
          | none => simp [input, hasEntry] at empty
          | some entry =>
            cases owned : ownerIDFromScript blake2b256 entry.scriptPublicKey with
            | none => simp [input, hasEntry, owned] at empty
            | some ownerID =>
              simp only [input, hasEntry, owned, pure_bind] at empty
              split at empty <;> cases empty

theorem atomicMempoolSlots_ne_nil {transaction : DomainTransaction}
    {slots : List AtomicMempoolSlot} (cat : isCATTransaction transaction = true)
    (sloted : atomicMempoolSlots blake2b256 transaction = .ok slots) : slots ≠ [] := by
  simp only [isCATTransaction, Bool.and_eq_true, beq_iff_eq, decide_eq_true_eq] at cat
  obtain ⟨⟨payloadSubnetwork, long⟩, magic⟩ := cat
  rintro rfl
  rcases atomicMempoolSlots_eq_nil blake2b256 sloted with notPayload | noOp
  · rw [payloadSubnetwork] at notPayload
    cases notPayload
  · cases parsePayload_isSome long magic noOp

end Slots

/-! ## The pool -/

/-- The fields of `transactionsPool` that the slots touch. -/
structure TransactionsPool where
  allTransactions : Map DomainHash DomainTransaction
  atomicSlotOwners : Map AtomicMempoolSlot DomainHash
  atomicSlotsByTransactionID : Map DomainHash (List AtomicMempoolSlot)

def newTransactionsPool : TransactionsPool := ⟨∅, ∅, ∅⟩

def registerSlots (owners : Map AtomicMempoolSlot DomainHash) (transactionID : DomainHash)
    (slots : List AtomicMempoolSlot) : Map AtomicMempoolSlot DomainHash :=
  slots.foldl (fun owners slot => owners.insert slot transactionID) owners

def releaseSlots (owners : Map AtomicMempoolSlot DomainHash) (transactionID : DomainHash)
    (slots : List AtomicMempoolSlot) : Map AtomicMempoolSlot DomainHash :=
  slots.foldl
    (fun owners slot => if owners.lookup slot = some transactionID then owners.erase slot else owners)
    owners

section Pool

variable (blake2b256 : List UInt8 → DomainHash)

def addMempoolTransaction (pool : TransactionsPool) (transaction : DomainTransaction) :
    Except MempoolError TransactionsPool := do
  let atomicSlots ← atomicMempoolSlots blake2b256 transaction
  match atomicSlots.find? fun slot => (pool.atomicSlotOwners.lookup slot).isSome with
  | some slot =>
    throw (.slotConflict transaction.id ((pool.atomicSlotOwners.lookup slot).getD zeroHash) slot)
  | none => pure ()
  let pool := { pool with allTransactions := pool.allTransactions.insert transaction.id transaction }
  if atomicSlots.length > 0 then
    return { pool with
      atomicSlotsByTransactionID := pool.atomicSlotsByTransactionID.insert transaction.id atomicSlots
      atomicSlotOwners := registerSlots pool.atomicSlotOwners transaction.id atomicSlots }
  else return pool

def removeAtomicSlots (pool : TransactionsPool) (transactionID : DomainHash) : TransactionsPool :=
  match pool.atomicSlotsByTransactionID.lookup transactionID with
  | none => pool
  | some slots =>
    { pool with
      atomicSlotOwners := releaseSlots pool.atomicSlotOwners transactionID slots
      atomicSlotsByTransactionID := pool.atomicSlotsByTransactionID.erase transactionID }

def removeTransaction (pool : TransactionsPool) (transactionID : DomainHash) : TransactionsPool :=
  removeAtomicSlots { pool with allTransactions := pool.allTransactions.erase transactionID }
    transactionID

/-- The two calls through which every mempool operation reaches the slots. -/
inductive PoolCall where
  | add (transaction : DomainTransaction)
  | remove (transactionID : DomainHash)

def PoolCall.exec (pool : TransactionsPool) : PoolCall → TransactionsPool
  | .add transaction =>
    match addMempoolTransaction blake2b256 pool transaction with
    | .ok pool => pool
    | .error _ => pool
  | .remove transactionID => removeTransaction pool transactionID

def PoolStep (pool : TransactionsPool) (call : PoolCall) (pool' : TransactionsPool) : Prop :=
  call.exec blake2b256 pool = pool'

end Pool

/-! ## The owner map after the loops -/

theorem lookup_registerSlots (owners : Map AtomicMempoolSlot DomainHash)
    (transactionID : DomainHash) (slots : List AtomicMempoolSlot) (slot : AtomicMempoolSlot) :
    (registerSlots owners transactionID slots).lookup slot =
      if slot ∈ slots then some transactionID else owners.lookup slot := by
  induction slots generalizing owners with
  | nil => simp [registerSlots]
  | cons first rest ih =>
    change (registerSlots (owners.insert first transactionID) transactionID rest).lookup slot = _
    rw [ih]
    by_cases later : slot ∈ rest
    · simp [later]
    · by_cases here : slot = first
      · subst here
        simp [later]
      · simp [later, here, AList.lookup_insert_ne here]

theorem lookup_releaseSlots (owners : Map AtomicMempoolSlot DomainHash)
    (transactionID : DomainHash) (slots : List AtomicMempoolSlot) (slot : AtomicMempoolSlot) :
    (releaseSlots owners transactionID slots).lookup slot =
      if slot ∈ slots ∧ owners.lookup slot = some transactionID then none
      else owners.lookup slot := by
  induction slots generalizing owners with
  | nil => simp [releaseSlots]
  | cons first rest ih =>
    change (releaseSlots (if owners.lookup first = some transactionID then owners.erase first
      else owners) transactionID rest).lookup slot = _
    rw [ih]
    by_cases here : slot = first
    · subst here
      by_cases owned : owners.lookup slot = some transactionID <;> simp [owned]
    · have unchanged : (if owners.lookup first = some transactionID then owners.erase first
          else owners).lookup slot = owners.lookup slot := by
        split_ifs
        · exact AList.lookup_erase_ne here
        · rfl
      simp [unchanged, here]

/-! ## The slot invariant -/

section Invariant

variable (blake2b256 : List UInt8 → DomainHash)

/-- The slot maps in step with the pool: a slot's owner is a transaction that
records it; every stored transaction sits under its id and has its slots
recorded when it has any; and what is recorded for an id is the non-empty slot
list of the transaction stored under it. -/
structure SlotInvariant (pool : TransactionsPool) : Prop where
  owners : ∀ slot transactionID, pool.atomicSlotOwners.lookup slot = some transactionID ↔
    ∃ slots, pool.atomicSlotsByTransactionID.lookup transactionID = some slots ∧ slot ∈ slots
  stored : ∀ transactionID transaction,
    pool.allTransactions.lookup transactionID = some transaction →
      transaction.id = transactionID ∧ ∃ slots, atomicMempoolSlots blake2b256 transaction = .ok slots ∧
        (slots ≠ [] → pool.atomicSlotsByTransactionID.lookup transactionID = some slots)
  recorded : ∀ transactionID slots,
    pool.atomicSlotsByTransactionID.lookup transactionID = some slots →
      slots ≠ [] ∧ ∃ transaction, pool.allTransactions.lookup transactionID = some transaction ∧
        atomicMempoolSlots blake2b256 transaction = .ok slots

theorem slotInvariant_new : SlotInvariant blake2b256 newTransactionsPool where
  owners _ _ := by simp [newTransactionsPool]
  stored _ _ stored := by simp [newTransactionsPool] at stored
  recorded _ _ recorded := by simp [newTransactionsPool] at recorded

variable {blake2b256}

theorem SlotInvariant.exclusive {pool : TransactionsPool} (holds : SlotInvariant blake2b256 pool)
    {first second : DomainHash} {firstSlots secondSlots : List AtomicMempoolSlot}
    (firstRecorded : pool.atomicSlotsByTransactionID.lookup first = some firstSlots)
    (secondRecorded : pool.atomicSlotsByTransactionID.lookup second = some secondSlots)
    {slot : AtomicMempoolSlot} (inFirst : slot ∈ firstSlots) (inSecond : slot ∈ secondSlots) :
    first = second := by
  have firstOwns := (holds.owners slot first).mpr ⟨firstSlots, firstRecorded, inFirst⟩
  have secondOwns := (holds.owners slot second).mpr ⟨secondSlots, secondRecorded, inSecond⟩
  rw [firstOwns] at secondOwns
  exact Option.some.inj secondOwns

theorem addMempoolTransaction_ok {pool pool' : TransactionsPool} {transaction : DomainTransaction}
    (added : addMempoolTransaction blake2b256 pool transaction = .ok pool') :
    ∃ slots, atomicMempoolSlots blake2b256 transaction = .ok slots ∧
      (∀ slot ∈ slots, pool.atomicSlotOwners.lookup slot = none) ∧
      pool' = if slots ≠ [] then
        ⟨pool.allTransactions.insert transaction.id transaction,
          registerSlots pool.atomicSlotOwners transaction.id slots,
          pool.atomicSlotsByTransactionID.insert transaction.id slots⟩
      else { pool with allTransactions := pool.allTransactions.insert transaction.id transaction } := by
  unfold addMempoolTransaction at added
  obtain ⟨slots, sloted, rest⟩ := Except.bind_eq_ok.mp added
  refine ⟨slots, sloted, ?_⟩
  cases found : slots.find? fun slot => (pool.atomicSlotOwners.lookup slot).isSome with
  | some slot => simp [found] at rest; cases rest
  | none =>
    simp only [found] at rest
    refine ⟨fun slot member => ?_, ?_⟩
    · have unowned := List.find?_eq_none.mp found slot member
      simpa using unowned
    · by_cases empty : slots = []
      · subst empty
        simp only [List.length_nil, lt_self_iff_false, if_false] at rest
        simpa using (Except.ok.inj rest).symm
      · simp only [List.length_pos_iff, ne_eq, empty, not_false_eq_true, if_true] at rest ⊢
        exact (Except.ok.inj rest).symm

theorem SlotInvariant.add {pool pool' : TransactionsPool} (holds : SlotInvariant blake2b256 pool)
    {transaction : DomainTransaction}
    (sameSlots : ∀ stored, pool.allTransactions.lookup transaction.id = some stored →
      atomicMempoolSlots blake2b256 stored = atomicMempoolSlots blake2b256 transaction)
    (added : addMempoolTransaction blake2b256 pool transaction = .ok pool') :
    SlotInvariant blake2b256 pool' := by
  obtain ⟨slots, sloted, unowned, rfl⟩ := addMempoolTransaction_ok added
  -- the id records nothing yet: what it would record is these slots, all unowned
  have fresh : ∀ recordedSlots,
      pool.atomicSlotsByTransactionID.lookup transaction.id = some recordedSlots → False := by
    intro recordedSlots recordedHere
    obtain ⟨nonempty, stored, storedHere, storedSlots⟩ := holds.recorded _ _ recordedHere
    rw [sameSlots stored storedHere, sloted] at storedSlots
    obtain rfl := (Except.ok.inj storedSlots)
    obtain ⟨slot, member⟩ := List.exists_mem_of_ne_nil _ nonempty
    have owned := (holds.owners slot transaction.id).mpr ⟨slots, recordedHere, member⟩
    rw [unowned slot member] at owned
    cases owned
  by_cases empty : slots = []
  · subst empty
    simp only [ne_eq, not_true_eq_false, if_false]
    refine ⟨holds.owners, fun transactionID stored lookedUp => ?_, fun transactionID recordedSlots
      recordedHere => ?_⟩
    · by_cases here : transactionID = transaction.id
      · subst here
        rw [AList.lookup_insert] at lookedUp
        obtain rfl := Option.some.inj lookedUp
        exact ⟨rfl, [], sloted, fun nonempty => absurd rfl nonempty⟩
      · rw [AList.lookup_insert_ne here] at lookedUp
        exact holds.stored transactionID stored lookedUp
    · have here : transactionID ≠ transaction.id := by
        rintro rfl
        exact fresh recordedSlots recordedHere
      obtain ⟨nonempty, stored, storedHere, storedSlots⟩ := holds.recorded _ _ recordedHere
      exact ⟨nonempty, stored, by rwa [AList.lookup_insert_ne here], storedSlots⟩
  · simp only [ne_eq, empty, not_false_eq_true, if_true]
    refine ⟨fun slot transactionID => ?_, fun transactionID stored lookedUp => ?_,
      fun transactionID recordedSlots recordedHere => ?_⟩
    · rw [lookup_registerSlots]
      by_cases here : transactionID = transaction.id
      · subst here
        rw [AList.lookup_insert]
        by_cases member : slot ∈ slots
        · simp [member]
        · -- a slot outside the new ones was owned before, so not by the new id
          simp only [member, if_false, Option.some.injEq, exists_eq_left', iff_false]
          intro owned
          obtain ⟨recordedSlots, recordedHere, -⟩ := (holds.owners slot transaction.id).mp owned
          exact fresh recordedSlots recordedHere
      · rw [AList.lookup_insert_ne here, ← holds.owners]
        by_cases member : slot ∈ slots
        · simp only [member, if_true, Option.some.injEq]
          rw [unowned slot member]
          simp [Ne.symm here]
        · simp [member]
    · by_cases here : transactionID = transaction.id
      · subst here
        rw [AList.lookup_insert] at lookedUp
        obtain rfl := Option.some.inj lookedUp
        exact ⟨rfl, slots, sloted, fun _ => AList.lookup_insert _⟩
      · rw [AList.lookup_insert_ne here] at lookedUp
        obtain ⟨named, storedSlots, storedOk, recordedThen⟩ := holds.stored transactionID stored lookedUp
        exact ⟨named, storedSlots, storedOk, fun nonempty => by
          rw [AList.lookup_insert_ne here]
          exact recordedThen nonempty⟩
    · by_cases here : transactionID = transaction.id
      · subst here
        rw [AList.lookup_insert] at recordedHere
        obtain rfl := Option.some.inj recordedHere
        exact ⟨empty, transaction, AList.lookup_insert _, sloted⟩
      · rw [AList.lookup_insert_ne here] at recordedHere
        obtain ⟨nonempty, stored, storedHere, storedSlots⟩ := holds.recorded _ _ recordedHere
        exact ⟨nonempty, stored, by rwa [AList.lookup_insert_ne here], storedSlots⟩

theorem SlotInvariant.remove {pool : TransactionsPool} (holds : SlotInvariant blake2b256 pool)
    (transactionID : DomainHash) : SlotInvariant blake2b256 (removeTransaction pool transactionID) := by
  unfold removeTransaction removeAtomicSlots
  dsimp only
  cases recordedHere : pool.atomicSlotsByTransactionID.lookup transactionID with
  | none =>
    refine ⟨holds.owners, fun other stored lookedUp => ?_, fun other recordedSlots recordedThere => ?_⟩
    · have here : other ≠ transactionID := by
        rintro rfl
        simp at lookedUp
      rw [AList.lookup_erase_ne here] at lookedUp
      exact holds.stored other stored lookedUp
    · have here : other ≠ transactionID := by
        rintro rfl
        rw [recordedHere] at recordedThere
        cases recordedThere
      obtain ⟨nonempty, stored, storedHere, storedSlots⟩ := holds.recorded _ _ recordedThere
      exact ⟨nonempty, stored, by rwa [AList.lookup_erase_ne here], storedSlots⟩
  | some slots =>
    refine ⟨fun slot other => ?_, fun other stored lookedUp => ?_,
      fun other recordedSlots recordedThere => ?_⟩
    · rw [lookup_releaseSlots]
      by_cases here : other = transactionID
      · subst here
        simp only [AList.lookup_erase, reduceCtorEq, false_and, exists_false, iff_false]
        split_ifs with released
        · simp
        · intro owned
          obtain ⟨ownedSlots, ownedRecorded, member⟩ := (holds.owners slot other).mp owned
          rw [recordedHere] at ownedRecorded
          obtain rfl := Option.some.inj ownedRecorded
          exact released ⟨member, owned⟩
      · rw [AList.lookup_erase_ne here, ← holds.owners]
        split_ifs with released
        · simp only [false_iff]
          intro owned
          rw [released.2] at owned
          exact here (Option.some.inj owned).symm
        · rfl
    · have here : other ≠ transactionID := by
        rintro rfl
        simp at lookedUp
      rw [AList.lookup_erase_ne here] at lookedUp
      obtain ⟨named, storedSlots, storedOk, recordedThen⟩ := holds.stored other stored lookedUp
      exact ⟨named, storedSlots, storedOk, fun nonempty => by
        rw [AList.lookup_erase_ne here]
        exact recordedThen nonempty⟩
    · have here : other ≠ transactionID := by
        rintro rfl
        simp at recordedThere
      rw [AList.lookup_erase_ne here] at recordedThere
      obtain ⟨nonempty, stored, storedHere, storedSlots⟩ := holds.recorded _ _ recordedThere
      exact ⟨nonempty, stored, by rwa [AList.lookup_erase_ne here], storedSlots⟩

end Invariant

def StoredBy (calls : List PoolCall) (pool : TransactionsPool) : Prop :=
  ∀ transactionID stored, pool.allTransactions.lookup transactionID = some stored →
    PoolCall.add stored ∈ calls

/-- Every run of the mempool's additions and removals keeps the slot maps in
step: the owners are exactly the recorded slots of the pool's transactions,
only pool transactions record slots, each CAT transaction in the pool has its
slots recorded, and no slot, nonce or liquidity pool, is recorded for two
transactions.  The run's additions give one id the same slots each time. -/
theorem mempool_slot_exclusivity (blake2b256 : List UInt8 → DomainHash) {calls : List PoolCall}
    {pool : TransactionsPool}
    (sameSlots : ∀ first second, PoolCall.add first ∈ calls → PoolCall.add second ∈ calls →
      first.id = second.id →
        atomicMempoolSlots blake2b256 first = atomicMempoolSlots blake2b256 second)
    (run : Transition.Trace (PoolStep blake2b256) newTransactionsPool calls pool) :
    (∀ slot transactionID, pool.atomicSlotOwners.lookup slot = some transactionID ↔
      transactionID ∈ pool.allTransactions ∧
        ∃ slots, pool.atomicSlotsByTransactionID.lookup transactionID = some slots ∧ slot ∈ slots) ∧
    (∀ transactionID ∈ pool.atomicSlotsByTransactionID, transactionID ∈ pool.allTransactions) ∧
    (∀ transactionID transaction, pool.allTransactions.lookup transactionID = some transaction →
      isCATTransaction transaction = true → ∃ slots,
        atomicMempoolSlots blake2b256 transaction = .ok slots ∧
          pool.atomicSlotsByTransactionID.lookup transactionID = some slots) ∧
    (∀ first second firstSlots secondSlots,
      pool.atomicSlotsByTransactionID.lookup first = some firstSlots →
      pool.atomicSlotsByTransactionID.lookup second = some secondSlots → first ≠ second →
        ∀ slot ∈ firstSlots, slot ∉ secondSlots) := by
  -- the run keeps the invariant, and stores only transactions it added
  have keep : ∀ mid call after, call ∈ calls →
      SlotInvariant blake2b256 mid ∧ StoredBy calls mid → PoolStep blake2b256 mid call after →
        SlotInvariant blake2b256 after ∧ StoredBy calls after := by
    rintro mid call after taken ⟨holds, addedBefore⟩ rfl
    cases call with
    | remove transactionID =>
      refine ⟨holds.remove transactionID, fun other stored lookedUp => ?_⟩
      have here : other ≠ transactionID := by
        rintro rfl
        simp [PoolCall.exec, removeTransaction, removeAtomicSlots] at lookedUp
        split at lookedUp <;> simp at lookedUp
      apply addedBefore other stored
      simp only [PoolCall.exec, removeTransaction, removeAtomicSlots] at lookedUp
      split at lookedUp <;> simpa [AList.lookup_erase_ne here] using lookedUp
    | add transaction =>
      simp only [PoolCall.exec]
      cases added : addMempoolTransaction blake2b256 mid transaction with
      | error _ => exact ⟨holds, addedBefore⟩
      | ok after =>
        refine ⟨holds.add (fun stored storedHere => sameSlots stored transaction
          (addedBefore _ stored storedHere) taken (holds.stored _ stored storedHere).1) added,
          fun other stored lookedUp => ?_⟩
        obtain ⟨slots, -, -, rfl⟩ := addMempoolTransaction_ok added
        by_cases here : other = transaction.id
        · subst here
          split_ifs at lookedUp <;>
          · rw [AList.lookup_insert] at lookedUp
            obtain rfl := Option.some.inj lookedUp
            exact taken
        · split_ifs at lookedUp <;>
          · rw [AList.lookup_insert_ne here] at lookedUp
            exact addedBefore other stored lookedUp
  have kept := @Transition.Trace.invariant_of_mem _ _ (PoolStep blake2b256)
    (fun pool => SlotInvariant blake2b256 pool ∧ StoredBy calls pool) newTransactionsPool
    ⟨slotInvariant_new blake2b256, fun _ _ none => by simp [newTransactionsPool] at none⟩
    calls pool keep run
  obtain ⟨holds, -⟩ := kept
  have inPool : ∀ transactionID ∈ pool.atomicSlotsByTransactionID,
      transactionID ∈ pool.allTransactions := by
    intro transactionID member
    obtain ⟨slots, recordedHere⟩ := Option.isSome_iff_exists.mp (AList.lookup_isSome.mpr member)
    obtain ⟨-, stored, storedHere, -⟩ := holds.recorded _ _ recordedHere
    exact AList.lookup_isSome.mp (by rw [storedHere]; rfl)
  refine ⟨fun slot transactionID => ?_, inPool, fun transactionID transaction storedHere cat => ?_,
    fun first second firstSlots secondSlots firstRecorded secondRecorded differ slot member
      inSecond => differ (holds.exclusive firstRecorded secondRecorded member inSecond)⟩
  · rw [holds.owners]
    constructor
    · rintro ⟨slots, recordedHere, member⟩
      exact ⟨inPool _ (AList.lookup_isSome.mp (by rw [recordedHere]; rfl)), slots, recordedHere,
        member⟩
    · exact fun ⟨_, recorded⟩ => recorded
  · obtain ⟨-, slots, sloted, recordedThen⟩ := holds.stored _ _ storedHere
    exact ⟨slots, sloted, recordedThen (atomicMempoolSlots_ne_nil blake2b256 cat sloted)⟩

def slotCalls : List PoolCall :=
  [.add (createAssetTx (Vector.replicate 32 1) 1 false),
    .add (createAssetTx (Vector.replicate 32 2) 1 false),
    .add (createAssetTx (Vector.replicate 32 3) 2 false),
    .remove (Vector.replicate 32 1)]

theorem mempool_slot_exclusivity_conflict :
    ∃ pool, Transition.Trace (PoolStep (fun _ => zeroHash)) newTransactionsPool slotCalls pool ∧
      pool.allTransactions.keys = [Vector.replicate 32 3] ∧
      pool.atomicSlotsByTransactionID.lookup (Vector.replicate 32 3) =
        some [⟨.nonce, ownerNonceKey zeroHash, 2, zeroHash, 0⟩] ∧
      ((∀ slot transactionID, pool.atomicSlotOwners.lookup slot = some transactionID ↔
        transactionID ∈ pool.allTransactions ∧
          ∃ slots, pool.atomicSlotsByTransactionID.lookup transactionID = some slots ∧ slot ∈ slots) ∧
      (∀ transactionID ∈ pool.atomicSlotsByTransactionID, transactionID ∈ pool.allTransactions) ∧
      (∀ transactionID transaction, pool.allTransactions.lookup transactionID = some transaction →
        isCATTransaction transaction = true → ∃ slots,
          atomicMempoolSlots (fun _ => zeroHash) transaction = .ok slots ∧
            pool.atomicSlotsByTransactionID.lookup transactionID = some slots) ∧
      (∀ first second firstSlots secondSlots,
        pool.atomicSlotsByTransactionID.lookup first = some firstSlots →
        pool.atomicSlotsByTransactionID.lookup second = some secondSlots → first ≠ second →
          ∀ slot ∈ firstSlots, slot ∉ secondSlots)) := by
  have run : Transition.Trace (PoolStep (fun _ => zeroHash)) newTransactionsPool slotCalls _ :=
    Transition.Trace.cons rfl (Transition.Trace.cons rfl (Transition.Trace.cons rfl
      (Transition.Trace.single rfl)))
  have sameSlots : ∀ first second, PoolCall.add first ∈ slotCalls → PoolCall.add second ∈ slotCalls →
      first.id = second.id →
        atomicMempoolSlots (fun _ => zeroHash) first = atomicMempoolSlots (fun _ => zeroHash) second := by
    intro first second firstAdded secondAdded sameID
    simp only [slotCalls, List.mem_cons, PoolCall.add.injEq, reduceCtorEq, List.not_mem_nil,
      or_false] at firstAdded secondAdded
    rcases firstAdded with rfl | rfl | rfl <;> rcases secondAdded with rfl | rfl | rfl <;>
      first | rfl | exact absurd sameID (by decide)
  exact ⟨_, run, by decide +kernel, by decide +kernel,
    mempool_slot_exclusivity (fun _ => zeroHash) sameSlots run⟩

end Cryptixd.Mempool
