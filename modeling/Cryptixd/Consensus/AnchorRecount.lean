import Mathlib
import Cryptixd.Atomic.Anchors

/-!
# Owner anchors against the UTXO set

The atomic state keeps, per owner, a count of the UTXOs that anchor it, moved
by `applyAnchorDeltas` on every accepted transaction
(`consensusstatemanager/calculate_past_utxo.go`, `maybeAcceptTransaction`).
Two other paths rebuild the same map from a UTXO set instead:
`atomicAnchorCountsFromUTXOIterator` (`atomic_token_metadata.go`, audit
recovery) and `atomicAnchorStateFromUTXOIterator`
(`import_pruning_utxo_set.go`, pruning-point import).  Both skip coinbase
entries.

The ledger is the UTXO set, a multiset of entries, with the atomic state.  An
accepted coinbase adds its outputs as coinbase entries and leaves the anchors
alone; any other accepted transaction spends entries of the set, adds its
outputs as ordinary entries, and is a successful `Call` of the atomic state.

* `anchorCounts_diverge_from_recount`: the incremental counts and the rebuild
  part ways as soon as a transaction spends a coinbase output that has an
  owner script: the spend is subtracted from a count the coinbase output never
  entered.
* `anchorCounts_underapproximate_owned`: against all entries, coinbase ones
  included, the counts never exceed what an owner holds, so the owner that
  authorises a CAT operation still holds a UTXO after it.
-/

set_option autoImplicit false

namespace Cryptixd.Consensus

open Cryptixd.Atomic Cryptixd.Txscript

section Hash

variable (blake2b256 : List UInt8 → DomainHash)

/-! ## The rebuild -/

/-- One entry of the rebuild loop: coinbase entries and entries without an
owner are skipped, a count at the largest `uint64` is an overflow. -/
def recountAnchor (counts : Map DomainHash UInt64) (utxoEntry : UTXOEntry) :
    Except String (Map DomainHash UInt64) :=
  if utxoEntry.isCoinbase then .ok counts
  else
    match ownerIDFromScript blake2b256 utxoEntry.scriptPublicKey with
    | none => .ok counts
    | some ownerID =>
      let count := (counts.lookup ownerID).getD 0
      if count = maxUint64 then
        .error ("Atomic anchor count overflow for owner `" ++ hexOf ownerID.toList ++ "`")
      else .ok (counts.insert ownerID (count + 1))

/-- `atomicAnchorCountsFromUTXOIterator`, over the entries in the order the
iterator yields them. -/
def atomicAnchorCountsFromUTXOIterator (utxoEntries : List UTXOEntry) :
    Except String (Map DomainHash UInt64) :=
  utxoEntries.foldlM (recountAnchor blake2b256) ∅

def atomicAnchorStateFromUTXOIterator (utxoEntries : List UTXOEntry) : Except String State :=
  (atomicAnchorCountsFromUTXOIterator blake2b256 utxoEntries).map fun anchorCounts =>
    { newState with anchorCounts := anchorCounts }

/-! ## Accepting transactions -/

def outputEntry (blockDAAScore : UInt64) (isCoinbase : Bool) (output : DomainTransactionOutput) :
    UTXOEntry :=
  ⟨output.value, output.scriptPublicKey, blockDAAScore, isCoinbase⟩

def spentEntries (tx : DomainTransaction) : List UTXOEntry :=
  tx.inputs.filterMap (·.utxoEntry)

/-- The UTXO set, as a multiset of entries, and the atomic state. -/
structure Ledger where
  utxoSet : Multiset UTXOEntry
  state : State

/-- A transaction `maybeAcceptTransaction` accepts, with the DAA score of the
accepting block. -/
inductive Acceptance where
  | coinbase (tx : DomainTransaction) (blockDAAScore : UInt64)
  | transaction (call : Call) (blockDAAScore : UInt64)

def Acceptance.ownerID : Acceptance → Option DomainHash
  | .coinbase _ _ => none
  | .transaction call _ => call.ownerID blake2b256

/-- `maybeAcceptTransaction` on the UTXO set and the atomic state.  A coinbase
adds its outputs and skips the anchor deltas; any other transaction spends
entries present in the set and is a successful call of the atomic state. -/
inductive AcceptStep : Ledger → Acceptance → Ledger → Prop
  | coinbase {ledger : Ledger} {tx : DomainTransaction} {blockDAAScore : UInt64}
      (isCoinbase : isCoinBase tx = true) :
      AcceptStep ledger (.coinbase tx blockDAAScore)
        ⟨ledger.utxoSet + ↑(tx.outputs.map (outputEntry blockDAAScore true)), ledger.state⟩
  | transaction {ledger : Ledger} {call : Call} {blockDAAScore : UInt64} {state' : State}
      (notCoinbase : isCoinBase call.tx = false)
      (spends : ↑(spentEntries call.tx) ≤ ledger.utxoSet)
      (applied : Step blake2b256 ledger.state call state') :
      AcceptStep ledger (.transaction call blockDAAScore)
        ⟨ledger.utxoSet - ↑(spentEntries call.tx) +
          ↑(call.tx.outputs.map (outputEntry blockDAAScore false)), state'⟩

abbrev AcceptRun : Ledger → List Acceptance → Ledger → Prop :=
  Transition.Trace (AcceptStep blake2b256)

def ownedCount (utxoSet : Multiset UTXOEntry) (ownerID : DomainHash) : Nat :=
  utxoSet.countP fun utxoEntry => ownerIDFromScript blake2b256 utxoEntry.scriptPublicKey = some ownerID

/-! ## Owner counts of inputs and outputs -/

theorem countP_spentEntries (tx : DomainTransaction) (ownerID : DomainHash) :
    (spentEntries tx).countP (fun utxoEntry =>
        ownerIDFromScript blake2b256 utxoEntry.scriptPublicKey = some ownerID) =
      (inputOwners blake2b256 tx).count (some ownerID) := by
  unfold spentEntries inputOwners
  induction tx.inputs with
  | nil => rfl
  | cons input rest ih =>
    cases entry : input.utxoEntry with
    | none =>
      simp only [List.filterMap_cons, entry, List.map_cons, Option.bind_none,
        List.count_cons, ih]
      simp
    | some utxoEntry =>
      simp only [List.filterMap_cons, entry, List.countP_cons, List.map_cons, Option.bind_some,
        List.count_cons, ih, beq_iff_eq, decide_eq_true_eq]

theorem countP_outputEntries (tx : DomainTransaction) (blockDAAScore : UInt64) (isCoinbase : Bool)
    (ownerID : DomainHash) :
    (tx.outputs.map (outputEntry blockDAAScore isCoinbase)).countP (fun utxoEntry =>
        ownerIDFromScript blake2b256 utxoEntry.scriptPublicKey = some ownerID) =
      (outputOwners blake2b256 tx).count (some ownerID) := by
  unfold outputOwners
  induction tx.outputs with
  | nil => rfl
  | cons output rest ih =>
    simp only [List.map_cons, List.countP_cons, List.count_cons, ih, outputEntry, beq_iff_eq,
      decide_eq_true_eq]

theorem ownedCount_accept {utxoSet : Multiset UTXOEntry} {tx : DomainTransaction}
    (spends : ↑(spentEntries tx) ≤ utxoSet) (blockDAAScore : UInt64) (isCoinbase : Bool)
    (ownerID : DomainHash) :
    ownedCount blake2b256 (utxoSet - ↑(spentEntries tx) +
        ↑(tx.outputs.map (outputEntry blockDAAScore isCoinbase))) ownerID =
      ownedCount blake2b256 utxoSet ownerID - (inputOwners blake2b256 tx).count (some ownerID) +
        (outputOwners blake2b256 tx).count (some ownerID) := by
  unfold ownedCount
  rw [Multiset.countP_add, Multiset.countP_sub spends, Multiset.coe_countP,
    Multiset.coe_countP, countP_spentEntries, countP_outputEntries]

theorem count_inputOwners_le {utxoSet : Multiset UTXOEntry} {tx : DomainTransaction}
    (spends : ↑(spentEntries tx) ≤ utxoSet) (ownerID : DomainHash) :
    (inputOwners blake2b256 tx).count (some ownerID) ≤ ownedCount blake2b256 utxoSet ownerID := by
  rw [← countP_spentEntries, ← Multiset.coe_countP]
  exact Multiset.countP_le_of_le _ spends

/-! ## Counts never exceed holdings -/

def Ledger.AnchorsUnderOwned (ledger : Ledger) : Prop :=
  ∀ ownerID, (ledger.state.anchorCount ownerID).toNat ≤ ownedCount blake2b256 ledger.utxoSet ownerID

variable {blake2b256}

theorem acceptStep_anchorsUnderOwned {ledger ledger' : Ledger} {acceptance : Acceptance}
    (step : AcceptStep blake2b256 ledger acceptance ledger')
    (below : ledger.AnchorsUnderOwned blake2b256) : ledger'.AnchorsUnderOwned blake2b256 := by
  intro ownerID
  cases step with
  | @coinbase tx blockDAAScore isCoinbase =>
    have grows := Multiset.countP_le_of_le
      (fun utxoEntry : UTXOEntry => ownerIDFromScript blake2b256 utxoEntry.scriptPublicKey = some ownerID)
      (Multiset.le_add_right ledger.utxoSet ↑(tx.outputs.map (outputEntry blockDAAScore true)))
    exact le_trans (below ownerID) grows
  | @transaction call blockDAAScore state' notCoinbase spends applied =>
    have moved : (state'.anchorCount ownerID).toNat =
        min ((ledger.state.anchorCount ownerID).toNat -
            (inputOwners blake2b256 call.tx).count (some ownerID) +
          (outputOwners blake2b256 call.tx).count (some ownerID)) (2 ^ 64 - 1) := by
      rw [← anchorCount_applyAnchorDeltas blake2b256 call.tx ledger.state ownerID]
      simp only [State.anchorCount, step_anchorCounts applied]
    have held := below ownerID
    have spent := count_inputOwners_le blake2b256 spends ownerID
    show (state'.anchorCount ownerID).toNat ≤ ownedCount blake2b256 _ ownerID
    rw [moved, ownedCount_accept blake2b256 spends]
    omega

theorem toNat_foldl_spentForOwner (ownerID : DomainHash) (owners : List (Option DomainHash))
    (start : UInt64) :
    (owners.foldl (fun spent inputOwnerID =>
        if inputOwnerID = some ownerID ∧ spent < maxUint64 then spent + 1 else spent) start).toNat =
      min (start.toNat + owners.count (some ownerID)) (2 ^ 64 - 1) := by
  induction owners generalizing start with
  | nil =>
    have := start.toNat_lt
    simp only [List.foldl_nil, List.count_nil, Nat.add_zero]
    omega
  | cons owner rest ih =>
    have startBound := start.toNat_lt
    have maxVal : maxUint64.toNat = 2 ^ 64 - 1 := rfl
    rw [List.foldl_cons, ih, List.count_cons]
    by_cases counted : owner = some ownerID ∧ start < maxUint64
    · rw [if_pos counted, UInt64.toNat_add, UInt64.toNat_one, Nat.mod_eq_of_lt (by
        rw [UInt64.lt_iff_toNat_lt, maxVal] at counted; omega)]
      simp only [counted.1, beq_self_eq_true, ↓reduceIte]
      omega
    · rw [if_neg counted]
      by_cases same : owner = some ownerID
      · -- the loop is saturated
        have full : start.toNat = 2 ^ 64 - 1 := by
          have notBelow : ¬start < maxUint64 := fun below => counted ⟨same, below⟩
          rw [UInt64.lt_iff_toNat_lt, maxVal] at notBelow
          omega
        simp only [same, beq_self_eq_true, ↓reduceIte]
        omega
      · simp [same]

theorem validateReplacementAnchor_ok {tx : DomainTransaction} {ownerID : DomainHash}
    {state : State} (passed : validateReplacementAnchor blake2b256 tx ownerID state = .ok ()) :
    (inputOwners blake2b256 tx).count (some ownerID) < (state.anchorCount ownerID).toNat ∨
      0 < (outputOwners blake2b256 tx).count (some ownerID) := by
  have spentLoop := toNat_foldl_spentForOwner ownerID (inputOwners blake2b256 tx) 0
  have before := (state.anchorCount ownerID).toNat_lt
  dsimp only [validateReplacementAnchor] at passed
  by_cases kept : saturatingSub (state.anchorCount ownerID) ((inputOwners blake2b256 tx).foldl
      (fun spent inputOwnerID =>
        if inputOwnerID = some ownerID ∧ spent < maxUint64 then spent + 1 else spent) 0) > 0
  · -- the owner keeps an anchor it already had
    left
    rw [gt_iff_lt, UInt64.lt_iff_toNat_lt, toNat_saturatingSub, spentLoop] at kept
    simp only [UInt64.toNat_zero, Nat.zero_add] at kept
    omega
  · -- otherwise an output replaces the spent anchor
    right
    rw [if_neg kept] at passed
    by_cases replaced : (outputOwners blake2b256 tx).any (· = some ownerID) = true
    · rw [List.count_pos_iff]
      simpa using replaced
    · rw [if_neg replaced] at passed
      cases passed

/-- Against all entries of the UTXO set, coinbase ones included, no owner's
anchor count ever exceeds what it holds; so after a run whose last accepted
transaction carries a CAT operation, the owner that authorised it still holds
an entry. -/
theorem anchorCounts_underapproximate_owned {start final : Ledger} {acceptances : List Acceptance}
    (run : AcceptRun blake2b256 start acceptances final)
    (below : start.AnchorsUnderOwned blake2b256) :
    final.AnchorsUnderOwned blake2b256 ∧
      ∀ (earlier : List Acceptance) (last : Acceptance) (ownerID : DomainHash),
        acceptances = earlier ++ [last] → last.ownerID blake2b256 = some ownerID →
          1 ≤ ownedCount blake2b256 final.utxoSet ownerID := by
  have everywhere : ∀ {labels : List Acceptance} {ledger : Ledger},
      AcceptRun blake2b256 start labels ledger → ledger.AnchorsUnderOwned blake2b256 :=
    fun trace => Transition.Trace.invariant below
      (fun _ _ _ inv step => acceptStep_anchorsUnderOwned step inv) trace
  refine ⟨everywhere run, ?_⟩
  intro earlier last ownerID split authorised
  subst split
  obtain ⟨mid, before, lastStep⟩ := Transition.Trace.last run
  have held := everywhere run ownerID
  cases lastStep with
  | coinbase isCoinbase => simp [Acceptance.ownerID] at authorised
  | @transaction call blockDAAScore state' notCoinbase spends applied =>
    rcases step_cases applied with ⟨noPayload, -⟩ |
      ⟨parsed, catOwner, applied', payload, owner, -, -, anchor, effect, final'⟩
    · simp [Acceptance.ownerID, Call.ownerID, noPayload] at authorised
    · -- the step's owner is the one `validateReplacementAnchor` checked
      have sameOwner : catOwner = ownerID := by
        have := (ownerID_eq payload owner).1
        simp only [Acceptance.ownerID] at authorised
        rw [this] at authorised
        exact Option.some.inj authorised
      subst sameOwner
      have moved : (state'.anchorCount catOwner).toNat =
          min ((mid.state.anchorCount catOwner).toNat -
              (inputOwners blake2b256 call.tx).count (some catOwner) +
            (outputOwners blake2b256 call.tx).count (some catOwner)) (2 ^ 64 - 1) := by
        rw [← anchorCount_applyAnchorDeltas blake2b256 call.tx mid.state catOwner]
        simp only [State.anchorCount, step_anchorCounts applied]
      have spent := count_inputOwners_le blake2b256 spends catOwner
      have kept := validateReplacementAnchor_ok anchor
      show 1 ≤ ownedCount blake2b256 _ catOwner
      rw [ownedCount_accept blake2b256 spends]
      rcases kept with positive | replaced
      · -- the count stays positive, and the count is below the holdings
        have countBound := held
        simp only at countBound
        rw [moved, ownedCount_accept blake2b256 spends] at countBound
        omega
      · omega

def coinbaseTx : DomainTransaction where
  inputs := []
  outputs := [⟨1, anchorScript⟩]
  subnetworkID := subnetworkIDCoinbase
  payload := []
  id := zeroHash
  inputs_fit := zero_lt_sliceBound
  outputs_fit := one_lt_sliceBound

def createFromCoinbase : Call :=
  .validateAndApply (createAssetTx (Vector.replicate 32 1) 1 true) 1 0 emptyCreationContext

def coinbaseThenCreate : List Acceptance :=
  [.coinbase coinbaseTx 0, .transaction createFromCoinbase 1]

theorem anchorCounts_underapproximate_owned_coinbaseThenCreate :
    ∃ final, AcceptRun (fun _ => zeroHash) ⟨0, newState⟩ coinbaseThenCreate final ∧
      Ledger.AnchorsUnderOwned (fun _ => zeroHash) ⟨0, newState⟩ ∧
      (Acceptance.transaction createFromCoinbase 1).ownerID (fun _ => zeroHash) = some zeroHash ∧
      (final.AnchorsUnderOwned (fun _ => zeroHash) ∧
        ∀ (earlier : List Acceptance) (last : Acceptance) (ownerID : DomainHash),
          coinbaseThenCreate = earlier ++ [last] → last.ownerID (fun _ => zeroHash) = some ownerID →
            1 ≤ ownedCount (fun _ => zeroHash) final.utxoSet ownerID) := by
  obtain ⟨s, ran⟩ := Option.isSome_iff_exists.mp
    (show (createFromCoinbase.next (fun _ => zeroHash) newState).isSome from by decide +kernel)
  have spends : ↑(spentEntries createFromCoinbase.tx) ≤
      (0 + ↑(coinbaseTx.outputs.map (outputEntry 0 true)) : Multiset UTXOEntry) := by
    simp [spentEntries, createFromCoinbase, createAssetTx, Call.tx, coinbaseTx, outputEntry, anchorEntry]
  have run : AcceptRun (fun _ => zeroHash) ⟨0, newState⟩ coinbaseThenCreate _ :=
    Transition.Trace.cons (AcceptStep.coinbase rfl)
      (Transition.Trace.single (AcceptStep.transaction rfl spends (step_of_next ran)))
  have below : Ledger.AnchorsUnderOwned (fun _ => zeroHash) ⟨0, newState⟩ := by
    intro ownerID
    simp [State.anchorCount, newState]
  exact ⟨_, run, below, by decide +kernel, anchorCounts_underapproximate_owned run below⟩

/-! ## Where the rebuild and the incremental counts part ways -/

variable (blake2b256)

def anchorOwner : DomainHash :=
  blake2b256 (catOwnerDomain ++ [ownerAuthSchemePubKey] ++ putUint16LE 32 ++ List.replicate 32 0)

theorem ownerIDFromScript_anchorScript :
    ownerIDFromScript blake2b256 anchorScript = some (anchorOwner blake2b256) := by
  rfl

def spendCoinbaseTx : DomainTransaction where
  inputs := [⟨⟨zeroHash, 0⟩, some (anchorEntry true)⟩]
  outputs := [⟨1, anchorScript⟩]
  subnetworkID := Vector.replicate 20 0
  payload := []
  id := zeroHash
  inputs_fit := one_lt_sliceBound
  outputs_fit := one_lt_sliceBound

theorem recountAnchor_of_coinbase (counts : Map DomainHash UInt64) {utxoEntry : UTXOEntry}
    (coinbase : utxoEntry.isCoinbase = true) :
    recountAnchor blake2b256 counts utxoEntry = .ok counts := by
  simp [recountAnchor, coinbase]

theorem recountAnchor_of_owner (counts : Map DomainHash UInt64) {utxoEntry : UTXOEntry}
    {ownerID : DomainHash} (ordinary : utxoEntry.isCoinbase = false)
    (owner : ownerIDFromScript blake2b256 utxoEntry.scriptPublicKey = some ownerID)
    (room : (counts.lookup ownerID).getD 0 ≠ maxUint64) :
    recountAnchor blake2b256 counts utxoEntry =
      .ok (counts.insert ownerID ((counts.lookup ownerID).getD 0 + 1)) := by
  simp [recountAnchor, ordinary, owner, room]

theorem foldlM_cons_of_ok {α β ε : Type} {f : α → β → Except ε α} {start next : α} {x : β}
    (rest : List β) (first : f start x = .ok next) :
    (x :: rest).foldlM f start = rest.foldlM f next := by
  simp [List.foldlM_cons, first, bind, Except.bind]

theorem atomicAnchorCountsFromUTXOIterator_anchorEntries :
    atomicAnchorCountsFromUTXOIterator blake2b256 [anchorEntry false, anchorEntry true] =
      .ok ((∅ : Map DomainHash UInt64).insert (anchorOwner blake2b256) 1) := by
  unfold atomicAnchorCountsFromUTXOIterator
  rw [foldlM_cons_of_ok _ (recountAnchor_of_owner blake2b256 _ rfl
      (ownerIDFromScript_anchorScript blake2b256) (by rw [AList.lookup_empty]; decide)),
    foldlM_cons_of_ok _ (recountAnchor_of_coinbase blake2b256 _ rfl), AList.lookup_empty]
  rfl

theorem atomicAnchorCountsFromUTXOIterator_afterSpend :
    atomicAnchorCountsFromUTXOIterator blake2b256
        [anchorEntry false, outputEntry 1 false ⟨1, anchorScript⟩] =
      .ok (((∅ : Map DomainHash UInt64).insert (anchorOwner blake2b256) 1).insert
        (anchorOwner blake2b256) 2) := by
  unfold atomicAnchorCountsFromUTXOIterator
  rw [foldlM_cons_of_ok _ (recountAnchor_of_owner blake2b256 _ rfl
      (ownerIDFromScript_anchorScript blake2b256) (by rw [AList.lookup_empty]; decide)),
    AList.lookup_empty,
    foldlM_cons_of_ok _ (recountAnchor_of_owner blake2b256 _ rfl
      (ownerIDFromScript_anchorScript blake2b256) (by rw [AList.lookup_insert]; decide)),
    AList.lookup_insert]
  rfl

theorem inputOwners_spendCoinbaseTx :
    inputOwners blake2b256 spendCoinbaseTx = [some (anchorOwner blake2b256)] := by
  simp [inputOwners, spendCoinbaseTx, anchorEntry, ownerIDFromScript_anchorScript]

theorem outputOwners_spendCoinbaseTx :
    outputOwners blake2b256 spendCoinbaseTx = [some (anchorOwner blake2b256)] := by
  simp [outputOwners, spendCoinbaseTx, ownerIDFromScript_anchorScript]

theorem step_spendCoinbaseTx (state : State) (notRootOnly : state.isRootOnly = false) :
    Step blake2b256 state (.validateAndApply spendCoinbaseTx 1 1 emptyCreationContext)
      (applyAnchorDeltas blake2b256 spendCoinbaseTx state) := by
  apply step_plain
  · simp [notRootOnly]
  · intro input member
    simp only [spendCoinbaseTx, List.mem_singleton] at member
    subst member
    decide
  · intro output member
    simp only [spendCoinbaseTx, List.mem_singleton] at member
    subst member
    decide
  · right; right; rfl

/-- The incremental anchor counts and the rebuild part ways.  The set holds an
ordinary and a coinbase entry of one owner, and the atomic state is what
`atomicAnchorStateFromUTXOIterator` rebuilds from it: a count of 1.  An
accepted native transaction spends the coinbase entry and pays the owner
again.  `applyAnchorDeltas` takes one for the spend and adds one for the
output, so the count stays 1, while the rebuild of the new set counts the
ordinary entry and the output: 2. -/
theorem anchorCounts_diverge_from_recount :
    ∃ (recovered : State) (after : Ledger) (rebuilt : Map DomainHash UInt64),
      atomicAnchorStateFromUTXOIterator blake2b256 [anchorEntry false, anchorEntry true] =
          .ok recovered ∧
        AcceptStep blake2b256 ⟨↑[anchorEntry false, anchorEntry true], recovered⟩
          (.transaction (.validateAndApply spendCoinbaseTx 1 1 emptyCreationContext) 1) after ∧
        after.utxoSet = ↑[anchorEntry false, outputEntry 1 false ⟨1, anchorScript⟩] ∧
        atomicAnchorCountsFromUTXOIterator blake2b256
            [anchorEntry false, outputEntry 1 false ⟨1, anchorScript⟩] = .ok rebuilt ∧
        after.state.anchorCounts.lookup (anchorOwner blake2b256) = some 1 ∧
        rebuilt.lookup (anchorOwner blake2b256) = some 2 := by
  let recovered : State :=
    { newState with anchorCounts := (∅ : Map DomainHash UInt64).insert (anchorOwner blake2b256) 1 }
  have rebuiltStart : atomicAnchorStateFromUTXOIterator blake2b256
      [anchorEntry false, anchorEntry true] = .ok recovered := by
    simp only [atomicAnchorStateFromUTXOIterator, atomicAnchorCountsFromUTXOIterator_anchorEntries]
    rfl
  have spends : (↑(spentEntries spendCoinbaseTx) : Multiset UTXOEntry) ≤
      ↑[anchorEntry false, anchorEntry true] := by
    decide
  have accepted := @AcceptStep.transaction blake2b256 ⟨↑[anchorEntry false, anchorEntry true], recovered⟩
    (.validateAndApply spendCoinbaseTx 1 1 emptyCreationContext) 1 _ (by decide) spends
    (step_spendCoinbaseTx blake2b256 recovered rfl)
  refine ⟨recovered, _, _, rebuiltStart, accepted, ?_,
    atomicAnchorCountsFromUTXOIterator_afterSpend blake2b256, ?_, ?_⟩
  · dsimp only
    decide
  · -- the spend and the output of the owner cancel
    dsimp only
    rw [lookup_applyAnchorDeltas, if_pos (by simp [inputOwners_spendCoinbaseTx]),
      inputOwners_spendCoinbaseTx, outputOwners_spendCoinbaseTx]
    simp only [nextAnchorCount, countOwners, List.foldl_cons, List.foldl_nil, recovered,
      AList.lookup_insert, AList.lookup_empty, Option.getD_some, Option.getD_none]
    rfl
  · rw [AList.lookup_insert]

end Hash

end Cryptixd.Consensus
