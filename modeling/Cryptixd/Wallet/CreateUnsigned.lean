import Mathlib

/-!
# Wallet transactions: UTXO selection, fees and splitting

`cmd/cryptixwallet/daemon/server`: `selectUTXOsWithPreselected` walks the
wallet's UTXOs, re-estimating the fee after each pick, until the picks pay the
amount and the fee; `createUnsignedTransactions` pays the recipient and the
change from them, and `maybeSplitAndMergeTransaction` cuts a transaction too
heavy for the mempool into split transactions, each paying its inputs less a
fee to the change address, and a merge transaction paying the recipient from
the splits' outputs.

All amounts are `uint64` and every sum and difference of the source wraps; the
model computes in `UInt64` to keep that.  What the code reads of the server is
a parameter: the masses of a transaction, as functions of its input and output
amounts, the fee the request's rate asks for a mass, the cap `maxFee`, and the
walk's checks of a UTXO against the request and the node.

In send-all mode the recipient gets the selected total less the fee, with no
check that the fee is smaller (`selectUTXOs_sendAll_wraps`): a wallet holding
only dust pays a recipient almost `2 ^ 64` sompi from an input of one.
-/

set_option autoImplicit false

namespace Cryptixd.Wallet

def sompiPerCryptix : UInt64 := 100000000

def minChangeTarget : UInt64 := sompiPerCryptix * 10

def maximumStandardTransactionMass : UInt64 := 100000

structure UTXO where
  outpoint : Nat
  amount : UInt64
  deriving DecidableEq, Repr

/-- The amounts of an unsigned transaction: the values of the outputs it
spends and of those it creates. -/
structure UnsignedTx where
  inputs : List UTXO
  outputs : List UInt64
  deriving DecidableEq, Repr

/-- What the walks read of the wallet daemon: its UTXOs, smallest first, and
the checks made of each.  `usable` stands for the from-address filter,
coinbase maturity and the recently-used outpoints of
`selectUTXOsWithPreselected`, `spendable` for `isUTXOSpendable` alone. -/
structure Server where
  utxosSortedByAmount : List UTXO
  usable : UTXO → Bool
  spendable : UTXO → Bool

/-- What the fee estimates read of the server and the request.  The masses are
those of a transaction with the given input and output amounts after its
signatures are added: `overallMass` counts the storage mass
(`CalculateTransactionOverallMass`), `computeMass` does not.  `feeForMass` is
`uint64(math.Ceil(float64(mass) * feeRate))` at the request's rate. -/
structure FeeContext where
  overallMass : List UInt64 → List UInt64 → UInt64
  computeMass : List UInt64 → List UInt64 → UInt64
  feeForMass : UInt64 → UInt64
  feePerInput : UInt64
  maxFee : UInt64
  transactionID : UnsignedTx → Nat

/-- The errors of the walk and of the split pipeline; `panic` is a Go runtime
panic with its message. -/
inductive WalletError where
  | insufficientFunds (required available : UInt64)
  | noFundsToSpend
  | notEnoughFundsForOutputs
  | feeRateTooLow (maxFee : UInt64)
  | unexpectedOutputCount (count : Nat)
  | insufficientMergeFunds
  | splitTooDeep
  | panic (message : String)
  deriving DecidableEq, Repr

def sumAmounts (amounts : List UInt64) : UInt64 := amounts.foldl (· + ·) 0

def amounts (utxos : List UTXO) : List UInt64 := utxos.map UTXO.amount

variable (ctx : FeeContext)

def estimateFee (selected : List UTXO) (recipientValue : UInt64) : UInt64 :=
  let totalValue := sumAmounts (amounts selected)
  let mockPayments :=
    if totalValue > recipientValue then [recipientValue, totalValue - recipientValue]
    else [totalValue]
  min (ctx.feeForMass (ctx.overallMass (amounts selected) mockPayments)) ctx.maxFee

/-! ## Selection -/

/-- The variables the walk's closure writes: the picks, their total and the
last fee estimate. -/
structure Selection where
  selected : List UTXO
  totalValue : UInt64
  fee : UInt64
  deriving DecidableEq, Repr

def iteration (server : Server) (preSelected : List UTXO) (spendAmount : UInt64)
    (isSendAll avoidPreselected : Bool) (sel : Selection) (utxo : UTXO) : Bool × Selection :=
  if !server.usable utxo then (true, sel)
  else if avoidPreselected ∧ utxo.outpoint ∈ preSelected.map UTXO.outpoint then (true, sel)
  else
    let selected := sel.selected ++ [utxo]
    let totalValue := sel.totalValue + utxo.amount
    let estimatedRecipientValue := if isSendAll then totalValue else spendAmount
    let fee := estimateFee ctx selected estimatedRecipientValue
    let totalSpend := spendAmount + fee
    -- the walk stops on an exact total, or on one with enough change from two picks
    let done := !isSendAll && (totalValue == totalSpend ||
      (totalValue ≥ totalSpend + minChangeTarget && selected.length > 1))
    (!done, ⟨selected, totalValue, fee⟩)

def walk (body : Selection → UTXO → Bool × Selection) :
    List UTXO → Selection → Bool × Selection
  | [], sel => (true, sel)
  | utxo :: utxos, sel =>
    match body sel utxo with
    | (true, sel) => walk body utxos sel
    | (false, sel) => (false, sel)

def selectionWalk (server : Server) (preSelected : List UTXO) (spendAmount : UInt64)
    (isSendAll : Bool) : Selection :=
  let (shouldContinue, sel) :=
    walk (iteration ctx server preSelected spendAmount isSendAll false) preSelected ⟨[], 0, 0⟩
  if shouldContinue then
    (walk (iteration ctx server preSelected spendAmount isSendAll true)
      server.utxosSortedByAmount sel).2
  else sel

def settle (spendAmount : UInt64) (isSendAll : Bool) (sel : Selection) :
    Except WalletError (List UTXO × UInt64 × UInt64) :=
  let (totalSpend, totalReceived) :=
    if isSendAll then (sel.totalValue, sel.totalValue - sel.fee)
    else (spendAmount + sel.fee, spendAmount)
  if sel.totalValue < totalSpend then .error (.insufficientFunds totalSpend sel.totalValue)
  else .ok (sel.selected, totalReceived, sel.totalValue - totalSpend)

def selectUTXOsWithPreselected (server : Server) (preSelected : List UTXO) (spendAmount : UInt64)
    (isSendAll : Bool) : Except WalletError (List UTXO × UInt64 × UInt64) :=
  settle spendAmount isSendAll (selectionWalk ctx server preSelected spendAmount isSendAll)

def selectUTXOs (server : Server) (spendAmount : UInt64) (isSendAll : Bool) :
    Except WalletError (List UTXO × UInt64 × UInt64) :=
  selectUTXOsWithPreselected ctx server [] spendAmount isSendAll

/-! ## Fee rate check and splitting -/

def checkTransactionFeeRate (tx : UnsignedTx) : Except WalletError Unit :=
  let totalOuts := (tx.outputs.map UInt64.toInt64).foldl (· + ·) 0
  let totalIns := ((amounts tx.inputs).map UInt64.toInt64).foldl (· + ·) 0
  if totalIns < totalOuts then .error .notEnoughFundsForOutputs
  else
    let fee := totalIns - totalOuts
    let mass := ctx.computeMass (amounts tx.inputs) tx.outputs
    if mass ≠ 0 ∧ fee.toInt < (mass.toNat : Int) then .error (.feeRateTooLow ctx.maxFee) else .ok ()

def createSplitTransaction (tx : UnsignedTx) (startIndex endIndex : Nat) : UnsignedTx :=
  let selectedUTXOs := (tx.inputs.take endIndex).drop startIndex
  let totalSompi := sumAmounts (amounts selectedUTXOs)
  let totalSompi :=
    if selectedUTXOs.length ≠ 0 then totalSompi - estimateFee ctx selectedUTXOs totalSompi
    else totalSompi
  ⟨selectedUTXOs, [totalSompi]⟩

def integerDivideByZero : String := "runtime error: integer divide by zero"

def makesliceLenOutOfRange : String := "runtime error: makeslice: len out of range"

def makesliceCapOutOfRange : String := "runtime error: makeslice: cap out of range"

def goDiv (a b : UInt64) : Except WalletError UInt64 :=
  if b = 0 then .error (.panic integerDivideByZero) else .ok (a / b)

def splitAndInputPerSplitCounts (tx : UnsignedTx) (transactionMass : UInt64) :
    Except WalletError (Int × Int) := do
  let massWithoutInputs := ctx.computeMass [] tx.outputs
  let massOfAllInputs := transactionMass - massWithoutInputs
  let inputCount := tx.inputs.length
  let massPerInput ← goDiv massOfAllInputs inputCount.toUInt64
  let massPerInput := if massOfAllInputs % inputCount.toUInt64 > 0 then massPerInput + 1
    else massPerInput
  let splitTransactionWithoutInputs := createSplitTransaction ctx tx 0 0
  let massForEverythingExceptInputsInSplitTransaction :=
    ctx.computeMass [] splitTransactionWithoutInputs.outputs
  let massForInputsInSplitTransaction :=
    maximumStandardTransactionMass - massForEverythingExceptInputsInSplitTransaction
  let inputsPerSplitCount := (← goDiv massForInputsInSplitTransaction massPerInput).toInt64.toInt
  if inputsPerSplitCount = 0 then throw (.panic integerDivideByZero)
  let splitCount := Int.tdiv inputCount inputsPerSplitCount
  let splitCount := if Int.tmod inputCount inputsPerSplitCount > 0 then splitCount + 1 else splitCount
  return (splitCount, inputsPerSplitCount)

def moreUTXOsForMergeTransaction (server : Server) (alreadySelected : List UTXO)
    (requiredAmount : UInt64) : Except WalletError (List UTXO × UInt64) :=
  let step : Selection → UTXO → Bool × Selection := fun acc utxo =>
    if utxo.outpoint ∈ alreadySelected.map UTXO.outpoint ∨ !server.spendable utxo then (true, acc)
    else
      let totalValueAdded := acc.totalValue + (utxo.amount - ctx.feePerInput)
      (!(totalValueAdded ≥ requiredAmount), ⟨acc.selected ++ [utxo], totalValueAdded, 0⟩)
  let added := (walk step server.utxosSortedByAmount ⟨[], 0, 0⟩).2
  if added.totalValue < requiredAmount then .error .insufficientMergeFunds
  else .ok (added.selected, added.totalValue)

def mergeTransaction (server : Server) (splitTransactions : List UnsignedTx)
    (originalTransaction : UnsignedTx) : Except WalletError UnsignedTx := do
  let numOutputs := originalTransaction.outputs.length
  if numOutputs > 2 ∨ numOutputs = 0 then throw (.unexpectedOutputCount numOutputs)
  let sentValue := originalTransaction.outputs.headD 0
  let utxos := splitTransactions.map fun split =>
    (⟨ctx.transactionID split, split.outputs.headD 0⟩ : UTXO)
  let totalValue := sumAmounts (amounts utxos)
  let fee := estimateFee ctx utxos sentValue
  let totalValue := totalValue - fee
  let (utxos, totalValue) ←
    if totalValue < sentValue then do
      let (additionalUTXOs, totalValueAdded) ←
        moreUTXOsForMergeTransaction ctx server utxos (sentValue - totalValue)
      pure (utxos ++ additionalUTXOs, totalValue + totalValueAdded)
    else pure (utxos, totalValue)
  let payments := if totalValue > sentValue then [sentValue, totalValue - sentValue] else [sentValue]
  return ⟨utxos, payments⟩

def maybeSplitAndMergeTransaction (server : Server) :
    Nat → UnsignedTx → Except WalletError (List UnsignedTx)
  | 0, _ => .error .splitTooDeep
  | fuel + 1, transaction => do
    checkTransactionFeeRate ctx transaction
    let transactionMass := ctx.computeMass (amounts transaction.inputs) transaction.outputs
    if transactionMass < maximumStandardTransactionMass then return [transaction]
    let (splitCount, inputCountPerSplit) ← splitAndInputPerSplitCounts ctx transaction transactionMass
    -- `make` panics on a negative length, and each split's `make` on a negative capacity
    if splitCount < 0 then throw (.panic makesliceLenOutOfRange)
    let splitTransactions ← (List.range splitCount.toNat).mapM fun i => do
      if inputCountPerSplit < 0 then throw (.panic makesliceCapOutOfRange)
      let split := createSplitTransaction ctx transaction (i * inputCountPerSplit.toNat)
        (i * inputCountPerSplit.toNat + inputCountPerSplit.toNat)
      checkTransactionFeeRate ctx split
      pure split
    if splitTransactions.length > 1 then
      let merge ← mergeTransaction ctx server splitTransactions transaction
      let splitMergeTransaction ← maybeSplitAndMergeTransaction server fuel merge
      return splitTransactions ++ splitMergeTransaction
    return splitTransactions

def createUnsignedTransactions (server : Server) (amount : UInt64) (isSendAll : Bool)
    (fuel : Nat) : Except WalletError (List UnsignedTx) := do
  let (selectedUTXOs, spendValue, changeSompi) ← selectUTXOs ctx server amount isSendAll
  if selectedUTXOs.length = 0 then throw .noFundsToSpend
  let payments := if changeSompi > 0 then [spendValue, changeSompi] else [spendValue]
  maybeSplitAndMergeTransaction ctx server fuel ⟨selectedUTXOs, payments⟩

/-! ## What the selection pays -/

def natSum (amounts : List UInt64) : Nat := (amounts.map UInt64.toNat).sum

theorem toNat_sumAmounts (amounts : List UInt64) :
    (sumAmounts amounts).toNat = natSum amounts % 2 ^ 64 := by
  suffices fold : ∀ acc : UInt64, (amounts.foldl (· + ·) acc).toNat =
      (acc.toNat + natSum amounts) % 2 ^ 64 by
    simpa [sumAmounts] using fold 0
  induction amounts with
  | nil => intro acc; simp [natSum, Nat.mod_eq_of_lt (UInt64.toNat_lt acc)]
  | cons a rest ih =>
    intro acc
    rw [List.foldl_cons, ih, UInt64.toNat_add, Nat.mod_add_mod]
    simp only [natSum, List.map_cons, List.sum_cons]
    ring_nf

@[simp] theorem sumAmounts_append_singleton (utxos : List UTXO) (utxo : UTXO) :
    sumAmounts (amounts (utxos ++ [utxo])) = sumAmounts (amounts utxos) + utxo.amount := by
  simp [sumAmounts, amounts]

theorem estimateFee_le_maxFee (selected : List UTXO) (recipientValue : UInt64) :
    estimateFee ctx selected recipientValue ≤ ctx.maxFee := by
  rw [estimateFee, UInt64.le_iff_toNat_le, UInt64.toNat_min]
  omega

/-- What the walk keeps of its picks: the total is their `uint64` sum, and the
fee is an estimate, so within the cap. -/
structure Consistent (sel : Selection) : Prop where
  total_eq : sel.totalValue = sumAmounts (amounts sel.selected)
  fee_le : sel.fee ≤ ctx.maxFee

theorem consistent_empty : Consistent ctx ⟨[], 0, 0⟩ := ⟨rfl, UInt64.zero_le⟩

theorem iteration_consistent (server : Server) (preSelected : List UTXO) (spendAmount : UInt64)
    (isSendAll avoidPreselected : Bool) {sel : Selection} (consistent : Consistent ctx sel)
    (utxo : UTXO) :
    Consistent ctx
      (iteration ctx server preSelected spendAmount isSendAll avoidPreselected sel utxo).2 := by
  unfold iteration
  split_ifs
  · exact consistent
  · exact consistent
  all_goals exact ⟨by simp [consistent.total_eq], estimateFee_le_maxFee ctx _ _⟩

theorem walk_invariant {body : Selection → UTXO → Bool × Selection} (P : Selection → Prop)
    (step : ∀ sel utxo, P sel → P (body sel utxo).2) :
    ∀ (utxos : List UTXO) (sel : Selection), P sel → P (walk body utxos sel).2
  | [], _, holds => holds
  | utxo :: utxos, sel, holds => by
    have kept := step sel utxo holds
    unfold walk
    rcases passed : body sel utxo with ⟨goOn, sel'⟩
    rw [passed] at kept
    cases goOn with
    | true => exact walk_invariant P step utxos sel' kept
    | false => exact kept

theorem selectionWalk_consistent (server : Server) (preSelected : List UTXO)
    (spendAmount : UInt64) (isSendAll : Bool) :
    Consistent ctx (selectionWalk ctx server preSelected spendAmount isSendAll) := by
  have keeps : ∀ avoid sel utxo, Consistent ctx sel →
      Consistent ctx (iteration ctx server preSelected spendAmount isSendAll avoid sel utxo).2 :=
    fun avoid _ utxo h => iteration_consistent ctx server preSelected spendAmount isSendAll avoid h utxo
  have first := walk_invariant (Consistent ctx) (keeps false) preSelected _ (consistent_empty ctx)
  unfold selectionWalk
  rcases walked : walk (iteration ctx server preSelected spendAmount isSendAll false)
    preSelected ⟨[], 0, 0⟩ with ⟨goOn, sel⟩
  rw [walked] at first
  cases goOn with
  | true => exact walk_invariant (Consistent ctx) (keeps true) _ sel first
  | false => exact first

theorem settle_sendAll (spendAmount : UInt64) (sel : Selection) :
    settle spendAmount true sel = .ok (sel.selected, sel.totalValue - sel.fee, 0) := by
  simp [settle, UInt64.lt_irrefl]

theorem settle_spend (spendAmount : UInt64) (sel : Selection) :
    settle spendAmount false sel =
      if sel.totalValue < spendAmount + sel.fee then
        .error (.insufficientFunds (spendAmount + sel.fee) sel.totalValue)
      else .ok (sel.selected, spendAmount, sel.totalValue - (spendAmount + sel.fee)) := rfl

theorem settle_ok {spendAmount : UInt64} {isSendAll : Bool} {sel : Selection}
    {selected : List UTXO} {received change : UInt64}
    (settled : settle spendAmount isSendAll sel = .ok (selected, received, change)) :
    selected = sel.selected ∧ received + change + sel.fee = sel.totalValue ∧
      (received.toNat + change.toNat + sel.fee.toNat = sel.totalValue.toNat ↔
        if isSendAll then sel.fee ≤ sel.totalValue
        else spendAmount.toNat + sel.fee.toNat < 2 ^ 64) := by
  have feeBound := UInt64.toNat_lt sel.fee
  have totalBound := UInt64.toNat_lt sel.totalValue
  cases isSendAll with
  | true =>
    rw [settle_sendAll] at settled
    obtain ⟨rfl, rfl, rfl⟩ : sel.selected = selected ∧ sel.totalValue - sel.fee = received ∧
        0 = change := by simpa using settled
    refine ⟨rfl, by simp, ?_⟩
    simp only [if_true, UInt64.le_iff_toNat_le, UInt64.toNat_zero, add_zero, UInt64.toNat_sub]
    omega
  | false =>
    rw [settle_spend] at settled
    split_ifs at settled with short
    obtain ⟨rfl, rfl, rfl⟩ : sel.selected = selected ∧ spendAmount = received ∧
        sel.totalValue - (spendAmount + sel.fee) = change := by simpa using settled
    refine ⟨rfl, by abel, ?_⟩
    have spendBound := UInt64.toNat_lt spendAmount
    rw [UInt64.lt_iff_toNat_lt, not_lt] at short
    simp only [Bool.false_eq_true, if_false, UInt64.toNat_sub_of_le _ _
      (UInt64.le_iff_toNat_le.mpr short)]
    rw [UInt64.toNat_add] at short ⊢
    omega

/-- `selectUTXOsWithPreselected` pays from its picks: the walk's last fee is
within the cap, the total it compares is the `uint64` sum of the picks, and
the payment, the change and the fee add up to that total modulo `2 ^ 64`, and
exactly when the spend does not wrap. -/
theorem selectUTXOsWithPreselected_pays (server : Server) (preSelected : List UTXO)
    (spendAmount : UInt64) (isSendAll : Bool) {selected : List UTXO} {received change : UInt64}
    (selectedOk : selectUTXOsWithPreselected ctx server preSelected spendAmount isSendAll =
      .ok (selected, received, change)) :
    let sel := selectionWalk ctx server preSelected spendAmount isSendAll
    sel.fee ≤ ctx.maxFee ∧ sel.totalValue.toNat = natSum (amounts selected) % 2 ^ 64 ∧
      received + change + sel.fee = sel.totalValue ∧
      (received.toNat + change.toNat + sel.fee.toNat = sel.totalValue.toNat ↔
        if isSendAll then sel.fee ≤ sel.totalValue
        else spendAmount.toNat + sel.fee.toNat < 2 ^ 64) := by
  intro sel
  have consistent := selectionWalk_consistent ctx server preSelected spendAmount isSendAll
  obtain ⟨rfl, sums, exact⟩ := settle_ok selectedOk
  exact ⟨consistent.fee_le, by rw [consistent.total_eq, toNat_sumAmounts], sums, exact⟩

theorem selectUTXOsWithPreselected_pays_oneUTXO :
    let ctx : FeeContext := ⟨fun _ _ => 2000, fun _ _ => 2000, id, 0, sompiPerCryptix, fun _ => 0⟩
    let server : Server := ⟨[⟨0, 5000⟩], fun _ => true, fun _ => true⟩
    let sel := selectionWalk ctx server [] 1000 false
    selectUTXOsWithPreselected ctx server [] 1000 false = .ok ([⟨0, 5000⟩], 1000, 2000) ∧
      sel.fee ≤ ctx.maxFee ∧ sel.totalValue.toNat = natSum (amounts [⟨0, 5000⟩]) % 2 ^ 64 ∧
      1000 + 2000 + sel.fee = sel.totalValue ∧
      ((1000 : UInt64).toNat + (2000 : UInt64).toNat + sel.fee.toNat = sel.totalValue.toNat ↔
        if false then sel.fee ≤ sel.totalValue
        else (1000 : UInt64).toNat + sel.fee.toNat < 2 ^ 64) := by
  intro ctx server sel
  have selected : selectUTXOsWithPreselected ctx server [] 1000 false = .ok ([⟨0, 5000⟩], 1000, 2000) := by
    decide
  exact ⟨selected, selectUTXOsWithPreselected_pays ctx server [] 1000 false selected⟩

/-- A wallet holding one UTXO of one sompi, whose fee estimate is 2000 sompi. -/
theorem createUnsignedTransactions_overspends :
    createUnsignedTransactions ⟨fun _ _ => 2000, fun _ _ => 2000, id, 0, sompiPerCryptix, fun _ => 0⟩
        ⟨[⟨0, 1⟩], fun _ => true, fun _ => true⟩ 0 true 1 =
      .ok [⟨[⟨0, 1⟩], [18446744073709549617]⟩] ∧
    createUnsignedTransactions ⟨fun _ _ => 2000, fun _ _ => 2000, id, 0, sompiPerCryptix, fun _ => 0⟩
        ⟨[⟨0, 5000⟩], fun _ => true, fun _ => true⟩ 18446744073709550616 false 1 =
      .ok [⟨[⟨0, 5000⟩], [18446744073709550616, 4000]⟩] := by
  decide

end Cryptixd.Wallet
