import Mathlib
import Cryptixd.Lib.SortSearch
import Cryptixd.Lib.Hex
import Cryptixd.Atomic.Types

/-!
# The mempool's transactions ordered by fee rate

`domain/miningmanager/mempool/model/ordered_transactions_by_fee_rate.go`. The
mempool keeps its transactions in a slice ordered by fee rate, then by id.
`Push` and `Remove` both locate a transaction with one binary search
(`findTransactionIndex`, over `sort.Search`). `Remove` decides membership only
by looking at the id at the index that search returns.

Go computes the rate as `float64(fee) / float64(mass)` and compares rates with
`>` and `==`. Both fee and mass are non-zero here, so the quotient is a
positive finite float, and IEEE comparison of such floats is a linear order.
The model takes the rate as a function `feeRate` into any linear order. Ids
compare as `bytes.Compare` orders them, which is `compare` on the 32-byte
vectors.

The slice is strictly ascending in `FeeRateLT`, the order of rate then id.
Given that, the search predicate fails on the slice and then holds, so the
search finds where the transaction belongs (`findTransactionIndex_eq`).
`TransactionsOrderedByFeeRate` then refines a plain list of transactions: a push
adds to the list, and a remove takes out a transaction that is present and
reports one that is absent (`FeeRateCall.exec_refines`,
`transactionsOrderedByFeeRate_refines`). This holds whenever each pushed
transaction is absent and no two of the transactions share an id.
-/

set_option autoImplicit false

namespace Cryptixd.Mempool

open Cryptixd.Atomic

/-- The fields of `MempoolTransaction` the order reads: its id and the fee and
mass of its transaction. -/
structure MempoolTransaction where
  transactionID : DomainHash
  fee : UInt64
  mass : UInt64
  deriving DecidableEq, Repr

structure TransactionsOrderedByFeeRate where
  slice : List MempoolTransaction
  deriving DecidableEq, Repr

/-- The errors of the order; `transactionNotFound` wraps `ErrTransactionNotFound`. -/
inductive FeeRateOrderError where
  | missingFeeOrMass
  | transactionNotFound (transactionID : DomainHash)
  | indexOutOfBound (index : ℕ)
  deriving DecidableEq, Repr

def hashString (hash : DomainHash) : String :=
  String.ofList ((Hex.encode hash.toList).map fun digit => Char.ofNat digit.toNat)

def FeeRateOrderError.message : FeeRateOrderError → String
  | .missingFeeOrMass => "findTransactionIndex expects a transaction with populated fee and mass"
  | .transactionNotFound transactionID =>
    "Couldn't find " ++ hashString transactionID ++ " in mp.orderedTransactionsByFeeRate: " ++
      "Couldn't find transaction in mp.orderedTransactionsByFeeRate"
  | .indexOutOfBound index =>
    "Index " ++ toString index ++ " is out of bound of this TransactionsOrderedByFeeRate"

def lessOrEqual (transactionID other : DomainHash) : Bool := (compare transactionID other).isLE

section Model

variable {Rate : Type} [LinearOrder Rate] (feeRate : UInt64 → UInt64 → Rate)

/-- `findTransactionIndex`: where `sort.Search` puts the transaction, and whether
the transaction there has its id. -/
def findTransactionIndex (slice : List MempoolTransaction) (transaction : MempoolTransaction) :
    Except FeeRateOrderError (ℕ × Bool) :=
  if transaction.fee = 0 ∨ transaction.mass = 0 then .error .missingFeeOrMass
  else
    let txID := transaction.transactionID
    let txFeeRate := feeRate transaction.fee transaction.mass
    let index := SortSearch.search slice.length fun i =>
      slice[i]?.any fun iElement =>
        let elementFeeRate := feeRate iElement.fee iElement.mass
        if elementFeeRate > txFeeRate then true
        else if elementFeeRate = txFeeRate ∧ lessOrEqual txID iElement.transactionID then true
        else false
    -- `sort.Search` returns the length when nothing was found
    let wasFound := decide (index ≠ slice.length) &&
      slice[index]?.any fun element => element.transactionID == txID
    .ok (index, wasFound)

def push (ordered : TransactionsOrderedByFeeRate) (transaction : MempoolTransaction) :
    Except FeeRateOrderError TransactionsOrderedByFeeRate := do
  let (index, _) ← findTransactionIndex feeRate ordered.slice transaction
  pure ⟨ordered.slice.take index ++ transaction :: ordered.slice.drop index⟩

/-- `RemoveAtIndex`; Go's check `index < 0 || index > len - 1` on a natural index. -/
def removeAtIndex (ordered : TransactionsOrderedByFeeRate) (index : ℕ) :
    Except FeeRateOrderError TransactionsOrderedByFeeRate :=
  if ordered.slice.length ≤ index then .error (.indexOutOfBound index)
  else .ok ⟨ordered.slice.eraseIdx index⟩

def remove (ordered : TransactionsOrderedByFeeRate) (transaction : MempoolTransaction) :
    Except FeeRateOrderError TransactionsOrderedByFeeRate := do
  let (index, wasFound) ← findTransactionIndex feeRate ordered.slice transaction
  if !wasFound then throw (.transactionNotFound transaction.transactionID)
  removeAtIndex ordered index

/-- The fee-order part of `transactionsPool.removeTransaction`: a transaction the
order does not hold is only logged, any other error is returned. -/
def removeTransactionFromFeeOrder (ordered : TransactionsOrderedByFeeRate)
    (transaction : MempoolTransaction) : Except FeeRateOrderError TransactionsOrderedByFeeRate :=
  match remove feeRate ordered transaction with
  | .ok ordered' => .ok ordered'
  | .error (.transactionNotFound _) => .ok ordered
  | .error err => .error err

def FeeRateLT (transaction other : MempoolTransaction) : Prop :=
  feeRate transaction.fee transaction.mass < feeRate other.fee other.mass ∨
    feeRate transaction.fee transaction.mass = feeRate other.fee other.mass ∧
      compare transaction.transactionID other.transactionID = .lt

instance : DecidableRel (FeeRateLT feeRate) := fun _ _ => by
  unfold FeeRateLT
  infer_instance

end Model

/-! ## The order of rate then id -/

section Order

variable {Rate : Type} [LinearOrder Rate] {feeRate : UInt64 → UInt64 → Rate}

theorem FeeRateLT.irrefl (transaction : MempoolTransaction) :
    ¬ FeeRateLT feeRate transaction transaction := by
  rintro (below | ⟨-, idBelow⟩)
  · exact lt_irrefl _ below
  · have same : compare transaction.transactionID transaction.transactionID = .eq :=
      Std.ReflCmp.compare_self
    exact absurd (same ▸ idBelow) (by decide)

theorem FeeRateLT.trans {a b c : MempoolTransaction} (ab : FeeRateLT feeRate a b)
    (bc : FeeRateLT feeRate b c) : FeeRateLT feeRate a c := by
  rcases ab with rateAB | ⟨rateAB, idAB⟩ <;> rcases bc with rateBC | ⟨rateBC, idBC⟩
  · exact .inl (rateAB.trans rateBC)
  · exact .inl (rateBC ▸ rateAB)
  · exact .inl (rateAB ▸ rateBC)
  · exact .inr ⟨rateAB.trans rateBC, Std.TransCmp.lt_trans idAB idBC⟩

theorem FeeRateLT.transactionID_eq {a b : MempoolTransaction} (notAB : ¬ FeeRateLT feeRate a b)
    (notBA : ¬ FeeRateLT feeRate b a) : a.transactionID = b.transactionID := by
  have sameRate : feeRate a.fee a.mass = feeRate b.fee b.mass :=
    le_antisymm (not_lt.mp fun below => notBA (.inl below))
      (not_lt.mp fun below => notAB (.inl below))
  have equal : compare a.transactionID b.transactionID = .eq := by
    cases order : compare a.transactionID b.transactionID with
    | lt => exact absurd (.inr ⟨sameRate, order⟩) notAB
    | eq => rfl
    | gt => exact absurd (.inr ⟨sameRate.symm, Std.OrientedCmp.gt_iff_lt.mp order⟩) notBA
  exact Std.LawfulEqCmp.compare_eq_iff_eq.mp equal

theorem searchTest_eq (transaction element : MempoolTransaction) :
    (if feeRate element.fee element.mass > feeRate transaction.fee transaction.mass then true
      else if feeRate element.fee element.mass = feeRate transaction.fee transaction.mass ∧
          lessOrEqual transaction.transactionID element.transactionID then true
      else false) = decide (¬ FeeRateLT feeRate element transaction) := by
  have idTest : lessOrEqual transaction.transactionID element.transactionID = true ↔
      compare element.transactionID transaction.transactionID ≠ .lt := by
    rw [lessOrEqual, @Std.OrientedCmp.eq_swap _ compare _ transaction.transactionID
      element.transactionID, Ordering.isLE_swap]
    cases compare element.transactionID transaction.transactionID <;> decide
  unfold FeeRateLT
  split_ifs with above same
  · rw [decide_eq_true]
    rintro (below | ⟨equal, -⟩)
    · exact lt_asymm below above
    · exact lt_irrefl _ (equal ▸ above)
  · rw [decide_eq_true]
    rintro (below | ⟨-, idBelow⟩)
    · exact lt_irrefl _ (same.1 ▸ below)
    · exact idTest.mp same.2 idBelow
  · rw [decide_eq_false]
    rw [not_and, Bool.not_eq_true] at same
    rw [not_not]
    rcases lt_trichotomy (feeRate element.fee element.mass)
      (feeRate transaction.fee transaction.mass) with below | equal | higher
    · exact .inl below
    · refine .inr ⟨equal, ?_⟩
      by_contra notBelow
      exact absurd (idTest.mpr notBelow) (by rw [same equal]; decide)
    · exact absurd higher above

end Order

/-! ## Where the search lands -/

section Search

variable {Rate : Type} [LinearOrder Rate] (feeRate : UInt64 → UInt64 → Rate)

theorem split_of_sorted {slice : List MempoolTransaction}
    (sorted : slice.Pairwise (FeeRateLT feeRate)) (transaction : MempoolTransaction) :
    ∃ lower upper, slice = lower ++ upper ∧
      (∀ element ∈ lower, FeeRateLT feeRate element transaction) ∧
      ∀ element ∈ upper, ¬ FeeRateLT feeRate element transaction := by
  refine ⟨slice.takeWhile fun element => decide (FeeRateLT feeRate element transaction),
    slice.dropWhile fun element => decide (FeeRateLT feeRate element transaction),
    List.takeWhile_append_dropWhile.symm, fun element member => ?_, ?_⟩
  · simpa using List.mem_takeWhile_imp member
  intro element member
  have upperSorted := sorted.sublist
    (List.dropWhile_sublist fun element => decide (FeeRateLT feeRate element transaction))
  have nonempty := List.ne_nil_of_mem member
  have firstNot := List.head_dropWhile_not
    (fun element => decide (FeeRateLT feeRate element transaction)) nonempty
  rw [decide_eq_false_iff_not] at firstNot
  rw [← List.cons_head_tail nonempty] at member upperSorted
  rw [List.pairwise_cons] at upperSorted
  rcases List.mem_cons.mp member with first | later
  · exact first ▸ firstNot
  · exact fun below => firstNot ((upperSorted.1 element later).trans below)

theorem eq_cons_of_mem_upper {upper : List MempoolTransaction}
    (sorted : upper.Pairwise (FeeRateLT feeRate)) {transaction : MempoolTransaction}
    (notBefore : ∀ element ∈ upper, ¬ FeeRateLT feeRate element transaction)
    (member : transaction ∈ upper) : upper = transaction :: upper.tail := by
  cases upper with
  | nil => exact absurd member List.not_mem_nil
  | cons first rest =>
    rcases List.mem_cons.mp member with same | later
    · rw [same, List.tail_cons]
    · exact absurd ((List.pairwise_cons.mp sorted).1 transaction later)
        (notBefore first List.mem_cons_self)

section Split

variable {lower upper : List MempoolTransaction} {transaction : MempoolTransaction}
  (populated : transaction.fee ≠ 0 ∧ transaction.mass ≠ 0)
  (before : ∀ element ∈ lower, FeeRateLT feeRate element transaction)
  (notBefore : ∀ element ∈ upper, ¬ FeeRateLT feeRate element transaction)
include populated before notBefore

theorem findTransactionIndex_eq :
    findTransactionIndex feeRate (lower ++ upper) transaction =
      .ok (lower.length,
        upper.head?.any fun element => element.transactionID == transaction.transactionID) := by
  have testLower : ∀ element ∈ lower, decide (¬ FeeRateLT feeRate element transaction) = false :=
    fun element member => decide_eq_false (not_not.mpr (before element member))
  have testUpper : ∀ element ∈ upper, decide (¬ FeeRateLT feeRate element transaction) = true :=
    fun element member => decide_eq_true (notBefore element member)
  unfold findTransactionIndex
  rw [if_neg (by simpa using populated)]
  dsimp only
  simp only [searchTest_eq]
  rw [SortSearch.search_append lower upper _ testLower testUpper,
    List.getElem?_append_right (le_refl _), Nat.sub_self, ← List.head?_eq_getElem?]
  cases upper with
  | nil => simp
  | cons first rest => simp

theorem push_eq :
    push feeRate ⟨lower ++ upper⟩ transaction = .ok ⟨lower ++ transaction :: upper⟩ := by
  rw [push, findTransactionIndex_eq feeRate populated before notBefore]
  simp

theorem remove_eq_of_head {rest : List MempoolTransaction} (head : upper = transaction :: rest) :
    remove feeRate ⟨lower ++ upper⟩ transaction = .ok ⟨lower ++ rest⟩ := by
  have inside : ¬ (lower ++ transaction :: rest).length ≤ lower.length := by simp
  rw [remove, findTransactionIndex_eq feeRate populated before notBefore, head]
  dsimp only [bind, Except.bind]
  rw [List.head?_cons, Option.any_some, beq_self_eq_true, Bool.not_true,
    if_neg Bool.false_ne_true, removeAtIndex,
    if_neg inside, List.eraseIdx_append_of_length_le (le_refl _), Nat.sub_self,
    List.eraseIdx_cons_zero]

theorem remove_eq_of_head_ne
    (differs : ∀ first ∈ upper.head?, first.transactionID ≠ transaction.transactionID) :
    remove feeRate ⟨lower ++ upper⟩ transaction =
      .error (.transactionNotFound transaction.transactionID) := by
  rw [remove, findTransactionIndex_eq feeRate populated before notBefore]
  cases upper with
  | nil => rfl
  | cons first rest =>
    have : (first.transactionID == transaction.transactionID) = false := by
      simpa using differs first rfl
    simp [this]
    rfl

end Split

end Search

/-! ## Refinement of a list of transactions -/

inductive FeeRateCall where
  | push (transaction : MempoolTransaction)
  | remove (transaction : MempoolTransaction)
  deriving DecidableEq, Repr

def FeeRateCall.transaction : FeeRateCall → MempoolTransaction
  | .push transaction => transaction
  | .remove transaction => transaction

/-- What the calls should do to a list of transactions: a push adds its
transaction; a remove takes out one that is present and reports one that is absent. -/
def FeeRateCall.spec : FeeRateCall → List MempoolTransaction →
    Option FeeRateOrderError × List MempoolTransaction
  | .push transaction, transactions => (none, transaction :: transactions)
  | .remove transaction, transactions =>
    if transaction ∈ transactions then (none, transactions.erase transaction)
    else (some (.transactionNotFound transaction.transactionID), transactions)

def FeeRateCall.Fresh : FeeRateCall → List MempoolTransaction → Prop
  | .push transaction, transactions => transaction ∉ transactions
  | .remove _, _ => True

instance (call : FeeRateCall) (transactions : List MempoolTransaction) :
    Decidable (call.Fresh transactions) := by
  cases call <;> unfold FeeRateCall.Fresh <;> infer_instance

def PushesAbsent : List MempoolTransaction → List FeeRateCall → Prop
  | _, [] => True
  | transactions, call :: calls =>
    call.Fresh transactions ∧ PushesAbsent (call.spec transactions).2 calls

instance decidablePushesAbsent :
    (transactions : List MempoolTransaction) → (calls : List FeeRateCall) →
      Decidable (PushesAbsent transactions calls)
  | _, [] => isTrue trivial
  | transactions, call :: calls =>
    @instDecidableAnd _ _ _ (decidablePushesAbsent (call.spec transactions).2 calls)

def runSpec : List FeeRateCall → List MempoolTransaction →
    List (Option FeeRateOrderError) × List MempoolTransaction
  | [], transactions => ([], transactions)
  | call :: calls, transactions =>
    let (answer, transactions') := call.spec transactions
    let (answers, final) := runSpec calls transactions'
    (answer :: answers, final)

section Run

variable {Rate : Type} [LinearOrder Rate] (feeRate : UInt64 → UInt64 → Rate)

/-- A call on the order: its error, if any, and the order after, unchanged on error. -/
def FeeRateCall.exec (call : FeeRateCall) (ordered : TransactionsOrderedByFeeRate) :
    Option FeeRateOrderError × TransactionsOrderedByFeeRate :=
  let result := match call with
    | .push transaction => Mempool.push feeRate ordered transaction
    | .remove transaction => Mempool.remove feeRate ordered transaction
  match result with
  | .ok ordered' => (none, ordered')
  | .error err => (some err, ordered)

def runCalls : List FeeRateCall → TransactionsOrderedByFeeRate →
    List (Option FeeRateOrderError) × TransactionsOrderedByFeeRate
  | [], ordered => ([], ordered)
  | call :: calls, ordered =>
    let (answer, ordered') := call.exec feeRate ordered
    let (answers, final) := runCalls calls ordered'
    (answer :: answers, final)

/-- The order holds the listed transactions, ascending. -/
structure Refines (ordered : TransactionsOrderedByFeeRate)
    (transactions : List MempoolTransaction) : Prop where
  sorted : ordered.slice.Pairwise (FeeRateLT feeRate)
  perm : ordered.slice.Perm transactions

variable {feeRate}

theorem mem_spec {call : FeeRateCall} {transactions : List MempoolTransaction}
    {element : MempoolTransaction} (member : element ∈ (call.spec transactions).2) :
    element ∈ transactions ∨ element = call.transaction := by
  cases call with
  | push transaction =>
    rcases List.mem_cons.mp member with same | held
    · exact .inr same
    · exact .inl held
  | remove transaction =>
    simp only [FeeRateCall.spec] at member
    split_ifs at member
    · exact .inl (List.mem_of_mem_erase member)
    · exact .inl member

theorem Refines.exec {ordered : TransactionsOrderedByFeeRate}
    {transactions : List MempoolTransaction} (refines : Refines feeRate ordered transactions)
    (call : FeeRateCall) (populated : call.transaction.fee ≠ 0 ∧ call.transaction.mass ≠ 0)
    (consistent : ∀ element ∈ transactions,
      element.transactionID = call.transaction.transactionID → element = call.transaction)
    (fresh : call.Fresh transactions) :
    (call.exec feeRate ordered).1 = (call.spec transactions).1 ∧
      Refines feeRate (call.exec feeRate ordered).2 (call.spec transactions).2 := by
  obtain ⟨slice⟩ := ordered
  obtain ⟨sorted, perm⟩ := refines
  obtain ⟨lower, upper, rfl, before, notBefore⟩ :=
    split_of_sorted feeRate sorted call.transaction
  have held : ∀ element ∈ upper, element ∈ transactions := fun element member =>
    perm.subset (List.mem_append_right lower member)
  obtain ⟨lowerSorted, upperSorted, across⟩ := List.pairwise_append.mp sorted
  cases call with
  | push transaction =>
    simp only [FeeRateCall.transaction] at populated consistent before notBefore
    have after : ∀ element ∈ upper, FeeRateLT feeRate transaction element := by
      intro element member
      by_contra notAfter
      have same := consistent element (held element member)
        (FeeRateLT.transactionID_eq (notBefore element member) notAfter)
      exact fresh (same ▸ held element member)
    simp only [FeeRateCall.exec, push_eq feeRate populated before notBefore]
    refine ⟨rfl, ⟨?_, List.perm_middle.trans (perm.cons transaction)⟩⟩
    refine List.pairwise_append.mpr ⟨lowerSorted, List.pairwise_cons.mpr ⟨after, upperSorted⟩, ?_⟩
    intro first firstMember second secondMember
    rcases List.mem_cons.mp secondMember with same | later
    · exact same ▸ before first firstMember
    · exact across first firstMember second later
  | remove transaction =>
    simp only [FeeRateCall.transaction] at populated consistent before notBefore
    by_cases present : transaction ∈ transactions
    · have notLower : transaction ∉ lower := fun member =>
        FeeRateLT.irrefl transaction (before transaction member)
      have inUpper : transaction ∈ upper := by
        rcases List.mem_append.mp (perm.mem_iff.mpr present) with low | up
        · exact absurd low notLower
        · exact up
      have head := eq_cons_of_mem_upper feeRate upperSorted notBefore inUpper
      simp only [FeeRateCall.exec, remove_eq_of_head feeRate populated before notBefore head,
        FeeRateCall.spec, if_pos present, true_and]
      refine ⟨sorted.sublist ?_, ?_⟩
      · rw [head]
        exact List.Sublist.append_left (List.sublist_cons_self transaction upper.tail) lower
      · have erased : (lower ++ upper).erase transaction = lower ++ upper.tail := by
          rw [List.erase_append_right _ notLower, head, List.erase_cons_head, List.tail_cons]
        exact erased ▸ perm.erase transaction
    · -- an absent transaction's id is not the id of the element the search lands on
      have differs : ∀ first ∈ upper.head?, first.transactionID ≠ transaction.transactionID := by
        intro first first_mem same
        have member := held first (List.mem_of_mem_head? first_mem)
        exact present (consistent first member same ▸ member)
      simp only [FeeRateCall.exec, remove_eq_of_head_ne feeRate populated before notBefore differs,
        FeeRateCall.spec, if_neg present, true_and]
      exact ⟨sorted, perm⟩

theorem Refines.runCalls {ordered : TransactionsOrderedByFeeRate}
    {transactions : List MempoolTransaction} (refines : Refines feeRate ordered transactions)
    (calls : List FeeRateCall)
    (populated : ∀ call ∈ calls, call.transaction.fee ≠ 0 ∧ call.transaction.mass ≠ 0)
    (distinctIDs : ∀ a ∈ transactions ++ calls.map FeeRateCall.transaction,
      ∀ b ∈ transactions ++ calls.map FeeRateCall.transaction,
        a.transactionID = b.transactionID → a = b)
    (absent : PushesAbsent transactions calls) :
    (runCalls feeRate calls ordered).1 = (runSpec calls transactions).1 ∧
      Refines feeRate (runCalls feeRate calls ordered).2 (runSpec calls transactions).2 := by
  induction calls generalizing ordered transactions with
  | nil => exact ⟨rfl, refines⟩
  | cons call calls ih =>
    have callMember : call.transaction ∈ transactions ++ (call :: calls).map FeeRateCall.transaction :=
      List.mem_append_right _ (List.mem_map_of_mem List.mem_cons_self)
    obtain ⟨answer, stepped⟩ := refines.exec call (populated call List.mem_cons_self)
      (fun element member same => distinctIDs element (List.mem_append_left _ member)
        call.transaction callMember same)
      absent.1
    have kept : ∀ element ∈ (call.spec transactions).2 ++ calls.map FeeRateCall.transaction,
        element ∈ transactions ++ (call :: calls).map FeeRateCall.transaction := by
      intro element member
      rcases List.mem_append.mp member with left | right
      · rcases mem_spec left with old | new
        · exact List.mem_append_left _ old
        · exact new ▸ callMember
      · exact List.mem_append_right _ (List.mem_cons_of_mem _ right)
    obtain ⟨answers, final⟩ := ih stepped
      (fun other member => populated other (List.mem_cons_of_mem _ member))
      (fun a aMember b bMember => distinctIDs a (kept a aMember) b (kept b bMember)) absent.2
    simp only [Mempool.runCalls, runSpec]
    exact ⟨by rw [answer, answers], final⟩

end Run

theorem transactionsOrderedByFeeRate_refines {Rate : Type} [LinearOrder Rate]
    (feeRate : UInt64 → UInt64 → Rate) (calls : List FeeRateCall)
    (populated : ∀ call ∈ calls, call.transaction.fee ≠ 0 ∧ call.transaction.mass ≠ 0)
    (distinctIDs : ∀ a ∈ calls, ∀ b ∈ calls,
      a.transaction.transactionID = b.transaction.transactionID → a.transaction = b.transaction)
    (absent : PushesAbsent [] calls) :
    (runCalls feeRate calls ⟨[]⟩).1 = (runSpec calls []).1 ∧
      (runCalls feeRate calls ⟨[]⟩).2.slice.Pairwise (FeeRateLT feeRate) ∧
      (runCalls feeRate calls ⟨[]⟩).2.slice.Perm (runSpec calls []).2 := by
  have start : Refines feeRate ⟨[]⟩ [] := ⟨List.Pairwise.nil, List.Perm.refl []⟩
  have callsOnly : ∀ a ∈ ([] : List MempoolTransaction) ++ calls.map FeeRateCall.transaction,
      ∀ b ∈ ([] : List MempoolTransaction) ++ calls.map FeeRateCall.transaction,
        a.transactionID = b.transactionID → a = b := by
    intro a aMember b bMember
    rw [List.nil_append, List.mem_map] at aMember bMember
    obtain ⟨callA, memberA, rfl⟩ := aMember
    obtain ⟨callB, memberB, rfl⟩ := bMember
    exact distinctIDs callA memberA callB memberB
  obtain ⟨answers, refines⟩ := start.runCalls calls populated callsOnly absent
  exact ⟨answers, refines.sorted, refines.perm⟩

def rationalFeeRate (fee mass : UInt64) : ℚ := (fee.toNat : ℚ) / mass.toNat

def feeRateCalls : List FeeRateCall :=
  [.push ⟨Vector.replicate 32 2, 30, 5⟩, .push ⟨Vector.replicate 32 1, 10, 5⟩,
    .remove ⟨Vector.replicate 32 2, 30, 5⟩, .remove ⟨Vector.replicate 32 2, 30, 5⟩]

theorem transactionsOrderedByFeeRate_refines_pushRemove :
    (∀ call ∈ feeRateCalls, call.transaction.fee ≠ 0 ∧ call.transaction.mass ≠ 0) ∧
      (∀ a ∈ feeRateCalls, ∀ b ∈ feeRateCalls,
        a.transaction.transactionID = b.transaction.transactionID → a.transaction = b.transaction) ∧
      PushesAbsent [] feeRateCalls ∧
      (runCalls rationalFeeRate feeRateCalls ⟨[]⟩).1 = (runSpec feeRateCalls []).1 ∧
      (runCalls rationalFeeRate feeRateCalls ⟨[]⟩).2.slice.Pairwise (FeeRateLT rationalFeeRate) ∧
      (runCalls rationalFeeRate feeRateCalls ⟨[]⟩).2.slice.Perm (runSpec feeRateCalls []).2 :=
  have populated : ∀ call ∈ feeRateCalls, call.transaction.fee ≠ 0 ∧ call.transaction.mass ≠ 0 := by
    decide
  have distinctIDs : ∀ a ∈ feeRateCalls, ∀ b ∈ feeRateCalls,
      a.transaction.transactionID = b.transaction.transactionID → a.transaction = b.transaction := by
    decide
  have absent : PushesAbsent [] feeRateCalls := by decide
  ⟨populated, distinctIDs, absent,
    transactionsOrderedByFeeRate_refines rationalFeeRate feeRateCalls populated distinctIDs absent⟩

end Cryptixd.Mempool
