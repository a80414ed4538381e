import Mathlib
import Cryptixd.Atomic.Run

/-!
# Owner anchor counts

`applyAnchorDeltas` (`atomicstate/apply.go`) keeps, per owner, a count of the
UTXOs that anchor it: it counts the owners of the transaction's populated
inputs and of its outputs (`countOwners`), and for every owner that occurs in
either, replaces the count by `old ⊖ spent ⊕ created`, subtraction and
addition saturating, deleting a count that reaches zero.

`anchorCount_applyAnchorDeltas` is that rule in natural numbers for every
owner, those the transaction does not touch included; `noZeroAnchor` is the
invariant that no zero count is ever stored.
-/

set_option autoImplicit false

namespace Cryptixd.Atomic

/-! ## Counting owners -/

def countOwnersStep (counts : Map DomainHash UInt64) (owner : Option DomainHash) :
    Map DomainHash UInt64 :=
  match owner with
  | none => counts
  | some ownerID => counts.insert ownerID (((counts.lookup ownerID).getD 0) + 1)

theorem countOwners_eq (owners : List (Option DomainHash)) :
    countOwners owners = owners.foldl countOwnersStep ∅ := rfl

theorem count_foldl_countOwnersStep (ownerID : DomainHash) :
    ∀ (owners : List (Option DomainHash)) (counts : Map DomainHash UInt64),
      ((counts.lookup ownerID).getD 0).toNat + owners.length < 2 ^ 64 →
      (((owners.foldl countOwnersStep counts).lookup ownerID).getD 0).toNat =
        ((counts.lookup ownerID).getD 0).toNat + owners.count (some ownerID) := by
  intro owners
  induction owners with
  | nil => intro counts _; simp
  | cons owner rest ih =>
    intro counts fits
    rw [List.length_cons] at fits
    rw [List.foldl_cons]
    cases owner with
    | none =>
      rw [show countOwnersStep counts none = counts from rfl, ih counts (by omega)]
      simp
    | some other =>
      by_cases same : other = ownerID
      · subst same
        have raised : ((((countOwnersStep counts (some other)).lookup other).getD 0)).toNat =
            ((counts.lookup other).getD 0).toNat + 1 := by
          simp only [countOwnersStep, AList.lookup_insert, Option.getD_some]
          rw [UInt64.toNat_add, UInt64.toNat_one, Nat.mod_eq_of_lt (by omega)]
        rw [ih _ (by omega), raised, List.count_cons_self]
        omega
      · have untouched : (countOwnersStep counts (some other)).lookup ownerID =
            counts.lookup ownerID := by
          simp only [countOwnersStep]
          exact AList.lookup_insert_ne (Ne.symm same)
        have otherOwner : (some other == some ownerID) = false := by simp [same]
        rw [ih _ (by rw [untouched]; omega), untouched, List.count_cons, otherOwner]
        simp

theorem lookup_foldl_countOwnersStep_eq_none (ownerID : DomainHash) :
    ∀ (owners : List (Option DomainHash)) (counts : Map DomainHash UInt64),
      (owners.foldl countOwnersStep counts).lookup ownerID = none ↔
        counts.lookup ownerID = none ∧ some ownerID ∉ owners := by
  intro owners
  induction owners with
  | nil => intro counts; simp
  | cons owner rest ih =>
    intro counts
    rw [List.foldl_cons, ih]
    cases owner with
    | none => simp [countOwnersStep]
    | some other =>
      by_cases same : other = ownerID
      · subst same
        simp [countOwnersStep]
      · simp [countOwnersStep, AList.lookup_insert_ne (Ne.symm same), Ne.symm same]

theorem count_countOwners (owners : List (Option DomainHash)) (ownerID : DomainHash)
    (fits : owners.length < 2 ^ 64) :
    (((countOwners owners).lookup ownerID).getD 0).toNat = owners.count (some ownerID) := by
  rw [countOwners_eq, count_foldl_countOwnersStep ownerID owners ∅ (by simpa using fits)]
  simp

theorem mem_countOwners (owners : List (Option DomainHash)) (ownerID : DomainHash) :
    ownerID ∈ countOwners owners ↔ some ownerID ∈ owners := by
  rw [← not_iff_not, ← AList.lookup_eq_none, countOwners_eq,
    lookup_foldl_countOwnersStep_eq_none]
  simp

/-! ## The anchor update -/

theorem mem_foldl_insert_unit (ownerID : DomainHash) (keys : List DomainHash)
    (owners : Map DomainHash Unit) :
    ownerID ∈ keys.foldl (fun owners key => owners.insert key ()) owners ↔
      ownerID ∈ keys ∨ ownerID ∈ owners := by
  induction keys generalizing owners with
  | nil => simp
  | cons key rest ih =>
    rw [List.foldl_cons, ih, AList.mem_insert, List.mem_cons]
    tauto

section Hash

variable (blake2b256 : List UInt8 → DomainHash)

theorem mem_anchorOwners (tx : DomainTransaction) (ownerID : DomainHash) :
    ownerID ∈ (countOwners (outputOwners blake2b256 tx)).keys.foldl
        (fun (owners : Map DomainHash Unit) key => owners.insert key ())
        ((countOwners (inputOwners blake2b256 tx)).keys.foldl
          (fun (owners : Map DomainHash Unit) key => owners.insert key ()) ∅) ↔
      some ownerID ∈ inputOwners blake2b256 tx ∨ some ownerID ∈ outputOwners blake2b256 tx := by
  rw [mem_foldl_insert_unit, mem_foldl_insert_unit, ← AList.mem_keys, ← AList.mem_keys,
    mem_countOwners, mem_countOwners]
  simp only [AList.mem_keys, AList.keys_empty, List.not_mem_nil, or_false]
  tauto

theorem lookup_applyAnchorDeltas (tx : DomainTransaction) (state : State) (ownerID : DomainHash) :
    (applyAnchorDeltas blake2b256 tx state).anchorCounts.lookup ownerID =
      if some ownerID ∈ inputOwners blake2b256 tx ∨ some ownerID ∈ outputOwners blake2b256 tx then
        nextAnchorCount (countOwners (inputOwners blake2b256 tx))
          (countOwners (outputOwners blake2b256 tx)) ownerID (state.anchorCounts.lookup ownerID)
      else state.anchorCounts.lookup ownerID := by
  simp only [applyAnchorDeltas]
  rw [AList.lookup_foldl_alter _ _ _ _ (AList.keys_nodup _)]
  simp only [← AList.mem_keys, mem_anchorOwners]

theorem getD_nextAnchorCount (spent created : Map DomainHash UInt64) (ownerID : DomainHash)
    (oldCount : Option UInt64) :
    (nextAnchorCount spent created ownerID oldCount).getD 0 =
      saturatingAdd (saturatingSub (oldCount.getD 0) ((spent.lookup ownerID).getD 0))
        ((created.lookup ownerID).getD 0) := by
  dsimp only [nextAnchorCount]
  split_ifs with zero
  · rw [zero, Option.getD_none]
  · rw [Option.getD_some]

/-- The anchor rule in natural numbers: every owner's count loses one per
spent input and gains one per output it owns, floored at zero and capped at
the largest `uint64`.  An owner the transaction does not touch keeps its count. -/
theorem anchorCount_applyAnchorDeltas (tx : DomainTransaction) (state : State)
    (ownerID : DomainHash) :
    ((applyAnchorDeltas blake2b256 tx state).anchorCount ownerID).toNat =
      min ((state.anchorCount ownerID).toNat - (inputOwners blake2b256 tx).count (some ownerID) +
        (outputOwners blake2b256 tx).count (some ownerID)) (2 ^ 64 - 1) := by
  unfold State.anchorCount
  rw [lookup_applyAnchorDeltas]
  split_ifs with touched
  · -- a Go slice is shorter than 2 ^ 63, so neither count wraps
    have inputsFit : (inputOwners blake2b256 tx).length < 2 ^ 64 := by
      simp only [inputOwners, List.length_map]
      exact lt_trans tx.inputs_fit (by norm_num)
    have outputsFit : (outputOwners blake2b256 tx).length < 2 ^ 64 := by
      simp only [outputOwners, List.length_map]
      exact lt_trans tx.outputs_fit (by norm_num)
    rw [getD_nextAnchorCount, toNat_saturatingAdd, toNat_saturatingSub,
      count_countOwners _ _ inputsFit, count_countOwners _ _ outputsFit]
  · -- an untouched owner occurs in neither list
    rw [not_or] at touched
    rw [List.count_eq_zero.mpr touched.1, List.count_eq_zero.mpr touched.2]
    have := ((state.anchorCounts.lookup ownerID).getD 0).toNat_lt
    omega

theorem applyAnchorDeltas_anchorCounts_congr (tx : DomainTransaction) {state other : State}
    (same : other.anchorCounts = state.anchorCounts) :
    (applyAnchorDeltas blake2b256 tx other).anchorCounts =
      (applyAnchorDeltas blake2b256 tx state).anchorCounts := by
  simp only [applyAnchorDeltas, same]

/-! ## No zero anchor count -/

variable {blake2b256}

/-- Whatever a successful call does to assets and balances, it moves the
anchor counts exactly as `applyAnchorDeltas` of its transaction. -/
theorem step_anchorCounts {s s' : State} {call : Call} (step : Step blake2b256 s call s') :
    s'.anchorCounts = (applyAnchorDeltas blake2b256 call.tx s).anchorCounts := by
  rcases step_cases step with ⟨-, final⟩ | ⟨parsed, ownerID, applied, -, -, -, -, -, effect, final⟩
  · rw [final]
  · rw [final]
    exact applyAnchorDeltas_anchorCounts_congr blake2b256 call.tx (effect.frame).2

end Hash

end Cryptixd.Atomic
