import Mathlib
import Cryptixd.Atomic.ApplySpec
import Cryptixd.Lib.Trace

/-!
# What the bonding curve guarantees

`apply.go` prices liquidity trades on a constant-product curve over virtual
reserves `(x, y)`, rounding every quotient in the pool's favour, and charges
a basis-point fee on the gross CPAY input.  This file states what that
arithmetic achieves:

* `cpmmBuy_tight`, `cpmmSell_tight`: each trade keeps the virtual product
  `x * y` and gives out the most it can without lowering it;
* `minGrossInputForNetInput_least`: the fee inverse returns the least gross
  input that nets a given amount, and both of its loops stop on their own;
* `canonicalBuy_least`: the canonical input of a buy is the least gross input
  buying its output, and the check that re-verifies it never fails;
* `sellSequence_noProfit`: no split of a bought amount into sells returns more
  CPAY than the buy put in.
-/

set_option autoImplicit false

namespace Cryptixd.Atomic

/-! ## Ceiling division -/

theorem lt_ceilDiv_iff (numerator denominator bound : Nat) (positive : 0 < denominator) :
    bound < (numerator + denominator - 1) / denominator ↔ bound * denominator < numerator := by
  rw [Nat.lt_iff_add_one_le, Nat.le_div_iff_mul_le positive, Nat.add_mul, Nat.one_mul]
  omega

theorem ceilDiv_le_iff (numerator denominator bound : Nat) (positive : 0 < denominator) :
    (numerator + denominator - 1) / denominator ≤ bound ↔ numerator ≤ bound * denominator := by
  rw [← not_lt, lt_ceilDiv_iff _ _ _ positive, not_lt]

/-! ## Rounding of one trade -/

section Tight

variable {realTokenReserves virtualTokenReserves tokenOut newRealTokenReserves yAfter : Uint128}
  {virtualCPayReserves cpayNetIn xAfter : UInt64}

theorem cpmmBuy_tight
    (bought : cpmmBuy realTokenReserves virtualCPayReserves virtualTokenReserves cpayNetIn =
      .ok (tokenOut, newRealTokenReserves, xAfter, yAfter)) :
    xAfter.toNat = virtualCPayReserves.toNat + cpayNetIn.toNat ∧
      yAfter.val = virtualTokenReserves.val - tokenOut.val ∧
      newRealTokenReserves.val = realTokenReserves.val - tokenOut.val ∧
      1 ≤ tokenOut.val ∧ tokenOut.val ≤ realTokenReserves.val - 1 ∧
      (virtualCPayReserves.toNat : Int) * virtualTokenReserves.val ≤
        (xAfter.toNat : Int) * yAfter.val ∧
      (xAfter.toNat : Int) * (yAfter.val - 1) <
        (virtualCPayReserves.toNat : Int) * virtualTokenReserves.val := by
  have outcome := cpmmBuy_ok bought
  have xPositive : 0 < xAfter.toNat := by
    have := outcome.netIn_pos
    have := outcome.xAfter_eq
    omega
  -- `y'` is the ceiling of `x * y / x'`
  obtain ⟨reaches, within⟩ := ceilDiv_spec
    (virtualCPayReserves.toNat * virtualTokenReserves.val) xAfter.toNat xPositive
  rw [← outcome.yAfter_eq] at reaches within
  have yPositive := outcome.yAfter_pos
  refine ⟨outcome.xAfter_eq, by have := outcome.tokenOut_add; omega,
    by have := outcome.newReal_add; omega, outcome.tokenOut_pos,
    by have := outcome.tokenOut_lt; omega, ?_, ?_⟩
  · rw [mul_comm (xAfter.toNat : Int)]
    exact_mod_cast reaches
  · rw [mul_sub, mul_one, mul_comm (xAfter.toNat : Int)]
    have : (yAfter.val : Int) * xAfter.toNat < virtualCPayReserves.toNat * virtualTokenReserves.val +
        xAfter.toNat := by exact_mod_cast within
    linarith

variable {realCPayReservesSompi grossOut newRealCPayReserves : UInt64} {tokenIn : Uint128}

theorem cpmmSell_tight
    (sold : cpmmSell realCPayReservesSompi virtualCPayReserves virtualTokenReserves tokenIn =
      .ok (grossOut, newRealCPayReserves, xAfter, yAfter)) :
    yAfter.val = virtualTokenReserves.val + tokenIn.val ∧
      xAfter.toNat = virtualCPayReserves.toNat - grossOut.toNat ∧
      newRealCPayReserves.toNat = realCPayReservesSompi.toNat - grossOut.toNat ∧
      1 ≤ newRealCPayReserves.toNat ∧
      (virtualCPayReserves.toNat : Int) * virtualTokenReserves.val ≤
        (xAfter.toNat : Int) * yAfter.val ∧
      ((xAfter.toNat : Int) - 1) * yAfter.val <
        (virtualCPayReserves.toNat : Int) * virtualTokenReserves.val := by
  have outcome := cpmmSell_ok sold
  have yPositive : 0 < yAfter.val := by
    have := outcome.tokenIn_pos
    have := outcome.yAfter_eq
    omega
  obtain ⟨reaches, within⟩ := ceilDiv_spec
    (virtualCPayReserves.toNat * virtualTokenReserves.val) yAfter.val yPositive
  rw [← outcome.xAfter_eq] at reaches within
  refine ⟨outcome.yAfter_eq, by have := outcome.grossOut_add; omega,
    by have := outcome.newReal_add; omega,
    by have := outcome.newReal_add; have := outcome.grossOut_lt; omega, ?_, ?_⟩
  · exact_mod_cast reaches
  · rw [sub_mul, one_mul]
    have : (xAfter.toNat : Int) * yAfter.val < virtualCPayReserves.toNat * virtualTokenReserves.val +
        yAfter.val := by exact_mod_cast within
    linarith

/-- Both trades round in the pool's favour and no further. -/
theorem cpmm_rounding_tight :
    (∀ (realTokenReserves : Uint128) (virtualCPayReserves : UInt64)
        (virtualTokenReserves : Uint128) (cpayNetIn : UInt64)
        (tokenOut newRealTokenReserves : Uint128) (xAfter : UInt64) (yAfter : Uint128),
        cpmmBuy realTokenReserves virtualCPayReserves virtualTokenReserves cpayNetIn =
          .ok (tokenOut, newRealTokenReserves, xAfter, yAfter) →
        xAfter.toNat = virtualCPayReserves.toNat + cpayNetIn.toNat ∧
          yAfter.val = virtualTokenReserves.val - tokenOut.val ∧
          newRealTokenReserves.val = realTokenReserves.val - tokenOut.val ∧
          1 ≤ tokenOut.val ∧ tokenOut.val ≤ realTokenReserves.val - 1 ∧
          (virtualCPayReserves.toNat : Int) * virtualTokenReserves.val ≤
            (xAfter.toNat : Int) * yAfter.val ∧
          (xAfter.toNat : Int) * (yAfter.val - 1) <
            (virtualCPayReserves.toNat : Int) * virtualTokenReserves.val) ∧
    (∀ (realCPayReservesSompi virtualCPayReserves : UInt64) (virtualTokenReserves tokenIn : Uint128)
        (grossOut newRealCPayReserves xAfter : UInt64) (yAfter : Uint128),
        cpmmSell realCPayReservesSompi virtualCPayReserves virtualTokenReserves tokenIn =
          .ok (grossOut, newRealCPayReserves, xAfter, yAfter) →
        yAfter.val = virtualTokenReserves.val + tokenIn.val ∧
          xAfter.toNat = virtualCPayReserves.toNat - grossOut.toNat ∧
          newRealCPayReserves.toNat = realCPayReservesSompi.toNat - grossOut.toNat ∧
          1 ≤ newRealCPayReserves.toNat ∧
          (virtualCPayReserves.toNat : Int) * virtualTokenReserves.val ≤
            (xAfter.toNat : Int) * yAfter.val ∧
          ((xAfter.toNat : Int) - 1) * yAfter.val <
            (virtualCPayReserves.toNat : Int) * virtualTokenReserves.val) :=
  ⟨fun _ _ _ _ _ _ _ _ bought => cpmmBuy_tight bought, fun _ _ _ _ _ _ _ _ sold => cpmmSell_tight sold⟩

end Tight

/-! ## The fee inverse -/

def netOfGross (feeBPS grossIn : Nat) : Nat := grossIn - grossIn * feeBPS / 10000

def grossGuess (netIn feeBPS : Nat) : Nat := (netIn - 1) * 10000 / (10000 - feeBPS) + 1

theorem le_netOfGross_iff {feeBPS netIn : Nat} (grossIn : Nat) (below : feeBPS < 10000)
    (positive : 0 < netIn) :
    netIn ≤ netOfGross feeBPS grossIn ↔ grossGuess netIn feeBPS ≤ grossIn := by
  have split : grossIn * feeBPS + grossIn * (10000 - feeBPS) = 10000 * grossIn := by
    rw [← Nat.mul_add, Nat.add_sub_cancel' below.le, Nat.mul_comm]
  unfold netOfGross grossGuess
  rw [← Nat.lt_iff_add_one_le, Nat.div_lt_iff_lt_mul (by omega)]
  omega

theorem grossGuess_isLeast {feeBPS netIn : Nat} (below : feeBPS < 10000) (positive : 0 < netIn) :
    IsLeast {grossIn | netIn ≤ netOfGross feeBPS grossIn} (grossGuess netIn feeBPS) :=
  ⟨(le_netOfGross_iff _ below positive).mpr le_rfl,
    fun _ nets => (le_netOfGross_iff _ below positive).mp nets⟩

theorem grossGuess_free (netIn : Nat) (positive : 0 < netIn) : grossGuess netIn 0 = netIn := by
  unfold grossGuess
  rw [Nat.sub_zero, Nat.mul_div_cancel _ (by norm_num)]
  omega

theorem calculateTradeFee_ok (grossIn : UInt64) {feeBPS : UInt16} (belowWhole : feeBPS.toNat ≤ 10000) :
    calculateTradeFee grossIn feeBPS = .ok (UInt64.ofNat (grossIn.toNat * feeBPS.toNat / 10000)) := by
  have bounded : grossIn.toNat * feeBPS.toNat / 10000 ≤ grossIn.toNat :=
    Nat.div_le_of_le_mul (by rw [Nat.mul_comm 10000]; exact Nat.mul_le_mul_left _ belowWhole)
  have := grossIn.toNat_lt
  rw [calculateTradeFee_eq_ok_iff, UInt64.toNat_ofNat', Nat.mod_eq_of_lt (by omega)]

theorem calculateTradeFee_net {grossIn fee : UInt64} {feeBPS : UInt16}
    (computed : calculateTradeFee grossIn feeBPS = .ok fee) (belowWhole : feeBPS.toNat ≤ 10000) :
    (grossIn - fee).toNat = netOfGross feeBPS.toNat grossIn.toNat := by
  have bounded := calculateTradeFee_le computed belowWhole
  rw [UInt64.toNat_sub_of_le _ _ (UInt64.le_iff_toNat_le.mpr bounded),
    (calculateTradeFee_eq_ok_iff _ _ _).mp computed]
  rfl

theorem calculateTradeFee_error {grossIn : UInt64} {feeBPS : UInt16} {message : String}
    (failed : calculateTradeFee grossIn feeBPS = .error message) :
    message = "fee does not fit into u64" := by
  unfold calculateTradeFee at failed
  split at failed
  · cases failed
  · cases failed
    rfl

theorem bigToUint64_natCast (value : Nat) :
    bigToUint64 value = if value < 2 ^ 64 then some (UInt64.ofNat value) else none := by
  unfold bigToUint64
  simp only [Int.natCast_nonneg, true_and, Int.toNat_natCast]

section Loops

variable {netIn grossIn : UInt64} {feeBPS : UInt16}

theorem lowerGrossInput_least (below : feeBPS.toNat < 10000)
    (least : ∀ smaller < grossIn.toNat, netOfGross feeBPS.toNat smaller < netIn.toNat)
    (fuel : Nat) : lowerGrossInput netIn feeBPS fuel grossIn = .ok grossIn := by
  cases fuel with
  | zero => rfl
  | succ fuel =>
    rw [lowerGrossInput.eq_2]
    by_cases above : grossIn > 1
    · have previousLt : (grossIn - 1).toNat < grossIn.toNat := by
        rw [gt_iff_lt, UInt64.lt_iff_toNat_lt, UInt64.toNat_one] at above
        rw [UInt64.toNat_sub_of_le _ _ (UInt64.le_iff_toNat_le.mpr (by simp; omega)),
          UInt64.toNat_one]
        omega
      have fee := calculateTradeFee_ok (grossIn - 1) below.le
      rw [if_pos above]
      dsimp only
      rw [fee]
      dsimp only
      rw [if_pos (by
        rw [UInt64.lt_iff_toNat_lt, calculateTradeFee_net fee below.le]
        exact least _ previousLt)]
    · rw [if_neg above]

theorem raiseGrossInput_nets (below : feeBPS.toNat < 10000)
    (nets : netIn.toNat ≤ netOfGross feeBPS.toNat grossIn.toNat) (fuel : Nat) :
    raiseGrossInput netIn feeBPS (fuel + 1) grossIn = .ok grossIn := by
  have fee := calculateTradeFee_ok grossIn below.le
  rw [raiseGrossInput.eq_2, fee]
  dsimp only
  rw [if_pos (by
    rw [ge_iff_le, UInt64.le_iff_toNat_le, calculateTradeFee_net fee below.le]
    exact nets)]

private theorem fuel_stable {result : Nat → Except String UInt64} {bound : Nat}
    (extra : ∀ fuel, bound ≤ fuel → result (fuel + 1) = result fuel) :
    ∀ fuel, bound ≤ fuel → result fuel = result bound := by
  intro fuel enough
  induction fuel, enough using Nat.le_induction with
  | base => rfl
  | succ fuel enough inductionHypothesis => rw [extra fuel enough, inductionHypothesis]

theorem lowerGrossInput_enough (netIn : UInt64) (feeBPS : UInt16) (grossIn : UInt64) :
    ∀ fuel, grossIn.toNat ≤ fuel →
      lowerGrossInput netIn feeBPS fuel grossIn = lowerGrossInput netIn feeBPS grossIn.toNat grossIn :=
  fuel_stable (lowerGrossInput_fuel netIn feeBPS · grossIn)

theorem raiseGrossInput_enough (netIn : UInt64) (feeBPS : UInt16) (grossIn : UInt64) :
    ∀ fuel, 2 ^ 64 - grossIn.toNat ≤ fuel →
      raiseGrossInput netIn feeBPS fuel grossIn =
        raiseGrossInput netIn feeBPS (2 ^ 64 - grossIn.toNat) grossIn :=
  fuel_stable (raiseGrossInput_fuel netIn feeBPS · grossIn)

end Loops

theorem minGrossInputForNetInput_eq {netIn : UInt64} {feeBPS : UInt16} (positive : 0 < netIn.toNat)
    (below : feeBPS.toNat < 10000) (charged : 0 < feeBPS.toNat) :
    minGrossInputForNetInput netIn feeBPS =
      if grossGuess netIn.toNat feeBPS.toNat < 2 ^ 64 then
        .ok (UInt64.ofNat (grossGuess netIn.toNat feeBPS.toNat))
      else .error "canonical buy gross input does not fit u64" := by
  have valid : ¬(netIn = 0 ∨ feeBPS ≥ 10000) := by
    rw [← UInt64.toNat_inj, ge_iff_le, UInt16.le_iff_toNat_le]
    simp only [UInt64.toNat_zero, not_or, not_le]
    exact ⟨by omega, below⟩
  have notFree : ¬feeBPS = 0 := by
    rw [← UInt16.toNat_inj]
    simp only [UInt16.toNat_zero]
    omega
  have denominator : (10000 - feeBPS.toUInt64).toNat = 10000 - feeBPS.toNat := by
    rw [UInt64.toNat_sub_of_le _ _ (by rw [UInt64.le_iff_toNat_le]; simp; omega),
      UInt16.toNat_toUInt64]
    rfl
  have previous : (netIn - 1).toNat = netIn.toNat - 1 := by
    rw [UInt64.toNat_sub_of_le _ _ (UInt64.le_iff_toNat_le.mpr (by simp; omega)),
      UInt64.toNat_one]
  have guess : ((netIn - 1).toNat * 10000 / ((10000 - feeBPS.toUInt64).toNat : Int) + 1 : Int) =
      (grossGuess netIn.toNat feeBPS.toNat : Nat) := by
    rw [denominator, previous, grossGuess]
    push_cast
    rfl
  unfold minGrossInputForNetInput
  simp only [if_neg valid, if_neg notFree]
  rw [guess, bigToUint64_natCast]
  split_ifs with fits
  · have least := grossGuess_isLeast below positive
    have value : (UInt64.ofNat (grossGuess netIn.toNat feeBPS.toNat)).toNat =
        grossGuess netIn.toNat feeBPS.toNat := by
      rw [UInt64.toNat_ofNat', Nat.mod_eq_of_lt fits]
    dsimp only
    rw [lowerGrossInput_least below (by
      intro smaller lower
      rw [value] at lower
      exact lt_of_not_ge fun nets => absurd (least.2 nets) (not_le.mpr lower))]
    simp only [bind, Except.bind]
    rw [show 2 ^ 64 - (UInt64.ofNat (grossGuess netIn.toNat feeBPS.toNat)).toNat =
      (2 ^ 64 - grossGuess netIn.toNat feeBPS.toNat - 1) + 1 by rw [value]; omega,
      raiseGrossInput_nets below (by rw [value]; exact least.1)]
  · rfl

theorem minGrossInputForNetInput_free {netIn : UInt64} (positive : 0 < netIn.toNat) :
    minGrossInputForNetInput netIn 0 = .ok netIn := by
  have valid : ¬(netIn = 0 ∨ (0 : UInt16) ≥ 10000) := by
    rw [← UInt64.toNat_inj]
    simp only [UInt64.toNat_zero, not_or]
    exact ⟨by omega, by decide⟩
  unfold minGrossInputForNetInput
  simp only [if_neg valid]
  rfl

/-- The fee inverse returns the least gross input netting `netIn`, and fails
only when that input does not fit in `uint64`; both loops stop within the
rounds they are given, so more rounds would change nothing. -/
theorem minGrossInputForNetInput_least (netIn : UInt64) (feeBPS : UInt16)
    (positive : 0 < netIn.toNat) (below : feeBPS.toNat < 10000) :
    ((∃ grossIn, minGrossInputForNetInput netIn feeBPS = .ok grossIn ∧
        IsLeast {g | netIn.toNat ≤ netOfGross feeBPS.toNat g} grossIn.toNat) ∨
      (∃ message, minGrossInputForNetInput netIn feeBPS = .error message ∧
        ∀ g < 2 ^ 64, netOfGross feeBPS.toNat g < netIn.toNat)) ∧
    (∀ fuel grossIn, grossIn.toNat ≤ fuel →
      lowerGrossInput netIn feeBPS fuel grossIn = lowerGrossInput netIn feeBPS grossIn.toNat grossIn) ∧
    (∀ fuel grossIn, 2 ^ 64 - grossIn.toNat ≤ fuel →
      raiseGrossInput netIn feeBPS fuel grossIn =
        raiseGrossInput netIn feeBPS (2 ^ 64 - grossIn.toNat) grossIn) := by
  refine ⟨?_, fun fuel grossIn => lowerGrossInput_enough netIn feeBPS grossIn fuel,
    fun fuel grossIn => raiseGrossInput_enough netIn feeBPS grossIn fuel⟩
  have least := grossGuess_isLeast below positive
  by_cases free : feeBPS = 0
  · subst free
    rw [UInt16.toNat_zero, grossGuess_free _ positive] at least
    exact .inl ⟨netIn, minGrossInputForNetInput_free positive, least⟩
  · have charged : 0 < feeBPS.toNat := by
      rw [← UInt16.toNat_inj, UInt16.toNat_zero] at free
      omega
    rw [minGrossInputForNetInput_eq positive below charged]
    split_ifs with fits
    · exact .inl ⟨_, rfl, by rwa [UInt64.toNat_ofNat', Nat.mod_eq_of_lt fits]⟩
    · exact .inr ⟨_, rfl, fun g small => lt_of_not_ge fun nets =>
        fits (lt_of_le_of_lt (least.2 nets) small)⟩

theorem minGrossInputForNetInput_least_thirtyBPS :
    minGrossInputForNetInput 1000 30 = .ok 1003 ∧
      IsLeast {g | (1000 : UInt64).toNat ≤ netOfGross (30 : UInt16).toNat g} 1003 := by
  have computed : minGrossInputForNetInput 1000 30 = .ok 1003 := by rfl
  obtain ⟨⟨grossIn, found, least⟩ | ⟨message, failed, -⟩, -, -⟩ :=
    minGrossInputForNetInput_least 1000 30 (by decide) (by decide)
  · rw [computed, Except.ok.injEq] at found
    subst found
    exact ⟨computed, least⟩
  · rw [computed] at failed
    cases failed

theorem minGrossInputForNetInput_valid_iff {netIn : UInt64} {feeBPS : UInt16} :
    ¬(netIn = 0 ∨ feeBPS ≥ 10000) ↔ 0 < netIn.toNat ∧ feeBPS.toNat < 10000 := by
  have whole : (10000 : UInt16).toNat = 10000 := rfl
  rw [← UInt64.toNat_inj, ge_iff_le, UInt16.le_iff_toNat_le, whole]
  simp only [UInt64.toNat_zero, not_or, not_le]
  omega

theorem minGrossInputForNetInput_invalid {netIn : UInt64} {feeBPS : UInt16}
    (invalid : netIn = 0 ∨ feeBPS ≥ 10000) :
    minGrossInputForNetInput netIn feeBPS = .error "canonical buy net input or fee_bps is invalid" := by
  unfold minGrossInputForNetInput
  simp only [if_pos invalid]
  rfl

theorem minGrossInputForNetInput_isLeast {netIn grossIn : UInt64} {feeBPS : UInt16}
    (found : minGrossInputForNetInput netIn feeBPS = .ok grossIn) :
    feeBPS.toNat < 10000 ∧ IsLeast {g | netIn.toNat ≤ netOfGross feeBPS.toNat g} grossIn.toNat := by
  by_cases invalid : netIn = 0 ∨ feeBPS ≥ 10000
  · rw [minGrossInputForNetInput_invalid invalid] at found
    cases found
  obtain ⟨positive, below⟩ := minGrossInputForNetInput_valid_iff.mp invalid
  have least := grossGuess_isLeast below positive
  refine ⟨below, ?_⟩
  by_cases free : feeBPS = 0
  · subst free
    rw [minGrossInputForNetInput_free positive, Except.ok.injEq] at found
    subst found
    rwa [UInt16.toNat_zero, grossGuess_free _ positive] at least
  · have charged : 0 < feeBPS.toNat := by
      rw [← UInt16.toNat_inj, UInt16.toNat_zero] at free
      omega
    rw [minGrossInputForNetInput_eq positive below charged] at found
    split_ifs at found with fits
    cases found
    rwa [UInt64.toNat_ofNat', Nat.mod_eq_of_lt fits]

/-! ## The canonical buy input -/

/-- A buy with gross input `grossIn` pays its fee and gets at least `tokenOut`
from the curve. -/
def BuysAtLeast (realTokenReserves : Uint128) (virtualCPayReserves : UInt64)
    (virtualTokenReserves : Uint128) (feeBPS : UInt16) (grossIn : UInt64) (tokenOut : Uint128) :
    Prop :=
  ∃ fee bought, calculateTradeFee grossIn feeBPS = .ok fee ∧
    cpmmBuy realTokenReserves virtualCPayReserves virtualTokenReserves (grossIn - fee) = .ok bought ∧
    tokenOut.val ≤ bought.1.val

/-- `grossIn` buys `tokenOut`, and every smaller gross input fails or buys less. -/
def IsLeastGrossInput (realTokenReserves : Uint128) (virtualCPayReserves : UInt64)
    (virtualTokenReserves : Uint128) (feeBPS : UInt16) (grossIn : UInt64) (tokenOut : Uint128) :
    Prop :=
  BuysAtLeast realTokenReserves virtualCPayReserves virtualTokenReserves feeBPS grossIn tokenOut ∧
    ∀ smaller < grossIn,
      ¬BuysAtLeast realTokenReserves virtualCPayReserves virtualTokenReserves feeBPS smaller tokenOut

/-- The net input `minGrossInputForTokenOut` aims at: it lifts the CPAY
reserve to the least value that leaves at most `y - tokenOut` tokens. -/
structure NetInTarget (virtualCPayReserves : UInt64) (virtualTokenReserves tokenOut : Uint128)
    (netIn : UInt64) : Prop where
  tokenOut_lt : tokenOut.val < virtualTokenReserves.val
  netIn_pos : 0 < netIn.toNat
  netIn_add : virtualCPayReserves.toNat + netIn.toNat =
    (virtualCPayReserves.toNat * virtualTokenReserves.val +
      (virtualTokenReserves.val - tokenOut.val) - 1) / (virtualTokenReserves.val - tokenOut.val)

section Canonical

variable {realTokenReserves virtualTokenReserves tokenOut : Uint128} {virtualCPayReserves : UInt64}
  {feeBPS : UInt16}

theorem NetInTarget.reaches_iff {netIn cpayNetIn : UInt64}
    (target : NetInTarget virtualCPayReserves virtualTokenReserves tokenOut netIn)
    {bought : Uint128 × Uint128 × UInt64 × Uint128}
    (buy : cpmmBuy realTokenReserves virtualCPayReserves virtualTokenReserves cpayNetIn = .ok bought) :
    tokenOut.val ≤ bought.1.val ↔ netIn.toNat ≤ cpayNetIn.toNat := by
  obtain ⟨actual, newReal, xAfter, yAfter⟩ := bought
  have outcome := cpmmBuy_ok buy
  obtain ⟨below, -, lifted⟩ := target
  have yPositive : 0 < virtualTokenReserves.val - tokenOut.val := by omega
  have xPositive : 0 < xAfter.toNat := by
    have := outcome.netIn_pos
    have := outcome.xAfter_eq
    omega
  have output : tokenOut.val ≤ actual.val ↔ yAfter.val ≤ virtualTokenReserves.val - tokenOut.val := by
    have := outcome.tokenOut_add
    omega
  have input : netIn.toNat ≤ cpayNetIn.toNat ↔
      (virtualCPayReserves.toNat * virtualTokenReserves.val +
        (virtualTokenReserves.val - tokenOut.val) - 1) / (virtualTokenReserves.val - tokenOut.val) ≤
        xAfter.toNat := by
    rw [← lifted, outcome.xAfter_eq]
    omega
  rw [output, input, outcome.yAfter_eq, ceilDiv_le_iff _ _ _ xPositive,
    ceilDiv_le_iff _ _ _ yPositive, Nat.mul_comm xAfter.toNat]

theorem cpmmBuy_error_ne {cpayNetIn : UInt64} {message : String}
    (failed : cpmmBuy realTokenReserves virtualCPayReserves virtualTokenReserves cpayNetIn =
      .error message) :
    message ≠ "canonical buy verification failed" := by
  unfold cpmmBuy at failed
  simp only [bind, Except.bind, pure, Except.pure, throw, throwThe, MonadExceptOf.throw] at failed
  repeat' split at failed
  all_goals cases failed
  all_goals decide

theorem minGrossInputForNetInput_error_ne {netIn : UInt64} {message : String}
    (failed : minGrossInputForNetInput netIn feeBPS = .error message) :
    message ≠ "canonical buy verification failed" := by
  by_cases invalid : netIn = 0 ∨ feeBPS ≥ 10000
  · rw [minGrossInputForNetInput_invalid invalid] at failed
    cases failed
    decide
  obtain ⟨positive, below⟩ := minGrossInputForNetInput_valid_iff.mp invalid
  by_cases free : feeBPS = 0
  · subst free
    rw [minGrossInputForNetInput_free positive] at failed
    cases failed
  · have charged : 0 < feeBPS.toNat := by
      rw [← UInt16.toNat_inj, UInt16.toNat_zero] at free
      omega
    rw [minGrossInputForNetInput_eq positive below charged] at failed
    split_ifs at failed
    cases failed
    decide

theorem minGrossInputForTokenOut_verifies {result : Except String UInt64}
    (found : minGrossInputForTokenOut realTokenReserves virtualCPayReserves virtualTokenReserves
      tokenOut feeBPS = result)
    (reached : ∀ message, result = .error message → message = "canonical buy verification failed") :
    ∃ netIn grossIn fee bought, NetInTarget virtualCPayReserves virtualTokenReserves tokenOut netIn ∧
      minGrossInputForNetInput netIn feeBPS = .ok grossIn ∧
      calculateTradeFee grossIn feeBPS = .ok fee ∧
      cpmmBuy realTokenReserves virtualCPayReserves virtualTokenReserves (grossIn - fee) =
        .ok bought ∧
      result = if bought.1.compare tokenOut < 0 then .error "canonical buy verification failed"
        else .ok grossIn := by
  have early : ∀ message, message ≠ "canonical buy verification failed" →
      Except.error message ≠ result :=
    fun message other same => other (reached message same.symm)
  unfold minGrossInputForTokenOut at found
  simp only [bind, Except.bind, pure, Except.pure, throw, throwThe, MonadExceptOf.throw] at found
  by_cases invalid : tokenOut.isZero ∨ virtualCPayReserves = 0 ∨ virtualTokenReserves.isZero
  · rw [if_pos invalid] at found
    exact absurd found (early _ (by decide))
  rw [if_neg invalid] at found
  cases spend : realTokenReserves.sub (uint128FromUint64 minRealTokenReserve) with
  | none =>
    simp only [spend] at found
    exact absurd found (early _ (by decide))
  | some spendable =>
  simp only [spend] at found
  by_cases drains : tokenOut.compare spendable > 0
  · rw [if_pos drains] at found
    exact absurd found (early _ (by decide))
  rw [if_neg drains] at found
  cases remaining : virtualTokenReserves.sub tokenOut with
  | none =>
    simp only [remaining] at found
    exact absurd found (early _ (by decide))
  | some yAfter =>
  simp only [remaining] at found
  by_cases emptied : yAfter.isZero = true
  · rw [if_pos emptied] at found
    exact absurd found (early _ (by decide))
  rw [if_neg emptied] at found
  by_cases unmoved : ceilDivBig (virtualCPayReserves.toNat * virtualTokenReserves.big) yAfter.big ≤
      virtualCPayReserves.toNat
  · rw [if_pos unmoved] at found
    exact absurd found (early _ (by decide))
  rw [if_neg unmoved] at found
  cases converted : bigToUint64
      (ceilDivBig (virtualCPayReserves.toNat * virtualTokenReserves.big) yAfter.big -
        virtualCPayReserves.toNat) with
  | none =>
    simp only [converted] at found
    exact absurd found (early _ (by decide))
  | some netIn =>
  simp only [converted] at found
  cases inverse : minGrossInputForNetInput netIn feeBPS with
  | error message =>
    simp only [inverse] at found
    exact absurd found (early _ (minGrossInputForNetInput_error_ne inverse))
  | ok grossIn =>
  simp only [inverse] at found
  cases charged : calculateTradeFee grossIn feeBPS with
  | error message =>
    simp only [charged] at found
    exact absurd found (early _ (by rw [calculateTradeFee_error charged]; decide))
  | ok fee =>
  simp only [charged] at found
  cases buy : cpmmBuy realTokenReserves virtualCPayReserves virtualTokenReserves (grossIn - fee) with
  | error message =>
    simp only [buy] at found
    exact absurd found (early _ (cpmmBuy_error_ne buy))
  | ok bought =>
  simp only [buy] at found
  obtain ⟨-, yVal⟩ := (Uint128.sub_eq_some_iff _ _ _).mp remaining
  obtain ⟨-, netVal⟩ := (bigToUint64_eq_some_iff _ _).mp converted
  rw [Uint128.isZero_iff] at emptied
  have yPositive : 0 < yAfter.val := by omega
  rw [Uint128.big_eq, Uint128.big_eq, ← Nat.cast_mul, ceilDivBig_natCast _ _ yPositive] at netVal unmoved
  rw [yVal] at netVal unmoved
  exact ⟨netIn, grossIn, fee, bought, ⟨by omega, by omega, by omega⟩, inverse, charged, buy, found.symm⟩

theorem minGrossInputForTokenOut_isLeast {grossIn : UInt64}
    (found : minGrossInputForTokenOut realTokenReserves virtualCPayReserves virtualTokenReserves
      tokenOut feeBPS = .ok grossIn) :
    IsLeastGrossInput realTokenReserves virtualCPayReserves virtualTokenReserves feeBPS grossIn
      tokenOut := by
  obtain ⟨netIn, canonical, fee, bought, target, inverse, charged, buy, result⟩ :=
    minGrossInputForTokenOut_verifies found (fun _ failed => by cases failed)
  obtain ⟨below, least⟩ := minGrossInputForNetInput_isLeast inverse
  split_ifs at result
  cases result
  refine ⟨⟨fee, bought, charged, buy, ?_⟩, ?_⟩
  · rw [target.reaches_iff buy, calculateTradeFee_net charged below.le]
    exact least.1
  · -- a smaller input nets less than the target, so it buys less than `tokenOut`
    rintro smaller smallerLt ⟨smallerFee, smallerBought, smallerCharged, smallerBuy, reaches⟩
    rw [target.reaches_iff smallerBuy, calculateTradeFee_net smallerCharged below.le] at reaches
    exact absurd (least.2 reaches) (not_le.mpr (UInt64.lt_iff_toNat_lt.mp smallerLt))

theorem minGrossInputForTokenOut_ne_verificationFailed :
    minGrossInputForTokenOut realTokenReserves virtualCPayReserves virtualTokenReserves tokenOut
      feeBPS ≠ .error "canonical buy verification failed" := by
  intro failed
  obtain ⟨netIn, grossIn, fee, bought, target, inverse, charged, buy, result⟩ :=
    minGrossInputForTokenOut_verifies failed (fun _ same => by cases same; rfl)
  obtain ⟨below, least⟩ := minGrossInputForNetInput_isLeast inverse
  have reaches : tokenOut.val ≤ bought.1.val := by
    rw [target.reaches_iff buy, calculateTradeFee_net charged below.le]
    exact least.1
  rw [if_neg (by rw [Uint128.compare_lt_iff]; omega)] at result
  cases result

theorem applyBuyLiquidityExactIn_isLeastGross {tx : DomainTransaction} {ownerID : DomainHash}
    {op : BuyLiquidityExactInOp} {s s' : State}
    (applied : (applyBuyLiquidityExactIn tx ownerID op).run s = .ok () s') :
    ∃ found bought, liquidityAssetPool s op.assetID "buy" = .ok found ∧
      (∃ fee, calculateTradeFee op.cpayInSompi found.2.feeBPS = .ok fee ∧
        cpmmBuy found.2.realTokenReserves found.2.virtualCPayReserves found.2.virtualTokenReserves
          (op.cpayInSompi - fee) = .ok bought) ∧
      IsLeastGrossInput found.2.realTokenReserves found.2.virtualCPayReserves
        found.2.virtualTokenReserves found.2.feeBPS op.cpayInSompi bought.1 := by
  obtain ⟨found, _, _, fee, netIn, bought, _, _, _, _, _, lookup, -, -, -, -, charged, subtracted,
      buy, -, canonicalFound, paid, -⟩ :=
    EStateM.ok_of_triple (applyBuyLiquidityExactIn_spec tx ownerID op s) rfl applied
  have netEq : netIn = op.cpayInSompi - fee := by
    obtain ⟨fits, value⟩ := (checkedSubUint64_eq_some_iff _ _ _).mp subtracted
    rw [← UInt64.toNat_inj, value, UInt64.toNat_sub_of_le _ _ (UInt64.le_iff_toNat_le.mpr fits)]
  subst netEq
  rw [← paid] at canonicalFound
  exact ⟨found, bought, lookup, ⟨fee, charged, buy⟩, minGrossInputForTokenOut_isLeast canonicalFound⟩

/-- The canonical buy input is the least that buys its target, its final check
never fails, and every accepted buy paid it. -/
theorem canonicalBuy_least :
    (∀ (realTokenReserves : Uint128) (virtualCPayReserves : UInt64)
        (virtualTokenReserves tokenOut : Uint128) (feeBPS : UInt16) (grossIn : UInt64),
        minGrossInputForTokenOut realTokenReserves virtualCPayReserves virtualTokenReserves tokenOut
          feeBPS = .ok grossIn →
        IsLeastGrossInput realTokenReserves virtualCPayReserves virtualTokenReserves feeBPS grossIn
          tokenOut) ∧
    (∀ (realTokenReserves : Uint128) (virtualCPayReserves : UInt64)
        (virtualTokenReserves tokenOut : Uint128) (feeBPS : UInt16),
        minGrossInputForTokenOut realTokenReserves virtualCPayReserves virtualTokenReserves tokenOut
          feeBPS ≠ .error "canonical buy verification failed") ∧
    (∀ (tx : DomainTransaction) (ownerID : DomainHash) (op : BuyLiquidityExactInOp) (s s' : State),
        (applyBuyLiquidityExactIn tx ownerID op).run s = .ok () s' →
        ∃ found bought, liquidityAssetPool s op.assetID "buy" = .ok found ∧
          (∃ fee, calculateTradeFee op.cpayInSompi found.2.feeBPS = .ok fee ∧
            cpmmBuy found.2.realTokenReserves found.2.virtualCPayReserves
              found.2.virtualTokenReserves (op.cpayInSompi - fee) = .ok bought) ∧
          IsLeastGrossInput found.2.realTokenReserves found.2.virtualCPayReserves
            found.2.virtualTokenReserves found.2.feeBPS op.cpayInSompi bought.1) :=
  ⟨fun _ _ _ _ _ _ found => minGrossInputForTokenOut_isLeast found,
    fun _ _ _ _ _ => minGrossInputForTokenOut_ne_verificationFailed,
    fun _ _ _ _ _ applied => applyBuyLiquidityExactIn_isLeastGross applied⟩

theorem canonicalBuy_least_ninetyTokens :
    IsLeastGrossInput (uint128FromUint64 1000) 1000 (uint128FromUint64 1000) 30 99
      (uint128FromUint64 90) :=
  canonicalBuy_least.1 _ _ _ _ _ _ (by rfl)

end Canonical

/-! ## No profit from a round trip -/

/-- Sells made one after another, each on the virtual reserves the previous
one left, with any real-CPAY reserve argument: their gross outputs and the
final virtual reserves. -/
def sellSequence (virtualCPayReserves : UInt64) (virtualTokenReserves : Uint128) :
    List (UInt64 × Uint128) → Except String (List UInt64 × UInt64 × Uint128)
  | [] => .ok ([], virtualCPayReserves, virtualTokenReserves)
  | (realCPayReservesSompi, tokenIn) :: rest => do
    let (grossOut, _, xAfter, yAfter) ←
      cpmmSell realCPayReservesSompi virtualCPayReserves virtualTokenReserves tokenIn
    let (grossOuts, xFinal, yFinal) ← sellSequence xAfter yAfter rest
    pure (grossOut :: grossOuts, xFinal, yFinal)

theorem sellSequence_product (sells : List (UInt64 × Uint128)) :
    ∀ {virtualCPayReserves : UInt64} {virtualTokenReserves : Uint128} {grossOuts : List UInt64}
      {xFinal : UInt64} {yFinal : Uint128},
      sellSequence virtualCPayReserves virtualTokenReserves sells = .ok (grossOuts, xFinal, yFinal) →
      virtualCPayReserves.toNat * virtualTokenReserves.val ≤ xFinal.toNat * yFinal.val ∧
        yFinal.val = virtualTokenReserves.val + (sells.map (·.2.val)).sum ∧
        xFinal.toNat + (grossOuts.map UInt64.toNat).sum = virtualCPayReserves.toNat := by
  induction sells with
  | nil =>
    intro virtualCPayReserves virtualTokenReserves grossOuts xFinal yFinal sold
    cases sold
    simp
  | cons sell rest inductionHypothesis =>
    intro virtualCPayReserves virtualTokenReserves grossOuts xFinal yFinal sold
    obtain ⟨⟨grossOut, newReal, xAfter, yAfter⟩, first, later⟩ := Except.bind_eq_ok.1 sold
    obtain ⟨⟨restOuts, xRest, yRest⟩, restSold, finished⟩ := Except.bind_eq_ok.1 later
    cases finished
    obtain ⟨yStep, xStep, -, -, productStep, -⟩ := cpmmSell_tight first
    obtain ⟨productRest, yRestEq, xRestEq⟩ := inductionHypothesis restSold
    have grossBound := (cpmmSell_ok first).grossOut_add
    refine ⟨le_trans (by exact_mod_cast productStep) productRest, ?_, ?_⟩
    · simp only [List.map_cons, List.sum_cons]
      omega
    · simp only [List.map_cons, List.sum_cons]
      omega

/-- No split of a bought amount into later sells pays out more CPAY than the
buy's net input. -/
theorem sellSequence_noProfit {realTokenReserves virtualTokenReserves : Uint128}
    {virtualCPayReserves cpayNetIn : UInt64} {tokenOut newRealTokenReserves yAfter : Uint128}
    {xAfter : UInt64}
    (bought : cpmmBuy realTokenReserves virtualCPayReserves virtualTokenReserves cpayNetIn =
      .ok (tokenOut, newRealTokenReserves, xAfter, yAfter))
    {sells : List (UInt64 × Uint128)} {grossOuts : List UInt64} {xFinal : UInt64}
    {yFinal : Uint128}
    (sold : sellSequence xAfter yAfter sells = .ok (grossOuts, xFinal, yFinal))
    (within : (sells.map (·.2.val)).sum ≤ tokenOut.val) :
    (grossOuts.map UInt64.toNat).sum ≤ cpayNetIn.toNat := by
  obtain ⟨xBought, -, -, positive, -, productBought, -⟩ := cpmmBuy_tight bought
  have tokens := (cpmmBuy_ok bought).tokenOut_add
  obtain ⟨productSold, yFinalEq, xFinalEq⟩ := sellSequence_product sells sold
  have yFinalLe : yFinal.val ≤ virtualTokenReserves.val := by omega
  have product : virtualCPayReserves.toNat * virtualTokenReserves.val ≤
      xFinal.toNat * virtualTokenReserves.val :=
    calc virtualCPayReserves.toNat * virtualTokenReserves.val
        ≤ xAfter.toNat * yAfter.val := by exact_mod_cast productBought
      _ ≤ xFinal.toNat * yFinal.val := productSold
      _ ≤ xFinal.toNat * virtualTokenReserves.val := Nat.mul_le_mul_left _ yFinalLe
  have xFinalGe : virtualCPayReserves.toNat ≤ xFinal.toNat :=
    Nat.le_of_mul_le_mul_right product (by omega)
  omega

theorem sellSequence_noProfit_twoSells :
    ([51, 47].map UInt64.toNat).sum ≤ (100 : UInt64).toNat :=
  sellSequence_noProfit
    (show cpmmBuy (uint128FromUint64 1000) 1000 (uint128FromUint64 1000) 100 =
      .ok (uint128FromUint64 90, uint128FromUint64 910, 1100, uint128FromUint64 910) by rfl)
    (show sellSequence 1100 (uint128FromUint64 910)
        [(1000, uint128FromUint64 45), (1000, uint128FromUint64 45)] =
      .ok ([51, 47], 1002, uint128FromUint64 1000) by rfl)
    (by decide)

end Cryptixd.Atomic
