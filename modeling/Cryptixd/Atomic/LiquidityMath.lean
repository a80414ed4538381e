import Mathlib
import Cryptixd.Atomic.Payload

/-!
# Liquidity pool arithmetic

The bonding curve of a liquidity asset is a constant-product market maker on
virtual reserves (`cpmmBuy`, `cpmmSell` in `atomicstate/apply.go`): a buy
adds the net CPAY input to the virtual CPAY reserve `x` and lowers the virtual
token reserve `y` to `⌈x * y / x'⌉`; a sell adds the tokens to `y` and lowers
`x` to `⌈x * y / y'⌉`.  Both round the new reserve up, in favour of the pool.
Trade fees are basis points of the gross amount, rounded down.  `big.Int`
values are integers: `Div` is Euclidean division, `QuoRem` truncated division.

The canonical-input search `minGrossInputForNetInput` runs two loops; each is
a recursion on an explicit bound that is never reached
(`lowerGrossInput_fuel`, `raiseGrossInput_fuel`).
-/

set_option autoImplicit false

namespace Cryptixd.Atomic

def maxUint64 : UInt64 := 0xffffffffffffffff

def liquidityMinPayoutSompi : UInt64 := 1

/-! ## Checked and saturating `uint64` arithmetic -/

def checkedAddUint64 (left right : UInt64) : Option UInt64 :=
  let sum := left + right
  if sum ≥ left then some sum else none

def checkedSubUint64 (left right : UInt64) : Option UInt64 :=
  if left < right then none else some (left - right)

def saturatingSub (left right : UInt64) : UInt64 := if left < right then 0 else left - right

def saturatingAdd (left right : UInt64) : UInt64 :=
  if maxUint64 - left < right then maxUint64 else left + right

theorem checkedAddUint64_eq_some_iff (left right sum : UInt64) :
    checkedAddUint64 left right = some sum ↔
      left.toNat + right.toNat < 2 ^ 64 ∧ sum.toNat = left.toNat + right.toNat := by
  have := left.toNat_lt
  have := right.toNat_lt
  have := sum.toNat_lt
  unfold checkedAddUint64
  by_cases fits : left.toNat + right.toNat < 2 ^ 64
  · have noWrap : (left + right).toNat = left.toNat + right.toNat := by
      rw [UInt64.toNat_add, Nat.mod_eq_of_lt fits]
    rw [if_pos (by rw [ge_iff_le, UInt64.le_iff_toNat_le, noWrap]; omega), Option.some.injEq,
      ← UInt64.toNat_inj, noWrap]
    omega
  · have wraps : (left + right).toNat = left.toNat + right.toNat - 2 ^ 64 := by
      rw [UInt64.toNat_add, Nat.mod_eq_sub_mod (by omega), Nat.mod_eq_of_lt (by omega)]
    rw [if_neg (by rw [ge_iff_le, UInt64.le_iff_toNat_le, wraps]; omega)]
    simp only [reduceCtorEq, false_iff, not_and]
    omega

theorem checkedSubUint64_eq_some_iff (left right difference : UInt64) :
    checkedSubUint64 left right = some difference ↔
      right.toNat ≤ left.toNat ∧ difference.toNat = left.toNat - right.toNat := by
  unfold checkedSubUint64
  by_cases below : left < right
  · have short := UInt64.lt_iff_toNat_lt.mp below
    rw [if_pos below]
    simp only [reduceCtorEq, false_iff, not_and]
    omega
  · rw [if_neg below, Option.some.injEq, ← UInt64.toNat_inj]
    rw [UInt64.lt_iff_toNat_lt, Nat.not_lt] at below
    rw [UInt64.toNat_sub_of_le _ _ (UInt64.le_iff_toNat_le.mpr below)]
    omega

theorem toNat_saturatingSub (left right : UInt64) :
    (saturatingSub left right).toNat = left.toNat - right.toNat := by
  unfold saturatingSub
  by_cases below : left < right
  · rw [if_pos below, UInt64.toNat_zero]
    rw [UInt64.lt_iff_toNat_lt] at below
    omega
  · rw [if_neg below, UInt64.toNat_sub_of_le _ _ (UInt64.le_iff_toNat_le.mpr
      (Nat.not_lt.mp (mt UInt64.lt_iff_toNat_lt.mpr below)))]

theorem toNat_saturatingAdd (left right : UInt64) :
    (saturatingAdd left right).toNat = min (left.toNat + right.toNat) (2 ^ 64 - 1) := by
  have := left.toNat_lt
  have := right.toNat_lt
  have maxVal : maxUint64.toNat = 2 ^ 64 - 1 := rfl
  have headroom : (maxUint64 - left).toNat = 2 ^ 64 - 1 - left.toNat := by
    rw [UInt64.toNat_sub_of_le _ _ (UInt64.le_iff_toNat_le.mpr (by omega)), maxVal]
  unfold saturatingAdd
  by_cases full : maxUint64 - left < right
  · rw [if_pos full, maxVal]
    rw [UInt64.lt_iff_toNat_lt, headroom] at full
    omega
  · rw [if_neg full, UInt64.toNat_add, Nat.mod_eq_of_lt (by
      rw [UInt64.lt_iff_toNat_lt, headroom] at full; omega)]
    rw [UInt64.lt_iff_toNat_lt, headroom] at full
    omega

/-! ## Big-integer helpers -/

/-- `IsUint64` followed by `Uint64`. -/
def bigToUint64 (value : Int) : Option UInt64 :=
  if 0 ≤ value ∧ value.toNat < 2 ^ 64 then some (UInt64.ofNat value.toNat) else none

theorem bigToUint64_eq_some_iff (value : Int) (result : UInt64) :
    bigToUint64 value = some result ↔ 0 ≤ value ∧ (result.toNat : Int) = value := by
  have := result.toNat_lt
  unfold bigToUint64
  split_ifs with fits
  · rw [Option.some.injEq, ← UInt64.toNat_inj, UInt64.toNat_ofNat', Nat.mod_eq_of_lt fits.2]
    omega
  · simp only [false_iff, not_and]
    omega

/-- `ceilDivBig`: `QuoRem` rounds toward zero, and a non-zero remainder adds one. -/
def ceilDivBig (numerator denominator : Int) : Int :=
  let quotient := numerator.tdiv denominator
  if numerator.tmod denominator = 0 then quotient else quotient + 1

theorem ceilDivBig_natCast (numerator denominator : Nat) (positive : 0 < denominator) :
    ceilDivBig numerator denominator = ((numerator + denominator - 1) / denominator : Nat) := by
  have quotient : (numerator : Int).tdiv denominator = ((numerator / denominator : Nat) : Int) := rfl
  have remainder : (numerator : Int).tmod denominator = ((numerator % denominator : Nat) : Int) :=
    rfl
  unfold ceilDivBig
  rw [quotient, remainder]
  have split := Nat.div_add_mod numerator denominator
  by_cases exact : numerator % denominator = 0
  · rw [if_pos (by exact_mod_cast exact)]
    rw [exact, Nat.add_zero] at split
    have rounded : (numerator + denominator - 1) / denominator = numerator / denominator := by
      conv_lhs => rw [← split]
      rw [show denominator * (numerator / denominator) + denominator - 1 =
        (denominator - 1) + denominator * (numerator / denominator) by omega,
        Nat.add_mul_div_left _ _ positive, Nat.div_eq_of_lt (by omega), Nat.zero_add]
    rw [rounded]
  · rw [if_neg (by exact_mod_cast exact)]
    have remainderBound := Nat.mod_lt numerator positive
    have rounded : (numerator + denominator - 1) / denominator = numerator / denominator + 1 := by
      conv_lhs => rw [← split]
      rw [show denominator * (numerator / denominator) + numerator % denominator + denominator - 1 =
        (numerator % denominator - 1) + denominator * (numerator / denominator + 1) by
          rw [Nat.mul_add]; omega,
        Nat.add_mul_div_left _ _ positive, Nat.div_eq_of_lt (by omega), Nat.zero_add]
    rw [rounded]
    push_cast
    rfl

theorem ceilDiv_spec (numerator denominator : Nat) (positive : 0 < denominator) :
    numerator ≤ (numerator + denominator - 1) / denominator * denominator ∧
      (numerator + denominator - 1) / denominator * denominator < numerator + denominator := by
  have split := Nat.div_add_mod (numerator + denominator - 1) denominator
  have remainder := Nat.mod_lt (numerator + denominator - 1) positive
  constructor
  · rw [Nat.mul_comm]
    omega
  · rw [Nat.mul_comm]
    omega

/-! ## Fees -/

def calculateTradeFee (amount : UInt64) (feeBPS : UInt16) : Except String UInt64 :=
  match bigToUint64 ((amount.toNat : Int) * feeBPS.toNat / 10000) with
  | some fee => .ok fee
  | none => .error "fee does not fit into u64"

theorem calculateTradeFee_eq_ok_iff (amount : UInt64) (feeBPS : UInt16) (fee : UInt64) :
    calculateTradeFee amount feeBPS = .ok fee ↔ fee.toNat = amount.toNat * feeBPS.toNat / 10000 := by
  have cast : (amount.toNat : Int) * feeBPS.toNat / 10000 =
      ((amount.toNat * feeBPS.toNat / 10000 : Nat) : Int) := by
    push_cast
    rfl
  unfold calculateTradeFee
  rw [cast]
  cases converted : bigToUint64 ((amount.toNat * feeBPS.toNat / 10000 : Nat) : Int) with
  | none =>
    simp only [reduceCtorEq, false_iff]
    intro same
    have fits := (bigToUint64_eq_some_iff _ fee).mpr ⟨Int.natCast_nonneg _, by rw [same]⟩
    rw [converted] at fits
    cases fits
  | some computed =>
    obtain ⟨-, value⟩ := (bigToUint64_eq_some_iff _ _).mp converted
    rw [Except.ok.injEq, ← UInt64.toNat_inj]
    omega

theorem calculateTradeFee_le {amount : UInt64} {feeBPS : UInt16} {fee : UInt64}
    (computed : calculateTradeFee amount feeBPS = .ok fee) (belowWhole : feeBPS.toNat ≤ 10000) :
    fee.toNat ≤ amount.toNat := by
  rw [(calculateTradeFee_eq_ok_iff amount feeBPS fee).mp computed]
  calc amount.toNat * feeBPS.toNat / 10000
      ≤ amount.toNat * 10000 / 10000 := Nat.div_le_div_right (Nat.mul_le_mul_left _ belowWhole)
    _ = amount.toNat := Nat.mul_div_cancel _ (by norm_num)

/-! ## The constant-product curve -/

def cpmmBuy (realTokenReserves : Uint128) (virtualCPayReserves : UInt64)
    (virtualTokenReserves : Uint128) (cpayNetIn : UInt64) :
    Except String (Uint128 × Uint128 × UInt64 × Uint128) := do
  if cpayNetIn = 0 then throw "CPMM buy net input cannot be zero"
  let some spendableTokens := realTokenReserves.sub (uint128FromUint64 minRealTokenReserve)
    | throw "CPMM buy real token reserve floor reached"
  if spendableTokens.isZero then throw "CPMM buy real token reserve floor reached"
  let yBefore := virtualTokenReserves
  let some xAfter := checkedAddUint64 virtualCPayReserves cpayNetIn | throw "CPMM x_after overflow"
  if xAfter = 0 then throw "CPMM buy x_after cannot be zero"
  let k := (virtualCPayReserves.toNat : Int) * yBefore.big
  let some yAfter := uint128FromBig (ceilDivBig k xAfter.toNat)
    | throw "CPMM buy y_after conversion overflow"
  if yAfter.isZero then throw "CPMM buy y_after cannot be zero"
  if yAfter.compare yBefore > 0 then throw "CPMM buy would increase y_after"
  let some tokenOut := yBefore.sub yAfter | throw "CPMM buy token_out underflow"
  if tokenOut.isZero then throw "CPMM buy produced zero token_out"
  if tokenOut.compare spendableTokens > 0 then throw "CPMM buy would drain final real token"
  let some newRealTokenReserves := realTokenReserves.sub tokenOut
    | throw "CPMM buy real token reserve underflow"
  pure (tokenOut, newRealTokenReserves, xAfter, yAfter)

def cpmmSell (realCPayReservesSompi virtualCPayReserves : UInt64) (virtualTokenReserves : Uint128)
    (tokenIn : Uint128) : Except String (UInt64 × UInt64 × UInt64 × Uint128) := do
  if tokenIn.isZero then throw "CPMM sell token input cannot be zero"
  let yBefore := virtualTokenReserves
  let some yAfter := yBefore.add tokenIn | throw "CPMM y_after overflow"
  if yAfter.isZero then throw "CPMM sell y_after cannot be zero"
  let k := (virtualCPayReserves.toNat : Int) * yBefore.big
  let some xAfter := bigToUint64 (ceilDivBig k yAfter.big)
    | throw "CPMM sell x_after does not fit u64"
  if xAfter > virtualCPayReserves then throw "CPMM sell x_after exceeds x_before"
  let some grossOut := checkedSubUint64 virtualCPayReserves xAfter
    | throw "CPMM sell gross_out underflow"
  if grossOut = 0 then throw "CPMM sell produced zero gross_out"
  let some spendableCPay := checkedSubUint64 realCPayReservesSompi minCPayReserve
    | throw "CPMM sell real CPAY reserve below floor"
  if grossOut > spendableCPay then throw "CPMM sell would drain final real sompi"
  let some newRealCPayReserves := checkedSubUint64 realCPayReservesSompi grossOut
    | throw "CPMM sell real CPAY reserve underflow"
  pure (grossOut, newRealCPayReserves, xAfter, yAfter)

/-- What a successful `cpmmBuy` did, in natural numbers. -/
structure BuyOutcome (realTokenReserves : Uint128) (virtualCPayReserves : UInt64)
    (virtualTokenReserves : Uint128) (cpayNetIn : UInt64) (tokenOut newRealTokenReserves : Uint128)
    (xAfter : UInt64) (yAfter : Uint128) : Prop where
  netIn_pos : 0 < cpayNetIn.toNat
  xAfter_eq : xAfter.toNat = virtualCPayReserves.toNat + cpayNetIn.toNat
  yAfter_eq : yAfter.val =
    (virtualCPayReserves.toNat * virtualTokenReserves.val + xAfter.toNat - 1) / xAfter.toNat
  yAfter_pos : 0 < yAfter.val
  tokenOut_add : tokenOut.val + yAfter.val = virtualTokenReserves.val
  tokenOut_pos : 0 < tokenOut.val
  tokenOut_lt : tokenOut.val < realTokenReserves.val
  newReal_add : newRealTokenReserves.val + tokenOut.val = realTokenReserves.val

theorem cpmmBuy_ok {realTokenReserves virtualTokenReserves : Uint128}
    {virtualCPayReserves cpayNetIn : UInt64} {tokenOut newRealTokenReserves yAfter : Uint128}
    {xAfter : UInt64}
    (bought : cpmmBuy realTokenReserves virtualCPayReserves virtualTokenReserves cpayNetIn =
      .ok (tokenOut, newRealTokenReserves, xAfter, yAfter)) :
    BuyOutcome realTokenReserves virtualCPayReserves virtualTokenReserves cpayNetIn tokenOut
      newRealTokenReserves xAfter yAfter := by
  unfold cpmmBuy at bought
  simp only [bind, Except.bind, pure, Except.pure, throw, throwThe, MonadExceptOf.throw] at bought
  by_cases zeroIn : cpayNetIn = 0
  · simp [zeroIn] at bought
  rw [if_neg zeroIn] at bought
  cases spend : realTokenReserves.sub (uint128FromUint64 minRealTokenReserve) with
  | none => simp [spend] at bought
  | some spendable =>
  simp only [spend] at bought
  by_cases nothingToSpend : spendable.isZero = true
  · simp [nothingToSpend] at bought
  rw [if_neg nothingToSpend] at bought
  cases xSum : checkedAddUint64 virtualCPayReserves cpayNetIn with
  | none => simp [xSum] at bought
  | some xAfter' =>
  simp only [xSum] at bought
  by_cases xZero : xAfter' = 0
  · simp [xZero] at bought
  rw [if_neg xZero] at bought
  cases yConv : uint128FromBig
      (ceilDivBig (virtualCPayReserves.toNat * virtualTokenReserves.big) xAfter'.toNat) with
  | none => simp [yConv] at bought
  | some yAfter' =>
  simp only [yConv] at bought
  by_cases yZero : yAfter'.isZero = true
  · simp [yZero] at bought
  rw [if_neg yZero] at bought
  by_cases yUp : yAfter'.compare virtualTokenReserves > 0
  · simp [yUp] at bought
  rw [if_neg yUp] at bought
  cases tOut : virtualTokenReserves.sub yAfter' with
  | none => simp [tOut] at bought
  | some tokenOut' =>
  simp only [tOut] at bought
  by_cases tZero : tokenOut'.isZero = true
  · simp [tZero] at bought
  rw [if_neg tZero] at bought
  by_cases drains : tokenOut'.compare spendable > 0
  · simp [drains] at bought
  rw [if_neg drains] at bought
  cases rNew : realTokenReserves.sub tokenOut' with
  | none => simp [rNew] at bought
  | some newReal' =>
  simp only [rNew, Except.ok.injEq, Prod.mk.injEq] at bought
  obtain ⟨rfl, rfl, rfl, rfl⟩ := bought
  obtain ⟨-, spendVal⟩ := (Uint128.sub_eq_some_iff _ _ _).mp spend
  obtain ⟨-, xVal⟩ := (checkedAddUint64_eq_some_iff _ _ _).mp xSum
  obtain ⟨-, yVal⟩ := (uint128FromBig_eq_some_iff _ _).mp yConv
  obtain ⟨-, tVal⟩ := (Uint128.sub_eq_some_iff _ _ _).mp tOut
  obtain ⟨-, rVal⟩ := (Uint128.sub_eq_some_iff _ _ _).mp rNew
  have floorOne : (uint128FromUint64 minRealTokenReserve).val = 1 := rfl
  have netPositive : 0 < cpayNetIn.toNat := by
    rw [← UInt64.toNat_inj, UInt64.toNat_zero] at zeroIn
    omega
  have xPositive : 0 < xAfter'.toNat := by omega
  rw [Uint128.big_eq, ← Nat.cast_mul, ceilDivBig_natCast _ _ xPositive, Nat.cast_inj] at yVal
  rw [Uint128.isZero_iff] at yZero tZero nothingToSpend
  rw [gt_iff_lt, Uint128.compare_gt_iff] at yUp drains
  exact ⟨netPositive, xVal, yVal, by omega, by omega, by omega, by omega, by omega⟩

/-- What a successful `cpmmSell` did, in natural numbers. -/
structure SellOutcome (realCPayReservesSompi virtualCPayReserves : UInt64)
    (virtualTokenReserves tokenIn : Uint128) (grossOut newRealCPayReserves xAfter : UInt64)
    (yAfter : Uint128) : Prop where
  tokenIn_pos : 0 < tokenIn.val
  yAfter_eq : yAfter.val = virtualTokenReserves.val + tokenIn.val
  xAfter_eq : xAfter.toNat =
    (virtualCPayReserves.toNat * virtualTokenReserves.val + yAfter.val - 1) / yAfter.val
  grossOut_add : grossOut.toNat + xAfter.toNat = virtualCPayReserves.toNat
  grossOut_pos : 0 < grossOut.toNat
  grossOut_lt : grossOut.toNat < realCPayReservesSompi.toNat
  newReal_add : newRealCPayReserves.toNat + grossOut.toNat = realCPayReservesSompi.toNat

theorem cpmmSell_ok {realCPayReservesSompi virtualCPayReserves grossOut newRealCPayReserves
      xAfter : UInt64} {virtualTokenReserves tokenIn yAfter : Uint128}
    (sold : cpmmSell realCPayReservesSompi virtualCPayReserves virtualTokenReserves tokenIn =
      .ok (grossOut, newRealCPayReserves, xAfter, yAfter)) :
    SellOutcome realCPayReservesSompi virtualCPayReserves virtualTokenReserves tokenIn grossOut
      newRealCPayReserves xAfter yAfter := by
  unfold cpmmSell at sold
  simp only [bind, Except.bind, pure, Except.pure, throw, throwThe, MonadExceptOf.throw] at sold
  by_cases zeroIn : tokenIn.isZero = true
  · simp [zeroIn] at sold
  rw [if_neg zeroIn] at sold
  cases ySum : virtualTokenReserves.add tokenIn with
  | none => simp [ySum] at sold
  | some yAfter' =>
  simp only [ySum] at sold
  by_cases yZero : yAfter'.isZero = true
  · simp [yZero] at sold
  rw [if_neg yZero] at sold
  cases xConv : bigToUint64
      (ceilDivBig (virtualCPayReserves.toNat * virtualTokenReserves.big) yAfter'.big) with
  | none => simp [xConv] at sold
  | some xAfter' =>
  simp only [xConv] at sold
  by_cases xUp : xAfter' > virtualCPayReserves
  · simp [xUp] at sold
  rw [if_neg xUp] at sold
  cases gross : checkedSubUint64 virtualCPayReserves xAfter' with
  | none => simp [gross] at sold
  | some grossOut' =>
  simp only [gross] at sold
  by_cases grossZero : grossOut' = 0
  · simp [grossZero] at sold
  rw [if_neg grossZero] at sold
  cases spend : checkedSubUint64 realCPayReservesSompi minCPayReserve with
  | none => simp [spend] at sold
  | some spendable =>
  simp only [spend] at sold
  by_cases drains : grossOut' > spendable
  · simp [drains] at sold
  rw [if_neg drains] at sold
  cases rNew : checkedSubUint64 realCPayReservesSompi grossOut' with
  | none => simp [rNew] at sold
  | some newReal' =>
  simp only [rNew, Except.ok.injEq, Prod.mk.injEq] at sold
  obtain ⟨rfl, rfl, rfl, rfl⟩ := sold
  obtain ⟨-, yVal⟩ := (Uint128.add_eq_some_iff _ _ _).mp ySum
  obtain ⟨-, xVal⟩ := (bigToUint64_eq_some_iff _ _).mp xConv
  obtain ⟨-, grossVal⟩ := (checkedSubUint64_eq_some_iff _ _ _).mp gross
  obtain ⟨spendFits, spendVal⟩ := (checkedSubUint64_eq_some_iff _ _ _).mp spend
  obtain ⟨-, rVal⟩ := (checkedSubUint64_eq_some_iff _ _ _).mp rNew
  have floorOne : minCPayReserve.toNat = 1 := rfl
  rw [Uint128.isZero_iff] at zeroIn yZero
  have yPositive : 0 < yAfter'.val := by omega
  rw [Uint128.big_eq, Uint128.big_eq, ← Nat.cast_mul, ceilDivBig_natCast _ _ yPositive,
    Nat.cast_inj] at xVal
  rw [gt_iff_lt, UInt64.lt_iff_toNat_lt] at xUp drains
  have grossPositive : 0 < grossOut'.toNat := by
    rw [← UInt64.toNat_inj, UInt64.toNat_zero] at grossZero
    omega
  exact ⟨by omega, yVal, xVal, by omega, grossPositive, by omega, by omega⟩

/-! ## The canonical buy input -/

/-- The first loop of `minGrossInputForNetInput`: step `grossIn` down while one
less still nets `netIn`. -/
def lowerGrossInput (netIn : UInt64) (feeBPS : UInt16) : Nat → UInt64 → Except String UInt64
  | 0, grossIn => .ok grossIn
  | fuel + 1, grossIn =>
    if grossIn > 1 then
      let previous := grossIn - 1
      match calculateTradeFee previous feeBPS with
      | .error message => .error message
      | .ok previousFee =>
        if previous - previousFee < netIn then .ok grossIn
        else lowerGrossInput netIn feeBPS fuel previous
    else .ok grossIn

/-- The second loop: step `grossIn` up until it nets `netIn`, failing at
`math.MaxUint64`. -/
def raiseGrossInput (netIn : UInt64) (feeBPS : UInt16) : Nat → UInt64 → Except String UInt64
  | 0, _ => .error "canonical buy gross input overflow"
  | fuel + 1, grossIn =>
    match calculateTradeFee grossIn feeBPS with
    | .error message => .error message
    | .ok fee =>
      if grossIn - fee ≥ netIn then .ok grossIn
      else if grossIn = maxUint64 then .error "canonical buy gross input overflow"
      else raiseGrossInput netIn feeBPS fuel (grossIn + 1)

theorem lowerGrossInput_fuel (netIn : UInt64) (feeBPS : UInt16) (fuel : Nat) (grossIn : UInt64)
    (enough : grossIn.toNat ≤ fuel) :
    lowerGrossInput netIn feeBPS (fuel + 1) grossIn = lowerGrossInput netIn feeBPS fuel grossIn := by
  induction fuel generalizing grossIn with
  | zero =>
    have notAbove : ¬grossIn > 1 := by
      rw [gt_iff_lt, UInt64.lt_iff_toNat_lt]
      simp only [UInt64.toNat_one]
      omega
    simp only [lowerGrossInput, if_neg notAbove]
  | succ fuel inductionHypothesis =>
    rw [lowerGrossInput.eq_2 netIn feeBPS grossIn (fuel + 1),
      lowerGrossInput.eq_2 netIn feeBPS grossIn fuel]
    by_cases above : grossIn > 1
    · rw [if_pos above, if_pos above]
      dsimp only
      have previousBound : (grossIn - 1).toNat ≤ fuel := by
        rw [gt_iff_lt, UInt64.lt_iff_toNat_lt, UInt64.toNat_one] at above
        rw [UInt64.toNat_sub_of_le _ _ (UInt64.le_iff_toNat_le.mpr (by simp; omega)),
          UInt64.toNat_one]
        omega
      rw [inductionHypothesis (grossIn - 1) previousBound]
    · rw [if_neg above, if_neg above]

/-- Every round of the second loop raises `grossIn` or stops at
`math.MaxUint64`, so `2 ^ 64 - grossIn` rounds are enough. -/
theorem raiseGrossInput_fuel (netIn : UInt64) (feeBPS : UInt16) (fuel : Nat) (grossIn : UInt64)
    (enough : 2 ^ 64 - grossIn.toNat ≤ fuel) :
    raiseGrossInput netIn feeBPS (fuel + 1) grossIn = raiseGrossInput netIn feeBPS fuel grossIn := by
  induction fuel generalizing grossIn with
  | zero =>
    have := grossIn.toNat_lt
    omega
  | succ fuel inductionHypothesis =>
    rw [raiseGrossInput.eq_2 netIn feeBPS grossIn (fuel + 1),
      raiseGrossInput.eq_2 netIn feeBPS grossIn fuel]
    cases calculateTradeFee grossIn feeBPS with
    | error message => rfl
    | ok fee =>
      dsimp only
      by_cases nets : grossIn - fee ≥ netIn
      · rw [if_pos nets, if_pos nets]
      · rw [if_neg nets, if_neg nets]
        by_cases atMax : grossIn = maxUint64
        · rw [if_pos atMax, if_pos atMax]
        · rw [if_neg atMax, if_neg atMax]
          have belowMax : grossIn.toNat < 2 ^ 64 - 1 := by
            have := grossIn.toNat_lt
            have : grossIn.toNat ≠ maxUint64.toNat := fun same => atMax (UInt64.toNat_inj.mp same)
            have maxVal : maxUint64.toNat = 2 ^ 64 - 1 := rfl
            omega
          have nextBound : 2 ^ 64 - (grossIn + 1).toNat ≤ fuel := by
            rw [UInt64.toNat_add, UInt64.toNat_one, Nat.mod_eq_of_lt (by omega)]
            omega
          rw [inductionHypothesis (grossIn + 1) nextBound]

def minGrossInputForNetInput (netIn : UInt64) (feeBPS : UInt16) : Except String UInt64 := do
  if netIn = 0 ∨ feeBPS ≥ 10000 then throw "canonical buy net input or fee_bps is invalid"
  if feeBPS = 0 then return netIn
  let feeDenominator : UInt64 := 10000 - feeBPS.toUInt64
  let some grossIn := bigToUint64 ((netIn - 1).toNat * 10000 / (feeDenominator.toNat : Int) + 1)
    | throw "canonical buy gross input does not fit u64"
  let grossIn ← lowerGrossInput netIn feeBPS grossIn.toNat grossIn
  raiseGrossInput netIn feeBPS (2 ^ 64 - grossIn.toNat) grossIn

def minGrossInputForTokenOut (realTokenReserves : Uint128) (virtualCPayReserves : UInt64)
    (virtualTokenReserves tokenOut : Uint128) (feeBPS : UInt16) : Except String UInt64 := do
  if tokenOut.isZero ∨ virtualCPayReserves = 0 ∨ virtualTokenReserves.isZero then
    throw "canonical buy target token_out is invalid"
  let some spendableTokens := realTokenReserves.sub (uint128FromUint64 minRealTokenReserve)
    | throw "canonical buy token_out drains final token"
  if tokenOut.compare spendableTokens > 0 then throw "canonical buy token_out drains final token"
  let some yAfter := virtualTokenReserves.sub tokenOut | throw "canonical buy y_after is invalid"
  if yAfter.isZero then throw "canonical buy y_after is invalid"
  let xBefore : Int := virtualCPayReserves.toNat
  let xAfter := ceilDivBig (xBefore * virtualTokenReserves.big) yAfter.big
  if xAfter ≤ xBefore then throw "canonical buy produced zero net input"
  let some netInTarget := bigToUint64 (xAfter - xBefore)
    | throw "canonical buy net input does not fit u64"
  let grossIn ← minGrossInputForNetInput netInTarget feeBPS
  let fee ← calculateTradeFee grossIn feeBPS
  let (actualTokenOut, _) ← cpmmBuy realTokenReserves virtualCPayReserves virtualTokenReserves
    (grossIn - fee)
  if actualTokenOut.compare tokenOut < 0 then throw "canonical buy verification failed"
  pure grossIn

/-! ## Initial reserves -/

def unsupportedCurveModeError (mode : UInt8) : String :=
  "unsupported CAT liquidity curve mode `" ++ toString mode ++ "`"

def maxSupplyRangeError : String :=
  "liquidity asset max_supply must be in `" ++ toString minLiquidityTokenSupplyRaw ++ "..=" ++
    toString maxLiquidityTokenSupplyRaw ++ "`"

def initialVirtualCPayReservesForMode (mode : UInt8) : Except String UInt64 :=
  if mode = liquidityCurveModeBasic then .ok initialVirtualCPayReserves
  else if mode = liquidityCurveModeAggressive then .ok aggressiveVirtualCPayReserve
  else .error (unsupportedCurveModeError mode)

def initialVirtualCPayReservesForCurve (mode : UInt8) (individualVirtualCPayReservesSompi : UInt64) :
    Except String UInt64 :=
  if mode = liquidityCurveModeIndividual then do
    validateIndividualLiquidityCurveParams individualVirtualCPayReservesSompi
      individualMinMultiplierBPS
    pure individualVirtualCPayReservesSompi
  else if mode = liquidityCurveModeBasic ∨ mode = liquidityCurveModeAggressive then
    initialVirtualCPayReservesForMode mode
  else .error (unsupportedCurveModeError mode)

def initialVirtualTokenReservesForMaxSupplyAndMode (maxSupply : Uint128) (mode : UInt8) :
    Except String Uint128 :=
  match maxSupply.uint64 with
  | none => .error maxSupplyRangeError
  | some value =>
    if value < minLiquidityTokenSupplyRaw ∨ value > maxLiquidityTokenSupplyRaw then
      .error maxSupplyRangeError
    else if mode = liquidityCurveModeBasic then .ok (uint128FromUint64 (value * 6 / 5))
    else if mode = liquidityCurveModeAggressive then .ok (uint128FromUint64 (value * 21 / 20))
    else .error (unsupportedCurveModeError mode)

def initialVirtualTokenReservesForMaxSupplyAndCurve (maxSupply : Uint128) (mode : UInt8)
    (individualVirtualTokenMultiplierBPS : UInt16) : Except String Uint128 :=
  match maxSupply.uint64 with
  | none => .error maxSupplyRangeError
  | some value =>
    if value < minLiquidityTokenSupplyRaw ∨ value > maxLiquidityTokenSupplyRaw then
      .error maxSupplyRangeError
    else if mode = liquidityCurveModeIndividual then do
      validateIndividualLiquidityCurveParams individualMinVirtualCPay
        individualVirtualTokenMultiplierBPS
      pure (uint128FromUint64 (value * individualVirtualTokenMultiplierBPS.toUInt64 /
        multiplierBPSDenominator.toUInt64))
    else if mode = liquidityCurveModeBasic ∨ mode = liquidityCurveModeAggressive then
      initialVirtualTokenReservesForMaxSupplyAndMode maxSupply mode
    else .error (unsupportedCurveModeError mode)

end Cryptixd.Atomic
