import Mathlib
import Cryptixd.Lib.LittleEndian

/-!
# 128-bit token amounts

`Uint128` is the two-limb amount type of the atomic token state
(`atomicstate/uint128.go`).  Addition and subtraction go through the carry and
borrow of `bits.Add64` / `bits.Sub64` and report overflow instead of wrapping.
`val` reads an amount back as a natural number; the lemmas of this file say
that each helper agrees with natural-number arithmetic, which is how every
later proof sees amounts.
-/

set_option autoImplicit false

namespace Cryptixd.Atomic

open LittleEndian

/-- `bits.Add64 x y carry`: the wrapped sum and the carry out, 0 or 1. -/
def add64 (x y carry : UInt64) : UInt64 × UInt64 :=
  (x + y + carry, if 2 ^ 64 ≤ x.toNat + y.toNat + carry.toNat then 1 else 0)

/-- `bits.Sub64 x y borrow`: the wrapped difference and the borrow out, 0 or 1. -/
def sub64 (x y borrow : UInt64) : UInt64 × UInt64 :=
  (x - y - borrow, if x.toNat < y.toNat + borrow.toNat then 1 else 0)

structure Uint128 where
  lo : UInt64
  hi : UInt64
  deriving DecidableEq, Repr, Inhabited

/-- `binary.LittleEndian.Uint64` on an eight-byte slice. -/
def leUint64 (bytes : List UInt8) : UInt64 := UInt64.ofNat (ofListLE bytes)

def putUint64LE (value : UInt64) : List UInt8 := toListLE 8 value.toNat

def putUint64BE (value : UInt64) : List UInt8 := (putUint64LE value).reverse

/-- `new(big.Int).SetBytes`: big-endian bytes read as a non-negative integer. -/
def bigFromBytes (bytes : List UInt8) : Int := ofListLE bytes.reverse

/-- `big.Int.FillBytes` into a 16-byte buffer: the big-endian encoding of a
value that fits. -/
def fillBytes16 (value : Int) : List UInt8 := (toListLE 16 value.toNat).reverse

def maxUint128Big : Int := 2 ^ 128 - 1

def uint128FromUint64 (value : UInt64) : Uint128 := ⟨value, 0⟩

def uint128FromLE (bytes : List UInt8) : Option Uint128 :=
  if bytes.length ≠ 16 then none
  else some ⟨leUint64 (bytes.take 8), leUint64 ((bytes.drop 8).take 8)⟩

/-- `uint128FromBig`: the big-endian fill is reversed in place into the
little-endian layout `Uint128FromLE` reads. -/
def uint128FromBig (value : Int) : Option Uint128 :=
  if value < 0 ∨ value > maxUint128Big then none
  else uint128FromLE (fillBytes16 value).reverse

namespace Uint128

/-- The amount an `Uint128` stands for. -/
def val (value : Uint128) : Nat := value.hi.toNat * 2 ^ 64 + value.lo.toNat

def isZero (value : Uint128) : Bool := value.lo == 0 && value.hi == 0

def compare (value other : Uint128) : Int :=
  if value.hi < other.hi then -1
  else if value.hi > other.hi then 1
  else if value.lo < other.lo then -1
  else if value.lo > other.lo then 1
  else 0

def add (value other : Uint128) : Option Uint128 :=
  let lo := add64 value.lo other.lo 0
  let hi := add64 value.hi other.hi lo.2
  if hi.2 ≠ 0 then none else some ⟨lo.1, hi.1⟩

def sub (value other : Uint128) : Option Uint128 :=
  let lo := sub64 value.lo other.lo 0
  let hi := sub64 value.hi other.hi lo.2
  if hi.2 ≠ 0 then none else some ⟨lo.1, hi.1⟩

def toLE (value : Uint128) : List UInt8 := putUint64LE value.lo ++ putUint64LE value.hi

def big (value : Uint128) : Int := bigFromBytes (putUint64BE value.hi ++ putUint64BE value.lo)

def uint64 (value : Uint128) : Option UInt64 := if value.hi ≠ 0 then none else some value.lo

end Uint128

instance : Zero Uint128 := ⟨⟨0, 0⟩⟩

/-! ## Agreement with natural-number arithmetic -/

namespace Uint128

theorem val_lt (value : Uint128) : value.val < 2 ^ 128 := by
  have lo := value.lo.toNat_lt
  have hi := value.hi.toNat_lt
  simp only [val]
  omega

theorem ext_val {value other : Uint128} (same : value.val = other.val) : value = other := by
  obtain ⟨lo, hi⟩ := value
  obtain ⟨lo', hi'⟩ := other
  have lo_lt := lo.toNat_lt
  have lo'_lt := lo'.toNat_lt
  simp only [val] at same
  have sameHi : hi.toNat = hi'.toNat := by omega
  have sameLo : lo.toNat = lo'.toNat := by omega
  rw [UInt64.toNat_inj.mp sameHi, UInt64.toNat_inj.mp sameLo]

/-- The amount below `2 ^ 128` as two limbs, used to exhibit results. -/
def ofVal (amount : Nat) : Uint128 := ⟨UInt64.ofNat amount, UInt64.ofNat (amount / 2 ^ 64)⟩

theorem val_ofVal {amount : Nat} (fits : amount < 2 ^ 128) : (ofVal amount).val = amount := by
  simp only [ofVal, val, UInt64.toNat_ofNat']
  omega

@[simp] theorem val_zero : (0 : Uint128).val = 0 := rfl

@[simp] theorem val_mk (lo hi : UInt64) : (Uint128.mk lo hi).val = hi.toNat * 2 ^ 64 + lo.toNat :=
  rfl

@[simp] theorem val_uint128FromUint64 (value : UInt64) :
    (uint128FromUint64 value).val = value.toNat := by
  simp [uint128FromUint64, val]

theorem isZero_iff (value : Uint128) : value.isZero = true ↔ value.val = 0 := by
  obtain ⟨lo, hi⟩ := value
  simp only [isZero, val, Bool.and_eq_true, beq_iff_eq]
  constructor
  · rintro ⟨rfl, rfl⟩
    rfl
  · intro zero
    have hi0 : hi.toNat = 0 := by omega
    have lo0 : lo.toNat = 0 := by omega
    exact ⟨UInt64.toNat_inj.mp lo0, UInt64.toNat_inj.mp hi0⟩

end Uint128

/-- `bits.Add64` is a full adder: the sum limb and the carry out together hold
the exact sum. -/
theorem add64_spec (x y carry : UInt64) (carryBit : carry.toNat ≤ 1) :
    (add64 x y carry).1.toNat + (add64 x y carry).2.toNat * 2 ^ 64 =
        x.toNat + y.toNat + carry.toNat ∧ (add64 x y carry).2.toNat ≤ 1 := by
  have := x.toNat_lt
  have := y.toNat_lt
  simp only [add64, UInt64.toNat_add]
  by_cases overflow : 2 ^ 64 ≤ x.toNat + y.toNat + carry.toNat
  · rw [if_pos overflow, UInt64.toNat_one]
    omega
  · rw [if_neg overflow, UInt64.toNat_zero]
    omega

/-- `bits.Sub64` is a full subtractor: the difference limb and the borrow out
together hold the exact difference. -/
theorem sub64_spec (x y borrow : UInt64) (borrowBit : borrow.toNat ≤ 1) :
    (sub64 x y borrow).1.toNat + y.toNat + borrow.toNat =
        x.toNat + (sub64 x y borrow).2.toNat * 2 ^ 64 ∧ (sub64 x y borrow).2.toNat ≤ 1 ∧
      ((sub64 x y borrow).2 = 0 ↔ y.toNat + borrow.toNat ≤ x.toNat) := by
  have := x.toNat_lt
  have := y.toNat_lt
  simp only [sub64, UInt64.toNat_sub]
  by_cases underflow : x.toNat < y.toNat + borrow.toNat
  · rw [if_pos underflow, UInt64.toNat_one]
    refine ⟨by omega, le_refl 1, ?_⟩
    constructor
    · intro oneZero
      exact absurd oneZero (by decide)
    · intro fits
      omega
  · rw [if_neg underflow, UInt64.toNat_zero]
    refine ⟨by omega, Nat.zero_le 1, ?_⟩
    simp only [true_iff]
    omega

namespace Uint128

theorem add_eq_some_iff (value other sum : Uint128) :
    value.add other = some sum ↔
      value.val + other.val < 2 ^ 128 ∧ sum.val = value.val + other.val := by
  obtain ⟨loSpec, carryBit⟩ := add64_spec value.lo other.lo 0 (by simp)
  obtain ⟨hiSpec, overflowBit⟩ :=
    add64_spec value.hi other.hi (add64 value.lo other.lo 0).2 carryBit
  rw [UInt64.toNat_zero, Nat.add_zero] at loSpec
  have sumBound := sum.val_lt
  unfold add
  by_cases overflow : (add64 value.hi other.hi (add64 value.lo other.lo 0).2).2 = 0
  · have overflowZero : (add64 value.hi other.hi (add64 value.lo other.lo 0).2).2.toNat = 0 := by
      rw [overflow, UInt64.toNat_zero]
    rw [if_neg (not_not.mpr overflow), Option.some.injEq]
    constructor
    · rintro rfl
      rw [val_mk] at sumBound ⊢
      simp only [val]
      omega
    · rintro ⟨_, total⟩
      apply ext_val
      rw [val_mk, total]
      simp only [val]
      omega
  · have overflowOne : (add64 value.hi other.hi (add64 value.lo other.lo 0).2).2.toNat = 1 := by
      have : (add64 value.hi other.hi (add64 value.lo other.lo 0).2).2.toNat ≠ 0 := by
        intro zero
        exact overflow (UInt64.toNat_inj.mp zero)
      omega
    rw [if_pos overflow]
    simp only [reduceCtorEq, false_iff, not_and]
    intro bound
    simp only [val] at bound
    omega

theorem sub_eq_some_iff (value other diff : Uint128) :
    value.sub other = some diff ↔ other.val ≤ value.val ∧ diff.val = value.val - other.val := by
  obtain ⟨loSpec, borrowBit, -⟩ := sub64_spec value.lo other.lo 0 (by simp)
  obtain ⟨hiSpec, overflowBit, overflowZeroIff⟩ :=
    sub64_spec value.hi other.hi (sub64 value.lo other.lo 0).2 borrowBit
  rw [UInt64.toNat_zero, Nat.add_zero] at loSpec
  have loBound := value.lo.toNat_lt
  have otherLoBound := other.lo.toNat_lt
  have diffLoBound := (sub64 value.lo other.lo 0).1.toNat_lt
  have diffHiBound := (sub64 value.hi other.hi (sub64 value.lo other.lo 0).2).1.toNat_lt
  unfold sub
  by_cases overflow : (sub64 value.hi other.hi (sub64 value.lo other.lo 0).2).2 = 0
  · have overflowZero : (sub64 value.hi other.hi (sub64 value.lo other.lo 0).2).2.toNat = 0 := by
      rw [overflow, UInt64.toNat_zero]
    have fits := overflowZeroIff.mp overflow
    rw [if_neg (not_not.mpr overflow), Option.some.injEq]
    constructor
    · rintro rfl
      rw [val_mk]
      simp only [val]
      omega
    · rintro ⟨_, total⟩
      apply ext_val
      rw [val_mk, total]
      simp only [val]
      omega
  · have short : value.hi.toNat < other.hi.toNat + (sub64 value.lo other.lo 0).2.toNat := by
      by_contra fits
      exact overflow (overflowZeroIff.mpr (by omega))
    rw [if_pos overflow]
    simp only [reduceCtorEq, false_iff, not_and]
    intro fits
    simp only [val] at fits
    omega

theorem compare_eq (value other : Uint128) :
    value.compare other =
      if value.val < other.val then -1 else if other.val < value.val then 1 else 0 := by
  have := value.lo.toNat_lt
  have := other.lo.toNat_lt
  have valueVal : value.val = value.hi.toNat * 2 ^ 64 + value.lo.toNat := rfl
  have otherVal : other.val = other.hi.toNat * 2 ^ 64 + other.lo.toNat := rfl
  simp only [compare, UInt64.lt_iff_toNat_lt, gt_iff_lt]
  by_cases hiLt : value.hi.toNat < other.hi.toNat
  · rw [if_pos hiLt, if_pos (by omega)]
  · rw [if_neg hiLt]
    by_cases hiGt : other.hi.toNat < value.hi.toNat
    · rw [if_pos hiGt, if_neg (by omega), if_pos (by omega)]
    · rw [if_neg hiGt]
      by_cases loLt : value.lo.toNat < other.lo.toNat
      · rw [if_pos loLt, if_pos (by omega)]
      · rw [if_neg loLt]
        by_cases loGt : other.lo.toNat < value.lo.toNat
        · rw [if_pos loGt, if_neg (by omega), if_pos (by omega)]
        · rw [if_neg loGt, if_neg (by omega), if_neg (by omega)]

theorem compare_lt_iff (value other : Uint128) :
    value.compare other < 0 ↔ value.val < other.val := by
  rw [compare_eq]
  split_ifs with below above
  · simp [below]
  · simp only [Int.reduceLT, false_iff, not_lt]
    omega
  · simp only [lt_self_iff_false, false_iff, not_lt]
    omega

theorem compare_gt_iff (value other : Uint128) :
    0 < value.compare other ↔ other.val < value.val := by
  rw [compare_eq]
  split_ifs with below above
  · simp only [Int.reduceLT, false_iff, not_lt]
    omega
  · simp [above]
  · simp only [lt_self_iff_false, false_iff, not_lt]
    omega

end Uint128


/-! ## Byte and big-integer conversions -/

theorem toNat_leUint64 {bytes : List UInt8} (eight : bytes.length = 8) :
    (leUint64 bytes).toNat = ofListLE bytes := by
  have bound := ofListLE_lt bytes
  rw [eight] at bound
  rw [leUint64, UInt64.toNat_ofNat', Nat.mod_eq_of_lt (by omega)]

theorem val_of_uint128FromLE {bytes : List UInt8} {value : Uint128}
    (decoded : uint128FromLE bytes = some value) : value.val = ofListLE bytes := by
  unfold uint128FromLE at decoded
  split_ifs at decoded with length
  cases decoded
  have sixteen : bytes.length = 16 := not_not.mp length
  have lowLength : (bytes.take 8).length = 8 := by simp [sixteen]
  have highLength : (bytes.drop 8).length = 8 := by simp [sixteen]
  rw [Uint128.val_mk, toNat_leUint64 lowLength, List.take_of_length_le (by omega),
    toNat_leUint64 highLength]
  conv_rhs => rw [← List.take_append_drop 8 bytes]
  rw [ofListLE_append, lowLength]
  ring

theorem uint128FromLE_isSome {bytes : List UInt8} (sixteen : bytes.length = 16) :
    (uint128FromLE bytes).isSome := by
  simp [uint128FromLE, sixteen]

namespace Uint128

theorem big_eq (value : Uint128) : value.big = value.val := by
  have lo := value.lo.toNat_lt
  have hi := value.hi.toNat_lt
  rw [big, bigFromBytes, putUint64BE, putUint64BE, List.reverse_append, List.reverse_reverse,
    List.reverse_reverse, ofListLE_append, putUint64LE, putUint64LE, ofListLE_toListLE,
    ofListLE_toListLE, length_toListLE, Nat.mod_eq_of_lt (by omega),
    Nat.mod_eq_of_lt (by omega), val]
  push_cast
  ring

end Uint128

theorem uint128FromBig_eq_some_iff (value : Int) (result : Uint128) :
    uint128FromBig value = some result ↔ 0 ≤ value ∧ (result.val : Int) = value := by
  have resultBound := result.val_lt
  have reversed : (fillBytes16 value).reverse = toListLE 16 value.toNat := by
    rw [fillBytes16, List.reverse_reverse]
  unfold uint128FromBig
  rw [reversed]
  split_ifs with outside
  · simp only [false_iff, not_and]
    intro nonneg same
    simp only [maxUint128Big] at outside
    omega
  · have inside : 0 ≤ value ∧ value < 2 ^ 128 := by
      simp only [maxUint128Big] at outside
      omega
    have decodedVal {decoded : Uint128}
        (decodes : uint128FromLE (toListLE 16 value.toNat) = some decoded) :
        (decoded.val : Int) = value := by
      rw [val_of_uint128FromLE decodes, ofListLE_toListLE, Nat.mod_eq_of_lt (by omega)]
      omega
    constructor
    · intro decodes
      exact ⟨inside.1, decodedVal decodes⟩
    · rintro ⟨-, same⟩
      obtain ⟨decoded, decodes⟩ :=
        Option.isSome_iff_exists.mp (uint128FromLE_isSome (length_toListLE 16 value.toNat))
      rw [decodes, Uint128.ext_val (by have := decodedVal decodes; omega : decoded.val = result.val)]

theorem leUint64_putUint64LE (value : UInt64) : leUint64 (putUint64LE value) = value := by
  have fits : value.toNat < 256 ^ 8 := value.toNat_lt
  rw [leUint64, putUint64LE, ofListLE_toListLE, Nat.mod_eq_of_lt fits, UInt64.ofNat_toNat]

namespace Uint128

theorem uint128FromLE_toLE (value : Uint128) : uint128FromLE value.toLE = some value := by
  have lowLength : (putUint64LE value.lo).length = 8 := length_toListLE 8 _
  have highLength : (putUint64LE value.hi).length = 8 := length_toListLE 8 _
  have sixteen : value.toLE.length = 16 := by
    rw [toLE, List.length_append, lowLength, highLength]
  rw [uint128FromLE, if_neg (not_not.mpr sixteen), toLE, List.take_left' lowLength,
    List.drop_left' lowLength, List.take_of_length_le highLength.le, leUint64_putUint64LE,
    leUint64_putUint64LE]

theorem add_isSome_iff (value other : Uint128) :
    (value.add other).isSome ↔ value.val + other.val < 2 ^ 128 := by
  rw [Option.isSome_iff_exists]
  constructor
  · rintro ⟨sum, adds⟩
    exact ((add_eq_some_iff value other sum).mp adds).1
  · intro fits
    exact ⟨ofVal _, (add_eq_some_iff value other _).mpr ⟨fits, val_ofVal fits⟩⟩

theorem sub_isSome_iff (value other : Uint128) :
    (value.sub other).isSome ↔ other.val ≤ value.val := by
  rw [Option.isSome_iff_exists]
  constructor
  · rintro ⟨diff, subtracts⟩
    exact ((sub_eq_some_iff value other diff).mp subtracts).1
  · intro fits
    have below : value.val - other.val < 2 ^ 128 := by
      have := value.val_lt
      omega
    exact ⟨ofVal _, (sub_eq_some_iff value other _).mpr ⟨fits, val_ofVal below⟩⟩

theorem compare_eq_sign (value other : Uint128) :
    value.compare other = Int.sign ((value.val : Int) - other.val) := by
  rw [compare_eq]
  split_ifs with below above
  · rw [Int.sign_eq_neg_one_of_neg (by omega)]
  · rw [Int.sign_eq_one_of_pos (by omega)]
  · rw [show (value.val : Int) - other.val = 0 by omega, Int.sign_zero]

end Uint128

theorem uint128FromBig_isSome_iff (value : Int) :
    (uint128FromBig value).isSome ↔ 0 ≤ value ∧ value < 2 ^ 128 := by
  rw [Option.isSome_iff_exists]
  constructor
  · rintro ⟨result, decodes⟩
    obtain ⟨nonneg, same⟩ := (uint128FromBig_eq_some_iff value result).mp decodes
    have := result.val_lt
    omega
  · rintro ⟨nonneg, fits⟩
    have fitsNat : value.toNat < 2 ^ 128 := by omega
    refine ⟨Uint128.ofVal value.toNat, (uint128FromBig_eq_some_iff _ _).mpr ⟨nonneg, ?_⟩⟩
    rw [Uint128.val_ofVal fitsNat]
    omega

theorem uint128FromBig_big (value : Uint128) : uint128FromBig value.big = some value := by
  rw [Uint128.big_eq]
  exact (uint128FromBig_eq_some_iff _ value).mpr ⟨Int.natCast_nonneg _, rfl⟩

theorem uint128_helpers_agree (value other : Uint128) (n : Int) :
    value.val = value.hi.toNat * 2 ^ 64 + value.lo.toNat ∧
    ((value.add other).isSome ↔ value.val + other.val < 2 ^ 128) ∧
    (∀ sum, value.add other = some sum → sum.val = value.val + other.val) ∧
    ((value.sub other).isSome ↔ other.val ≤ value.val) ∧
    (∀ diff, value.sub other = some diff → diff.val = value.val - other.val) ∧
    value.compare other = Int.sign ((value.val : Int) - other.val) ∧
    value.big = value.val ∧
    ((uint128FromBig n).isSome ↔ 0 ≤ n ∧ n < 2 ^ 128) ∧
    uint128FromBig value.big = some value ∧
    uint128FromLE value.toLE = some value :=
  ⟨rfl, value.add_isSome_iff other,
    fun sum adds => ((Uint128.add_eq_some_iff value other sum).mp adds).2,
    value.sub_isSome_iff other,
    fun diff subtracts => ((Uint128.sub_eq_some_iff value other diff).mp subtracts).2,
    value.compare_eq_sign other, value.big_eq, uint128FromBig_isSome_iff n,
    uint128FromBig_big value, value.uint128FromLE_toLE⟩

end Cryptixd.Atomic

