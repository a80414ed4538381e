import Mathlib

/-!
# Compact difficulty bits

`util/difficulty/difficulty.go`: a header stores its target as 32 compact
bits, an 8-bit base-256 exponent, a sign bit and a 23-bit mantissa, standing
for `N = (-1)^sign * mantissa * 256^(exponent - 3)`.  `BigToCompact` keeps
the top bytes of `|N|`, and moves one more byte out of the mantissa when its
top bit would collide with the sign bit.

For a non-negative number below `2^(8*254)` the decoded value keeps the top
two or three bytes and encodes back to the same bits (`compact_roundTrip`);
for every non-negative number it is at most the number, and for a negative
one it is at most zero.  A negative number is shifted arithmetically, so its
magnitude is rounded up, and a carry out of the mantissa can reach the
exponent byte (`compact_roundTrip_fails`).
-/

set_option autoImplicit false

namespace Cryptixd.Difficulty

/-- `CompactToBig` (`CompactToBigWithDestination` writes the same value). -/
def compactToBig (compact : UInt32) : Int :=
  let mantissa := compact &&& 0x007fffff
  let isNegative := compact &&& 0x00800000 != 0
  let exponent := (compact >>> 24).toNat
  -- `mantissa * 256^(exponent - 3)`, shifting right for the small exponents
  let destination : Nat :=
    if exponent ≤ 3 then (mantissa >>> UInt32.ofNat (8 * (3 - exponent))).toNat
    else mantissa.toNat <<< (8 * (exponent - 3))
  if isNegative then -(destination : Int) else destination

/-- `len(n.Bytes())`: how many big-endian bytes `|n|` has. -/
def byteLength (n : Int) : Nat := (Nat.digits 256 n.natAbs).length

/-- `BigToCompact`.  `n.Bits()[0]` is the low word of `|n|`, so its `uint32`
is `|n|` modulo `2^32`; `Rsh` on a negative `big.Int` is an arithmetic
shift. -/
def bigToCompact (n : Int) : UInt32 :=
  if n = 0 then 0 else
  let exponent := byteLength n
  let mantissa : UInt32 :=
    if exponent ≤ 3 then UInt32.ofNat n.natAbs <<< UInt32.ofNat (8 * (3 - exponent))
    else UInt32.ofNat (n >>> (8 * (exponent - 3))).natAbs
  -- a mantissa with the sign bit set loses its low byte to the exponent
  let (mantissa, exponent) :=
    if mantissa &&& 0x00800000 != 0 then (mantissa >>> 8, exponent + 1) else (mantissa, exponent)
  let compact := UInt32.ofNat (exponent <<< 24) ||| mantissa
  if n < 0 then compact ||| 0x00800000 else compact

/-! ## Reading the fields -/

/-- The value an exponent and a mantissa stand for, rounding down for the
small exponents. -/
def compactValue (exponent mantissa : Nat) : Nat :=
  if exponent ≤ 3 then mantissa / 256 ^ (3 - exponent) else mantissa * 256 ^ (exponent - 3)

theorem two_pow_eight_mul (count : Nat) : 2 ^ (8 * count) = 256 ^ count := by
  rw [Nat.pow_mul]

theorem pack_toNat (exponent mantissa : Nat) (small : mantissa < 2 ^ 23) :
    (UInt32.ofNat (exponent <<< 24) ||| UInt32.ofNat mantissa).toNat =
      exponent % 256 * 2 ^ 24 + mantissa := by
  have high : exponent <<< 24 % 2 ^ 32 = (exponent % 256) <<< 24 := by
    rw [Nat.shiftLeft_eq, Nat.shiftLeft_eq, show 2 ^ 32 = 256 * 2 ^ 24 by norm_num,
      Nat.mul_mod_mul_right]
  rw [UInt32.toNat_or, UInt32.toNat_ofNat', UInt32.toNat_ofNat', high,
    Nat.mod_eq_of_lt (by omega : mantissa < 2 ^ 32),
    ← Nat.shiftLeft_add_eq_or_of_lt (by omega : mantissa < 2 ^ 24), Nat.shiftLeft_eq]

section Fields

variable {compact : UInt32} {exponent mantissa : Nat}

theorem sign_field (small : mantissa < 2 ^ 23) (negative : Bool)
    (word : compact.toNat = exponent * 2 ^ 24 + negative.toNat * 2 ^ 23 + mantissa) :
    (compact &&& 0x00800000 != 0) = negative := by
  have bit : (compact.toNat / 2 ^ 23) % 2 = negative.toNat := by
    rw [word, show exponent * 2 ^ 24 + negative.toNat * 2 ^ 23 + mantissa =
      mantissa + 2 ^ 23 * (2 * exponent + negative.toNat) by ring,
      Nat.add_mul_div_left _ _ (by norm_num), Nat.div_eq_of_lt small, Nat.zero_add,
      Nat.add_mod, Nat.mul_mod_right, Nat.zero_add, Nat.mod_mod]
    cases negative <;> rfl
  have masked : (compact &&& 0x00800000).toNat = negative.toNat * 2 ^ 23 := by
    rw [UInt32.toNat_and, show (0x00800000 : UInt32).toNat = 2 ^ 23 from rfl, Nat.and_two_pow,
      Nat.testBit_eq_decide_div_mod_eq, bit]
    cases negative <;> rfl
  cases negative
  · rw [bne_eq_false_iff_eq, ← UInt32.toNat_inj, masked]
    rfl
  · rw [bne_iff_ne, ne_eq, ← UInt32.toNat_inj, masked]
    decide

theorem compactToBig_of_fields (small : mantissa < 2 ^ 23) (exponentSmall : exponent < 256)
    (negative : Bool)
    (word : compact.toNat = exponent * 2 ^ 24 + negative.toNat * 2 ^ 23 + mantissa) :
    compactToBig compact =
      if negative then -(compactValue exponent mantissa : Int) else compactValue exponent mantissa := by
  have unsigned : (compact &&& 0x007fffff).toNat = mantissa := by
    have plain : (compact &&& 0x007fffff).toNat = (compact.toNat % 2 ^ 23) := by
      rw [UInt32.toNat_and, show (0x007fffff : UInt32).toNat = 2 ^ 23 - 1 from rfl,
        Nat.and_two_pow_sub_one_eq_mod]
    rw [plain, word, show exponent * 2 ^ 24 + negative.toNat * 2 ^ 23 + mantissa =
      mantissa + 2 ^ 23 * (2 * exponent + negative.toNat) by ring, Nat.add_mul_mod_self_left,
      Nat.mod_eq_of_lt small]
  have shifted : (compact >>> 24).toNat = exponent := by
    have : negative.toNat * 2 ^ 23 + mantissa < 2 ^ 24 := by cases negative <;> simp <;> omega
    rw [UInt32.toNat_shiftRight, word, show (24 : UInt32).toNat % 32 = 24 from rfl,
      Nat.shiftRight_eq_div_pow, Nat.add_assoc, Nat.add_comm, Nat.add_mul_div_right _ _ (by norm_num),
      Nat.div_eq_of_lt this, Nat.zero_add]
  have destination :
      (if exponent ≤ 3 then ((compact &&& 0x007fffff) >>> UInt32.ofNat (8 * (3 - exponent))).toNat
        else (compact &&& 0x007fffff).toNat <<< (8 * (exponent - 3))) =
        compactValue exponent mantissa := by
    unfold compactValue
    split_ifs
    · rw [UInt32.toNat_shiftRight, unsigned, UInt32.toNat_ofNat', Nat.shiftRight_eq_div_pow,
        Nat.mod_eq_of_lt (by omega : 8 * (3 - exponent) < 2 ^ 32),
        Nat.mod_eq_of_lt (by omega : 8 * (3 - exponent) < 32), two_pow_eight_mul]
    · rw [unsigned, Nat.shiftLeft_eq, two_pow_eight_mul]
  unfold compactToBig
  dsimp only
  rw [sign_field small negative word, shifted, destination]

end Fields

/-! ## Encoding a non-negative number -/

/-- The first mantissa `BigToCompact` takes from a magnitude: its top three
bytes, moved up when it has fewer. -/
def leadingMantissa (magnitude : Nat) : Nat :=
  let exponent := (Nat.digits 256 magnitude).length
  if exponent ≤ 3 then magnitude * 256 ^ (3 - exponent) else magnitude / 256 ^ (exponent - 3)

/-- The exponent and the mantissa `BigToCompact` stores for a magnitude
whose arithmetic shift rounds down. -/
def compactParts (magnitude : Nat) : Nat × Nat :=
  let exponent := (Nat.digits 256 magnitude).length
  if 2 ^ 23 ≤ leadingMantissa magnitude then (exponent + 1, leadingMantissa magnitude / 256)
  else (exponent, leadingMantissa magnitude)

theorem lt_pow_byteLength (magnitude : Nat) :
    magnitude < 256 ^ (Nat.digits 256 magnitude).length :=
  Nat.lt_base_pow_length_digits (by norm_num)

theorem pow_byteLength_le {magnitude : Nat} (positive : 0 < magnitude) :
    256 ^ ((Nat.digits 256 magnitude).length - 1) ≤ magnitude := by
  have nonempty : 0 < (Nat.digits 256 magnitude).length := by
    rw [List.length_pos_iff, Nat.digits_ne_nil_iff_ne_zero]
    omega
  exact (Nat.lt_digits_length_iff (by norm_num) magnitude).mp (by omega)

theorem leadingMantissa_lt (magnitude : Nat) : leadingMantissa magnitude < 2 ^ 24 := by
  have below := lt_pow_byteLength magnitude
  simp only [leadingMantissa]
  split_ifs with small
  · calc magnitude * 256 ^ (3 - (Nat.digits 256 magnitude).length)
        < 256 ^ (Nat.digits 256 magnitude).length * 256 ^ (3 - (Nat.digits 256 magnitude).length) :=
          Nat.mul_lt_mul_of_pos_right below (by positivity)
      _ = 2 ^ 24 := by rw [← Nat.pow_add, Nat.add_sub_cancel' small]; norm_num
  · rw [Nat.div_lt_iff_lt_mul (by positivity), show 2 ^ 24 = 256 ^ 3 by norm_num, ← Nat.pow_add,
      Nat.add_sub_cancel' (by omega)]
    exact below

theorem compactParts_mantissa_lt (magnitude : Nat) : (compactParts magnitude).2 < 2 ^ 23 := by
  have := leadingMantissa_lt magnitude
  unfold compactParts
  split_ifs
  · dsimp only
    omega
  · dsimp only
    omega

theorem firstMantissa_toNat (magnitude : Nat) :
    (if byteLength (magnitude : Int) ≤ 3 then
        UInt32.ofNat (magnitude : Int).natAbs <<< UInt32.ofNat (8 * (3 - byteLength (magnitude : Int)))
      else UInt32.ofNat ((magnitude : Int) >>> (8 * (byteLength (magnitude : Int) - 3))).natAbs).toNat =
      leadingMantissa magnitude := by
  have fits := leadingMantissa_lt magnitude
  have below := lt_pow_byteLength magnitude
  have length : byteLength (magnitude : Int) = (Nat.digits 256 magnitude).length := by
    rw [byteLength, Int.natAbs_natCast]
  rw [length]
  simp only [leadingMantissa] at fits ⊢
  split_ifs at fits ⊢ with small
  · have small32 : magnitude < 2 ^ 32 := by
      calc magnitude < 256 ^ (Nat.digits 256 magnitude).length := below
        _ ≤ 256 ^ 3 := Nat.pow_le_pow_right (by norm_num) small
        _ < 2 ^ 32 := by norm_num
    rw [UInt32.toNat_shiftLeft, UInt32.toNat_ofNat', UInt32.toNat_ofNat', Int.natAbs_natCast,
      Nat.mod_eq_of_lt small32, Nat.mod_eq_of_lt (by omega : 8 * (3 - _) < 2 ^ 32),
      Nat.mod_eq_of_lt (by omega : 8 * (3 - _) < 32), Nat.shiftLeft_eq, two_pow_eight_mul,
      Nat.mod_eq_of_lt (by omega)]
  · have shifted : ((magnitude : Int) >>> (8 * ((Nat.digits 256 magnitude).length - 3))).natAbs =
        magnitude / 256 ^ ((Nat.digits 256 magnitude).length - 3) := by
      rw [show ((magnitude : Int) >>> (8 * ((Nat.digits 256 magnitude).length - 3))) =
        ((magnitude >>> (8 * ((Nat.digits 256 magnitude).length - 3)) : Nat) : Int) from rfl,
        Int.natAbs_natCast, Nat.shiftRight_eq_div_pow, two_pow_eight_mul]
    rw [shifted, UInt32.toNat_ofNat', Nat.mod_eq_of_lt (by omega)]

theorem bigToCompact_natCast {magnitude : Nat} (positive : 0 < magnitude) :
    (bigToCompact magnitude).toNat =
      (compactParts magnitude).1 % 256 * 2 ^ 24 + (compactParts magnitude).2 := by
  have first := firstMantissa_toNat magnitude
  have fits := leadingMantissa_lt magnitude
  have length : byteLength (magnitude : Int) = (Nat.digits 256 magnitude).length := by
    rw [byteLength, Int.natAbs_natCast]
  unfold bigToCompact
  rw [if_neg (by exact_mod_cast positive.ne')]
  dsimp only
  rw [if_neg (by omega)]
  generalize (if byteLength (magnitude : Int) ≤ 3 then
      UInt32.ofNat (magnitude : Int).natAbs <<< UInt32.ofNat (8 * (3 - byteLength (magnitude : Int)))
    else UInt32.ofNat ((magnitude : Int) >>> (8 * (byteLength (magnitude : Int) - 3))).natAbs) =
    mantissa at first
  have signBit : (mantissa &&& 0x00800000 != 0) = decide (2 ^ 23 ≤ leadingMantissa magnitude) :=
    @sign_field mantissa 0 (leadingMantissa magnitude % 2 ^ 23) (Nat.mod_lt _ (by norm_num)) _ (by
      rw [first]
      by_cases top : 2 ^ 23 ≤ leadingMantissa magnitude
      · simp only [top, decide_true, Bool.toNat_true]
        omega
      · simp only [top, decide_false, Bool.toNat_false]
        omega)
  rw [signBit, length]
  unfold compactParts
  by_cases top : 2 ^ 23 ≤ leadingMantissa magnitude
  · rw [if_pos (decide_eq_true top), if_pos top]
    dsimp only
    have renormalised : (mantissa >>> 8).toNat = leadingMantissa magnitude / 256 := by
      rw [UInt32.toNat_shiftRight, first, show (8 : UInt32).toNat % 32 = 8 from rfl,
        Nat.shiftRight_eq_div_pow]
    rw [← @UInt32.ofNat_toNat (mantissa >>> 8), renormalised, pack_toNat _ _ (by omega)]
  · rw [if_neg (by rw [decide_eq_true_eq]; exact top), if_neg top]
    dsimp only
    rw [← @UInt32.ofNat_toNat mantissa, first, pack_toNat _ _ (by omega)]

theorem compactToBig_bigToCompact_natCast (magnitude : Nat) :
    compactToBig (bigToCompact magnitude) =
      compactValue ((compactParts magnitude).1 % 256) (compactParts magnitude).2 := by
  rcases Nat.eq_zero_or_pos magnitude with zero | positive
  · subst zero
    rfl
  · have word := bigToCompact_natCast positive
    rw [@compactToBig_of_fields (bigToCompact magnitude) ((compactParts magnitude).1 % 256)
      (compactParts magnitude).2 (compactParts_mantissa_lt magnitude) (Nat.mod_lt _ (by norm_num))
      false (by rw [word]; simp)]
    rfl

section Parts

variable {magnitude : Nat}

theorem leadingMantissa_of_short (short : (Nat.digits 256 magnitude).length ≤ 3) :
    leadingMantissa magnitude = magnitude * 256 ^ (3 - (Nat.digits 256 magnitude).length) := by
  simp only [leadingMantissa, if_pos short]

theorem leadingMantissa_of_long (long : 3 < (Nat.digits 256 magnitude).length) :
    leadingMantissa magnitude = magnitude / 256 ^ ((Nat.digits 256 magnitude).length - 3) := by
  simp only [leadingMantissa, if_neg (Nat.not_le.mpr long)]

theorem compactParts_of_top (top : 2 ^ 23 ≤ leadingMantissa magnitude) :
    compactParts magnitude =
      ((Nat.digits 256 magnitude).length + 1, leadingMantissa magnitude / 256) := by
  simp only [compactParts, if_pos top]

theorem compactParts_of_not_top (top : ¬2 ^ 23 ≤ leadingMantissa magnitude) :
    compactParts magnitude = ((Nat.digits 256 magnitude).length, leadingMantissa magnitude) := by
  simp only [compactParts, if_neg top]

end Parts

/-! ## The bytes kept -/

def droppedBytes (magnitude : Nat) : Nat := (compactParts magnitude).1 - 3

theorem compactValue_compactParts (magnitude : Nat) :
    compactValue (compactParts magnitude).1 (compactParts magnitude).2 =
      magnitude / 256 ^ droppedBytes magnitude * 256 ^ droppedBytes magnitude := by
  unfold droppedBytes compactValue
  by_cases top : 2 ^ 23 ≤ leadingMantissa magnitude
  · rw [compactParts_of_top top]
    dsimp only
    rcases Nat.lt_or_ge (Nat.digits 256 magnitude).length 3 with fewer | three
    · -- under three bytes the renormalised mantissa still holds the whole magnitude
      rw [leadingMantissa_of_short (by omega), if_pos (by omega),
        show (Nat.digits 256 magnitude).length + 1 - 3 = 0 by omega,
        show 3 - (Nat.digits 256 magnitude).length = (2 - (Nat.digits 256 magnitude).length) + 1 by omega,
        show 3 - ((Nat.digits 256 magnitude).length + 1) = 2 - (Nat.digits 256 magnitude).length by omega,
        Nat.pow_succ, ← Nat.mul_assoc, Nat.mul_div_cancel _ (by norm_num),
        Nat.mul_div_cancel _ (by positivity), pow_zero, Nat.div_one, Nat.mul_one]
    · rw [if_neg (by omega), show (Nat.digits 256 magnitude).length + 1 - 3 =
        ((Nat.digits 256 magnitude).length - 3) + 1 by omega]
      rcases three.eq_or_lt with exactly | more
      · rw [leadingMantissa_of_short exactly.ge, ← exactly]
        simp
      · rw [leadingMantissa_of_long more, Nat.div_div_eq_div_mul, ← Nat.pow_succ]
  · rw [compactParts_of_not_top top]
    dsimp only
    rcases Nat.lt_or_ge 3 (Nat.digits 256 magnitude).length with more | short
    · rw [leadingMantissa_of_long more, if_neg (by omega)]
    · rw [leadingMantissa_of_short short, if_pos short, Nat.mul_div_cancel _ (by positivity),
        show (Nat.digits 256 magnitude).length - 3 = 0 by omega, pow_zero, Nat.div_one, Nat.mul_one]
theorem compactParts_exponent_le (magnitude : Nat) :
    (compactParts magnitude).1 ≤ (Nat.digits 256 magnitude).length + 1 := by
  by_cases top : 2 ^ 23 ≤ leadingMantissa magnitude
  · rw [compactParts_of_top top]
  · rw [compactParts_of_not_top top]
    exact Nat.le_succ _

theorem droppedBytes_le (magnitude : Nat) :
    droppedBytes magnitude ≤ (Nat.digits 256 magnitude).length - 2 := by
  unfold droppedBytes
  have := compactParts_exponent_le magnitude
  omega

theorem compactValue_mono {exponent exponent' : Nat} (mantissa : Nat) (le : exponent' ≤ exponent) :
    compactValue exponent' mantissa ≤ compactValue exponent mantissa := by
  unfold compactValue
  split_ifs with small' small
  · exact Nat.div_le_div_left (Nat.pow_le_pow_right (by norm_num) (by omega)) (by positivity)
  · exact le_trans (Nat.div_le_self _ _) (Nat.le_mul_of_pos_right _ (by positivity))
  · omega
  · exact Nat.mul_le_mul_left _ (Nat.pow_le_pow_right (by norm_num) (by omega))

theorem compactToBig_bigToCompact_le (magnitude : Nat) :
    compactToBig (bigToCompact magnitude) ≤ magnitude := by
  rw [compactToBig_bigToCompact_natCast]
  have kept := compactValue_compactParts magnitude
  have wrapped := compactValue_mono (compactParts magnitude).2
    (Nat.mod_le (compactParts magnitude).1 256)
  have cleared := Nat.div_mul_le_self magnitude (256 ^ droppedBytes magnitude)
  exact_mod_cast (wrapped.trans kept.le).trans cleared

theorem length_clear {magnitude dropped : Nat} (positive : 0 < magnitude)
    (few : dropped ≤ (Nat.digits 256 magnitude).length - 1) :
    (Nat.digits 256 (magnitude / 256 ^ dropped * 256 ^ dropped)).length =
      (Nat.digits 256 magnitude).length := by
  have below := lt_pow_byteLength magnitude
  have above := pow_byteLength_le positive
  have nonempty : 0 < (Nat.digits 256 magnitude).length := by
    rw [List.length_pos_iff, Nat.digits_ne_nil_iff_ne_zero]
    omega
  have kept : 256 ^ ((Nat.digits 256 magnitude).length - 1) ≤ magnitude / 256 ^ dropped * 256 ^ dropped := by
    have split : 256 ^ ((Nat.digits 256 magnitude).length - 1) =
        256 ^ ((Nat.digits 256 magnitude).length - 1 - dropped) * 256 ^ dropped := by
      rw [← Nat.pow_add, Nat.sub_add_cancel few]
    rw [split]
    refine Nat.mul_le_mul_right _ ((Nat.le_div_iff_mul_le (by positivity)).mpr ?_)
    rw [← split]
    exact above
  have cleared := Nat.div_mul_le_self magnitude (256 ^ dropped)
  apply le_antisymm
  · exact (Nat.digits_length_le_iff (by norm_num) _).mpr (by omega)
  · have := (Nat.lt_digits_length_iff (by norm_num) _).mpr kept
    omega

theorem compactParts_congr {magnitude other : Nat}
    (sameLength : (Nat.digits 256 other).length = (Nat.digits 256 magnitude).length)
    (sameLeading : leadingMantissa other = leadingMantissa magnitude) :
    compactParts other = compactParts magnitude := by
  unfold compactParts
  rw [sameLength, sameLeading]

theorem compactParts_congr_top {magnitude other : Nat}
    (sameLength : (Nat.digits 256 other).length = (Nat.digits 256 magnitude).length)
    (top : 2 ^ 23 ≤ leadingMantissa magnitude) (otherTop : 2 ^ 23 ≤ leadingMantissa other)
    (sameKept : leadingMantissa other / 256 = leadingMantissa magnitude / 256) :
    compactParts other = compactParts magnitude := by
  rw [compactParts_of_top top, compactParts_of_top otherTop, sameLength, sameKept]

theorem compactParts_clear (magnitude : Nat) :
    compactParts (magnitude / 256 ^ droppedBytes magnitude * 256 ^ droppedBytes magnitude) =
      compactParts magnitude := by
  rcases Nat.eq_zero_or_pos magnitude with zero | positive
  · subst zero
    simp
  have few := droppedBytes_le magnitude
  have sameLength := length_clear positive (show droppedBytes magnitude ≤ _ by omega)
  by_cases top : 2 ^ 23 ≤ leadingMantissa magnitude
  · have dropped : droppedBytes magnitude = (Nat.digits 256 magnitude).length + 1 - 3 := by
      unfold droppedBytes
      rw [compactParts_of_top top]
    rw [dropped] at sameLength ⊢
    rcases Nat.lt_or_ge (Nat.digits 256 magnitude).length 3 with fewer | three
    · rw [show (Nat.digits 256 magnitude).length + 1 - 3 = 0 by omega, pow_zero, Nat.div_one,
        Nat.mul_one]
    rcases three.eq_or_lt with exactly | more
    · -- three bytes: the magnitude is its own leading mantissa and loses its low byte
      have leading : leadingMantissa magnitude = magnitude := by
        rw [leadingMantissa_of_short exactly.ge, ← exactly, Nat.sub_self, pow_zero, Nat.mul_one]
      rw [leading] at top
      rw [← exactly] at sameLength ⊢
      simp only [show 3 + 1 - 3 = 1 from rfl, pow_one] at sameLength ⊢
      have cleared : leadingMantissa (magnitude / 256 * 256) = magnitude / 256 * 256 := by
        rw [leadingMantissa_of_short (by omega), sameLength, Nat.sub_self, pow_zero, Nat.mul_one]
      apply compactParts_congr_top (sameLength.trans exactly) (by rw [leading]; exact top)
      · rw [cleared]
        omega
      · rw [cleared, leading]
        omega
    · -- more: the kept mantissa is the leading one with its low byte cleared
      have leading := leadingMantissa_of_long more
      have cleared : leadingMantissa (magnitude / 256 ^ ((Nat.digits 256 magnitude).length + 1 - 3) *
          256 ^ ((Nat.digits 256 magnitude).length + 1 - 3)) = leadingMantissa magnitude / 256 * 256 := by
        rw [leadingMantissa_of_long (by omega), sameLength, leading, Nat.div_div_eq_div_mul,
          show (Nat.digits 256 magnitude).length + 1 - 3 = ((Nat.digits 256 magnitude).length - 3) + 1 by omega,
          Nat.pow_succ, Nat.mul_comm (256 ^ ((Nat.digits 256 magnitude).length - 3)) 256,
          ← Nat.mul_assoc, Nat.mul_div_cancel _ (by positivity)]
      apply compactParts_congr_top sameLength top
      · rw [cleared]
        omega
      · rw [cleared, Nat.mul_div_cancel _ (by norm_num)]
  · have dropped : droppedBytes magnitude = (Nat.digits 256 magnitude).length - 3 := by
      unfold droppedBytes
      rw [compactParts_of_not_top top]
    rw [dropped] at sameLength ⊢
    rcases Nat.lt_or_ge 3 (Nat.digits 256 magnitude).length with more | short
    · apply compactParts_congr sameLength
      rw [leadingMantissa_of_long (by omega), leadingMantissa_of_long more, sameLength,
        Nat.mul_div_cancel _ (by positivity)]
    · rw [show (Nat.digits 256 magnitude).length - 3 = 0 by omega, pow_zero, Nat.div_one,
        Nat.mul_one]

theorem compactToBig_bigToCompact_of_lt {magnitude : Nat} (small : magnitude < 256 ^ 254) :
    compactToBig (bigToCompact magnitude) =
      (magnitude / 256 ^ droppedBytes magnitude * 256 ^ droppedBytes magnitude : Nat) := by
  have length := (Nat.digits_length_le_iff (by norm_num) magnitude).mpr small
  have exponent := compactParts_exponent_le magnitude
  rw [compactToBig_bigToCompact_natCast, Nat.mod_eq_of_lt (by omega), compactValue_compactParts]

theorem bigToCompact_of_neg {n : Int} (negative : n < 0) :
    ∃ compact, bigToCompact n = compact ||| 0x00800000 := by
  unfold bigToCompact
  rw [if_neg (by omega)]
  dsimp only
  rw [if_pos negative]
  exact ⟨_, rfl⟩

theorem compactToBig_or_signBit_nonpos (compact : UInt32) :
    compactToBig (compact ||| 0x00800000) ≤ 0 := by
  have sign : ((compact ||| 0x00800000) &&& 0x00800000 != 0) = true := by
    rw [bne_iff_ne, ne_eq, ← UInt32.toNat_inj, UInt32.toNat_and, UInt32.toNat_or,
      show (0x00800000 : UInt32).toNat = 2 ^ 23 from rfl, Nat.and_two_pow, Nat.testBit_or,
      Nat.testBit_two_pow_self, Bool.or_true]
    decide
  unfold compactToBig
  dsimp only
  rw [sign, if_pos rfl]
  exact neg_nonpos.mpr (Int.natCast_nonneg _)

theorem compactToBig_bigToCompact_le_max (n : Int) :
    compactToBig (bigToCompact n) ≤ max n 0 := by
  rcases Int.lt_or_le n 0 with negative | nonneg
  · obtain ⟨compact, encoded⟩ := bigToCompact_of_neg negative
    rw [encoded]
    exact (compactToBig_or_signBit_nonpos compact).trans (le_max_right _ _)
  · obtain ⟨magnitude, rfl⟩ := Int.eq_ofNat_of_zero_le nonneg
    exact (compactToBig_bigToCompact_le magnitude).trans (le_max_left _ _)

/-! ## The round trip -/

/-- A non-negative number below `2^(8*254)` keeps its sign through its compact
bits, loses less than its value below the top three bytes (below the top two
when the mantissa is renormalised), and encodes back to the same bits; so
decoding and re-encoding are inverse on those bits. -/
theorem compact_roundTrip (n : Int) (nonneg : 0 ≤ n) (small : n < 2 ^ (8 * 254)) :
    0 ≤ compactToBig (bigToCompact n) ∧ (compactToBig (bigToCompact n) = 0 ↔ n = 0) ∧
      compactToBig (bigToCompact n) ≤ n ∧
      n - compactToBig (bigToCompact n) < 256 ^ (byteLength n - 2) ∧
      (leadingMantissa n.natAbs < 2 ^ 23 →
        n - compactToBig (bigToCompact n) < 256 ^ (byteLength n - 3)) ∧
      bigToCompact (compactToBig (bigToCompact n)) = bigToCompact n := by
  obtain ⟨magnitude, rfl⟩ := Int.eq_ofNat_of_zero_le nonneg
  have below : magnitude < 256 ^ 254 := by
    rw [← two_pow_eight_mul]
    exact_mod_cast small
  rw [compactToBig_bigToCompact_of_lt below, Int.natAbs_natCast, show byteLength (magnitude : Int) =
    (Nat.digits 256 magnitude).length by rw [byteLength, Int.natAbs_natCast]]
  rcases Nat.eq_zero_or_pos magnitude with zero | positive
  · subst zero
    simp [bigToCompact]
  have dropped := droppedBytes_le magnitude
  have split := Nat.mod_add_div magnitude (256 ^ droppedBytes magnitude)
  have kept : 0 < magnitude / 256 ^ droppedBytes magnitude * 256 ^ droppedBytes magnitude := by
    have top := pow_byteLength_le positive
    have lower : 256 ^ droppedBytes magnitude ≤ magnitude :=
      (Nat.pow_le_pow_right (by norm_num) (by omega)).trans top
    exact Nat.mul_pos (Nat.div_pos lower (by positivity)) (by positivity)
  have difference : (magnitude : Int) - (magnitude / 256 ^ droppedBytes magnitude *
      256 ^ droppedBytes magnitude : Nat) = (magnitude % 256 ^ droppedBytes magnitude : Nat) := by
    rw [Nat.mul_comm] at split
    omega
  have loss : magnitude % 256 ^ droppedBytes magnitude < 256 ^ droppedBytes magnitude :=
    Nat.mod_lt _ (by positivity)
  refine ⟨Int.natCast_nonneg _, ⟨fun zero => by omega, fun zero => by omega⟩,
    by exact_mod_cast Nat.div_mul_le_self _ _, ?_, fun notTop => ?_, ?_⟩
  · rw [difference]
    exact_mod_cast loss.trans_le (Nat.pow_le_pow_right (by norm_num) dropped)
  · -- without renormalising, the exponent is the byte length and three bytes stay
    have exponent : droppedBytes magnitude = (Nat.digits 256 magnitude).length - 3 := by
      rw [droppedBytes, compactParts_of_not_top (Nat.not_le.mpr notTop)]
    rw [difference, ← exponent]
    exact_mod_cast loss
  · rw [← UInt32.toNat_inj, bigToCompact_natCast kept, bigToCompact_natCast positive,
      compactParts_clear]

theorem compact_roundTrip_fourBytes :
    0 ≤ compactToBig (bigToCompact 0x12345678) ∧
      (compactToBig (bigToCompact 0x12345678) = 0 ↔ (0x12345678 : Int) = 0) ∧
      compactToBig (bigToCompact 0x12345678) ≤ 0x12345678 ∧
      0x12345678 - compactToBig (bigToCompact 0x12345678) < 256 ^ (byteLength 0x12345678 - 2) ∧
      (leadingMantissa (0x12345678 : Int).natAbs < 2 ^ 23 →
        0x12345678 - compactToBig (bigToCompact 0x12345678) < 256 ^ (byteLength 0x12345678 - 3)) ∧
      bigToCompact (compactToBig (bigToCompact 0x12345678)) = bigToCompact 0x12345678 :=
  compact_roundTrip 0x12345678 (by decide)
    (lt_of_lt_of_le (by norm_num : (0x12345678 : Int) < 2 ^ 32) (pow_le_pow_right₀ (by norm_num) (by norm_num)))

example : leadingMantissa (0x12345678 : Int).natAbs < 2 ^ 23 ∧
    compactToBig (bigToCompact 0x12345678) = 0x12345600 := by
  decide

/-- Where the round trip loses more: a renormalised three-byte mantissa drops
its low byte, a negative number is rounded away from zero, and a carry out of
a negative number's mantissa lands in the exponent byte and loses the sign, so
those bits do not survive decoding and re-encoding. -/
theorem compact_roundTrip_fails :
    256 ^ (byteLength 8388609 - 3) ≤ (8388609 : Int) - compactToBig (bigToCompact 8388609) ∧
      (-0x1234567 : Int).natAbs < (compactToBig (bigToCompact (-0x1234567))).natAbs ∧
      compactToBig (bigToCompact (-0xFFFFFF01)) = 0 ∧
      bigToCompact (compactToBig (bigToCompact (-0xFFFFFF01))) ≠ bigToCompact (-0xFFFFFF01) := by
  decide

end Cryptixd.Difficulty
