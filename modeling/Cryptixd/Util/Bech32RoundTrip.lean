import Mathlib
import Cryptixd.Util.Bech32

/-!
# The Bech32 round trip

`Decode` reads back what `Encode` wrote: the prefix, the payload and the
version, for every payload and version and every prefix `decode` can accept
(non-empty, printable, without capitals).  Two facts carry it.

The checksum is linear: `polyModStep` is additive over xor, so folding the
checksum digits into the state left by the data is folding zeros in, xor the
digits themselves, and the digits `calculateChecksum` writes are exactly the
state that cancels (`verifyChecksum_calculateChecksum`).

Regrouping keeps the bits: after any bytes, `convertBits`' finished groups and
its unfinished one spell, as one number, the bits read so far
(`extractBits_spec`, by induction on the passes of one byte, then over the
bytes).  Padding to 5-bit groups adds fewer than five zero bits, and going back
to bytes drops fewer than eight, so the way back gives the bytes again
(`convertBits_roundTrip`).
-/

set_option autoImplicit false

namespace Cryptixd.Bech32

/-! ## The checksum is linear over xor -/

theorem shiftLeft_xor_of_lt {a b i : ℕ} (h : b < 2 ^ i) : a <<< i ^^^ b = 2 ^ i * a + b := by
  apply Nat.eq_of_testBit_eq
  intro j
  rw [Nat.testBit_xor, Nat.testBit_shiftLeft, Nat.testBit_two_pow_mul_add a h]
  by_cases hj : j < i
  · have hij : ¬i ≤ j := by omega
    simp [hj, hij]
  · have hb : b.testBit j = false :=
      Nat.testBit_lt_two_pow (lt_of_lt_of_le h (Nat.pow_le_pow_right (by omega) (by omega)))
    simp [hj, hb]
    omega

def selectGenerator (topBits i : ℕ) : ℕ := if topBits.testBit i then generator.getD i 0 else 0

theorem shiftRight_and_one_eq_one_iff (x i : ℕ) : (x >>> i) &&& 1 = 1 ↔ x.testBit i = true := by
  rw [Nat.and_one_is_mod, Nat.shiftRight_eq_div_pow, Nat.testBit_eq_decide_div_mod_eq,
    decide_eq_true_iff]

theorem polyModStep_eq (c v : ℕ) :
    polyModStep c v = ((c &&& 0x07ffffffff) <<< 5) ^^^ v ^^^ selectGenerator (c >>> 35) 0 ^^^
      selectGenerator (c >>> 35) 1 ^^^ selectGenerator (c >>> 35) 2 ^^^
      selectGenerator (c >>> 35) 3 ^^^ selectGenerator (c >>> 35) 4 := by
  have fold : ∀ acc i, (if (c >>> 35 >>> i) &&& 1 = 1 then acc ^^^ generator.getD i 0 else acc) =
      acc ^^^ selectGenerator (c >>> 35) i := by
    intro acc i
    unfold selectGenerator
    by_cases h : (c >>> 35).testBit i = true
    · rw [if_pos ((shiftRight_and_one_eq_one_iff _ _).mpr h), if_pos h]
    · rw [if_neg (fun e => h ((shiftRight_and_one_eq_one_iff _ _).mp e)), if_neg h, Nat.xor_zero]
  simp only [polyModStep, show List.range generator.length = [0, 1, 2, 3, 4] from rfl,
    List.foldl_cons, List.foldl_nil, fold]

theorem selectGenerator_xor (a b i : ℕ) :
    selectGenerator (a ^^^ b) i = selectGenerator a i ^^^ selectGenerator b i := by
  unfold selectGenerator
  rw [Nat.testBit_xor]
  cases a.testBit i <;> cases b.testBit i <;> simp

theorem polyModStep_xor (a b v u : ℕ) :
    polyModStep (a ^^^ b) (v ^^^ u) = polyModStep a v ^^^ polyModStep b u := by
  simp only [polyModStep_eq, Nat.shiftRight_xor_distrib, Nat.and_xor_distrib_right,
    Nat.shiftLeft_xor_distrib, selectGenerator_xor]
  ac_rfl


theorem foldl_polyModStep_xor :
    ∀ (vs us : List ℕ) (a b : ℕ), vs.length = us.length →
      (List.zipWith (· ^^^ ·) vs us).foldl polyModStep (a ^^^ b) =
        vs.foldl polyModStep a ^^^ us.foldl polyModStep b := by
  intro vs
  induction vs with
  | nil =>
    intro us a b h
    cases us with
    | nil => rfl
    | cons _ _ => simp at h
  | cons v vs ih =>
    intro us a b h
    cases us with
    | nil => simp at h
    | cons u us =>
      simp only [List.zipWith_cons_cons, List.foldl_cons]
      rw [polyModStep_xor]
      exact ih us _ _ (by simpa using h)

theorem zipWith_xor_replicate_zero (d : List ℕ) :
    List.zipWith (· ^^^ ·) (List.replicate d.length 0) d = d := by
  induction d with
  | nil => rfl
  | cons x d ih => simp [List.replicate_succ, ih]

/-- Folding values into a checksum is folding zeros into it, xor folding the
values into zero. -/
theorem foldl_polyModStep_split (c : ℕ) (d : List ℕ) :
    d.foldl polyModStep c =
      (List.replicate d.length 0).foldl polyModStep c ^^^ d.foldl polyModStep 0 := by
  have h := foldl_polyModStep_xor (List.replicate d.length 0) d c 0 (by simp)
  rwa [zipWith_xor_replicate_zero, Nat.xor_zero] at h

/-! ## Digits in base `2 ^ k` -/

/-- The number the digits `xs` spell in base `2 ^ k`, the first digit the most
significant. -/
def digitsValue (k : ℕ) (xs : List ℕ) : ℕ := Nat.ofDigits (2 ^ k) xs.reverse

@[simp] theorem digitsValue_nil (k : ℕ) : digitsValue k [] = 0 := rfl

theorem digitsValue_concat (k : ℕ) (xs : List ℕ) (x : ℕ) :
    digitsValue k (xs ++ [x]) = 2 ^ k * digitsValue k xs + x := by
  rw [digitsValue, List.reverse_append, List.reverse_singleton, List.singleton_append,
    Nat.ofDigits_cons, add_comm]
  rfl

theorem digitsValue_lt {k : ℕ} (hk : 0 < k) {xs : List ℕ} (h : ∀ x ∈ xs, x < 2 ^ k) :
    digitsValue k xs < 2 ^ (k * xs.length) := by
  have base : 1 < 2 ^ k := Nat.one_lt_two_pow (by omega)
  have lt : Nat.ofDigits (2 ^ k) xs.reverse < (2 ^ k) ^ xs.reverse.length :=
    Nat.ofDigits_lt_base_pow_length base (by simpa using h)
  rwa [List.length_reverse, ← pow_mul] at lt

theorem digitsValue_inj {k : ℕ} (hk : 0 < k) {xs ys : List ℕ} (len : xs.length = ys.length)
    (hx : ∀ x ∈ xs, x < 2 ^ k) (hy : ∀ y ∈ ys, y < 2 ^ k)
    (h : digitsValue k xs = digitsValue k ys) : xs = ys := by
  have base : 1 < 2 ^ k := Nat.one_lt_two_pow (by omega)
  have rev : xs.reverse = ys.reverse :=
    Nat.ofDigits_inj_of_len_eq base (by simpa using len) (by simpa using hx) (by simpa using hy) h
  exact List.reverse_injective rev

/-! ## The checksum of a checksummed string -/

theorem polyModStep_of_lt {c v : ℕ} (hc : c < 2 ^ 35) (hv : v < 2 ^ 5) :
    polyModStep c v = 2 ^ 5 * c + v := by
  have top : c >>> 35 = 0 := by
    rw [Nat.shiftRight_eq_div_pow]
    exact Nat.div_eq_of_lt hc
  have low : c &&& 0x07ffffffff = c := by
    rw [show (0x07ffffffff : ℕ) = 2 ^ 35 - 1 by norm_num, Nat.and_two_pow_sub_one_eq_mod,
      Nat.mod_eq_of_lt hc]
  simp only [polyModStep_eq, top, low, selectGenerator, Nat.zero_testBit, Bool.false_eq_true,
    if_false, Nat.xor_zero]
  exact shiftLeft_xor_of_lt hv

theorem foldl_polyModStep_zero (d : List ℕ) (len : d.length ≤ 8) (h : ∀ x ∈ d, x < 2 ^ 5) :
    d.foldl polyModStep 0 = digitsValue 5 d := by
  induction d using List.reverseRecOn with
  | nil => rfl
  | append_singleton d x ih =>
    simp only [List.length_append, List.length_singleton] at len
    have hd : ∀ y ∈ d, y < 2 ^ 5 := fun y hy => h y (List.mem_append_left _ hy)
    have small : digitsValue 5 d < 2 ^ 35 :=
      lt_of_lt_of_le (digitsValue_lt (by norm_num) hd) (Nat.pow_le_pow_right (by norm_num) (by omega))
    rw [List.foldl_append, ih (by omega) hd, List.foldl_cons, List.foldl_nil,
      polyModStep_of_lt small (h x (by simp)), digitsValue_concat]

theorem digitsValue_chunks :
    ∀ (n P : ℕ), digitsValue 5 ((List.range n).map fun i => (P >>> (5 * (n - 1 - i))) &&& 31) =
      P % 2 ^ (5 * n) := by
  intro n
  induction n with
  | zero =>
    intro P
    simp only [List.range_zero, List.map_nil, digitsValue_nil, Nat.mul_zero, pow_zero, Nat.mod_one]
  | succ n ih =>
    intro P
    have front : ((List.range n).map fun i => (P >>> (5 * (n + 1 - 1 - i))) &&& 31) =
        (List.range n).map fun i => ((P >>> 5) >>> (5 * (n - 1 - i))) &&& 31 := by
      apply List.map_congr_left
      intro i hi
      rw [List.mem_range] at hi
      rw [← Nat.shiftRight_add]
      congr 2
      omega
    rw [List.range_succ, List.map_append, front, List.map_singleton, digitsValue_concat, ih,
      show n + 1 - 1 - n = 0 by omega, Nat.mul_zero, Nat.shiftRight_zero,
      show (31 : ℕ) = 2 ^ 5 - 1 by norm_num, Nat.and_two_pow_sub_one_eq_mod,
      Nat.shiftRight_eq_div_pow, show 5 * (n + 1) = 5 + 5 * n by ring, pow_add, Nat.mod_mul]
    ring


theorem generator_getD_lt (i : ℕ) : generator.getD i 0 < 2 ^ 40 := by
  have all : ∀ g ∈ generator, g < 2 ^ 40 := by decide
  rw [List.getD_eq_getElem?_getD]
  cases h : generator[i]? with
  | none => simp
  | some g => simpa using all g (List.mem_of_getElem? h)

theorem polyModStep_lt (c : ℕ) {v : ℕ} (hv : v < 2 ^ 40) : polyModStep c v < 2 ^ 40 := by
  have sel : ∀ t i, selectGenerator t i < 2 ^ 40 := by
    intro t i
    unfold selectGenerator
    split
    · exact generator_getD_lt i
    · positivity
  have low : (c &&& 0x07ffffffff) <<< 5 < 2 ^ 40 := by
    have le : c &&& 0x07ffffffff ≤ 0x07ffffffff := Nat.and_le_right
    rw [Nat.shiftLeft_eq]
    norm_num at le ⊢
    omega
  rw [polyModStep_eq]
  repeat apply Nat.xor_lt_two_pow _ (sel _ _)
  exact Nat.xor_lt_two_pow low hv

theorem foldl_polyModStep_zeros_lt (c n : ℕ) :
    (List.replicate (n + 1) 0).foldl polyModStep c < 2 ^ 40 := by
  rw [List.replicate_succ', List.foldl_append, List.foldl_cons, List.foldl_nil]
  exact polyModStep_lt _ (by positivity)

theorem ints_calculateChecksum (hrp payload : List UInt8) :
    ints (calculateChecksum hrp payload) =
      (List.range checksumLength).map fun i =>
        (polyMod (prefixToUint5Array hrp ++ [0] ++ ints payload ++ templateZeroes) >>>
          (5 * (checksumLength - 1 - i))) &&& 31 := by
  simp only [ints, calculateChecksum, List.map_map]
  apply List.map_congr_left
  intro i _
  simp only [Function.comp_apply]
  exact Nat.mod_eq_of_lt (lt_of_le_of_lt Nat.and_le_right (by norm_num))

/-- A payload followed by its checksum passes the checksum test, whatever the
prefix and the payload. -/
theorem verifyChecksum_calculateChecksum (hrp payload : List UInt8) :
    verifyChecksum hrp (payload ++ calculateChecksum hrp payload) = true := by
  set pre := prefixToUint5Array hrp ++ [0] ++ ints payload
  set c := pre.foldl polyModStep 1
  set Z := templateZeroes.foldl polyModStep c
  have hZ : Z < 2 ^ 40 := foldl_polyModStep_zeros_lt c 7
  have hP : polyMod (pre ++ templateZeroes) = Z ^^^ 1 := by
    rw [polyMod, List.foldl_append]
  have digits : (ints (calculateChecksum hrp payload)).foldl polyModStep 0 = Z ^^^ 1 := by
    have small : ∀ x ∈ ints (calculateChecksum hrp payload), x < 2 ^ 5 := by
      intro x hx
      rw [ints_calculateChecksum] at hx
      obtain ⟨i, -, rfl⟩ := List.mem_map.mp hx
      exact lt_of_le_of_lt Nat.and_le_right (by norm_num)
    rw [foldl_polyModStep_zero _ (by simp [ints, calculateChecksum, checksumLength]) small,
      ints_calculateChecksum, hP]
    exact (digitsValue_chunks 8 _).trans
      (Nat.mod_eq_of_lt (Nat.xor_lt_two_pow hZ (by norm_num)))
  have len : (ints (calculateChecksum hrp payload)).length = 8 := by
    simp [ints, calculateChecksum, checksumLength]
  have whole : (pre ++ ints (calculateChecksum hrp payload)).foldl polyModStep 1 = 1 := by
    rw [List.foldl_append, foldl_polyModStep_split, len, digits]
    change Z ^^^ (Z ^^^ 1) = 1
    rw [← Nat.xor_assoc, Nat.xor_self, Nat.zero_xor]
  unfold verifyChecksum
  rw [show ints (payload ++ calculateChecksum hrp payload) =
      ints payload ++ ints (calculateChecksum hrp payload) from List.map_append, ← List.append_assoc]
  change (polyMod (pre ++ ints (calculateChecksum hrp payload)) == 0) = true
  rw [polyMod, whole]
  rfl


/-! ## Regrouping bits -/

theorem toNat_shl (x : UInt8) {s : UInt8} (hs : s.toNat ≤ 8) :
    (shl x s).toNat = x.toNat * 2 ^ s.toNat % 2 ^ 8 := by
  unfold shl
  split
  · rename_i h
    have lt : s.toNat < 8 := UInt8.lt_iff_toNat_lt.mp h
    rw [UInt8.toNat_shiftLeft, Nat.mod_eq_of_lt lt, Nat.shiftLeft_eq]
  · rename_i h
    have eq : s.toNat = 8 := by
      have := UInt8.lt_iff_toNat_lt.not.mp h
      simp only [UInt8.reduceToNat] at this
      omega
    rw [eq, Nat.mul_mod_left]
    rfl

theorem toNat_shr (x : UInt8) {s : UInt8} (hs : s.toNat < 8) :
    (shr x s).toNat = x.toNat / 2 ^ s.toNat := by
  have lt : s < 8 := UInt8.lt_iff_toNat_lt.mpr hs
  rw [shr, if_pos lt, UInt8.toNat_shiftRight, Nat.mod_eq_of_lt hs, Nat.shiftRight_eq_div_pow]

/-- What `convertBits` holds after some bytes: the finished groups and the bits
of the unfinished one, read as one number. -/
def Regrouping.held (t : ℕ) (st : Regrouping) : ℕ :=
  2 ^ st.filledBits.toNat * digitsValue t (st.regrouped.map UInt8.toNat) + st.nextByte.toNat

def Regrouping.bits (t : ℕ) (st : Regrouping) : ℕ := t * st.regrouped.length + st.filledBits.toNat

/-- The state of `convertBits` to groups of `t` bits between passes. -/
structure Regrouping.Valid (t : ℕ) (st : Regrouping) : Prop where
  filled_lt : st.filledBits.toNat < t
  next_lt : st.nextByte.toNat < 2 ^ st.filledBits.toNat
  regrouped_lt : ∀ x ∈ st.regrouped, x.toNat < 2 ^ t

theorem div_two_pow_of_top {w r e : ℕ} (her : e ≤ r) (hr : r ≤ 8) :
    w * 2 ^ (8 - r) / 2 ^ (8 - e) = w / 2 ^ (r - e) := by
  rw [show 8 - e = (8 - r) + (r - e) by omega, pow_add, ← Nat.div_div_eq_div_mul,
    Nat.mul_div_cancel _ (by positivity)]

theorem mul_two_pow_mod_of_top {w r e : ℕ} (her : e ≤ r) (hr : r ≤ 8) :
    w * 2 ^ (8 - r) * 2 ^ e % 2 ^ 8 = w % 2 ^ (r - e) * 2 ^ (8 - (r - e)) := by
  have split : w = 2 ^ (r - e) * (w / 2 ^ (r - e)) + w % 2 ^ (r - e) := (Nat.div_add_mod _ _).symm
  have low : w % 2 ^ (r - e) * 2 ^ (8 - (r - e)) < 2 ^ 8 := by
    calc w % 2 ^ (r - e) * 2 ^ (8 - (r - e)) < 2 ^ (r - e) * 2 ^ (8 - (r - e)) :=
          Nat.mul_lt_mul_of_pos_right (Nat.mod_lt _ (by positivity)) (by positivity)
      _ = 2 ^ 8 := by rw [← pow_add]; congr 1; omega
  have whole : 2 ^ 8 = 2 ^ (r - e) * 2 ^ (8 - (r - e)) := by rw [← pow_add]; congr 1; omega
  rw [mul_assoc, ← pow_add, show 8 - r + e = 8 - (r - e) by omega]
  nth_rewrite 1 [split]
  rw [show (2 ^ (r - e) * (w / 2 ^ (r - e)) + w % 2 ^ (r - e)) * 2 ^ (8 - (r - e)) =
      w % 2 ^ (r - e) * 2 ^ (8 - (r - e)) + 2 ^ 8 * (w / 2 ^ (r - e)) by rw [whole]; ring,
    Nat.add_mul_mod_self_left, Nat.mod_eq_of_lt low]

def toExtract (conversionType : ConversionType) (st : Regrouping) (remainingFromBits : UInt8) :
    UInt8 :=
  if conversionType.toBits - st.filledBits < remainingFromBits then
    conversionType.toBits - st.filledBits
  else remainingFromBits

def passState (conversionType : ConversionType) (st : Regrouping) (nextByte filledBits : UInt8) :
    Regrouping :=
  if filledBits = conversionType.toBits then ⟨st.regrouped ++ [nextByte], 0, 0⟩
  else ⟨st.regrouped, nextByte, filledBits⟩

theorem extractBits_succ (conversionType : ConversionType) (fuel : ℕ) (b r : UInt8)
    (st : Regrouping) :
    extractBits conversionType (fuel + 1) b r st =
      if r > 0 then
        extractBits conversionType fuel (shl b (toExtract conversionType st r))
          (r - toExtract conversionType st r)
          (passState conversionType st
            (shl st.nextByte (toExtract conversionType st r) |||
              shr b (8 - toExtract conversionType st r))
            (st.filledBits + toExtract conversionType st r))
      else st := rfl

theorem toNat_toExtract (conversionType : ConversionType) {st : Regrouping} (r : UInt8)
    (ft : st.filledBits.toNat < conversionType.toBits.toNat) :
    (toExtract conversionType st r).toNat =
      min (conversionType.toBits.toNat - st.filledBits.toNat) r.toNat := by
  have sub : (conversionType.toBits - st.filledBits).toNat =
      conversionType.toBits.toNat - st.filledBits.toNat :=
    UInt8.toNat_sub_of_le _ _ (UInt8.le_iff_toNat_le.mpr (by omega))
  unfold toExtract
  split
  · rename_i h
    rw [UInt8.lt_iff_toNat_lt, sub] at h
    rw [sub]
    omega
  · rename_i h
    rw [UInt8.lt_iff_toNat_lt, sub] at h
    omega

theorem toNat_extracted (nextByte b e : UInt8) {w r f : ℕ} (nf : nextByte.toNat < 2 ^ f)
    (fits : f + e.toNat ≤ 8) (he : 0 < e.toNat) (her : e.toNat ≤ r) (hr : r ≤ 8)
    (hw : w < 2 ^ r) (hb : b.toNat = w * 2 ^ (8 - r)) :
    (shl nextByte e ||| shr b (8 - e)).toNat = 2 ^ e.toNat * nextByte.toNat + w / 2 ^ (r - e.toNat) ∧
      w / 2 ^ (r - e.toNat) < 2 ^ e.toNat := by
  have e8 : (8 - e).toNat = 8 - e.toNat :=
    UInt8.toNat_sub_of_le _ _ (UInt8.le_iff_toNat_le.mpr (by simp only [UInt8.reduceToNat]; omega))
  have top : (shr b (8 - e)).toNat = w / 2 ^ (r - e.toNat) := by
    rw [toNat_shr b (by omega), e8, hb, div_two_pow_of_top her hr]
  have topLt : w / 2 ^ (r - e.toNat) < 2 ^ e.toNat := by
    rw [Nat.div_lt_iff_lt_mul (by positivity), ← pow_add]
    exact lt_of_lt_of_le hw (Nat.pow_le_pow_right (by norm_num) (by omega))
  have shifted : (shl nextByte e).toNat = 2 ^ e.toNat * nextByte.toNat := by
    have lt : nextByte.toNat * 2 ^ e.toNat < 2 ^ 8 := by
      calc nextByte.toNat * 2 ^ e.toNat < 2 ^ f * 2 ^ e.toNat :=
            Nat.mul_lt_mul_of_pos_right nf (by positivity)
        _ ≤ 2 ^ 8 := by rw [← pow_add]; exact Nat.pow_le_pow_right (by norm_num) fits
    rw [toNat_shl _ (by omega), Nat.mod_eq_of_lt lt, Nat.mul_comm]
  refine ⟨?_, topLt⟩
  rw [UInt8.toNat_or, shifted, top, ← Nat.two_pow_add_eq_or_of_lt topLt]

theorem shift_add_lt {n f e top : ℕ} (nf : n < 2 ^ f) (topLt : top < 2 ^ e) :
    2 ^ e * n + top < 2 ^ (f + e) := by
  have : n + 1 ≤ 2 ^ f := nf
  calc 2 ^ e * n + top < 2 ^ e * n + 2 ^ e := by omega
    _ = 2 ^ e * (n + 1) := by ring
    _ ≤ 2 ^ e * 2 ^ f := Nat.mul_le_mul_left _ this
    _ = 2 ^ (f + e) := by rw [← pow_add, Nat.add_comm]

/-- A pass that moves `e` bits, whose value is `top`, keeps the state valid
and adds them to what it holds. -/
theorem Regrouping.Valid.passState {conversionType : ConversionType} {st : Regrouping}
    (valid : st.Valid conversionType.toBits.toNat) {e nextByte : UInt8} {top : ℕ}
    (fits : st.filledBits.toNat + e.toNat ≤ conversionType.toBits.toNat)
    (ht : conversionType.toBits.toNat ≤ 8)
    (next : nextByte.toNat = 2 ^ e.toNat * st.nextByte.toNat + top)
    (nextLt : nextByte.toNat < 2 ^ (st.filledBits.toNat + e.toNat)) :
    (Bech32.passState conversionType st nextByte (st.filledBits + e)).Valid
        conversionType.toBits.toNat ∧
      (Bech32.passState conversionType st nextByte (st.filledBits + e)).held
          conversionType.toBits.toNat =
        2 ^ e.toNat * st.held conversionType.toBits.toNat + top ∧
      (Bech32.passState conversionType st nextByte (st.filledBits + e)).bits
          conversionType.toBits.toNat =
        st.bits conversionType.toBits.toNat + e.toNat := by
  obtain ⟨ft, nf, rl⟩ := valid
  have filled : (st.filledBits + e).toNat = st.filledBits.toNat + e.toNat := by
    rw [UInt8.toNat_add]
    exact Nat.mod_eq_of_lt (by omega)
  unfold Bech32.passState
  split
  · rename_i full
    have full' : st.filledBits.toNat + e.toNat = conversionType.toBits.toNat := by
      rw [← filled, full]
    refine ⟨⟨by simp; omega, by simp, ?_⟩, ?_, ?_⟩
    · intro x hx
      rcases List.mem_append.mp hx with hx | hx
      · exact rl x hx
      · rw [List.mem_singleton.mp hx, ← full']
        exact nextLt
    · simp only [Regrouping.held, List.map_append, List.map_singleton, digitsValue_concat,
        next, UInt8.toNat_zero, pow_zero, one_mul, add_zero, ← full']
      ring
    · simp only [Regrouping.bits, List.length_append, List.length_singleton, UInt8.toNat_zero]
      rw [← full']
      ring
  · rename_i full
    have full' : st.filledBits.toNat + e.toNat ≠ conversionType.toBits.toNat := by
      rw [← filled]
      exact fun h => full (UInt8.toNat_inj.mp h)
    refine ⟨⟨by simp only [filled]; omega, by simp only [filled]; exact nextLt, rl⟩, ?_, ?_⟩
    · simp only [Regrouping.held, next, filled, pow_add]
      ring
    · simp only [Regrouping.bits, filled]
      ring

/-- The passes over one byte, whose `r` unread bits `w` stand at its top, add
those bits to what the state holds. -/
theorem extractBits_spec (conversionType : ConversionType)
    (ht : conversionType.toBits.toNat ≤ 8) :
    ∀ (fuel : ℕ) (b r : UInt8) (w : ℕ) (st : Regrouping),
      st.Valid conversionType.toBits.toNat → r.toNat ≤ fuel → r.toNat ≤ 8 → w < 2 ^ r.toNat →
      b.toNat = w * 2 ^ (8 - r.toNat) →
      (extractBits conversionType fuel b r st).Valid conversionType.toBits.toNat ∧
        (extractBits conversionType fuel b r st).held conversionType.toBits.toNat =
          2 ^ r.toNat * st.held conversionType.toBits.toNat + w ∧
        (extractBits conversionType fuel b r st).bits conversionType.toBits.toNat =
          st.bits conversionType.toBits.toNat + r.toNat := by
  intro fuel
  induction fuel with
  | zero =>
    intro b r w st valid hr _ hw _
    have r0 : r.toNat = 0 := by omega
    rw [r0, pow_zero] at hw
    have w0 : w = 0 := by omega
    simp [extractBits, r0, w0, valid]
  | succ fuel ih =>
    intro b r w st valid hr hr8 hw hb
    rw [extractBits_succ]
    by_cases pos : r > 0
    · rw [if_pos pos]
      have R1 : 0 < r.toNat := UInt8.lt_iff_toNat_lt.mp pos
      have ft := valid.filled_lt
      have E := toNat_toExtract conversionType r ft
      generalize toExtract conversionType st r = e at E ⊢
      obtain ⟨next, topLt⟩ :=
        toNat_extracted st.nextByte b e valid.next_lt (by omega) (by omega) (by omega) hr8 hw hb
      obtain ⟨valid1, held1, bits1⟩ := valid.passState (by omega) ht next
        (by rw [next]; exact shift_add_lt valid.next_lt topLt)
      have rest : (r - e).toNat = r.toNat - e.toNat :=
        UInt8.toNat_sub_of_le _ _ (UInt8.le_iff_toNat_le.mpr (by omega))
      have shiftedB : (shl b e).toNat =
          w % 2 ^ (r.toNat - e.toNat) * 2 ^ (8 - (r.toNat - e.toNat)) := by
        rw [toNat_shl _ (by omega), hb, mul_two_pow_mod_of_top (by omega) hr8]
      obtain ⟨v, h, n⟩ := ih (shl b e) (r - e) (w % 2 ^ (r.toNat - e.toNat)) _ valid1
        (by omega) (by omega) (by rw [rest]; exact Nat.mod_lt _ (by positivity))
        (by rw [shiftedB, rest])
      refine ⟨v, ?_, ?_⟩
      · rw [h, held1, rest]
        calc 2 ^ (r.toNat - e.toNat) * (2 ^ e.toNat * st.held conversionType.toBits.toNat +
                w / 2 ^ (r.toNat - e.toNat)) + w % 2 ^ (r.toNat - e.toNat)
            = 2 ^ (r.toNat - e.toNat) * 2 ^ e.toNat * st.held conversionType.toBits.toNat +
                (2 ^ (r.toNat - e.toNat) * (w / 2 ^ (r.toNat - e.toNat)) +
                  w % 2 ^ (r.toNat - e.toNat)) := by ring
          _ = 2 ^ r.toNat * st.held conversionType.toBits.toNat + w := by
            rw [Nat.div_add_mod, ← pow_add, Nat.sub_add_cancel (by omega)]
      · rw [n, bits1, rest]
        omega
    · -- no bits remain: the loop has ended
      have r0 : r.toNat = 0 := by
        have := UInt8.lt_iff_toNat_lt.not.mp pos
        simp only [UInt8.reduceToNat] at this
        omega
      rw [if_neg pos]
      rw [r0, pow_zero] at hw
      have w0 : w = 0 := by omega
      simp [r0, w0, valid]

theorem regroupByte_spec (conversionType : ConversionType)
    (hf : conversionType.fromBits.toNat ≤ 8) (ht : conversionType.toBits.toNat ≤ 8)
    {st : Regrouping} (valid : st.Valid conversionType.toBits.toNat) (x : UInt8) :
    (regroupByte conversionType st x).Valid conversionType.toBits.toNat ∧
      (regroupByte conversionType st x).held conversionType.toBits.toNat =
        2 ^ conversionType.fromBits.toNat * st.held conversionType.toBits.toNat +
          x.toNat % 2 ^ conversionType.fromBits.toNat ∧
      (regroupByte conversionType st x).bits conversionType.toBits.toNat =
        st.bits conversionType.toBits.toNat + conversionType.fromBits.toNat := by
  have unused : (8 - conversionType.fromBits).toNat = 8 - conversionType.fromBits.toNat :=
    UInt8.toNat_sub_of_le _ _ (UInt8.le_iff_toNat_le.mpr (by simp only [UInt8.reduceToNat]; omega))
  have discarded : (shl x (8 - conversionType.fromBits)).toNat =
      x.toNat % 2 ^ conversionType.fromBits.toNat * 2 ^ (8 - conversionType.fromBits.toNat) := by
    rw [toNat_shl _ (by omega), unused,
      show (2 : ℕ) ^ 8 = 2 ^ conversionType.fromBits.toNat * 2 ^ (8 - conversionType.fromBits.toNat)
        by rw [← pow_add]; congr 1; omega,
      Nat.mul_mod_mul_right]
  exact extractBits_spec conversionType ht _ _ _ _ st valid le_rfl hf
    (Nat.mod_lt _ (by positivity)) discarded

theorem foldl_regroupByte_spec (conversionType : ConversionType)
    (hf : conversionType.fromBits.toNat ≤ 8) (ht : conversionType.toBits.toNat ≤ 8)
    (st : Regrouping) (valid : st.Valid conversionType.toBits.toNat) (data : List UInt8) :
    (data.foldl (regroupByte conversionType) st).Valid conversionType.toBits.toNat ∧
      (data.foldl (regroupByte conversionType) st).held conversionType.toBits.toNat =
        2 ^ (conversionType.fromBits.toNat * data.length) * st.held conversionType.toBits.toNat +
          digitsValue conversionType.fromBits.toNat
            (data.map fun x => x.toNat % 2 ^ conversionType.fromBits.toNat) ∧
      (data.foldl (regroupByte conversionType) st).bits conversionType.toBits.toNat =
        st.bits conversionType.toBits.toNat + conversionType.fromBits.toNat * data.length := by
  induction data using List.reverseRecOn with
  | nil => simp [valid]
  | append_singleton data x ih =>
    obtain ⟨v, h, n⟩ := ih
    obtain ⟨v', h', n'⟩ := regroupByte_spec conversionType hf ht v x
    rw [List.foldl_append, List.foldl_cons, List.foldl_nil]
    refine ⟨v', ?_, ?_⟩
    · rw [h', h, List.map_append, List.map_singleton, digitsValue_concat, List.length_append,
        List.length_singleton]
      ring
    · rw [n', n, List.length_append, List.length_singleton]
      ring

theorem valid_start (t : ℕ) (ht : 0 < t) : (⟨[], 0, 0⟩ : Regrouping).Valid t :=
  ⟨by simpa using ht, by simp, by simp⟩

/-- With padding, the groups spell the bits of the input followed by fewer than
`toBits` zero bits. -/
theorem convertBits_pad (data : List UInt8) (conversionType : ConversionType)
    (hf : conversionType.fromBits.toNat ≤ 8) (ht : conversionType.toBits.toNat ≤ 8)
    (ht0 : 0 < conversionType.toBits.toNat) (pad : conversionType.pad = true) :
    (∀ y ∈ convertBits data conversionType, y.toNat < 2 ^ conversionType.toBits.toNat) ∧
      ∃ p < conversionType.toBits.toNat,
        digitsValue conversionType.toBits.toNat ((convertBits data conversionType).map UInt8.toNat) =
            2 ^ p * digitsValue conversionType.fromBits.toNat
              (data.map fun x => x.toNat % 2 ^ conversionType.fromBits.toNat) ∧
          conversionType.toBits.toNat * (convertBits data conversionType).length =
            conversionType.fromBits.toNat * data.length + p := by
  obtain ⟨⟨ft, nf, rl⟩, h, n⟩ :=
    foldl_regroupByte_spec conversionType hf ht _ (valid_start _ ht0) data
  simp only [Regrouping.held, Regrouping.bits, List.map_nil, digitsValue_nil, List.length_nil,
    UInt8.toNat_zero, Nat.mul_zero, Nat.add_zero, pow_zero, Nat.zero_add] at h n
  unfold convertBits
  dsimp only
  generalize data.foldl (regroupByte conversionType) ⟨[], 0, 0⟩ = st at ft nf rl h n ⊢
  split
  · rename_i filled
    have pos : 0 < st.filledBits.toNat := UInt8.lt_iff_toNat_lt.mp filled.2
    have sub : (conversionType.toBits - st.filledBits).toNat =
        conversionType.toBits.toNat - st.filledBits.toNat :=
      UInt8.toNat_sub_of_le _ _ (UInt8.le_iff_toNat_le.mpr (by omega))
    have last : (shl st.nextByte (conversionType.toBits - st.filledBits)).toNat =
        2 ^ (conversionType.toBits.toNat - st.filledBits.toNat) * st.nextByte.toNat := by
      have lt : st.nextByte.toNat * 2 ^ (conversionType.toBits.toNat - st.filledBits.toNat) <
          2 ^ 8 := by
        calc st.nextByte.toNat * 2 ^ (conversionType.toBits.toNat - st.filledBits.toNat)
            < 2 ^ st.filledBits.toNat * 2 ^ (conversionType.toBits.toNat - st.filledBits.toNat) :=
              Nat.mul_lt_mul_of_pos_right nf (by positivity)
          _ ≤ 2 ^ 8 := by
              rw [← pow_add]; exact Nat.pow_le_pow_right (by norm_num) (by omega)
      rw [toNat_shl _ (by omega), sub, Nat.mod_eq_of_lt lt, Nat.mul_comm]
    refine ⟨?_, conversionType.toBits.toNat - st.filledBits.toNat, by omega, ?_, ?_⟩
    · intro y hy
      rcases List.mem_append.mp hy with hy | hy
      · exact rl y hy
      · rw [List.mem_singleton.mp hy, last]
        calc 2 ^ (conversionType.toBits.toNat - st.filledBits.toNat) * st.nextByte.toNat
            < 2 ^ (conversionType.toBits.toNat - st.filledBits.toNat) * 2 ^ st.filledBits.toNat :=
              Nat.mul_lt_mul_of_pos_left nf (by positivity)
          _ = 2 ^ conversionType.toBits.toNat := by rw [← pow_add]; congr 1; omega
    · have split : 2 ^ conversionType.toBits.toNat =
          2 ^ (conversionType.toBits.toNat - st.filledBits.toNat) * 2 ^ st.filledBits.toNat := by
        rw [← pow_add]; congr 1; omega
      rw [← h, List.map_append, List.map_singleton, digitsValue_concat, last, split]
      ring
    · rw [List.length_append, List.length_singleton, ← n]
      rw [Nat.mul_add, Nat.mul_one]
      omega
  · rename_i filled
    have zero : st.filledBits.toNat = 0 := by
      by_contra ne
      exact filled ⟨pad, UInt8.lt_iff_toNat_lt.mpr (by simp only [UInt8.reduceToNat]; omega)⟩
    rw [zero, pow_zero] at nf
    refine ⟨rl, 0, ht0, ?_, ?_⟩
    · rw [← h, zero]
      simp only [pow_zero, one_mul]
      omega
    · rw [← n, zero]
      rfl

theorem convertBits_noPad (data : List UInt8) (conversionType : ConversionType)
    (hf : conversionType.fromBits.toNat ≤ 8) (ht : conversionType.toBits.toNat ≤ 8)
    (ht0 : 0 < conversionType.toBits.toNat) (pad : conversionType.pad = false) :
    ∃ filled < conversionType.toBits.toNat, ∃ rest < 2 ^ filled,
      2 ^ filled * digitsValue conversionType.toBits.toNat
          ((convertBits data conversionType).map UInt8.toNat) + rest =
        digitsValue conversionType.fromBits.toNat
          (data.map fun x => x.toNat % 2 ^ conversionType.fromBits.toNat) ∧
      conversionType.toBits.toNat * (convertBits data conversionType).length + filled =
        conversionType.fromBits.toNat * data.length := by
  obtain ⟨⟨ft, nf, rl⟩, h, n⟩ :=
    foldl_regroupByte_spec conversionType hf ht _ (valid_start _ ht0) data
  simp only [Regrouping.held, Regrouping.bits, List.map_nil, digitsValue_nil, List.length_nil,
    UInt8.toNat_zero, Nat.mul_zero, Nat.add_zero, pow_zero, Nat.zero_add] at h n
  unfold convertBits
  simp only [pad, Bool.false_eq_true, false_and, if_false]
  exact ⟨_, ft, _, nf, h, n⟩

/-- Regrouping bytes into padded 5-bit groups and back gives the bytes again:
the padding is fewer than eight bits and is dropped. -/
theorem convertBits_roundTrip (data : List UInt8) :
    convertBits (convertBits data eightToFiveBits) fiveToEightBits = data := by
  obtain ⟨small, p, hp, value, len⟩ :=
    convertBits_pad data eightToFiveBits (by decide) (by decide) (by decide) rfl
  obtain ⟨filled, hfilled, rest, hrest, value', len'⟩ :=
    convertBits_noPad (convertBits data eightToFiveBits) fiveToEightBits (by decide) (by decide)
      (by decide) rfl
  have f8 : eightToFiveBits.fromBits.toNat = 8 := rfl
  have t5 : eightToFiveBits.toBits.toNat = 5 := rfl
  have f5 : fiveToEightBits.fromBits.toNat = 5 := rfl
  have t8 : fiveToEightBits.toBits.toNat = 8 := rfl
  simp only [f8, t5, f5, t8] at small hp value len hfilled value' len'
  have bytes : (data.map fun x => x.toNat % 2 ^ 8) = data.map UInt8.toNat :=
    List.map_congr_left fun x _ => Nat.mod_eq_of_lt x.toNat_lt
  have groups : ((convertBits data eightToFiveBits).map fun x => x.toNat % 2 ^ 5) =
      (convertBits data eightToFiveBits).map UInt8.toNat :=
    List.map_congr_left fun x hx => Nat.mod_eq_of_lt (small x hx)
  have same : filled = p := by omega
  have length : (convertBits (convertBits data eightToFiveBits) fiveToEightBits).length =
      data.length := by omega
  rw [groups, value, bytes, same] at value'
  have digits : digitsValue 8 ((convertBits (convertBits data eightToFiveBits)
      fiveToEightBits).map UInt8.toNat) = digitsValue 8 (data.map UInt8.toNat) := by
    have := congrArg (· / 2 ^ p) value'
    rwa [Nat.mul_add_div (by positivity), Nat.div_eq_of_lt (same ▸ hrest), Nat.add_zero,
      Nat.mul_div_cancel_left _ (by positivity)] at this
  apply (List.map_injective_iff.mpr fun a b h => UInt8.toNat_inj.mp h)
  exact digitsValue_inj (by norm_num) (by simpa using length)
    (fun x hx => by obtain ⟨y, -, rfl⟩ := List.mem_map.mp hx; exact y.toNat_lt)
    (fun x hx => by obtain ⟨y, -, rfl⟩ := List.mem_map.mp hx; exact y.toNat_lt) digits

/-! ## The string -/

theorem charset_chars : ∀ c ∈ charset, (33 ≤ c ∧ c ≤ 126) ∧ toLower c = c ∧ c ≠ colon := by
  decide +kernel

theorem charset_nodup : charset.Nodup := by decide +kernel

theorem charset_length : charset.length = 32 := rfl

theorem mapM_charset (data : List UInt8) (h : ∀ b ∈ data, b.toNat < 32) :
    data.mapM (fun b => charset[b.toNat]?) = some (data.map fun b => charset.getD b.toNat 0) := by
  induction data with
  | nil => rfl
  | cons b data ih =>
    have hb : b.toNat < charset.length := h b (by simp)
    rw [List.mapM_cons, ih fun x hx => h x (List.mem_cons_of_mem _ hx),
      List.getElem?_eq_getElem hb, List.map_cons, List.getD_eq_getElem _ _ hb]
    rfl

theorem encodeToBase32_eq (data : List UInt8) (h : ∀ b ∈ data, b.toNat < 32) :
    encodeToBase32 data = data.map fun b => charset.getD b.toNat 0 := by
  rw [encodeToBase32, mapM_charset data h]

theorem mem_charset_getD {b : UInt8} (h : b.toNat < 32) : charset.getD b.toNat 0 ∈ charset := by
  rw [List.getD_eq_getElem _ _ (by rw [charset_length]; exact h)]
  exact List.getElem_mem _

theorem decodeFromBase32_encodeToBase32 (data : List UInt8) (h : ∀ b ∈ data, b.toNat < 32) :
    decodeFromBase32 (encodeToBase32 data) = .ok data := by
  rw [encodeToBase32_eq data h]
  induction data with
  | nil => rfl
  | cons b data ih =>
    have hb : b.toNat < 32 := h b (by simp)
    have index : UInt8.ofNat (charset.idxOf (charset.getD b.toNat 0)) = b := by
      rw [List.getD_eq_getElem _ _ (by rw [charset_length]; exact hb),
        charset_nodup.idxOf_getElem]
      exact UInt8.ofNat_toNat
    have rest := ih fun x hx => h x (List.mem_cons_of_mem _ hx)
    simp only [decodeFromBase32, List.map_cons, List.mapM_cons] at rest ⊢
    rw [if_pos (mem_charset_getD hb), index, rest]
    rfl

theorem foldl_lastIndex_of_not_mem (c : UInt8) :
    ∀ (ys : List UInt8) (k : ℕ) (found : Int), c ∉ ys →
      (ys.zipIdx k).foldl (fun found (x, i) => if x = c then (i : Int) else found) found = found := by
  intro ys
  induction ys with
  | nil => intro k found _; rfl
  | cons y ys ih =>
    intro k found h
    rw [List.mem_cons, not_or] at h
    rw [List.zipIdx_cons, List.foldl_cons]
    dsimp only
    rw [if_neg (Ne.symm h.1)]
    exact ih _ _ h.2

theorem lastIndexByte_append (xs ys : List UInt8) (c : UInt8) (h : c ∉ ys) :
    lastIndexByte (xs ++ c :: ys) c = xs.length := by
  rw [lastIndexByte, List.zipIdx_append, List.foldl_append, List.zipIdx_cons, List.foldl_cons]
  dsimp only
  rw [if_pos rfl, Nat.zero_add]
  exact foldl_lastIndex_of_not_mem c ys _ _ h

/-- `decode` accepts a prefix in lower case, the separator and checksummed
5-bit groups, and returns the prefix and the groups before the checksum. -/
theorem decode_checksummed (hrp ds : List UInt8) (hne : hrp ≠ [])
    (prefixChars : ∀ c ∈ hrp, (33 ≤ c ∧ c ≤ 126) ∧ toLower c = c)
    (digits : ∀ b ∈ ds, b.toNat < 32) (long : checksumLength ≤ ds.length)
    (checked : verifyChecksum hrp ds = true) :
    decode (hrp ++ colon :: encodeToBase32 ds) = .ok (hrp, ds.take (ds.length - checksumLength)) := by
  have chars : ∀ c ∈ hrp ++ colon :: encodeToBase32 ds, (33 ≤ c ∧ c ≤ 126) ∧ toLower c = c := by
    intro c hc
    rcases List.mem_append.mp hc with hc | hc
    · exact prefixChars c hc
    · rcases List.mem_cons.mp hc with rfl | hc
      · decide
      · rw [encodeToBase32_eq ds digits] at hc
        obtain ⟨b, hb, rfl⟩ := List.mem_map.mp hc
        exact ⟨(charset_chars _ (mem_charset_getD (digits b hb))).1,
          (charset_chars _ (mem_charset_getD (digits b hb))).2.1⟩
  have noColon : colon ∉ encodeToBase32 ds := by
    intro hc
    rw [encodeToBase32_eq ds digits] at hc
    obtain ⟨b, hb, h⟩ := List.mem_map.mp hc
    exact (charset_chars _ (mem_charset_getD (digits b hb))).2.2 h
  have printable : (hrp ++ colon :: encodeToBase32 ds).find? (fun c => c < 33 || c > 126) = none := by
    rw [List.find?_eq_none]
    intro c hc
    have low := UInt8.le_iff_toNat_le.mp (chars c hc).1.1
    have high := UInt8.le_iff_toNat_le.mp (chars c hc).1.2
    simp only [Bool.or_eq_true, decide_eq_true_eq, gt_iff_lt, UInt8.lt_iff_toNat_lt,
      UInt8.reduceToNat] at low high ⊢
    omega
  have lower : (hrp ++ colon :: encodeToBase32 ds).map toLower = hrp ++ colon :: encodeToBase32 ds :=
    (List.map_congr_left fun c hc => (chars c hc).2).trans (List.map_id _)
  have colonIndex : lastIndexByte (hrp ++ colon :: encodeToBase32 ds) colon = hrp.length :=
    lastIndexByte_append hrp _ colon noColon
  have len : (hrp ++ colon :: encodeToBase32 ds).length = hrp.length + 1 + ds.length := by
    simp [encodeToBase32_eq ds digits]
    omega
  have hne' : 0 < hrp.length := List.length_pos_iff.mpr hne
  have shortEnough : ¬(hrp ++ colon :: encodeToBase32 ds).length < checksumLength + 2 := by
    rw [len]
    unfold checksumLength at long ⊢
    omega
  have colonInside : ¬((hrp.length : Int) < 1 ∨
      (hrp.length : Int) + (checksumLength : Int) + 1 > ((hrp ++ colon :: encodeToBase32 ds).length : Int)) := by
    rw [len]
    unfold checksumLength at long ⊢
    omega
  have front : (hrp ++ colon :: encodeToBase32 ds).take hrp.length = hrp := by simp
  have back : (hrp ++ colon :: encodeToBase32 ds).drop (hrp.length + 1) = encodeToBase32 ds := by
    simp
  unfold decode
  simp only [printable, lower, colonIndex, shortEnough, colonInside, Int.toNat_natCast, front, back,
    decodeFromBase32_encodeToBase32 ds digits, ne_eq, not_true_eq_false, false_and, if_false]
  rw [show (Except.ok ds : Except DecodeError (List UInt8)) = pure ds from rfl, pure_bind]
  simp only [checked, Bool.not_true, Bool.false_eq_true, if_false]
  rfl

theorem calculateChecksum_lt (hrp payload : List UInt8) :
    ∀ y ∈ calculateChecksum hrp payload, y.toNat < 32 := by
  intro y hy
  have mem : y.toNat ∈ ints (calculateChecksum hrp payload) := List.mem_map_of_mem hy
  rw [ints_calculateChecksum] at mem
  obtain ⟨i, -, h⟩ := List.mem_map.mp mem
  rw [← h]
  exact lt_of_le_of_lt Nat.and_le_right (by norm_num)

theorem length_calculateChecksum (hrp payload : List UInt8) :
    (calculateChecksum hrp payload).length = checksumLength := by
  simp [calculateChecksum]

/-- The codec round trip: `Decode` reads back the prefix, the payload and the
version `Encode` wrote, for every payload and version and every non-empty
prefix of printable characters without capitals. -/
theorem Decode_Encode (hrp payload : List UInt8) (version : UInt8) (hne : hrp ≠ [])
    (prefixChars : ∀ c ∈ hrp, (33 ≤ c ∧ c ≤ 126) ∧ toLower c = c) :
    Decode (Encode hrp payload version) = .ok (.ok (hrp, payload, version)) := by
  have small : ∀ y ∈ convertBits (version :: payload) eightToFiveBits, y.toNat < 32 :=
    (convertBits_pad _ eightToFiveBits (by decide) (by decide) (by decide) rfl).1
  have digits : ∀ b ∈ convertBits (version :: payload) eightToFiveBits ++
      calculateChecksum hrp (convertBits (version :: payload) eightToFiveBits), b.toNat < 32 := by
    intro b hb
    rcases List.mem_append.mp hb with hb | hb
    · exact small b hb
    · exact calculateChecksum_lt _ _ b hb
  have accepted := decode_checksummed hrp _ hne prefixChars digits
    (by rw [List.length_append, length_calculateChecksum]; omega)
    (verifyChecksum_calculateChecksum hrp _)
  rw [List.length_append, length_calculateChecksum, Nat.add_sub_cancel,
    List.take_left' rfl] at accepted
  have encoded : Encode hrp payload version = hrp ++ colon :: encodeToBase32
      (convertBits (version :: payload) eightToFiveBits ++
        calculateChecksum hrp (convertBits (version :: payload) eightToFiveBits)) := by
    simp [Encode, encode]
  rw [Decode, encoded, accepted]
  dsimp only
  rw [convertBits_roundTrip]

theorem Decode_Encode_cryptix :
    (goString "cryptix" ≠ [] ∧ ∀ c ∈ goString "cryptix", (33 ≤ c ∧ c ≤ 126) ∧ toLower c = c) ∧
      Decode (Encode (goString "cryptix") (List.replicate 32 7) 0) =
        .ok (.ok (goString "cryptix", List.replicate 32 7, 0)) :=
  ⟨⟨by decide +kernel, by decide +kernel⟩,
    Decode_Encode _ _ _ (by decide +kernel) (by decide +kernel)⟩

end Cryptixd.Bech32

