import Mathlib
import Cryptixd.Txscript.Script

/-!
# Script numbers

`txscript/scriptnum.go`: a number on the script stack is a little-endian
magnitude with its sign in the top bit of the last byte, an extra byte carrying
the sign when the magnitude's own top bit is taken.  `scriptNum.Bytes` writes
an `int64` so, `makeScriptNum` reads at most `scriptNumLen` (and never more
than 8) bytes back after `checkMinimalDataEncoding` has refused any encoding
with a needless last byte, negative zero among them.

An encoding `front ++ [last]` stands for `encodedValue front last`.
`bytes_encodedValue` shows that `Bytes` writes every minimal encoding of at
most 8 bytes from the number it stands for, and `exists_encoding` that every
`int64` but zero and the least one has such an encoding, so that the two
functions are inverse (`makeScriptNum_bytes`, `bytes_makeScriptNum`).  The
least `int64` is the exception: negating it wraps, the loop over its magnitude
writes nothing, and `Bytes` indexes an empty slice (`bytes_minValue`).
-/

set_option autoImplicit false

namespace Cryptixd.Txscript

open LittleEndian

abbrev ScriptNum := Int64

def indexOutOfRangePanic : String := "runtime error: index out of range [-1]"

/-- The loop `for n > 0` of `Bytes`: the bytes of `n`, least significant
first, while it is positive.  A positive `int64` has at most 8 of them. -/
def magnitudeBytes : Nat → Int → List UInt8
  | 0, _ => []
  | fuel + 1, n => if n > 0 then UInt8.ofNat (n % 256).toNat :: magnitudeBytes fuel (n / 256) else []

/-- `scriptNum.Bytes`: little endian, with the sign in the top bit of the last
byte, an extra byte carrying it when the magnitude's top bit is taken. -/
def ScriptNum.bytes (n : ScriptNum) : Except String (List UInt8) :=
  if n = 0 then .ok []
  else
    let isNegative := n < 0
    -- `n = -n` wraps on the least `int64`, which stays negative
    let n := if isNegative then -n else n
    let result := magnitudeBytes 8 n.toInt
    match result.getLast? with
    | none => .error indexOutOfRangePanic
    | some last =>
      if last &&& 0x80 ≠ 0 then .ok (result ++ [if isNegative then 0x80 else 0x00])
      else if isNegative then .ok (result.dropLast ++ [last ||| 0x80])
      else .ok result

def checkMinimalDataEncoding (v : List UInt8) : Except ScriptError Unit :=
  if v.length = 0 then .ok ()
  else if v.getLastD 0 &&& 0x7f = 0 ∧ (v.length = 1 ∨ v.getD (v.length - 2) 0 &&& 0x80 = 0) then
    .error (.nonMinimalNumber v)
  else .ok ()

def makeScriptNum (v : List UInt8) (scriptNumLen : Nat) : Except ScriptError ScriptNum := do
  if v.length > scriptNumLen then throw (.numberTooBig v scriptNumLen)
  if v.length > 8 then throw (.numberTooBig v 8)
  checkMinimalDataEncoding v
  if v.length = 0 then return 0
  let result : Int := LittleEndian.ofListLE v
  if v.getLastD 0 &&& 0x80 ≠ 0 then
    -- `result &= ^(0x80 << 8*(len(v)-1))` clears the sign bit, which is set
    return Int64.ofInt (-(result - 2 ^ (8 * (v.length - 1) + 7)))
  else return Int64.ofInt result

/-! ## Bits of a byte -/

theorem signBit_ne_zero_iff (x : UInt8) : x &&& 0x80 ≠ 0 ↔ 128 ≤ x.toNat := by
  have bound := x.toNat_lt
  rw [ne_eq, ← UInt8.toNat_inj, UInt8.toNat_and, show (0x80 : UInt8).toNat = 2 ^ 7 from rfl,
    show (0 : UInt8).toNat = 0 from rfl, Nat.and_two_pow, Nat.testBit_eq_decide_div_mod_eq]
  by_cases high : 128 ≤ x.toNat
  · have bit : x.toNat / 2 ^ 7 % 2 = 1 := by omega
    rw [decide_eq_true bit]
    simp [high]
  · have bit : ¬x.toNat / 2 ^ 7 % 2 = 1 := by omega
    rw [decide_eq_false bit]
    simp [high]

theorem magnitudeBits_eq_zero_iff (x : UInt8) : x &&& 0x7f = 0 ↔ x.toNat % 128 = 0 := by
  rw [← UInt8.toNat_inj, UInt8.toNat_and, show (0x7f : UInt8).toNat = 2 ^ 7 - 1 from rfl,
    Nat.and_two_pow_sub_one_eq_mod]
  rfl

theorem toNat_or_signBit (x : UInt8) (low : x.toNat < 128) : (x ||| 0x80).toNat = x.toNat + 128 := by
  rw [UInt8.toNat_or, show (0x80 : UInt8).toNat = 2 ^ 7 from rfl, Nat.or_two_pow_eq_add_of_lt low]

/-! ## The magnitude loop -/

theorem magnitudeBytes_zero (fuel : Nat) : magnitudeBytes fuel 0 = [] := by
  cases fuel <;> rfl

theorem length_magnitudeBytes_le : ∀ (fuel : Nat) (n : Int), (magnitudeBytes fuel n).length ≤ fuel
  | 0, _ => le_refl 0
  | fuel + 1, n => by
    rw [magnitudeBytes]
    split_ifs
    · simpa using length_magnitudeBytes_le fuel (n / 256)
    · simp

theorem magnitudeBytes_ofListLE :
    ∀ (bytes : List UInt8) (fuel : Nat), bytes.getLast? ≠ some 0 → bytes.length ≤ fuel →
      magnitudeBytes fuel (ofListLE bytes) = bytes
  | [], fuel, _, _ => by rw [ofListLE_nil, Nat.cast_zero, magnitudeBytes_zero]
  | b :: bs, fuel + 1, top, short => by
    have byte : b.toNat < 256 := b.toNat_lt
    have positive : 0 < ofListLE (b :: bs) := ofListLE_pos (List.cons_ne_nil b bs) top
    have rest : bs.getLast? ≠ some 0 := by
      cases bs with
      | nil => simp
      | cons b' bs => rwa [List.getLast?_cons_cons] at top
    rw [magnitudeBytes, if_pos (by exact_mod_cast positive), ofListLE_cons]
    have low : ((b.toNat + 256 * ofListLE bs : Nat) : Int) % 256 = b.toNat := by omega
    have high : ((b.toNat + 256 * ofListLE bs : Nat) : Int) / 256 = ofListLE bs := by omega
    rw [low, high, magnitudeBytes_ofListLE bs fuel rest (by simp at short; omega)]
    simp
  | _ :: _, 0, _, short => by simp at short

theorem magnitudeBytes_spec :
    ∀ (fuel m : Nat), 0 < m → m < 256 ^ fuel →
      ∃ front last, magnitudeBytes fuel m = front ++ [last] ∧ last ≠ 0 ∧
        ofListLE (front ++ [last]) = m
  | 0, m, positive, small => by simp at small; omega
  | fuel + 1, m, positive, small => by
    have low : ((m : Int) % 256).toNat = m % 256 := by omega
    have high : (m : Int) / 256 = ((m / 256 : Nat) : Int) := by omega
    rw [magnitudeBytes, if_pos (by exact_mod_cast positive), low, high]
    by_cases last : m / 256 = 0
    · -- one byte: the value itself
      refine ⟨[], UInt8.ofNat m, ?_, ?_, ?_⟩
      · rw [last, Nat.cast_zero, magnitudeBytes_zero, Nat.mod_eq_of_lt (by omega)]
        rfl
      · intro zero
        have := congrArg UInt8.toNat zero
        rw [UInt8.toNat_ofNat', UInt8.toNat_zero] at this
        omega
      · simp only [List.nil_append, ofListLE_cons, ofListLE_nil, UInt8.toNat_ofNat']
        omega
    · obtain ⟨front, top, bytes, nonzero, value⟩ :=
        magnitudeBytes_spec fuel (m / 256) (by omega) (by rw [pow_succ] at small; omega)
      refine ⟨UInt8.ofNat (m % 256) :: front, top, by rw [bytes]; rfl, nonzero, ?_⟩
      rw [List.cons_append, ofListLE_cons, value, UInt8.toNat_ofNat', Nat.mod_eq_of_lt (by omega)]
      omega

/-! ## Minimal encodings -/

theorem checkMinimalDataEncoding_append (front : List UInt8) (last : UInt8) :
    checkMinimalDataEncoding (front ++ [last]) = .ok () ↔
      last.toNat % 128 ≠ 0 ∨ 128 ≤ (front.getLastD 0).toNat := by
  unfold checkMinimalDataEncoding
  rw [if_neg (by simp)]
  simp only [List.getLastD_concat, magnitudeBits_eq_zero_iff]
  rcases front.eq_nil_or_concat' with rfl | ⟨init, before, rfl⟩
  · -- a single byte is minimal when it carries magnitude bits
    by_cases zero : last.toNat % 128 = 0 <;> simp [zero]
  · have previous : (init ++ [before] ++ [last]).getD
        ((init ++ [before] ++ [last]).length - 2) 0 = before := by
      simp [List.getD_eq_getElem?_getD]
    simp only [previous, List.getLastD_concat, ← signBit_ne_zero_iff]
    by_cases zero : last.toNat % 128 = 0 <;> simp [zero]

/-! ## Reading an encoding -/

/-- The magnitude an encoding `front ++ [last]` carries: its little-endian value
with the sign bit of the last byte cleared. -/
def encodedMagnitude (front : List UInt8) (last : UInt8) : Nat :=
  ofListLE front + 256 ^ front.length * (last.toNat % 128)

/-- The number an encoding stands for: its magnitude, negative when the last
byte has its top bit set. -/
def encodedValue (front : List UInt8) (last : UInt8) : Int :=
  if 128 ≤ last.toNat then -(encodedMagnitude front last : Int) else encodedMagnitude front last

theorem makeScriptNum_append {front : List UInt8} {last : UInt8} {scriptNumLen : Nat}
    (fits : (front ++ [last]).length ≤ scriptNumLen) (short : (front ++ [last]).length ≤ 8)
    (minimal : checkMinimalDataEncoding (front ++ [last]) = .ok ()) :
    makeScriptNum (front ++ [last]) scriptNumLen = .ok (Int64.ofInt (encodedValue front last)) := by
  have value : (ofListLE (front ++ [last]) : Int) =
      ofListLE front + 256 ^ front.length * last.toNat := by
    rw [ofListLE_append, ofListLE_cons, ofListLE_nil]
    push_cast
    ring
  have signWeight : (2 : Int) ^ (8 * ((front ++ [last]).length - 1) + 7) = 256 ^ front.length * 128 := by
    rw [List.length_append, List.length_singleton, Nat.add_sub_cancel, pow_add, pow_mul]
    norm_num
  simp only [makeScriptNum, gt_iff_lt, not_lt.mpr fits, not_lt.mpr short, if_false, minimal,
    List.getLastD_concat, signBit_ne_zero_iff, bind, Except.bind, pure, Except.pure]
  rw [if_neg (by simp)]
  unfold encodedValue encodedMagnitude
  have byte := last.toNat_lt
  split_ifs with negative
  · -- the sign bit is worth `2 ^ (8 * len - 1)` in the little-endian value
    have lowBits : last.toNat % 128 = last.toNat - 128 := by omega
    rw [value, signWeight, lowBits]
    push_cast [Nat.cast_sub negative]
    ring_nf
  · rw [value, Nat.mod_eq_of_lt (by omega)]
    push_cast
    rfl

/-! ## Writing a number -/

theorem bytes_eq_magnitude {n : ScriptNum} {m : Nat} (positive : 0 < m) (small : m < 2 ^ 63)
    (magnitude : n.toInt.natAbs = m) :
    ScriptNum.bytes n =
      match (magnitudeBytes 8 m).getLast? with
      | none => .error indexOutOfRangePanic
      | some last =>
        if last &&& 0x80 ≠ 0 then .ok (magnitudeBytes 8 m ++ [if n < 0 then 0x80 else 0x00])
        else if n < 0 then .ok ((magnitudeBytes 8 m).dropLast ++ [last ||| 0x80])
        else .ok (magnitudeBytes 8 m) := by
  have nonzero : n ≠ 0 := by
    rintro rfl
    simp at magnitude
    omega
  have absolute : (if n < 0 then -n else n).toInt = m := by
    split_ifs with negative
    · rw [Int64.lt_iff_toInt_lt, Int64.toInt_zero] at negative
      rw [Int64.toInt_neg, Int.bmod_eq_of_le (by omega) (by omega)]
      omega
    · rw [Int64.lt_iff_toInt_lt, Int64.toInt_zero] at negative
      omega
  unfold ScriptNum.bytes
  rw [if_neg nonzero]
  dsimp only
  rw [absolute]

theorem encodedMagnitude_lt {front : List UInt8} {last : UInt8}
    (short : (front ++ [last]).length ≤ 8) : encodedMagnitude front last < 2 ^ 63 := by
  have frontBound := ofListLE_lt front
  have lowBits : last.toNat % 128 < 128 := Nat.mod_lt _ (by norm_num)
  have width : 256 ^ front.length * 128 ≤ 2 ^ 63 := by
    rw [List.length_append, List.length_singleton] at short
    calc 256 ^ front.length * 128 ≤ 256 ^ 7 * 128 :=
          Nat.mul_le_mul_right _ (Nat.pow_le_pow_right (by norm_num) (by omega))
      _ = 2 ^ 63 := by norm_num
  unfold encodedMagnitude
  have : ofListLE front + 256 ^ front.length * (last.toNat % 128) < 256 ^ front.length * 128 := by
    nlinarith
  omega

theorem encodedMagnitude_pos {front : List UInt8} {last : UInt8}
    (minimal : last.toNat % 128 ≠ 0 ∨ 128 ≤ (front.getLastD 0).toNat) :
    0 < encodedMagnitude front last := by
  unfold encodedMagnitude
  rcases minimal with lowBits | signed
  · have : 0 < 256 ^ front.length * (last.toNat % 128) :=
      Nat.mul_pos (Nat.pow_pos (by norm_num)) (Nat.pos_of_ne_zero lowBits)
    omega
  · -- the byte before the last holds magnitude bits
    rcases front.eq_nil_or_concat' with rfl | ⟨init, before, rfl⟩
    · simp at signed
    · rw [List.getLastD_concat] at signed
      have nonzero : before ≠ 0 := by
        rintro rfl
        simp at signed
      have := pow_le_ofListLE init nonzero
      have := Nat.pow_pos (n := init.length) (show 0 < 256 by norm_num)
      omega

theorem toInt_ofInt_encodedValue {front : List UInt8} {last : UInt8}
    (short : (front ++ [last]).length ≤ 8) :
    (Int64.ofInt (encodedValue front last)).toInt = encodedValue front last := by
  have small := encodedMagnitude_lt short
  unfold encodedValue
  split_ifs <;> rw [Int64.toInt_ofInt_of_le (by omega) (by omega)]

theorem bytes_encodedValue {front : List UInt8} {last : UInt8}
    (short : (front ++ [last]).length ≤ 8)
    (minimal : checkMinimalDataEncoding (front ++ [last]) = .ok ()) :
    ScriptNum.bytes (Int64.ofInt (encodedValue front last)) = .ok (front ++ [last]) := by
  rw [checkMinimalDataEncoding_append] at minimal
  have positive := encodedMagnitude_pos minimal
  have small := encodedMagnitude_lt short
  have value := toInt_ofInt_encodedValue short
  have byte := last.toNat_lt
  have sign : Int64.ofInt (encodedValue front last) < 0 ↔ 128 ≤ last.toNat := by
    rw [Int64.lt_iff_toInt_lt, value, Int64.toInt_zero]
    unfold encodedValue
    split_ifs <;> omega
  rw [bytes_eq_magnitude positive small (by rw [value]; unfold encodedValue; split_ifs <;> omega)]
  simp only [sign]
  rcases Nat.eq_zero_or_pos (last.toNat % 128) with noBits | lowBits
  · -- the last byte holds only the sign: the magnitude ends with the byte before it
    have signed : 128 ≤ (front.getLastD 0).toNat := minimal.resolve_left (by omega)
    obtain ⟨init, before, rfl⟩ := (front.eq_nil_or_concat').resolve_left (by rintro rfl; simp at signed)
    rw [List.getLastD_concat] at signed
    have nonzero : before ≠ 0 := by
      rintro rfl
      simp at signed
    have loop : magnitudeBytes 8 (encodedMagnitude (init ++ [before]) last) = init ++ [before] := by
      rw [encodedMagnitude, noBits, mul_zero, add_zero]
      exact magnitudeBytes_ofListLE _ 8 (by simpa using nonzero) (by simp at short ⊢; omega)
    rw [loop, List.getLast?_concat]
    dsimp only
    rw [if_pos ((signBit_ne_zero_iff before).mpr signed)]
    congr 3
    split_ifs with negative <;> apply UInt8.toNat_inj.mp <;> simp <;> omega
  · -- the last byte carries the top magnitude bits, below the sign
    have top : UInt8.ofNat (last.toNat % 128) ≠ 0 := by
      intro zero
      have := congrArg UInt8.toNat zero
      rw [UInt8.toNat_ofNat', Nat.mod_eq_of_lt (by omega)] at this
      simp at this
      omega
    have topValue : (UInt8.ofNat (last.toNat % 128)).toNat = last.toNat % 128 := by
      rw [UInt8.toNat_ofNat', Nat.mod_eq_of_lt (by omega)]
    have loop : magnitudeBytes 8 (encodedMagnitude front last) = front ++ [UInt8.ofNat (last.toNat % 128)] := by
      have bytesValue : encodedMagnitude front last = ofListLE (front ++ [UInt8.ofNat (last.toNat % 128)]) := by
        rw [encodedMagnitude, ofListLE_append, ofListLE_cons, ofListLE_nil, topValue]
        ring
      rw [bytesValue]
      exact magnitudeBytes_ofListLE _ 8 (by simpa using top) (by simp at short ⊢; omega)
    rw [loop, List.getLast?_concat]
    dsimp only
    rw [if_neg (by rw [not_not, ← not_ne_iff, signBit_ne_zero_iff, topValue]; omega)]
    split_ifs with negative
    · rw [List.dropLast_concat]
      congr 3
      apply UInt8.toNat_inj.mp
      rw [toNat_or_signBit _ (by omega), topValue]
      omega
    · congr 3
      apply UInt8.toNat_inj.mp
      rw [topValue]
      omega

-- the encodings of the examples in the comment on `Bytes`
example : ScriptNum.bytes (-128) = .ok [0x80, 0x80] := by decide
example : ScriptNum.bytes 32768 = .ok [0x00, 0x80, 0x00] := by decide

theorem exists_encoding {n : ScriptNum} (nonzero : n ≠ 0) (notMin : n ≠ Int64.minValue) :
    ∃ front last, (front ++ [last]).length ≤ 8 ∧
      checkMinimalDataEncoding (front ++ [last]) = .ok () ∧
      encodedValue front last = n.toInt ∧ 2 ^ (8 * front.length) ≤ 2 * n.toInt.natAbs := by
  have range : -2 ^ 63 < n.toInt := by
    have := Int64.le_toInt n
    have differs : n.toInt ≠ -2 ^ 63 := fun least =>
      notMin (Int64.toInt_inj.mp (by rw [least, Int64.toInt_minValue]))
    omega
  have positive : 0 < n.toInt.natAbs := by
    have : n.toInt ≠ 0 := fun zero => nonzero (Int64.toInt_inj.mp (by rw [zero, Int64.toInt_zero]))
    omega
  have small : n.toInt.natAbs < 2 ^ 63 := by
    have := Int64.toInt_lt n
    omega
  obtain ⟨bytes, top, loop, nonzeroTop, value⟩ :=
    magnitudeBytes_spec 8 n.toInt.natAbs positive (by omega)
  have long : (bytes ++ [top]).length ≤ 8 := loop ▸ length_magnitudeBytes_le 8 _
  have weight : 256 ^ bytes.length * top.toNat ≤ n.toInt.natAbs := by
    rw [← value, ofListLE_append, ofListLE_cons, ofListLE_nil, mul_zero, add_zero]
    exact Nat.le_add_left _ _
  have frontLength : bytes.length ≤ 7 := by
    rw [List.length_append, List.length_singleton] at long
    omega
  have signByte : ∀ negative : Prop, [Decidable negative] →
      (if negative then (128 : UInt8) else 0).toNat % 128 = 0 := by
    intro negative _
    split_ifs <;> rfl
  by_cases high : 128 ≤ top.toNat
  · -- the top byte's own bit is taken: the sign goes in a byte of its own
    have signWeight : 2 ^ (8 * bytes.length + 7) ≤ n.toInt.natAbs := by
      have split : 2 ^ (8 * bytes.length + 7) = 256 ^ bytes.length * 128 := by
        rw [pow_add, pow_mul]
        norm_num
      rw [split]
      exact le_trans (Nat.mul_le_mul_left _ high) weight
    have notFull : bytes.length ≤ 6 := by
      by_contra full
      have : 2 ^ 63 ≤ 2 ^ (8 * bytes.length + 7) := Nat.pow_le_pow_right (by norm_num) (by omega)
      omega
    refine ⟨bytes ++ [top], if n.toInt < 0 then 128 else 0, ?_, ?_, ?_, ?_⟩
    · simp only [List.length_append, List.length_singleton]
      omega
    · rw [checkMinimalDataEncoding_append, List.getLastD_concat]
      exact .inr high
    · have signToNat : (if n.toInt < 0 then (128 : UInt8) else 0).toNat =
          if n.toInt < 0 then 128 else 0 := by
        split_ifs <;> rfl
      unfold encodedValue encodedMagnitude
      rw [signByte, mul_zero, add_zero, value, signToNat]
      split_ifs <;> omega
    · have split : 2 ^ (8 * (bytes ++ [top]).length) = 2 * 2 ^ (8 * bytes.length + 7) := by
        rw [List.length_append, List.length_singleton, mul_add, pow_add, pow_add]
        norm_num
        ring
      omega
  · -- the sign goes in the top bit of the top byte
    have topValue : top.toNat ≠ 0 := fun zero => nonzeroTop (UInt8.toNat_inj.mp zero)
    have lastBits : ∀ negative : Prop, [Decidable negative] →
        (if negative then top ||| 0x80 else top).toNat % 128 = top.toNat := by
      intro negative _
      split_ifs
      · rw [toNat_or_signBit _ (by omega)]
        omega
      · omega
    refine ⟨bytes, if n.toInt < 0 then top ||| 0x80 else top, by simpa using long, ?_, ?_, ?_⟩
    · rw [checkMinimalDataEncoding_append, lastBits]
      exact .inl topValue
    · have magnitude : encodedMagnitude bytes (if n.toInt < 0 then top ||| 0x80 else top) =
          n.toInt.natAbs := by
        rw [encodedMagnitude, lastBits, ← value, ofListLE_append, ofListLE_cons, ofListLE_nil,
          mul_zero, add_zero]
      unfold encodedValue
      rw [magnitude]
      split_ifs with negative signed <;> try rw [toNat_or_signBit _ (by omega)] at signed
      all_goals omega
    · have := pow_le_ofListLE bytes nonzeroTop
      have bits : 2 ^ (8 * bytes.length) = 256 ^ bytes.length := by
        rw [pow_mul]
        norm_num
      rw [value] at this
      omega

/-! ## The two directions -/

theorem bytes_zero : ScriptNum.bytes 0 = .ok [] := rfl

theorem bytes_minValue : ScriptNum.bytes Int64.minValue = .error indexOutOfRangePanic := by
  decide

theorem makeScriptNum_nil (scriptNumLen : Nat) : makeScriptNum [] scriptNumLen = .ok 0 := by
  simp [makeScriptNum, checkMinimalDataEncoding, bind, Except.bind, pure, Except.pure]

theorem makeScriptNum_ok_inv {v : List UInt8} {scriptNumLen : Nat} {n : ScriptNum}
    (made : makeScriptNum v scriptNumLen = .ok n) :
    v.length ≤ scriptNumLen ∧ v.length ≤ 8 ∧ checkMinimalDataEncoding v = .ok () := by
  unfold makeScriptNum at made
  by_cases long : v.length > scriptNumLen
  · simp [long, bind, Except.bind, throw, throwThe, MonadExceptOf.throw] at made
  by_cases wide : v.length > 8
  · simp [long, wide, bind, Except.bind, throw, throwThe, MonadExceptOf.throw] at made
  cases minimal : checkMinimalDataEncoding v with
  | error message => simp [long, wide, minimal, bind, Except.bind] at made
  | ok u => exact ⟨by omega, by omega, rfl⟩

theorem bytes_makeScriptNum {v : List UInt8} {scriptNumLen : Nat} {n : ScriptNum}
    (made : makeScriptNum v scriptNumLen = .ok n) : ScriptNum.bytes n = .ok v := by
  obtain ⟨fits, short, minimal⟩ := makeScriptNum_ok_inv made
  rcases v.eq_nil_or_concat' with rfl | ⟨front, last, rfl⟩
  · rw [makeScriptNum_nil] at made
    cases made
    exact bytes_zero
  · rw [makeScriptNum_append fits short minimal] at made
    cases made
    exact bytes_encodedValue short minimal

theorem makeScriptNum_bytes {scriptNumLen : Nat} (positiveLength : 1 ≤ scriptNumLen)
    (atMostEight : scriptNumLen ≤ 8) {n : ScriptNum}
    (bound : n.toInt.natAbs ≤ 2 ^ (8 * scriptNumLen - 1) - 1) :
    ∃ bytes, ScriptNum.bytes n = .ok bytes ∧ makeScriptNum bytes scriptNumLen = .ok n := by
  by_cases zero : n = 0
  · exact ⟨[], by rw [zero, bytes_zero], by rw [zero, makeScriptNum_nil]⟩
  have widthBound : 2 ^ (8 * scriptNumLen - 1) ≤ 2 ^ 63 := Nat.pow_le_pow_right (by norm_num) (by omega)
  have notMin : n ≠ Int64.minValue := by
    rintro rfl
    rw [Int64.toInt_minValue] at bound
    norm_num at bound
    omega
  obtain ⟨front, last, short, minimal, value, weight⟩ := exists_encoding zero notMin
  have fits : (front ++ [last]).length ≤ scriptNumLen := by
    have double : 2 * 2 ^ (8 * scriptNumLen - 1) = 2 ^ (8 * scriptNumLen) := by
      rw [← pow_succ']
      congr 1
      omega
    have positivePower : 0 < 2 ^ (8 * scriptNumLen - 1) := Nat.pow_pos (by norm_num)
    have below : 2 ^ (8 * front.length) < 2 ^ (8 * scriptNumLen) := by omega
    rw [List.length_append, List.length_singleton]
    have := (Nat.pow_lt_pow_iff_right (show 1 < 2 by norm_num)).mp below
    omega
  have self : Int64.ofInt (encodedValue front last) = n := by rw [value, Int64.ofInt_toInt]
  refine ⟨front ++ [last], ?_, ?_⟩
  · rw [← self]
    exact bytes_encodedValue short minimal
  · rw [makeScriptNum_append fits short minimal, self]

theorem bytes_ok_inv {n : ScriptNum} {v : List UInt8} (written : ScriptNum.bytes n = .ok v) :
    v = [] ∨ ∃ front last, v = front ++ [last] ∧ (front ++ [last]).length ≤ 8 ∧
      checkMinimalDataEncoding (front ++ [last]) = .ok () := by
  by_cases zero : n = 0
  · rw [zero, bytes_zero] at written
    cases written
    exact .inl rfl
  by_cases least : n = Int64.minValue
  · rw [least, bytes_minValue] at written
    cases written
  obtain ⟨front, last, short, minimal, value, -⟩ := exists_encoding zero least
  rw [← Int64.ofInt_toInt n, ← value, bytes_encodedValue short minimal] at written
  cases written
  exact .inr ⟨front, last, rfl, short, minimal⟩

theorem checkMinimalDataEncoding_iff_bytes {v : List UInt8} (short : v.length ≤ 8) :
    checkMinimalDataEncoding v = .ok () ↔ ∃ n, ScriptNum.bytes n = .ok v := by
  constructor
  · intro minimal
    rcases v.eq_nil_or_concat' with rfl | ⟨front, last, rfl⟩
    · exact ⟨0, bytes_zero⟩
    · exact ⟨_, bytes_encodedValue short minimal⟩
  · rintro ⟨n, written⟩
    rcases bytes_ok_inv written with rfl | ⟨front, last, rfl, -, minimal⟩
    · rfl
    · exact minimal

/-- Script numbers have unique minimal encodings of at most 8 bytes: `Bytes`
and `makeScriptNum` are inverse on them, and the minimality check accepts
exactly them, negative zero not among them. -/
theorem scriptNum_minimalEncoding :
    (∀ scriptNumLen, 1 ≤ scriptNumLen → scriptNumLen ≤ 8 → ∀ n : ScriptNum,
      n.toInt.natAbs ≤ 2 ^ (8 * scriptNumLen - 1) - 1 →
        ∃ bytes, ScriptNum.bytes n = .ok bytes ∧ makeScriptNum bytes scriptNumLen = .ok n) ∧
    (∀ (bytes : List UInt8) (scriptNumLen : Nat) (n : ScriptNum),
      makeScriptNum bytes scriptNumLen = .ok n → ScriptNum.bytes n = .ok bytes) ∧
    (∀ bytes : List UInt8, bytes.length ≤ 8 →
      (checkMinimalDataEncoding bytes = .ok () ↔ ∃ n, ScriptNum.bytes n = .ok bytes)) ∧
    checkMinimalDataEncoding [0x80] ≠ .ok () :=
  ⟨fun _ positiveLength atMostEight _ bound => makeScriptNum_bytes positiveLength atMostEight bound,
    fun _ _ _ made => bytes_makeScriptNum made,
    fun _ short => checkMinimalDataEncoding_iff_bytes short,
    by decide⟩

/-- `-32768` is written in three bytes and read back within four. -/
theorem scriptNum_minimalEncoding_fourBytes :
    ∃ bytes, ScriptNum.bytes (-32768) = .ok bytes ∧ makeScriptNum bytes 4 = .ok (-32768) :=
  scriptNum_minimalEncoding.1 4 (by decide) (by decide) (-32768) (by decide)

/-- Past 8 bytes the minimality check accepts encodings that `Bytes` never
writes: nine bytes with a non-zero top byte. -/
theorem checkMinimalDataEncoding_accepts_nineBytes :
    checkMinimalDataEncoding [1, 0, 0, 0, 0, 0, 0, 0, 1] = .ok () ∧
      ∀ n : ScriptNum, ScriptNum.bytes n ≠ .ok [1, 0, 0, 0, 0, 0, 0, 0, 1] := by
  refine ⟨by decide, fun n written => ?_⟩
  rcases bytes_ok_inv written with empty | ⟨front, last, split, short, -⟩
  · cases empty
  · rw [← split] at short
    simp at short

end Cryptixd.Txscript
