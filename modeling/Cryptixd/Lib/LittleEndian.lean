import Mathlib

/-!
# Little-endian byte digits

A natural number written as `w` bytes, least significant first, and a byte
list read back as a natural.  Fixed-width encoders (`PutUint64`, `FillBytes`)
are `toListLE` at their width, decoders (`Uint64`, `SetBytes`) are `ofListLE`,
big-endian forms being the reversed lists.  The laws here are the round trip
`ofListLE_toListLE` and `toListLE_ofListLE`, and the bound `ofListLE_lt`.
-/

set_option autoImplicit false

namespace LittleEndian

/-- The `w` little-endian bytes of `n`; bits above `8 * w` are dropped. -/
def toListLE : Nat → Nat → List UInt8
  | 0, _ => []
  | w + 1, n => UInt8.ofNat (n % 256) :: toListLE w (n / 256)

/-- The natural with the given little-endian bytes. -/
def ofListLE : List UInt8 → Nat
  | [] => 0
  | b :: bs => b.toNat + 256 * ofListLE bs

@[simp] theorem toListLE_zero (n : Nat) : toListLE 0 n = [] := rfl

@[simp] theorem toListLE_succ (w n : Nat) :
    toListLE (w + 1) n = UInt8.ofNat (n % 256) :: toListLE w (n / 256) := rfl

@[simp] theorem ofListLE_nil : ofListLE [] = 0 := rfl

@[simp] theorem ofListLE_cons (b : UInt8) (bs : List UInt8) :
    ofListLE (b :: bs) = b.toNat + 256 * ofListLE bs := rfl

@[simp] theorem length_toListLE (w n : Nat) : (toListLE w n).length = w := by
  induction w generalizing n with
  | zero => rfl
  | succ w ih => simp only [toListLE_succ, List.length_cons, ih]

theorem ofListLE_toListLE (w n : Nat) : ofListLE (toListLE w n) = n % 256 ^ w := by
  induction w generalizing n with
  | zero => simp only [toListLE_zero, ofListLE_nil, pow_zero, Nat.mod_one]
  | succ w ih =>
    have byte : n % 256 % 2 ^ 8 = n % 256 :=
      Nat.mod_eq_of_lt (by simpa using Nat.mod_lt n (show 0 < 256 by norm_num))
    rw [toListLE_succ, ofListLE_cons, ih, UInt8.toNat_ofNat', byte, pow_succ', Nat.mod_mul]

theorem ofListLE_lt (bytes : List UInt8) : ofListLE bytes < 256 ^ bytes.length := by
  induction bytes with
  | nil => simp only [ofListLE_nil, List.length_nil, pow_zero, Nat.lt_one_iff]
  | cons b bs ih =>
    rw [ofListLE_cons, List.length_cons, pow_succ]
    have byte : b.toNat < 256 := b.toNat_lt
    omega

theorem ofListLE_append (first second : List UInt8) :
    ofListLE (first ++ second) = ofListLE first + 256 ^ first.length * ofListLE second := by
  induction first with
  | nil => simp only [List.nil_append, ofListLE_nil, List.length_nil, pow_zero, one_mul, zero_add]
  | cons b bs ih =>
    rw [List.cons_append, ofListLE_cons, ofListLE_cons, ih, List.length_cons, pow_succ]
    ring

/-- A byte list whose last byte is not zero is worth at least `256 ^ (length - 1)`. -/
theorem pow_le_ofListLE (front : List UInt8) {last : UInt8} (top : last ≠ 0) :
    256 ^ front.length ≤ ofListLE (front ++ [last]) := by
  have positive : 0 < last.toNat := by
    rw [Nat.pos_iff_ne_zero]
    exact fun zero => top (UInt8.toNat_inj.mp zero)
  rw [ofListLE_append, ofListLE_cons, ofListLE_nil, mul_zero, add_zero]
  calc 256 ^ front.length = 256 ^ front.length * 1 := (mul_one _).symm
    _ ≤ 256 ^ front.length * last.toNat := Nat.mul_le_mul_left _ positive
    _ ≤ ofListLE front + 256 ^ front.length * last.toNat := Nat.le_add_left _ _
theorem ofListLE_pos {bytes : List UInt8} (nonempty : bytes ≠ []) (top : bytes.getLast? ≠ some 0) :
    0 < ofListLE bytes := by
  have last : bytes.getLast nonempty ≠ 0 := fun zero =>
    top (by rw [List.getLast?_eq_some_getLast nonempty, zero])
  rw [← List.dropLast_append_getLast nonempty]
  exact lt_of_lt_of_le (Nat.pow_pos (by norm_num)) (pow_le_ofListLE _ last)

theorem toListLE_ofListLE (bytes : List UInt8) : toListLE bytes.length (ofListLE bytes) = bytes := by
  induction bytes with
  | nil => rfl
  | cons b bs ih =>
    have byte : b.toNat < 256 := b.toNat_lt
    have low : (b.toNat + 256 * ofListLE bs) % 256 = b.toNat := by omega
    have high : (b.toNat + 256 * ofListLE bs) / 256 = ofListLE bs := by omega
    rw [List.length_cons, ofListLE_cons, toListLE_succ, low, high, ih, UInt8.ofNat_toNat]

end LittleEndian

