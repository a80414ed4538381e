import Mathlib

/-!
# Hexadecimal text as encoding/hex writes and reads it

A Go string is a sequence of bytes, so here a text is a `List UInt8`.
`Hex.encode` writes two lower-case digits for each byte, high nibble first
(EncodeToString). `Hex.decode` reads pairs of digits of either case
(DecodeString). It reports the first byte that is not a digit, and an odd
length only when the last byte is a digit. The round trip `decode_encode` is
what a reader of persisted hashes relies on.
-/

set_option autoImplicit false

namespace Hex

def digit (nibble : UInt8) : UInt8 :=
  if nibble < 10 then 48 + nibble else 87 + nibble

def fromHexChar (c : UInt8) : Option UInt8 :=
  if 48 ≤ c ∧ c ≤ 57 then some (c - 48)
  else if 97 ≤ c ∧ c ≤ 102 then some (c - 87)
  else if 65 ≤ c ∧ c ≤ 70 then some (c - 55)
  else none

def encode (bytes : List UInt8) : List UInt8 :=
  bytes.flatMap fun (b : UInt8) => [digit (b >>> 4), digit (b &&& 15)]

/-- The two errors of DecodeString: InvalidByteError and ErrLength. -/
inductive HexError
  | invalidByte (byte : UInt8)
  | length
  deriving DecidableEq, Repr

def decode : List UInt8 → Except HexError (List UInt8)
  | [] => .ok []
  -- an odd length is reported only after the last byte is checked
  | [p] =>
    match fromHexChar p with
    | none => .error (.invalidByte p)
    | some _ => .error .length
  | p :: q :: rest =>
    match fromHexChar p, fromHexChar q with
    | none, _ => .error (.invalidByte p)
    | some _, none => .error (.invalidByte q)
    | some a, some b => (decode rest).map fun bytes => (a <<< 4 ||| b) :: bytes

def upperDigits (b : UInt8) : String :=
  let upper := fun (nibble : UInt8) => Char.ofNat (if nibble < 10 then 48 + nibble.toNat else 55 + nibble.toNat)
  String.ofList [upper (b >>> 4), upper (b &&& 15)]

/-- strconv.IsPrint for the code points of a single byte: the printable ASCII range and
Latin-1 above U+00A0, less the soft hyphen. -/
def isPrintByte (b : UInt8) : Bool :=
  (32 ≤ b && b ≤ 126) || (161 ≤ b && b != 173)

/-- The messages of the two errors; %#U writes the byte as a code point and, when it
prints, the character itself in quotes. -/
def HexError.text : HexError → String
  | .invalidByte b =>
    "encoding/hex: invalid byte: U+00" ++ upperDigits b ++
      (if isPrintByte b then " '" ++ String.singleton (Char.ofNat b.toNat) ++ "'" else "")
  | .length => "encoding/hex: odd length hex string"

set_option maxRecDepth 8000 in
theorem fromHexChar_digit (nibble : UInt8) (small : nibble < 16) :
    fromHexChar (digit nibble) = some nibble := by
  revert nibble
  decide

set_option maxRecDepth 8000 in
theorem high_nibble_lt (b : UInt8) : b >>> 4 < 16 := by
  revert b
  decide

set_option maxRecDepth 8000 in
theorem low_nibble_lt (b : UInt8) : b &&& 15 < 16 := by
  revert b
  decide

set_option maxRecDepth 8000 in
theorem nibbles_join (b : UInt8) : (b >>> 4) <<< 4 ||| (b &&& 15) = b := by
  revert b
  decide

@[simp]
theorem encode_nil : encode [] = [] := rfl

@[simp]
theorem encode_cons (b : UInt8) (bytes : List UInt8) :
    encode (b :: bytes) = digit (b >>> 4) :: digit (b &&& 15) :: encode bytes := rfl

theorem length_encode (bytes : List UInt8) : (encode bytes).length = 2 * bytes.length := by
  induction bytes with
  | nil => rfl
  | cons b bytes ih =>
    simp only [encode_cons, List.length_cons, ih]
    omega

theorem decode_encode (bytes : List UInt8) : decode (encode bytes) = .ok bytes := by
  induction bytes with
  | nil => rfl
  | cons b bytes ih =>
    rw [encode_cons, decode, fromHexChar_digit _ (high_nibble_lt b),
      fromHexChar_digit _ (low_nibble_lt b), ih]
    show Except.ok (((b >>> 4) <<< 4 ||| (b &&& 15)) :: bytes) = _
    rw [nibbles_join]

end Hex

