import Mathlib

/-!
# The Bech32 address codec

`util/bech32/bech32.go`: a prefix, the separator `:`, and the 5-bit groups
of the data with an 8-group BCH checksum, each written as a letter of
`charset`.  `Encode` prepends the version byte to the payload and regroups the
bytes into 5-bit groups, padding the last one with zeros; `Decode` checks the
string (`decode`), regroups the groups back into bytes, dropping the bits of
an unfinished byte, and reads the version from the first byte.

Go strings are byte sequences and are modelled as `List UInt8`.  `Decode`
either panics, errors or returns; the two failure kinds are kept apart
(`Except String` for the panic with the runtime's message, `DecodeError` for
the returned errors), since the codec promises to return an error on bad
input.  `Decode` reads `converted[0]` unconditionally, so a string whose data
part is only a valid checksum panics (`decode_panics_and_accepts_padding`),
and it never checks that the dropped padding bits are zero, so two strings
that differ only there decode to the same address.
-/

set_option autoImplicit false

namespace Cryptixd.Bech32

def goString (s : String) : List UInt8 := s.toList.map Char.toUInt8

def charset : List UInt8 := goString "qpzry9x8gf2tvdw0s3jn54khce6mua7l"

def checksumLength : Nat := 8

def colon : UInt8 := 0x3a

/-- `conversionType`: how many bits each input and each output byte carries,
and whether an unfinished output byte is padded out. -/
structure ConversionType where
  fromBits : UInt8
  toBits : UInt8
  pad : Bool
  deriving DecidableEq, Repr

def fiveToEightBits : ConversionType := ⟨5, 8, false⟩

def eightToFiveBits : ConversionType := ⟨8, 5, true⟩

def generator : List Nat := [0x98f2bc8e61, 0x79b76d99e2, 0xf33e5fb3c4, 0xae2eabe2a8, 0x1e4f43e470]

/-! ## Regrouping bits -/

def shl (x s : UInt8) : UInt8 := if s < 8 then x <<< s else 0

def shr (x s : UInt8) : UInt8 := if s < 8 then x >>> s else 0

/-- The variables of `convertBits`' loop: the finished bytes, the byte being
filled and how many of its bits are filled. -/
structure Regrouping where
  regrouped : List UInt8
  nextByte : UInt8
  filledBits : UInt8
  deriving DecidableEq, Repr

/-- The inner loop of `convertBits` over the bits of one input byte `b`, which
holds its `remainingFromBits` unread bits at the top.  Each pass extracts at
least one bit while a byte is unfinished, so `fromBits` passes suffice: the
fuel bounds a loop the source runs until no bit remains. -/
def extractBits (conversionType : ConversionType) :
    Nat → UInt8 → UInt8 → Regrouping → Regrouping
  | 0, _, _, st => st
  | fuel + 1, b, remainingFromBits, st =>
    if remainingFromBits > 0 then
      let remainingToBits := conversionType.toBits - st.filledBits
      let toExtract := if remainingToBits < remainingFromBits then remainingToBits
        else remainingFromBits
      let nextByte := shl st.nextByte toExtract ||| shr b (8 - toExtract)
      let filledBits := st.filledBits + toExtract
      let st : Regrouping :=
        if filledBits = conversionType.toBits then ⟨st.regrouped ++ [nextByte], 0, 0⟩
        else ⟨st.regrouped, nextByte, filledBits⟩
      extractBits conversionType fuel (shl b toExtract) (remainingFromBits - toExtract) st
    else st

def regroupByte (conversionType : ConversionType) (st : Regrouping) (b : UInt8) : Regrouping :=
  extractBits conversionType conversionType.fromBits.toNat
    (shl b (8 - conversionType.fromBits)) conversionType.fromBits st

def convertBits (data : List UInt8) (conversionType : ConversionType) : List UInt8 :=
  let st := data.foldl (regroupByte conversionType) ⟨[], 0, 0⟩
  if conversionType.pad ∧ st.filledBits > 0 then
    st.regrouped ++ [shl st.nextByte (conversionType.toBits - st.filledBits)]
  else st.regrouped

/-! ## The checksum -/

/-- One value of `polyMod`'s loop.  Go's `int` is 64 bits wide; the checksum
stays below `2 ^ 40`, so the model computes in `Nat`. -/
def polyModStep (checksum value : Nat) : Nat :=
  let topBits := checksum >>> 35
  (List.range generator.length).foldl
    (fun checksum i =>
      if (topBits >>> i) &&& 1 = 1 then checksum ^^^ generator.getD i 0 else checksum)
    (((checksum &&& 0x07ffffffff) <<< 5) ^^^ value)

def polyMod (values : List Nat) : Nat :=
  values.foldl polyModStep 1 ^^^ 1

def prefixToUint5Array (hrp : List UInt8) : List Nat :=
  hrp.map fun char => (char &&& 31).toNat

def ints (payload : List UInt8) : List Nat := payload.map UInt8.toNat

def templateZeroes : List Nat := List.replicate 8 0

def calculateChecksum (hrp payload : List UInt8) : List UInt8 :=
  let polyModResult := polyMod (prefixToUint5Array hrp ++ [0] ++ ints payload ++ templateZeroes)
  (List.range checksumLength).map fun i =>
    UInt8.ofNat ((polyModResult >>> (5 * (checksumLength - 1 - i))) &&& 31)

def verifyChecksum (hrp payload : List UInt8) : Bool :=
  polyMod (prefixToUint5Array hrp ++ [0] ++ ints payload) == 0

/-! ## Strings -/

def encodeToBase32 (data : List UInt8) : List UInt8 :=
  match data.mapM fun b => charset[b.toNat]? with
  | some result => result
  | none => []

/-- The errors `decode` returns, with what their messages report. -/
inductive DecodeError where
  | invalidLength (length : Nat)
  | invalidCharacter (char : UInt8)
  | mixedCase
  | invalidColonIndex
  | notInCharset (char : UInt8)
  | checksumFailed (expected checksum : List UInt8)
  deriving DecidableEq, Repr

def decodeFromBase32 (base32String : List UInt8) : Except DecodeError (List UInt8) :=
  base32String.mapM fun char =>
    if char ∈ charset then .ok (UInt8.ofNat (charset.idxOf char)) else .error (.notInCharset char)

def toLower (c : UInt8) : UInt8 := if 65 ≤ c ∧ c ≤ 90 then c + 32 else c

def toUpper (c : UInt8) : UInt8 := if 97 ≤ c ∧ c ≤ 122 then c - 32 else c

def lastIndexByte (s : List UInt8) (c : UInt8) : Int :=
  s.zipIdx.foldl (fun found (x, i) => if x = c then (i : Int) else found) (-1)

def decode (encoded : List UInt8) : Except DecodeError (List UInt8 × List UInt8) := do
  if encoded.length < checksumLength + 2 then throw (.invalidLength encoded.length)
  -- only ASCII characters between 33 and 126
  match encoded.find? fun c => c < 33 || c > 126 with
  | some c => throw (.invalidCharacter c)
  | none => pure ()
  let lower := encoded.map toLower
  let upper := encoded.map toUpper
  if encoded ≠ lower ∧ encoded ≠ upper then throw .mixedCase
  let encoded := lower
  let colonIndex := lastIndexByte encoded colon
  if colonIndex < 1 ∨ colonIndex + checksumLength + 1 > encoded.length then
    throw .invalidColonIndex
  let hrp := encoded.take colonIndex.toNat
  let data := encoded.drop (colonIndex.toNat + 1)
  let decoded ← decodeFromBase32 data
  if !verifyChecksum hrp decoded then
    throw (.checksumFailed
      (encodeToBase32 (calculateChecksum hrp (decoded.take (decoded.length - checksumLength))))
      (encoded.drop (encoded.length - checksumLength)))
  return (hrp, decoded.take (decoded.length - checksumLength))

def encode (hrp data : List UInt8) : List UInt8 :=
  let checksum := calculateChecksum hrp data
  hrp ++ [colon] ++ encodeToBase32 (data ++ checksum)

def Encode (hrp payload : List UInt8) (version : UInt8) : List UInt8 :=
  encode hrp (convertBits (version :: payload) eightToFiveBits)

def emptyIndexPanic : String := "runtime error: index out of range [0] with length 0"

/-- `Decode`: the prefix, the payload and the version.  The outer `Except` is
a panic, the inner one the error the function returns. -/
def Decode (encoded : List UInt8) :
    Except String (Except DecodeError (List UInt8 × List UInt8 × UInt8)) :=
  match decode encoded with
  | .error err => .ok (.error err)
  | .ok (hrp, decoded) =>
    match convertBits decoded fiveToEightBits with
    | [] => .error emptyIndexPanic
    | version :: payload => .ok (.ok (hrp, payload, version))

/-- A string whose data part is only the checksum of no data passes `decode`
and makes `Decode` panic, and a string whose padding bits are not zero decodes
to the address of another string, which is what `Encode` writes for it. -/
theorem decode_panics_and_accepts_padding :
    Decode (goString "p:gpf8m4h7") = .error emptyIndexPanic ∧
      Decode (goString "a:qp2rrw90sk") = .ok (.ok (goString "a", [], 0)) ∧
      Decode (goString "a:qqeq69uvrh") = .ok (.ok (goString "a", [], 0)) ∧
      Encode (goString "a") [] 0 = goString "a:qqeq69uvrh" := by
  decide +kernel

example : Encode (goString "b") (goString "abc") 8 = goString "b:ppskycc8txxxn2w" := by
  decide +kernel

example : Decode (goString "b:ppskycc8txxxn2w") = .ok (.ok (goString "b", goString "abc", 8)) := by
  decide +kernel

end Cryptixd.Bech32
