import Mathlib
import Cryptixd.Util.Bech32RoundTrip
import Cryptixd.Txscript.Standard

/-!
# Addresses as strings

`util/address.go`: an address is written as the Bech32 string of its network's
prefix, its payload and the version byte of its type.  `DecodeAddress` reads the
prefix back, checks it against the network the caller expects (any, if the
caller passes `Bech32PrefixUnknown`), and rebuilds the address of the type the
version names, checking the payload's length.

Every address of a known network comes back from its own string, or, when the
caller expects another network, is refused with the wrong-network error
(`decodeAddress_encodeAddress`).
-/

set_option autoImplicit false

namespace Cryptixd.Txscript

open Bech32

def bech32PrefixUnknown : Bech32Prefix := 0
def bech32PrefixCryptix : Bech32Prefix := 1
def bech32PrefixCryptixDev : Bech32Prefix := 2
def bech32PrefixCryptixTest : Bech32Prefix := 3
def bech32PrefixCryptixSim : Bech32Prefix := 4

def stringsToBech32Prefixes : List (List UInt8 × Bech32Prefix) :=
  [(goString "cryptix", bech32PrefixCryptix), (goString "cryptixdev", bech32PrefixCryptixDev),
    (goString "cryptixtest", bech32PrefixCryptixTest), (goString "cryptixsim", bech32PrefixCryptixSim)]

def publicKeySize : ℕ := 32
def publicKeySizeECDSA : ℕ := 33
def blake2bSize256 : ℕ := 32

/-- The errors of `util/address.go`, with what their messages report. -/
inductive AddressError where
  | unknownFormat (err : DecodeError)
  | prefixNotParsed (prefixString : List UInt8)
  | wrongNetwork (expected got : Bech32Prefix)
  | invalidLength (field : String) (size : ℕ)
  | unknownAddressType
  deriving DecidableEq, Repr

def parsePrefix (prefixString : List UInt8) : Except AddressError Bech32Prefix :=
  match stringsToBech32Prefixes.lookup prefixString with
  | some bech32Prefix => .ok bech32Prefix
  | none => .error (.prefixNotParsed prefixString)

/-- `Bech32Prefix.String`: the key of the map that names the prefix, or the
empty string.  The keys name distinct prefixes, so Go's order of iteration over
the map does not matter. -/
def bech32PrefixString (bech32Prefix : Bech32Prefix) : List UInt8 :=
  match stringsToBech32Prefixes.find? fun entry => entry.2 == bech32Prefix with
  | some (key, _) => key
  | none => []

def encodeAddress (bech32Prefix : Bech32Prefix) (payload : List UInt8) (version : UInt8) : List UInt8 :=
  Encode (bech32PrefixString bech32Prefix) payload version

def Address.bech32Prefix : Address → Bech32Prefix
  | .publicKey bech32Prefix _ => bech32Prefix
  | .publicKeyECDSA bech32Prefix _ => bech32Prefix
  | .scriptHash bech32Prefix _ => bech32Prefix

/-- `EncodeAddress` of the three address types. -/
def Address.encodeAddress : Address → List UInt8
  | .publicKey bech32Prefix key => Txscript.encodeAddress bech32Prefix key.toList pubKeyAddrID
  | .publicKeyECDSA bech32Prefix key => Txscript.encodeAddress bech32Prefix key.toList pubKeyECDSAAddrID
  | .scriptHash bech32Prefix hash => Txscript.encodeAddress bech32Prefix hash.toList scriptHashAddrID

def newAddressPubKey (bech32Prefix : Bech32Prefix) (publicKey : List UInt8) :
    Except AddressError Address :=
  if h : publicKey.length = publicKeySize then .ok (.publicKey bech32Prefix ⟨publicKey.toArray, h⟩)
  else .error (.invalidLength "publicKey" publicKeySize)

def newAddressPubKeyECDSA (bech32Prefix : Bech32Prefix) (publicKey : List UInt8) :
    Except AddressError Address :=
  if h : publicKey.length = publicKeySizeECDSA then
    .ok (.publicKeyECDSA bech32Prefix ⟨publicKey.toArray, h⟩)
  else .error (.invalidLength "publicKey" publicKeySizeECDSA)

def newAddressScriptHashFromHash (bech32Prefix : Bech32Prefix) (scriptHash : List UInt8) :
    Except AddressError Address :=
  if h : scriptHash.length = blake2bSize256 then .ok (.scriptHash bech32Prefix ⟨scriptHash.toArray, h⟩)
  else .error (.invalidLength "scriptHash" blake2bSize256)

/-- `DecodeAddress`.  The outer `Except` is a panic of `bech32.Decode`, the
inner one the error the function returns. -/
def decodeAddress (addr : List UInt8) (expectedPrefix : Bech32Prefix) :
    Except String (Except AddressError Address) :=
  match Decode addr with
  | .error panic => .error panic
  | .ok (.error err) => .ok (.error (.unknownFormat err))
  | .ok (.ok (prefixString, decoded, version)) => .ok do
    let bech32Prefix ← parsePrefix prefixString
    if expectedPrefix ≠ bech32PrefixUnknown ∧ expectedPrefix ≠ bech32Prefix then
      throw (.wrongNetwork expectedPrefix bech32Prefix)
    if version = pubKeyAddrID then newAddressPubKey bech32Prefix decoded
    else if version = pubKeyECDSAAddrID then newAddressPubKeyECDSA bech32Prefix decoded
    else if version = scriptHashAddrID then newAddressScriptHashFromHash bech32Prefix decoded
    else throw .unknownAddressType

/-! ## Every address comes back from its string -/

theorem knownPrefix_spec {bech32Prefix : Bech32Prefix}
    (known : bech32Prefix ∈ stringsToBech32Prefixes.map Prod.snd) :
    parsePrefix (bech32PrefixString bech32Prefix) = .ok bech32Prefix ∧
      bech32PrefixString bech32Prefix ≠ [] ∧
      ∀ c ∈ bech32PrefixString bech32Prefix, (33 ≤ c ∧ c ≤ 126) ∧ toLower c = c := by
  simp only [stringsToBech32Prefixes, List.map_cons, List.map_nil, List.mem_cons,
    List.not_mem_nil, or_false] at known
  rcases known with rfl | rfl | rfl | rfl <;> decide +kernel

theorem newAddressPubKey_toList (bech32Prefix : Bech32Prefix) (key : Vector UInt8 32) :
    newAddressPubKey bech32Prefix key.toList = .ok (.publicKey bech32Prefix key) := by
  rw [newAddressPubKey, dif_pos (by simp [publicKeySize])]
  simp [Vector.toArray_toList]

theorem newAddressPubKeyECDSA_toList (bech32Prefix : Bech32Prefix) (key : Vector UInt8 33) :
    newAddressPubKeyECDSA bech32Prefix key.toList = .ok (.publicKeyECDSA bech32Prefix key) := by
  rw [newAddressPubKeyECDSA, dif_pos (by simp [publicKeySizeECDSA])]
  simp [Vector.toArray_toList]

theorem newAddressScriptHashFromHash_toList (bech32Prefix : Bech32Prefix) (hash : Vector UInt8 32) :
    newAddressScriptHashFromHash bech32Prefix hash.toList = .ok (.scriptHash bech32Prefix hash) := by
  rw [newAddressScriptHashFromHash, dif_pos (by simp [blake2bSize256])]
  simp [Vector.toArray_toList]

theorem Address.encodeAddress_eq (address : Address) :
    address.encodeAddress =
      Txscript.encodeAddress address.bech32Prefix address.scriptAddress address.version := by
  cases address <;> rfl

/-- The version of an address picks its constructor, which takes its payload back. -/
theorem newAddress_scriptAddress (address : Address) :
    (if address.version = pubKeyAddrID then
        newAddressPubKey address.bech32Prefix address.scriptAddress
      else if address.version = pubKeyECDSAAddrID then
        newAddressPubKeyECDSA address.bech32Prefix address.scriptAddress
      else if address.version = scriptHashAddrID then
        newAddressScriptHashFromHash address.bech32Prefix address.scriptAddress
      else throw .unknownAddressType) = .ok address := by
  cases address <;>
    simp only [Address.version, Address.bech32Prefix, Address.scriptAddress, ↓reduceIte]
  case publicKey bech32Prefix key =>
    exact newAddressPubKey_toList bech32Prefix key
  case publicKeyECDSA bech32Prefix key =>
    exact newAddressPubKeyECDSA_toList bech32Prefix key
  case scriptHash bech32Prefix hash =>
    exact newAddressScriptHashFromHash_toList bech32Prefix hash

theorem decodeAddress_encodeAddress (address : Address)
    (known : address.bech32Prefix ∈ stringsToBech32Prefixes.map Prod.snd)
    (expectedPrefix : Bech32Prefix) :
    decodeAddress address.encodeAddress expectedPrefix =
      .ok (if expectedPrefix ≠ bech32PrefixUnknown ∧ expectedPrefix ≠ address.bech32Prefix then
        .error (.wrongNetwork expectedPrefix address.bech32Prefix) else .ok address) := by
  obtain ⟨parsed, nonEmpty, chars⟩ := knownPrefix_spec known
  rw [Address.encodeAddress_eq, encodeAddress, decodeAddress, Decode_Encode _ _ _ nonEmpty chars]
  dsimp only
  rw [parsed, show (Except.ok address.bech32Prefix : Except AddressError Bech32Prefix) =
    pure address.bech32Prefix from rfl, pure_bind]
  by_cases wrong : expectedPrefix ≠ bech32PrefixUnknown ∧ expectedPrefix ≠ address.bech32Prefix
  · rw [if_pos wrong, if_pos wrong]
    rfl
  · rw [if_neg wrong, if_neg wrong]
    exact congrArg Except.ok (newAddress_scriptAddress address)

theorem decodeAddress_encodeAddress_otherNetwork :
    bech32PrefixCryptix ∈ stringsToBech32Prefixes.map Prod.snd ∧
      decodeAddress (Address.scriptHash bech32PrefixCryptix (Vector.replicate 32 5)).encodeAddress
          bech32PrefixCryptixTest =
        .ok (.error (.wrongNetwork bech32PrefixCryptixTest bech32PrefixCryptix)) := by
  refine ⟨by decide, ?_⟩
  rw [decodeAddress_encodeAddress _ (by decide) _, if_pos (by decide)]
  rfl

end Cryptixd.Txscript
