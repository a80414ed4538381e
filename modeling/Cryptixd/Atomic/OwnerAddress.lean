import Mathlib
import Cryptixd.Atomic.Owner
import Cryptixd.Txscript.Standard

/-!
# Owners recognised from scripts and from addresses

A liquidity fee recipient is named by an address, as a version byte and a
payload (`OwnerIDFromAddressComponents`), while the owner who later claims is
recognised from the raw bytes of a script (`OwnerIDFromScript`) by matchers
written by hand, apart from the script parser.  The matchers accept exactly
the scripts of the three standard classes (`isPayToPubKey_iff` and its
siblings, against `getScriptClass_eq_pubKeyTy` and its siblings of the
parser), and the script `PayToAddrScript` builds for an address yields the
owner its components name.
-/

set_option autoImplicit false

namespace Cryptixd.Atomic

open Cryptixd.Txscript

theorem eq_dropLast_append {script : List UInt8} {x : UInt8}
    (last : script[script.length - 1]? = some x) : script = script.dropLast ++ [x] := by
  rw [← List.getLast?_eq_getElem?] at last
  exact (List.dropLast_append_getLast? x last).symm

/-! ## The matchers accept the standard byte shapes -/

theorem isPayToPubKey_iff (script : List UInt8) :
    isPayToPubKey script = true ↔
      ∃ key : List UInt8, key.length = 32 ∧ script = opData32 :: (key ++ [opCheckSig]) := by
  constructor
  · intro shape
    simp only [isPayToPubKey, Bool.and_eq_true, beq_iff_eq] at shape
    obtain ⟨⟨length, first⟩, last⟩ := shape
    cases script with
    | nil => simp at length
    | cons head tail =>
      simp only [List.length_cons, List.getElem?_cons_zero, Option.some.injEq,
        List.getElem?_cons_succ] at length first last
      have split := eq_dropLast_append (by rw [show tail.length - 1 = 32 by omega]; exact last)
      refine ⟨tail.dropLast, by simp only [List.length_dropLast]; omega, ?_⟩
      rw [first, ← split]
  · rintro ⟨key, length, rfl⟩
    simp [isPayToPubKey, length]

theorem isPayToPubKeyECDSA_iff (script : List UInt8) :
    isPayToPubKeyECDSA script = true ↔
      ∃ key : List UInt8, key.length = 33 ∧ script = opData33 :: (key ++ [opCheckSigECDSA]) := by
  constructor
  · intro shape
    simp only [isPayToPubKeyECDSA, Bool.and_eq_true, beq_iff_eq] at shape
    obtain ⟨⟨length, first⟩, last⟩ := shape
    cases script with
    | nil => simp at length
    | cons head tail =>
      simp only [List.length_cons, List.getElem?_cons_zero, Option.some.injEq,
        List.getElem?_cons_succ] at length first last
      have split := eq_dropLast_append (by rw [show tail.length - 1 = 33 by omega]; exact last)
      refine ⟨tail.dropLast, by simp only [List.length_dropLast]; omega, ?_⟩
      rw [first, ← split]
  · rintro ⟨key, length, rfl⟩
    simp [isPayToPubKeyECDSA, length]

theorem isPayToScriptHash_iff (script : List UInt8) :
    isPayToScriptHash script = true ↔
      ∃ hash : List UInt8, hash.length = 32 ∧ script = opBlake2b :: opData32 :: (hash ++ [opEqual]) := by
  constructor
  · intro shape
    simp only [isPayToScriptHash, Bool.and_eq_true, beq_iff_eq] at shape
    obtain ⟨⟨⟨length, first⟩, second⟩, last⟩ := shape
    match script, length, first, second, last with
    | head :: next :: tail, length, first, second, last =>
      simp only [List.length_cons, List.getElem?_cons_zero, Option.some.injEq,
        List.getElem?_cons_succ] at length first second last
      have split := eq_dropLast_append (by rw [show tail.length - 1 = 32 by omega]; exact last)
      refine ⟨tail.dropLast, by simp only [List.length_dropLast]; omega, ?_⟩
      rw [first, second, ← split]
  · rintro ⟨hash, length, rfl⟩
    simp [isPayToScriptHash, length]

/-! ## Which scripts have an owner -/

/-- A script has an owner exactly when it is a standard script of one of the
three classes, at version 0: the hand-written matchers agree with the parser. -/
theorem canonicalOwnerIdentity_isSome_iff (scriptPublicKey : ScriptPublicKey) :
    (canonicalOwnerIdentity scriptPublicKey).isSome ↔
      scriptPublicKey.version = 0 ∧
        (getScriptClass scriptPublicKey.script = pubKeyTy ∨
          getScriptClass scriptPublicKey.script = pubKeyECDSATy ∨
          getScriptClass scriptPublicKey.script = scriptHashTy) := by
  rw [getScriptClass_eq_pubKeyTy, getScriptClass_eq_pubKeyECDSATy, getScriptClass_eq_scriptHashTy,
    ← isPayToPubKey_iff, ← isPayToPubKeyECDSA_iff, ← isPayToScriptHash_iff]
  unfold canonicalOwnerIdentity
  by_cases version : scriptPublicKey.version = maxScriptPublicKeyVersion
  · rw [if_neg (not_not.mpr version)]
    simp only [maxScriptPublicKeyVersion] at version
    dsimp only
    split_ifs with payToPubKey payToPubKeyECDSA payToScriptHash <;> simp_all
  · rw [if_pos version]
    simp only [maxScriptPublicKeyVersion] at version
    simp [version]

/-! ## The owner of an address's script -/

section Scripts

variable {version : UInt16} (zero : version = maxScriptPublicKeyVersion)
include zero

theorem canonicalOwnerIdentity_payToPubKey {key : List UInt8} (length : key.length = 32) :
    canonicalOwnerIdentity ⟨opData32 :: (key ++ [opCheckSig]), version⟩ =
      some (ownerAuthSchemePubKey, key) := by
  rw [canonicalOwnerIdentity, if_neg (not_not.mpr zero)]
  dsimp only
  rw [if_pos ((isPayToPubKey_iff _).mpr ⟨key, length, rfl⟩)]
  simp [slice, List.take_left' length]

theorem canonicalOwnerIdentity_payToPubKeyECDSA {key : List UInt8} (length : key.length = 33) :
    canonicalOwnerIdentity ⟨opData33 :: (key ++ [opCheckSigECDSA]), version⟩ =
      some (ownerAuthSchemePubKeyECDSA, key) := by
  rw [canonicalOwnerIdentity, if_neg (not_not.mpr zero)]
  dsimp only
  rw [if_neg (by simp [isPayToPubKey, length]),
    if_pos ((isPayToPubKeyECDSA_iff _).mpr ⟨key, length, rfl⟩)]
  simp [slice, List.take_left' length]

theorem canonicalOwnerIdentity_payToScriptHash {hash : List UInt8} (length : hash.length = 32) :
    canonicalOwnerIdentity ⟨opBlake2b :: opData32 :: (hash ++ [opEqual]), version⟩ =
      some (ownerAuthSchemeScriptHash, hash) := by
  rw [canonicalOwnerIdentity, if_neg (not_not.mpr zero)]
  dsimp only
  rw [if_neg (by simp [isPayToPubKey, length]), if_neg (by simp [isPayToPubKeyECDSA, opBlake2b, opData33]),
    if_pos ((isPayToScriptHash_iff _).mpr ⟨hash, length, rfl⟩)]
  simp [slice, List.take_left' length]

end Scripts

section Hash

variable (blake2b256 : List UInt8 → DomainHash)

theorem addressVersion : addressScriptPublicKeyVersion = maxScriptPublicKeyVersion := rfl

theorem ownerID_isSome (authScheme : UInt8) {canonicalBytes : List UInt8}
    (short : canonicalBytes.length ≤ 0xffff) :
    ∃ owner, ownerID blake2b256 authScheme canonicalBytes = some owner :=
  ⟨_, by rw [ownerID, if_neg (by omega)]⟩

/-- The script `PayToAddrScript` builds for an address has an owner, the one
the address's version byte and payload name. -/
theorem ownerIDFromScript_payToAddrScript (address : Address) :
    ∃ script version owner, payToAddrScript address = .ok (script, version) ∧
      ownerIDFromScript blake2b256 ⟨script, version⟩ = some owner ∧
      ownerIDFromAddressComponents blake2b256 address.version address.scriptAddress = some owner := by
  cases address with
  | publicKey bech32Prefix key =>
    have length : key.toList.length = 32 := by simp
    obtain ⟨owner, found⟩ := ownerID_isSome blake2b256 ownerAuthSchemePubKey (by omega : key.toList.length ≤ 0xffff)
    refine ⟨_, _, owner, payToAddrScript_publicKey bech32Prefix key, ?_, ?_⟩
    · rw [ownerIDFromScript, canonicalOwnerIdentity_payToPubKey addressVersion length]
      exact found
    · rw [Address.version, Address.scriptAddress, ownerIDFromAddressComponents, if_pos ⟨rfl, length⟩]
      exact found
  | publicKeyECDSA bech32Prefix key =>
    have length : key.toList.length = 33 := by simp
    obtain ⟨owner, found⟩ :=
      ownerID_isSome blake2b256 ownerAuthSchemePubKeyECDSA (by omega : key.toList.length ≤ 0xffff)
    refine ⟨_, _, owner, payToAddrScript_publicKeyECDSA bech32Prefix key, ?_, ?_⟩
    · rw [ownerIDFromScript, canonicalOwnerIdentity_payToPubKeyECDSA addressVersion length]
      exact found
    · rw [Address.version, Address.scriptAddress, ownerIDFromAddressComponents,
        if_neg (by rintro ⟨version, -⟩; exact absurd version (by decide)), if_pos ⟨rfl, length⟩]
      exact found
  | scriptHash bech32Prefix hash =>
    have length : hash.toList.length = 32 := by simp
    obtain ⟨owner, found⟩ :=
      ownerID_isSome blake2b256 ownerAuthSchemeScriptHash (by omega : hash.toList.length ≤ 0xffff)
    refine ⟨_, _, owner, payToAddrScript_scriptHash bech32Prefix hash, ?_, ?_⟩
    · rw [ownerIDFromScript, canonicalOwnerIdentity_payToScriptHash addressVersion length]
      exact found
    · rw [Address.version, Address.scriptAddress, ownerIDFromAddressComponents,
        if_neg (by rintro ⟨version, -⟩; exact absurd version (by decide)),
        if_neg (by rintro ⟨version, -⟩; exact absurd version (by decide)), if_pos ⟨rfl, length⟩]
      exact found

theorem ownerID_address_script :
    (∀ address : Address, ∃ script version owner, payToAddrScript address = .ok (script, version) ∧
      ownerIDFromScript blake2b256 ⟨script, version⟩ = some owner ∧
      ownerIDFromAddressComponents blake2b256 address.version address.scriptAddress = some owner) ∧
    ∀ scriptPublicKey : ScriptPublicKey,
      (canonicalOwnerIdentity scriptPublicKey).isSome ↔
        scriptPublicKey.version = 0 ∧
          (getScriptClass scriptPublicKey.script = pubKeyTy ∨
            getScriptClass scriptPublicKey.script = pubKeyECDSATy ∨
            getScriptClass scriptPublicKey.script = scriptHashTy) :=
  ⟨ownerIDFromScript_payToAddrScript blake2b256, canonicalOwnerIdentity_isSome_iff⟩

end Hash

end Cryptixd.Atomic
