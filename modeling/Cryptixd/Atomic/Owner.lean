import Mathlib
import Cryptixd.Atomic.Types
import Cryptixd.Txscript.Script

/-!
# Owner identities and reserved scripts

An owner of atomic tokens is the hash of an authorisation scheme and the
canonical bytes of a standard script (`OwnerIDFromScript`, `payload.go`): the
32-byte key of a pay-to-pubkey script, the 33-byte key of its ECDSA form, or
the 32-byte hash of a pay-to-script-hash script, all at script version 0.
The hash is BLAKE2b-256 from `golang.org/x/crypto`, outside the repository,
so every definition that derives owners takes it as the parameter
`blake2b256`.  `scriptClass` extends `GetScriptClass` with the reserved
liquidity vault script `OP_DATA_4 "CLV1" OP_DROP OP_TRUE`, class 4.
-/

set_option autoImplicit false

namespace Cryptixd.Atomic

open Cryptixd.Txscript

def catOwnerDomain : List UInt8 := "CAT_OWNER_V2".toUTF8.toList

def ownerAuthSchemePubKey : UInt8 := 0
def ownerAuthSchemePubKeyECDSA : UInt8 := 1
def ownerAuthSchemeScriptHash : UInt8 := 2

def maxScriptPublicKeyVersion : UInt16 := 0

def liquidityVaultTy : ScriptClass := 4

def putUint16LE (value : UInt16) : List UInt8 := [value.toUInt8, (value >>> 8).toUInt8]

def isPayToPubKey (script : List UInt8) : Bool :=
  script.length == 34 && script[0]? == some opData32 && script[33]? == some opCheckSig

def isPayToPubKeyECDSA (script : List UInt8) : Bool :=
  script.length == 35 && script[0]? == some opData33 && script[34]? == some opCheckSigECDSA

def isPayToScriptHash (script : List UInt8) : Bool :=
  script.length == 35 && script[0]? == some opBlake2b && script[1]? == some opData32 &&
    script[34]? == some opEqual

def isLiquidityVault (script : List UInt8) : Bool :=
  script == [opData4, 'C'.toUInt8, 'L'.toUInt8, 'V'.toUInt8, '1'.toUInt8, opDrop, opTrue]

def slice (script : List UInt8) (start stop : Nat) : List UInt8 :=
  (script.drop start).take (stop - start)

def canonicalOwnerIdentity (scriptPublicKey : ScriptPublicKey) : Option (UInt8 × List UInt8) :=
  if scriptPublicKey.version ≠ maxScriptPublicKeyVersion then none
  else
    let script := scriptPublicKey.script
    if isPayToPubKey script then some (ownerAuthSchemePubKey, slice script 1 33)
    else if isPayToPubKeyECDSA script then some (ownerAuthSchemePubKeyECDSA, slice script 1 34)
    else if isPayToScriptHash script then some (ownerAuthSchemeScriptHash, slice script 2 34)
    else none

section Hash
variable (blake2b256 : List UInt8 → DomainHash)

/-- `ownerID`: the domain-separated hash of a scheme byte and its bytes. -/
def ownerID (authScheme : UInt8) (canonicalBytes : List UInt8) : Option DomainHash :=
  if canonicalBytes.length > 0xffff then none
  else some (blake2b256 (catOwnerDomain ++ [authScheme] ++
    putUint16LE canonicalBytes.length.toUInt16 ++ canonicalBytes))

def ownerIDFromScript (scriptPublicKey : ScriptPublicKey) : Option DomainHash :=
  match canonicalOwnerIdentity scriptPublicKey with
  | none => none
  | some (authScheme, canonicalBytes) => ownerID blake2b256 authScheme canonicalBytes

def ownerIDFromAddressComponents (addressVersion : UInt8) (addressPayload : List UInt8) :
    Option DomainHash :=
  if addressVersion = 0 ∧ addressPayload.length = 32 then
    ownerID blake2b256 ownerAuthSchemePubKey addressPayload
  else if addressVersion = 1 ∧ addressPayload.length = 33 then
    ownerID blake2b256 ownerAuthSchemePubKeyECDSA addressPayload
  else if addressVersion = 8 ∧ addressPayload.length = 32 then
    ownerID blake2b256 ownerAuthSchemeScriptHash addressPayload
  else none

end Hash

/-- `scriptClass`: the reserved vault form first, then `GetScriptClass`. -/
def scriptClass (scriptPublicKey : ScriptPublicKey) : ScriptClass :=
  if scriptPublicKey.version ≠ maxScriptPublicKeyVersion then nonStandardTy
  else if isLiquidityVault scriptPublicKey.script then liquidityVaultTy
  else getScriptClass scriptPublicKey.script

end Cryptixd.Atomic

