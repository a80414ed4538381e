import Mathlib
import Cryptixd.Txscript.Script
import Cryptixd.Txscript.ScriptNum
import Cryptixd.Lib.LittleEndian

/-!
# Payment scripts of addresses

`txscript/scriptbuilder.go` and `txscript/standard.go`: `PayToAddrScript`
builds the script an output pays an address with, through a `ScriptBuilder`
that pushes data in its canonical form and refuses scripts past
`MaxScriptSize`.  The three address types of `util/address.go` carry a
payload of fixed size (a 32-byte Schnorr key, a 33-byte ECDSA key, a 32-byte
script hash), which the vectors of `Address` hold.

`payToAddrScript_publicKey` and its two siblings give the script of each
address type: the payload pushed by `OP_DATA_32` or `OP_DATA_33` between the
fixed opcodes, at script version 0.
-/

set_option autoImplicit false

namespace Cryptixd.Txscript

def op0 : UInt8 := 0x00
def opData1 : UInt8 := 0x01
def op1Negate : UInt8 := 0x4f
def op1 : UInt8 := 0x51
def op16 : UInt8 := 0x60

def maxScriptSize : Nat := 10000

def maxScriptElementSize : Nat := 520

/-- `ScriptBuilder`: the script so far and the first error. -/
structure ScriptBuilder where
  script : List UInt8
  err : Option String

def newScriptBuilder : ScriptBuilder := ⟨[], none⟩

def canonicalDataSize (data : List UInt8) : Nat :=
  let dataLen := data.length
  if dataLen = 0 then 1
  else if dataLen = 1 ∧ data.headD 0 ≤ 16 then 1
  else if dataLen = 1 ∧ data.headD 0 = 0x81 then 1
  else if dataLen < opPushData1.toNat then 1 + dataLen
  else if dataLen ≤ 0xff then 2 + dataLen
  else if dataLen ≤ 0xffff then 3 + dataLen
  else 5 + dataLen

namespace ScriptBuilder

def addOp (b : ScriptBuilder) (opcode : UInt8) : ScriptBuilder :=
  if b.err.isSome then b
  else if b.script.length + 1 > maxScriptSize then
    { b with err := some ("adding an opcode would exceed the maximum allowed canonical script length of " ++
      toString maxScriptSize) }
  else { b with script := b.script ++ [opcode] }

/-- `addData`, the push without the size checks: small numbers as their
opcodes, other data after an `OP_DATA_n` or `OP_PUSHDATA` header. -/
def addDataUnchecked (b : ScriptBuilder) (data : List UInt8) : ScriptBuilder :=
  let dataLen := data.length
  if dataLen = 0 ∨ (dataLen = 1 ∧ data.headD 0 = 0) then { b with script := b.script ++ [op0] }
  else if dataLen = 1 ∧ data.headD 0 ≤ 16 then { b with script := b.script ++ [(op1 - 1) + data.headD 0] }
  else if dataLen = 1 ∧ data.headD 0 = 0x81 then { b with script := b.script ++ [op1Negate] }
  else
    let header :=
      if dataLen < opPushData1.toNat then [UInt8.ofNat ((opData1.toNat - 1) + dataLen)]
      else if dataLen ≤ 0xff then [opPushData1, UInt8.ofNat dataLen]
      else if dataLen ≤ 0xffff then opPushData2 :: LittleEndian.toListLE 2 dataLen
      else opPushData4 :: LittleEndian.toListLE 4 dataLen
    { b with script := b.script ++ header ++ data }

def addData (b : ScriptBuilder) (data : List UInt8) : ScriptBuilder :=
  if b.err.isSome then b
  else
    let dataSize := canonicalDataSize data
    if b.script.length + dataSize > maxScriptSize then
      { b with err := some ("adding " ++ toString dataSize ++
        " bytes of data would exceed the maximum allowed canonical script length of " ++
        toString maxScriptSize) }
    else if data.length > maxScriptElementSize then
      { b with err := some ("adding a data element of " ++ toString data.length ++
        " bytes would exceed the maximum allowed script element size of " ++
        toString maxScriptElementSize) }
    else b.addDataUnchecked data

/-- `AddInt64`: the small integers as their opcodes, anything else as the data
`scriptNum(val).Bytes()`, which panics on the least `int64`. -/
def addInt64 (b : ScriptBuilder) (val : Int64) : Except String ScriptBuilder :=
  if b.err.isSome then .ok b
  else if b.script.length + 1 > maxScriptSize then
    .ok { b with err := some ("adding an integer would exceed the maximum allow canonical script length of " ++
      toString maxScriptSize) }
  else if val = 0 then .ok { b with script := b.script ++ [op0] }
  else if val = -1 ∨ (1 ≤ val ∧ val ≤ 16) then .ok { b with script := b.script ++ [(op1 - 1) + val.toUInt64.toUInt8] }
  else (b.addData ·) <$> ScriptNum.bytes val

/-- `Script`: the script, or the first error. -/
def toScript (b : ScriptBuilder) : Except String (List UInt8) :=
  match b.err with
  | some err => .error err
  | none => .ok b.script

end ScriptBuilder

def payToPubKeyScript (pubKey : List UInt8) : Except String (List UInt8) :=
  ((newScriptBuilder.addData pubKey).addOp opCheckSig).toScript

def payToPubKeyScriptECDSA (pubKey : List UInt8) : Except String (List UInt8) :=
  ((newScriptBuilder.addData pubKey).addOp opCheckSigECDSA).toScript

def payToScriptHashScript (scriptHash : List UInt8) : Except String (List UInt8) :=
  (((newScriptBuilder.addOp opBlake2b).addData scriptHash).addOp opEqual).toScript

/-! ## Addresses -/

/-- `util.Bech32Prefix`, a Go `int`. -/
abbrev Bech32Prefix := Int

/-- The address types of `util/address.go`, with their prefix and payload. -/
inductive Address where
  | publicKey (bech32Prefix : Bech32Prefix) (publicKey : Vector UInt8 32)
  | publicKeyECDSA (bech32Prefix : Bech32Prefix) (publicKey : Vector UInt8 33)
  | scriptHash (bech32Prefix : Bech32Prefix) (hash : Vector UInt8 32)

def pubKeyAddrID : UInt8 := 0x00
def pubKeyECDSAAddrID : UInt8 := 0x01
def scriptHashAddrID : UInt8 := 0x08

def Address.scriptAddress : Address → List UInt8
  | .publicKey _ key => key.toList
  | .publicKeyECDSA _ key => key.toList
  | .scriptHash _ hash => hash.toList

def Address.version : Address → UInt8
  | .publicKey _ _ => pubKeyAddrID
  | .publicKeyECDSA _ _ => pubKeyECDSAAddrID
  | .scriptHash _ _ => scriptHashAddrID

/-- `addressPublicKeyScriptPublicKeyVersion` and the two others, all 0. -/
def addressScriptPublicKeyVersion : UInt16 := 0

def payToAddrScript (address : Address) : Except String (List UInt8 × UInt16) :=
  match address with
  | .publicKey _ key => do
    let script ← payToPubKeyScript key.toList
    return (script, addressScriptPublicKeyVersion)
  | .publicKeyECDSA _ key => do
    let script ← payToPubKeyScriptECDSA key.toList
    return (script, addressScriptPublicKeyVersion)
  | .scriptHash _ hash => do
    let script ← payToScriptHashScript hash.toList
    return (script, addressScriptPublicKeyVersion)

/-! ## The scripts built -/

namespace ScriptBuilder

theorem addOp_clean (script : List UInt8) (opcode : UInt8) (room : script.length + 1 ≤ maxScriptSize) :
    (⟨script, none⟩ : ScriptBuilder).addOp opcode = ⟨script ++ [opcode], none⟩ := by
  rw [addOp, if_neg (by simp), if_neg (by simpa using room)]

theorem addData_clean (script data : List UInt8) (long : 2 ≤ data.length)
    (short : data.length < opPushData1.toNat) (room : script.length + 1 + data.length ≤ maxScriptSize) :
    (⟨script, none⟩ : ScriptBuilder).addData data = ⟨script ++ UInt8.ofNat data.length :: data, none⟩ := by
  have pushLimit : opPushData1.toNat = 76 := rfl
  have size : canonicalDataSize data = 1 + data.length := by
    rw [canonicalDataSize, if_neg (by omega), if_neg (by rintro ⟨one, -⟩; omega),
      if_neg (by rintro ⟨one, -⟩; omega), if_pos short]
  have element : ¬data.length > maxScriptElementSize := by
    simp only [maxScriptElementSize]
    omega
  unfold addData
  rw [if_neg (by simp)]
  simp only [size]
  rw [if_neg (by omega), if_neg element]
  unfold addDataUnchecked
  rw [if_neg (by rintro (zero | ⟨one, -⟩) <;> omega), if_neg (by rintro ⟨one, -⟩; omega),
    if_neg (by rintro ⟨one, -⟩; omega)]
  simp [short, opData1]

end ScriptBuilder

theorem payToPubKeyScript_eq {pubKey : List UInt8} (length : pubKey.length = 32) :
    payToPubKeyScript pubKey = .ok (opData32 :: (pubKey ++ [opCheckSig])) := by
  rw [payToPubKeyScript, newScriptBuilder, ScriptBuilder.addData_clean, ScriptBuilder.addOp_clean]
  · simp [ScriptBuilder.toScript, length, opData32]
  all_goals simp [length, opPushData1, maxScriptSize]

theorem payToPubKeyScriptECDSA_eq {pubKey : List UInt8} (length : pubKey.length = 33) :
    payToPubKeyScriptECDSA pubKey = .ok (opData33 :: (pubKey ++ [opCheckSigECDSA])) := by
  rw [payToPubKeyScriptECDSA, newScriptBuilder, ScriptBuilder.addData_clean, ScriptBuilder.addOp_clean]
  · simp [ScriptBuilder.toScript, length, opData33]
  all_goals simp [length, opPushData1, maxScriptSize]

theorem payToScriptHashScript_eq {scriptHash : List UInt8} (length : scriptHash.length = 32) :
    payToScriptHashScript scriptHash = .ok (opBlake2b :: opData32 :: (scriptHash ++ [opEqual])) := by
  rw [payToScriptHashScript, newScriptBuilder, ScriptBuilder.addOp_clean, ScriptBuilder.addData_clean,
    ScriptBuilder.addOp_clean]
  · simp [ScriptBuilder.toScript, length, opData32]
  all_goals simp [length, opPushData1, maxScriptSize]

theorem payToAddrScript_publicKey (bech32Prefix : Bech32Prefix) (key : Vector UInt8 32) :
    payToAddrScript (.publicKey bech32Prefix key) =
      .ok (opData32 :: (key.toList ++ [opCheckSig]), addressScriptPublicKeyVersion) := by
  rw [payToAddrScript, payToPubKeyScript_eq (by simp)]
  rfl

theorem payToAddrScript_publicKeyECDSA (bech32Prefix : Bech32Prefix) (key : Vector UInt8 33) :
    payToAddrScript (.publicKeyECDSA bech32Prefix key) =
      .ok (opData33 :: (key.toList ++ [opCheckSigECDSA]), addressScriptPublicKeyVersion) := by
  rw [payToAddrScript, payToPubKeyScriptECDSA_eq (by simp)]
  rfl

theorem payToAddrScript_scriptHash (bech32Prefix : Bech32Prefix) (hash : Vector UInt8 32) :
    payToAddrScript (.scriptHash bech32Prefix hash) =
      .ok (opBlake2b :: opData32 :: (hash.toList ++ [opEqual]), addressScriptPublicKeyVersion) := by
  rw [payToAddrScript, payToScriptHashScript_eq (by simp)]
  rfl

end Cryptixd.Txscript
