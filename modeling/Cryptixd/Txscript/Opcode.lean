import Mathlib
import Cryptixd.Txscript.Stack
import Cryptixd.Txscript.Push
import Cryptixd.Lib.LittleEndian

/-!
# The opcodes

The handlers of `txscript/opcode.go` for every opcode but the four
conditionals.  Each reads and writes only the data stack, the alt stack and the
count of operations, which `Stacks` gathers, so that what they leave of the
rest of the engine is fixed by their type; the conditionals, which read and
write the condition stack, are in `Txscript.Engine`.

The cryptography is taken as given: `Env` carries the two hash functions, and
for each signature scheme the signature hash of the spent input for a hash
type, whether a signature and a public key deserialize, and whether a signature
verifies.  `CalculateSignatureHash` fails only on a hash type that the opcodes
have already refused, so the signature hash is a function.  The signature
caches are left out: a cached triple is one that verified.

The handlers that differ only in what they compute of their operands are one
definition each (`unaryNumeric`, `binaryNumeric`, `checkSigWith`,
`checkMultiSigWith`), applied to each opcode's own function, error code, key
length and scheme.
-/

set_option autoImplicit false

namespace Cryptixd.Txscript

def opReserved : UInt8 := 0x50
def opNop : UInt8 := 0x61
def opVer : UInt8 := 0x62
def opIf : UInt8 := 0x63
def opNotIf : UInt8 := 0x64
def opVerIf : UInt8 := 0x65
def opVerNotIf : UInt8 := 0x66
def opElse : UInt8 := 0x67
def opEndIf : UInt8 := 0x68
def opVerify : UInt8 := 0x69
def opReturn : UInt8 := 0x6a
def opToAltStack : UInt8 := 0x6b
def opFromAltStack : UInt8 := 0x6c
def op2Drop : UInt8 := 0x6d
def op2Dup : UInt8 := 0x6e
def op3Dup : UInt8 := 0x6f
def op2Over : UInt8 := 0x70
def op2Rot : UInt8 := 0x71
def op2Swap : UInt8 := 0x72
def opIfDup : UInt8 := 0x73
def opDepth : UInt8 := 0x74
def opDup : UInt8 := 0x76
def opNip : UInt8 := 0x77
def opOver : UInt8 := 0x78
def opPick : UInt8 := 0x79
def opRoll : UInt8 := 0x7a
def opRot : UInt8 := 0x7b
def opSwap : UInt8 := 0x7c
def opTuck : UInt8 := 0x7d
def opCat : UInt8 := 0x7e
def opSubStr : UInt8 := 0x7f
def opLeft : UInt8 := 0x80
def opRight : UInt8 := 0x81
def opSize : UInt8 := 0x82
def opInvert : UInt8 := 0x83
def opAnd : UInt8 := 0x84
def opOr : UInt8 := 0x85
def opXor : UInt8 := 0x86
def opEqualVerify : UInt8 := 0x88
def opReserved1 : UInt8 := 0x89
def opReserved2 : UInt8 := 0x8a
def op1Add : UInt8 := 0x8b
def op1Sub : UInt8 := 0x8c
def op2Mul : UInt8 := 0x8d
def op2Div : UInt8 := 0x8e
def opNegate : UInt8 := 0x8f
def opAbs : UInt8 := 0x90
def opNot : UInt8 := 0x91
def op0NotEqual : UInt8 := 0x92
def opAdd : UInt8 := 0x93
def opSub : UInt8 := 0x94
def opMul : UInt8 := 0x95
def opDiv : UInt8 := 0x96
def opMod : UInt8 := 0x97
def opLShift : UInt8 := 0x98
def opRShift : UInt8 := 0x99
def opBoolAnd : UInt8 := 0x9a
def opBoolOr : UInt8 := 0x9b
def opNumEqual : UInt8 := 0x9c
def opNumEqualVerify : UInt8 := 0x9d
def opNumNotEqual : UInt8 := 0x9e
def opLessThan : UInt8 := 0x9f
def opGreaterThan : UInt8 := 0xa0
def opLessThanOrEqual : UInt8 := 0xa1
def opGreaterThanOrEqual : UInt8 := 0xa2
def opMin : UInt8 := 0xa3
def opMax : UInt8 := 0xa4
def opWithin : UInt8 := 0xa5
def opSHA256 : UInt8 := 0xa8
def opCheckMultiSigECDSA : UInt8 := 0xa9
def opCheckSigVerify : UInt8 := 0xad
def opCheckMultiSig : UInt8 := 0xae
def opCheckMultiSigVerify : UInt8 := 0xaf
def opCheckLockTimeVerify : UInt8 := 0xb0
def opCheckSequenceVerify : UInt8 := 0xb1

def maxOpsPerScript : Nat := 201
def maxPubKeysPerMultiSig : Int := 20

def maxInt32 : Int := 2147483647
def minInt32 : Int := -2147483648

def lockTimeThreshold : Nat := 500000000000
def maxTxInSequenceNum : UInt64 := 0xffffffffffffffff
def sequenceLockTimeDisabled : UInt64 := 0x8000000000000000
def sequenceLockTimeMask : UInt64 := 0x00000000ffffffff

/-- `SigHashType.IsStandardSigHashType`: `SigHashAll`, `SigHashNone` or
`SigHashSingle`, with or without `SigHashAnyOneCanPay`. -/
def isStandardSigHashType (hashType : UInt8) : Bool :=
  hashType == 0x01 || hashType == 0x02 || hashType == 0x04 ||
    hashType == 0x81 || hashType == 0x82 || hashType == 0x84

/-- `scriptNum.Int32`: the number, clamped to the range of an `int32`. -/
def ScriptNum.int32 (n : ScriptNum) : Int :=
  if n.toInt > maxInt32 then maxInt32 else if n.toInt < minInt32 then minInt32 else n.toInt

/-- One signature scheme as the signature opcodes see it. -/
structure SigScheme where
  sigHash : UInt8 → List UInt8
  signatureParses : List UInt8 → Bool
  pubKeyParses : List UInt8 → Bool
  verify : (hash signature pubKey : List UInt8) → Bool

/-- What the opcodes read besides the stacks: the hash functions, the Schnorr
and ECDSA schemes, the transaction's lock time and the sequence of the input
being spent. -/
structure Env where
  sha256 : List UInt8 → Vector UInt8 32
  blake2b : List UInt8 → Vector UInt8 32
  schnorr : SigScheme
  ecdsa : SigScheme
  lockTime : UInt64
  sequence : UInt64

/-- The part of the engine the non-conditional opcodes read and write. -/
structure Stacks where
  dstack : List (List UInt8)
  astack : List (List UInt8)
  numOps : Nat
  deriving DecidableEq, Repr

namespace Stacks

def onData (f : List (List UInt8) → Except EngineError (List (List UInt8))) (s : Stacks) :
    Except EngineError Stacks := do
  let dstack ← f s.dstack
  return { s with dstack }

end Stacks

/-! ## Pushes and control -/

def opcodeFalse (s : Stacks) : Except EngineError Stacks := .ok { s with dstack := [] :: s.dstack }

def opcodePushData (pop : ParsedOpcode) (s : Stacks) : Except EngineError Stacks :=
  .ok { s with dstack := pop.data :: s.dstack }

def opcode1Negate : Stacks → Except EngineError Stacks := Stacks.onData (pushInt (-1))

/-- `opcodeN`: `OP_1` to `OP_16` push the number they stand for. -/
def opcodeN (pop : ParsedOpcode) : Stacks → Except EngineError Stacks :=
  Stacks.onData (pushInt (Int64.ofNat (pop.opcode - (op1 - 1)).toNat))

def opcodeNop (s : Stacks) : Except EngineError Stacks := .ok s

/-- `opcodeReserved` and `opcodeInvalid`. -/
def opcodeReserved (_ : Stacks) : Except EngineError Stacks := .error (.code .errReservedOpcode)

def opcodeDisabled (_ : Stacks) : Except EngineError Stacks := .error (.code .errDisabledOpcode)

def opcodeReturn (_ : Stacks) : Except EngineError Stacks := .error (.code .errEarlyReturn)

/-- `abstractVerify`: the top item, popped, must be true; the code names the opcode. -/
def abstractVerify (c : ErrorCode) (s : Stacks) : Except EngineError Stacks := do
  let (verified, dstack) ← popBool s.dstack
  if !verified then throw (.code c)
  return { s with dstack }

def opcodeVerify : Stacks → Except EngineError Stacks := abstractVerify .errVerify

def verifyLockTime (txLockTime lockTime : Nat) : Except EngineError Unit :=
  if lockTime > txLockTime then .error (.code .errUnsatisfiedLockTime) else .ok ()

def verifyLockTimeThreshold (txLockTime threshold lockTime : Nat) : Except EngineError Unit :=
  if ¬((txLockTime < threshold ∧ lockTime < threshold) ∨ (txLockTime ≥ threshold ∧ lockTime ≥ threshold))
  then .error (.code .errUnsatisfiedLockTime) else .ok ()

def verifyLockTimeWithThreshold (txLockTime threshold lockTime : Nat) : Except EngineError Unit := do
  verifyLockTimeThreshold txLockTime threshold lockTime
  verifyLockTime txLockTime lockTime

/-- The eight little-endian bytes of a lock time or sequence operand, which is
padded with zeros when shorter. -/
def paddedUint64 (bytes : List UInt8) : UInt64 :=
  UInt64.ofNat (LittleEndian.ofListLE (bytes ++ List.replicate (8 - bytes.length) 0))

def opcodeCheckLockTimeVerify (env : Env) (s : Stacks) : Except EngineError Stacks := do
  let (lockTimeBytes, dstack) ← popByteArray s.dstack
  if lockTimeBytes.length > 8 then throw (.code .errNumberTooBig)
  let stackLockTime := paddedUint64 lockTimeBytes
  verifyLockTimeWithThreshold env.lockTime.toNat lockTimeThreshold stackLockTime.toNat
  if env.sequence = maxTxInSequenceNum then throw (.code .errUnsatisfiedLockTime)
  return { s with dstack }

def opcodeCheckSequenceVerify (env : Env) (s : Stacks) : Except EngineError Stacks := do
  let (sequenceBytes, dstack) ← popByteArray s.dstack
  if sequenceBytes.length > 8 then throw (.code .errNumberTooBig)
  let stackSequence := paddedUint64 sequenceBytes
  if stackSequence &&& sequenceLockTimeDisabled ≠ 0 then return { s with dstack }
  let txSequence := env.sequence
  if txSequence &&& sequenceLockTimeDisabled ≠ 0 then throw (.code .errUnsatisfiedLockTime)
  let maskedTxSequence := txSequence &&& sequenceLockTimeMask
  let maskedStackSequence := stackSequence &&& sequenceLockTimeMask
  verifyLockTime maskedTxSequence.toNat maskedStackSequence.toNat
  return { s with dstack }

/-! ## Stack opcodes -/

def opcodeToAltStack (s : Stacks) : Except EngineError Stacks := do
  let (so, dstack) ← popByteArray s.dstack
  return { s with dstack, astack := so :: s.astack }

def opcodeFromAltStack (s : Stacks) : Except EngineError Stacks := do
  let (so, astack) ← popByteArray s.astack
  return { s with dstack := so :: s.dstack, astack }

def opcode2Drop : Stacks → Except EngineError Stacks := Stacks.onData (dropN 2)
def opcode2Dup : Stacks → Except EngineError Stacks := Stacks.onData (dupN 2)
def opcode3Dup : Stacks → Except EngineError Stacks := Stacks.onData (dupN 3)
def opcode2Over : Stacks → Except EngineError Stacks := Stacks.onData (overN 2)
def opcode2Rot : Stacks → Except EngineError Stacks := Stacks.onData (rotN 2)
def opcode2Swap : Stacks → Except EngineError Stacks := Stacks.onData (swapN 2)

def opcodeIfDup (s : Stacks) : Except EngineError Stacks := do
  let so ← peekByteArray 0 s.dstack
  return { s with dstack := if asBool so then so :: s.dstack else s.dstack }

/-- `opcodeDepth`: `Depth` is the length as an `int32`. -/
def opcodeDepth : Stacks → Except EngineError Stacks :=
  fun s => Stacks.onData (pushInt (Int32.ofNat s.dstack.length).toInt64) s

def opcodeDrop : Stacks → Except EngineError Stacks := Stacks.onData (dropN 1)
def opcodeDup : Stacks → Except EngineError Stacks := Stacks.onData (dupN 1)

def opcodeNip : Stacks → Except EngineError Stacks :=
  Stacks.onData fun stk => do
    let (_, stk) ← nipN 1 stk
    return stk

def opcodeOver : Stacks → Except EngineError Stacks := Stacks.onData (overN 1)

def opcodePick : Stacks → Except EngineError Stacks :=
  Stacks.onData fun stk => do
    let (val, stk) ← popInt stk
    pickN val.int32 stk

def opcodeRoll : Stacks → Except EngineError Stacks :=
  Stacks.onData fun stk => do
    let (val, stk) ← popInt stk
    rollN val.int32 stk

def opcodeRot : Stacks → Except EngineError Stacks := Stacks.onData (rotN 1)
def opcodeSwap : Stacks → Except EngineError Stacks := Stacks.onData (swapN 1)
def opcodeTuck : Stacks → Except EngineError Stacks := Stacks.onData tuck

def opcodeSize (s : Stacks) : Except EngineError Stacks := do
  let so ← peekByteArray 0 s.dstack
  Stacks.onData (pushInt (Int64.ofNat so.length)) s

def opcodeEqual (s : Stacks) : Except EngineError Stacks := do
  let (a, dstack) ← popByteArray s.dstack
  let (b, dstack) ← popByteArray dstack
  return { s with dstack := pushBool (a == b) dstack }

def opcodeEqualVerify (s : Stacks) : Except EngineError Stacks :=
  opcodeEqual s >>= abstractVerify .errEqualVerify

/-! ## Numeric opcodes -/

/-- The numeric opcodes of one operand: the top item as a number, replaced by
`f` of it. -/
def unaryNumeric (f : ScriptNum → ScriptNum) : Stacks → Except EngineError Stacks :=
  Stacks.onData fun stk => do
    let (m, stk) ← popInt stk
    pushInt (f m) stk

/-- The numeric opcodes of two operands: `f v0 v1` of the top item `v0` and the
one below it `v1`, in their place. -/
def binaryNumeric (f : ScriptNum → ScriptNum → ScriptNum) : Stacks → Except EngineError Stacks :=
  Stacks.onData fun stk => do
    let (v0, stk) ← popInt stk
    let (v1, stk) ← popInt stk
    pushInt (f v0 v1) stk

def opcode1Add : Stacks → Except EngineError Stacks := unaryNumeric fun m => m + 1
def opcode1Sub : Stacks → Except EngineError Stacks := unaryNumeric fun m => m - 1
def opcodeNegate : Stacks → Except EngineError Stacks := unaryNumeric fun m => -m
def opcodeAbs : Stacks → Except EngineError Stacks := unaryNumeric fun m => if m < 0 then -m else m
def opcodeNot : Stacks → Except EngineError Stacks := unaryNumeric fun m => if m = 0 then 1 else 0
def opcode0NotEqual : Stacks → Except EngineError Stacks :=
  unaryNumeric fun m => if m ≠ 0 then 1 else m

def opcodeAdd : Stacks → Except EngineError Stacks := binaryNumeric fun v0 v1 => v0 + v1
def opcodeSub : Stacks → Except EngineError Stacks := binaryNumeric fun v0 v1 => v1 - v0
def opcodeBoolAnd : Stacks → Except EngineError Stacks :=
  binaryNumeric fun v0 v1 => if v0 ≠ 0 ∧ v1 ≠ 0 then 1 else 0
def opcodeBoolOr : Stacks → Except EngineError Stacks :=
  binaryNumeric fun v0 v1 => if v0 ≠ 0 ∨ v1 ≠ 0 then 1 else 0
def opcodeNumEqual : Stacks → Except EngineError Stacks :=
  binaryNumeric fun v0 v1 => if v0 = v1 then 1 else 0
def opcodeNumEqualVerify (s : Stacks) : Except EngineError Stacks :=
  opcodeNumEqual s >>= abstractVerify .errNumEqualVerify
def opcodeNumNotEqual : Stacks → Except EngineError Stacks :=
  binaryNumeric fun v0 v1 => if v0 ≠ v1 then 1 else 0
def opcodeLessThan : Stacks → Except EngineError Stacks :=
  binaryNumeric fun v0 v1 => if v1 < v0 then 1 else 0
def opcodeGreaterThan : Stacks → Except EngineError Stacks :=
  binaryNumeric fun v0 v1 => if v1 > v0 then 1 else 0
def opcodeLessThanOrEqual : Stacks → Except EngineError Stacks :=
  binaryNumeric fun v0 v1 => if v1 ≤ v0 then 1 else 0
def opcodeGreaterThanOrEqual : Stacks → Except EngineError Stacks :=
  binaryNumeric fun v0 v1 => if v1 ≥ v0 then 1 else 0
def opcodeMin : Stacks → Except EngineError Stacks := binaryNumeric fun v0 v1 => if v1 < v0 then v1 else v0
def opcodeMax : Stacks → Except EngineError Stacks := binaryNumeric fun v0 v1 => if v1 > v0 then v1 else v0

def opcodeWithin : Stacks → Except EngineError Stacks :=
  Stacks.onData fun stk => do
    let (maxVal, stk) ← popInt stk
    let (minVal, stk) ← popInt stk
    let (x, stk) ← popInt stk
    pushInt (if x ≥ minVal ∧ x < maxVal then 1 else 0) stk

/-! ## Crypto opcodes -/

def opcodeSha256 (env : Env) (s : Stacks) : Except EngineError Stacks := do
  let (buf, dstack) ← popByteArray s.dstack
  return { s with dstack := (env.sha256 buf).toList :: dstack }

def opcodeBlake2b (env : Env) (s : Stacks) : Except EngineError Stacks := do
  let (buf, dstack) ← popByteArray s.dstack
  return { s with dstack := (env.blake2b buf).toList :: dstack }

/-- `checkSignatureLength` and `checkSignatureLengthECDSA`. -/
def checkSignatureLength (sig : List UInt8) : Except EngineError Unit :=
  if sig.length ≠ 64 then .error (.code .errSigLength) else .ok ()

/-- `checkPubKeyEncoding` (32 bytes) and `checkPubKeyEncodingECDSA` (33). -/
def checkPubKeyEncoding (pubKeyLength : Nat) (pubKey : List UInt8) : Except EngineError Unit :=
  if pubKey.length = pubKeyLength then .ok () else .error (.code .errPubKeyFormat)

/-- `opcodeCheckSig` and `opcodeCheckSigECDSA`, for the scheme and the length
of its public keys. -/
def checkSigWith (pubKeyLength : Nat) (scheme : SigScheme) (s : Stacks) : Except EngineError Stacks := do
  let (pkBytes, dstack) ← popByteArray s.dstack
  let (fullSigBytes, dstack) ← popByteArray dstack
  if fullSigBytes.length < 1 then return { s with dstack := pushBool false dstack }
  let hashType := fullSigBytes.getLastD 0
  let sigBytes := fullSigBytes.dropLast
  if !isStandardSigHashType hashType then throw (.code .errInvalidSigHashType)
  checkSignatureLength sigBytes
  checkPubKeyEncoding pubKeyLength pkBytes
  if !scheme.pubKeyParses pkBytes then return { s with dstack := pushBool false dstack }
  if !scheme.signatureParses sigBytes then return { s with dstack := pushBool false dstack }
  let valid := scheme.verify (scheme.sigHash hashType) sigBytes pkBytes
  if !valid && sigBytes.length > 0 then throw (.code .errNullFail)
  return { s with dstack := pushBool valid dstack }

def opcodeCheckSig (env : Env) : Stacks → Except EngineError Stacks := checkSigWith 32 env.schnorr

def opcodeCheckSigECDSA (env : Env) : Stacks → Except EngineError Stacks := checkSigWith 33 env.ecdsa

def opcodeCheckSigVerify (env : Env) (s : Stacks) : Except EngineError Stacks :=
  opcodeCheckSig env s >>= abstractVerify .errCheckSigVerify

/-- `parsedSigInfo`: a signature of a multisig, whether it has been parsed, and
whether it parsed. -/
structure ParsedSigInfo where
  signature : List UInt8
  parsed : Bool
  parsedSignature : Bool

def popByteArrays : Nat → List (List UInt8) → Except EngineError (List (List UInt8) × List (List UInt8))
  | 0, stk => .ok ([], stk)
  | n + 1, stk => do
    let (so, stk) ← popByteArray stk
    let (rest, stk) ← popByteArrays n stk
    return (so :: rest, stk)

/-- The first use of a multisig signature: its hash type and length checked and
the signature parsed; later uses reuse the outcome. -/
def parseSigInfo (scheme : SigScheme) (sigInfo : ParsedSigInfo) : Except EngineError ParsedSigInfo :=
  if sigInfo.parsed then .ok sigInfo
  else do
    let hashType := sigInfo.signature.getLastD 0
    let signature := sigInfo.signature.dropLast
    if !isStandardSigHashType hashType then throw (.code .errInvalidSigHashType)
    checkSignatureLength signature
    return { sigInfo with parsed := true, parsedSignature := scheme.signatureParses signature }

/-- The loop of `opcodeCheckMultiSig` over the public keys from `pubKeyIdx` on
and the signatures from `signatureIdx` on: each key is tried against the
current signature, which moves on when it verifies; the loop fails as soon as
fewer keys than signatures are left. -/
def multiSigLoop (pubKeyLength : Nat) (scheme : SigScheme) :
    List (List UInt8) → List ParsedSigInfo → Except EngineError Bool
  | _, [] => .ok true
  | [], _ :: _ => .ok false
  | pubKey :: pubKeys, sigInfo :: sigs =>
    if sigs.length + 1 > pubKeys.length + 1 then .ok false
    else if sigInfo.signature.length = 0 then multiSigLoop pubKeyLength scheme pubKeys (sigInfo :: sigs)
    else
      match parseSigInfo scheme sigInfo with
      | .error e => .error e
      | .ok sigInfo =>
        if !sigInfo.parsedSignature then multiSigLoop pubKeyLength scheme pubKeys (sigInfo :: sigs)
        else if pubKey.length ≠ pubKeyLength then .error (.code .errPubKeyFormat)
        else if !scheme.pubKeyParses pubKey then multiSigLoop pubKeyLength scheme pubKeys (sigInfo :: sigs)
        else if scheme.verify (scheme.sigHash (sigInfo.signature.getLastD 0)) sigInfo.signature.dropLast
            pubKey then
          multiSigLoop pubKeyLength scheme pubKeys sigs
        else multiSigLoop pubKeyLength scheme pubKeys (sigInfo :: sigs)

/-- `opcodeCheckMultiSig` and `opcodeCheckMultiSigECDSA`, for the scheme and
the length of its public keys. -/
def checkMultiSigWith (pubKeyLength : Nat) (scheme : SigScheme) (s : Stacks) :
    Except EngineError Stacks := do
  let (numKeys, dstack) ← popInt s.dstack
  let numPubKeys := numKeys.int32
  if numPubKeys < 0 then throw (.code .errInvalidPubKeyCount)
  if numPubKeys > maxPubKeysPerMultiSig then throw (.code .errInvalidPubKeyCount)
  let numOps := s.numOps + numPubKeys.toNat
  if numOps > maxOpsPerScript then throw (.code .errTooManyOperations)
  let (pubKeys, dstack) ← popByteArrays numPubKeys.toNat dstack
  let (numSigs, dstack) ← popInt dstack
  let numSignatures := numSigs.int32
  if numSignatures < 0 then throw (.code .errInvalidSignatureCount)
  if numSignatures > numPubKeys then throw (.code .errInvalidSignatureCount)
  let (signatures, dstack) ← popByteArrays numSignatures.toNat dstack
  let success ← multiSigLoop pubKeyLength scheme pubKeys
    (signatures.map fun signature => ⟨signature, false, false⟩)
  if !success ∧ signatures.any (·.length > 0) then throw (.code .errNullFail)
  return { s with dstack := pushBool success dstack, numOps }

def opcodeCheckMultiSig (env : Env) : Stacks → Except EngineError Stacks :=
  checkMultiSigWith 32 env.schnorr

def opcodeCheckMultiSigECDSA (env : Env) : Stacks → Except EngineError Stacks :=
  checkMultiSigWith 33 env.ecdsa

def opcodeCheckMultiSigVerify (env : Env) (s : Stacks) : Except EngineError Stacks :=
  opcodeCheckMultiSig env s >>= abstractVerify .errCheckMultiSigVerify

/-! ## The table -/

/-- `opcodeArray[value].opfunc` for every opcode but `OP_IF`, `OP_NOTIF`,
`OP_ELSE` and `OP_ENDIF`. -/
def opcodeFunction (env : Env) (pop : ParsedOpcode) : Stacks → Except EngineError Stacks :=
  let value := pop.opcode
  if value = op0 then opcodeFalse
  else if value ≤ opPushData4 then opcodePushData pop
  else if value = op1Negate then opcode1Negate
  else if value = opReserved then opcodeReserved
  else if value ≤ op16 then opcodeN pop
  else if value = opNop then opcodeNop
  else if value = opVer ∨ value = opVerIf ∨ value = opVerNotIf then opcodeReserved
  else if value = opVerify then opcodeVerify
  else if value = opReturn then opcodeReturn
  else if value = opToAltStack then opcodeToAltStack
  else if value = opFromAltStack then opcodeFromAltStack
  else if value = op2Drop then opcode2Drop
  else if value = op2Dup then opcode2Dup
  else if value = op3Dup then opcode3Dup
  else if value = op2Over then opcode2Over
  else if value = op2Rot then opcode2Rot
  else if value = op2Swap then opcode2Swap
  else if value = opIfDup then opcodeIfDup
  else if value = opDepth then opcodeDepth
  else if value = opDrop then opcodeDrop
  else if value = opDup then opcodeDup
  else if value = opNip then opcodeNip
  else if value = opOver then opcodeOver
  else if value = opPick then opcodePick
  else if value = opRoll then opcodeRoll
  else if value = opRot then opcodeRot
  else if value = opSwap then opcodeSwap
  else if value = opTuck then opcodeTuck
  else if opCat ≤ value ∧ value ≤ opRight then opcodeDisabled
  else if value = opSize then opcodeSize
  else if opInvert ≤ value ∧ value ≤ opXor then opcodeDisabled
  else if value = opEqual then opcodeEqual
  else if value = opEqualVerify then opcodeEqualVerify
  else if value = opReserved1 ∨ value = opReserved2 then opcodeReserved
  else if value = op1Add then opcode1Add
  else if value = op1Sub then opcode1Sub
  else if value = op2Mul ∨ value = op2Div then opcodeDisabled
  else if value = opNegate then opcodeNegate
  else if value = opAbs then opcodeAbs
  else if value = opNot then opcodeNot
  else if value = op0NotEqual then opcode0NotEqual
  else if value = opAdd then opcodeAdd
  else if value = opSub then opcodeSub
  else if opMul ≤ value ∧ value ≤ opRShift then opcodeDisabled
  else if value = opBoolAnd then opcodeBoolAnd
  else if value = opBoolOr then opcodeBoolOr
  else if value = opNumEqual then opcodeNumEqual
  else if value = opNumEqualVerify then opcodeNumEqualVerify
  else if value = opNumNotEqual then opcodeNumNotEqual
  else if value = opLessThan then opcodeLessThan
  else if value = opGreaterThan then opcodeGreaterThan
  else if value = opLessThanOrEqual then opcodeLessThanOrEqual
  else if value = opGreaterThanOrEqual then opcodeGreaterThanOrEqual
  else if value = opMin then opcodeMin
  else if value = opMax then opcodeMax
  else if value = opWithin then opcodeWithin
  else if value = opSHA256 then opcodeSha256 env
  else if value = opCheckMultiSigECDSA then opcodeCheckMultiSigECDSA env
  else if value = opBlake2b then opcodeBlake2b env
  else if value = opCheckSigECDSA then opcodeCheckSigECDSA env
  else if value = opCheckSig then opcodeCheckSig env
  else if value = opCheckSigVerify then opcodeCheckSigVerify env
  else if value = opCheckMultiSig then opcodeCheckMultiSig env
  else if value = opCheckMultiSigVerify then opcodeCheckMultiSigVerify env
  else if value = opCheckLockTimeVerify then opcodeCheckLockTimeVerify env
  else if value = opCheckSequenceVerify then opcodeCheckSequenceVerify env
  -- `opcodeInvalid`, which reports `ErrReservedOpcode` as well
  else opcodeReserved

/-! ## The count of operations

Only the multisigs add to the count of operations, and never past
`MaxOpsPerScript`; every other opcode leaves it as it was. -/

def KeepsNumOps (f : Stacks → Except EngineError Stacks) : Prop :=
  ∀ s s', f s = .ok s' → s'.numOps = s.numOps

def CountsOps (f : Stacks → Except EngineError Stacks) : Prop :=
  ∀ s s', f s = .ok s' → s.numOps ≤ s'.numOps ∧ (s'.numOps = s.numOps ∨ s'.numOps ≤ maxOpsPerScript)

@[simp] theorem KeepsNumOps.countsOps {f : Stacks → Except EngineError Stacks} (h : KeepsNumOps f) :
    CountsOps f := by
  intro s s' hs
  rw [h s s' hs]
  exact ⟨le_rfl, .inl rfl⟩

@[simp] theorem KeepsNumOps.bind {f g : Stacks → Except EngineError Stacks} (hf : KeepsNumOps f)
    (hg : KeepsNumOps g) : KeepsNumOps fun s => f s >>= g := by
  intro s s' h
  obtain ⟨mid, h₁, h₂⟩ := Except.bind_eq_ok.mp h
  rw [hg _ _ h₂, hf _ _ h₁]

@[simp] theorem CountsOps.bind {f g : Stacks → Except EngineError Stacks} (hf : CountsOps f)
    (hg : KeepsNumOps g) : CountsOps fun s => f s >>= g := by
  intro s s' h
  obtain ⟨mid, h₁, h₂⟩ := Except.bind_eq_ok.mp h
  rw [hg _ _ h₂]
  exact hf _ _ h₁

theorem CountsOps.ite {c : Prop} [Decidable c] {f g : Stacks → Except EngineError Stacks} (hf : CountsOps f)
    (hg : CountsOps g) : CountsOps (if c then f else g) := by
  split
  · exact hf
  · exact hg

@[simp] theorem keepsNumOps_onData (f : List (List UInt8) → Except EngineError (List (List UInt8))) :
    KeepsNumOps (Stacks.onData f) := by
  intro s s' h
  obtain ⟨dstack, -, h⟩ := Except.bind_eq_ok.mp h
  cases h
  rfl

@[simp] theorem keepsNumOps_unaryNumeric (f : ScriptNum → ScriptNum) : KeepsNumOps (unaryNumeric f) :=
  keepsNumOps_onData _

@[simp] theorem keepsNumOps_binaryNumeric (f : ScriptNum → ScriptNum → ScriptNum) :
    KeepsNumOps (binaryNumeric f) :=
  keepsNumOps_onData _

@[simp] theorem keepsNumOps_opcodeFalse : KeepsNumOps opcodeFalse := by
  intro s s' h
  cases h
  rfl

@[simp] theorem keepsNumOps_opcodePushData (pop : ParsedOpcode) : KeepsNumOps (opcodePushData pop) := by
  intro s s' h
  cases h
  rfl

@[simp] theorem keepsNumOps_opcodeNop : KeepsNumOps opcodeNop := by
  intro s s' h
  cases h
  rfl

@[simp] theorem keepsNumOps_opcodeReserved : KeepsNumOps opcodeReserved := by
  intro s s' h
  cases h

@[simp] theorem keepsNumOps_opcodeDisabled : KeepsNumOps opcodeDisabled := by
  intro s s' h
  cases h

@[simp] theorem keepsNumOps_opcodeReturn : KeepsNumOps opcodeReturn := by
  intro s s' h
  cases h

@[simp] theorem keepsNumOps_abstractVerify (c : ErrorCode) : KeepsNumOps (abstractVerify c) := by
  intro s s' h
  obtain ⟨⟨verified, dstack⟩, -, h⟩ := Except.bind_eq_ok.mp h
  obtain ⟨-, h⟩ := Except.ite_throw_eq_ok h
  cases h
  rfl

@[simp] theorem keepsNumOps_opcodeCheckLockTimeVerify (env : Env) :
    KeepsNumOps (opcodeCheckLockTimeVerify env) := by
  intro s s' h
  obtain ⟨⟨bytes, dstack⟩, -, h⟩ := Except.bind_eq_ok.mp h
  obtain ⟨-, h⟩ := Except.ite_throw_eq_ok h
  obtain ⟨_, -, h⟩ := Except.bind_eq_ok.mp h
  obtain ⟨-, h⟩ := Except.ite_throw_eq_ok h
  cases h
  rfl

@[simp] theorem keepsNumOps_opcodeCheckSequenceVerify (env : Env) :
    KeepsNumOps (opcodeCheckSequenceVerify env) := by
  intro s s' h
  obtain ⟨⟨bytes, dstack⟩, -, h⟩ := Except.bind_eq_ok.mp h
  obtain ⟨-, h⟩ := Except.ite_throw_eq_ok h
  simp only at h
  split at h
  · cases h
    rfl
  obtain ⟨-, h⟩ := Except.ite_throw_eq_ok h
  obtain ⟨_, -, h⟩ := Except.bind_eq_ok.mp h
  cases h
  rfl

@[simp] theorem keepsNumOps_opcodeToAltStack : KeepsNumOps opcodeToAltStack := by
  intro s s' h
  obtain ⟨⟨so, dstack⟩, -, h⟩ := Except.bind_eq_ok.mp h
  cases h
  rfl

@[simp] theorem keepsNumOps_opcodeFromAltStack : KeepsNumOps opcodeFromAltStack := by
  intro s s' h
  obtain ⟨⟨so, astack⟩, -, h⟩ := Except.bind_eq_ok.mp h
  cases h
  rfl

@[simp] theorem keepsNumOps_opcodeIfDup : KeepsNumOps opcodeIfDup := by
  intro s s' h
  obtain ⟨so, -, h⟩ := Except.bind_eq_ok.mp h
  cases h
  rfl

@[simp] theorem keepsNumOps_opcodeDepth : KeepsNumOps opcodeDepth := by
  intro s s' h
  exact keepsNumOps_onData _ s s' h

@[simp] theorem keepsNumOps_opcodeSize : KeepsNumOps opcodeSize := by
  intro s s' h
  obtain ⟨so, -, h⟩ := Except.bind_eq_ok.mp h
  exact keepsNumOps_onData _ s s' h

@[simp] theorem keepsNumOps_opcodeEqual : KeepsNumOps opcodeEqual := by
  intro s s' h
  obtain ⟨⟨a, dstack⟩, -, h⟩ := Except.bind_eq_ok.mp h
  obtain ⟨⟨b, dstack⟩, -, h⟩ := Except.bind_eq_ok.mp h
  cases h
  rfl

@[simp] theorem keepsNumOps_opcodeEqualVerify : KeepsNumOps opcodeEqualVerify :=
  keepsNumOps_opcodeEqual.bind (keepsNumOps_abstractVerify _)

@[simp] theorem keepsNumOps_opcodeNumEqualVerify : KeepsNumOps opcodeNumEqualVerify :=
  @KeepsNumOps.bind opcodeNumEqual _ (keepsNumOps_binaryNumeric _) (keepsNumOps_abstractVerify _)

@[simp] theorem keepsNumOps_opcodeSha256 (env : Env) : KeepsNumOps (opcodeSha256 env) := by
  intro s s' h
  obtain ⟨⟨buf, dstack⟩, -, h⟩ := Except.bind_eq_ok.mp h
  cases h
  rfl

@[simp] theorem keepsNumOps_opcodeBlake2b (env : Env) : KeepsNumOps (opcodeBlake2b env) := by
  intro s s' h
  obtain ⟨⟨buf, dstack⟩, -, h⟩ := Except.bind_eq_ok.mp h
  cases h
  rfl

@[simp] theorem keepsNumOps_checkSigWith (pubKeyLength : ℕ) (scheme : SigScheme) :
    KeepsNumOps (checkSigWith pubKeyLength scheme) := by
  intro s s' h
  obtain ⟨⟨pkBytes, dstack⟩, -, h⟩ := Except.bind_eq_ok.mp h
  obtain ⟨⟨fullSigBytes, dstack⟩, -, h⟩ := Except.bind_eq_ok.mp h
  simp only at h
  -- each early return pushes false and leaves the count alone
  split at h
  · cases h
    rfl
  obtain ⟨-, h⟩ := Except.ite_throw_eq_ok h
  obtain ⟨_, -, h⟩ := Except.bind_eq_ok.mp h
  obtain ⟨_, -, h⟩ := Except.bind_eq_ok.mp h
  split at h
  · cases h
    rfl
  split at h
  · cases h
    rfl
  obtain ⟨-, h⟩ := Except.ite_throw_eq_ok h
  cases h
  rfl

@[simp] theorem keepsNumOps_opcodeCheckSigVerify (env : Env) : KeepsNumOps (opcodeCheckSigVerify env) :=
  (keepsNumOps_checkSigWith _ _).bind (keepsNumOps_abstractVerify _)

theorem countsOps_checkMultiSigWith (pubKeyLength : ℕ) (scheme : SigScheme) :
    CountsOps (checkMultiSigWith pubKeyLength scheme) := by
  intro s s' h
  obtain ⟨⟨numKeys, dstack⟩, -, h⟩ := Except.bind_eq_ok.mp h
  obtain ⟨-, h⟩ := Except.ite_throw_eq_ok h
  obtain ⟨-, h⟩ := Except.ite_throw_eq_ok h
  obtain ⟨withinOps, h⟩ := Except.ite_throw_eq_ok h
  obtain ⟨⟨pubKeys, dstack⟩, -, h⟩ := Except.bind_eq_ok.mp h
  obtain ⟨⟨numSigs, dstack⟩, -, h⟩ := Except.bind_eq_ok.mp h
  obtain ⟨-, h⟩ := Except.ite_throw_eq_ok h
  obtain ⟨-, h⟩ := Except.ite_throw_eq_ok h
  obtain ⟨⟨signatures, dstack⟩, -, h⟩ := Except.bind_eq_ok.mp h
  obtain ⟨success, -, h⟩ := Except.bind_eq_ok.mp h
  obtain ⟨-, h⟩ := Except.ite_throw_eq_ok h
  cases h
  simp only at withinOps ⊢
  exact ⟨Nat.le_add_right _ _, .inr (by omega)⟩

@[simp] theorem countsOps_opcodeCheckMultiSig (env : Env) : CountsOps (opcodeCheckMultiSig env) :=
  countsOps_checkMultiSigWith _ _

@[simp] theorem countsOps_opcodeCheckMultiSigECDSA (env : Env) : CountsOps (opcodeCheckMultiSigECDSA env) :=
  countsOps_checkMultiSigWith _ _

@[simp] theorem countsOps_opcodeCheckMultiSigVerify (env : Env) : CountsOps (opcodeCheckMultiSigVerify env) :=
  (countsOps_checkMultiSigWith _ _).bind (keepsNumOps_abstractVerify _)

theorem countsOps_opcodeFunction (env : Env) (pop : ParsedOpcode) : CountsOps (opcodeFunction env pop) := by
  dsimp only [opcodeFunction]
  repeat' apply CountsOps.ite
  all_goals
    simp [opcode1Negate, opcodeN, opcode2Drop, opcode2Dup, opcode3Dup, opcode2Over, opcode2Rot, opcode2Swap,
      opcodeDrop, opcodeDup, opcodeNip, opcodeOver, opcodePick, opcodeRoll, opcodeRot, opcodeSwap, opcodeTuck,
      opcodeVerify, opcode1Add, opcode1Sub, opcodeNegate, opcodeAbs, opcodeNot, opcode0NotEqual, opcodeAdd,
      opcodeSub, opcodeBoolAnd, opcodeBoolOr, opcodeNumEqual, opcodeNumNotEqual, opcodeLessThan,
      opcodeGreaterThan, opcodeLessThanOrEqual, opcodeGreaterThanOrEqual, opcodeMin, opcodeMax, opcodeWithin,
      opcodeCheckSig, opcodeCheckSigECDSA]

end Cryptixd.Txscript
