import Mathlib
import Cryptixd.Txscript.Standard

/-!
# Push opcodes

What the push opcodes leave on the stack when executed (`opcodeFalse`,
`opcodePushData`, `opcode1Negate` and `opcodeN` of `txscript/opcode.go`), and
the two rules a push is held to: `checkMinimalDataPush`, which the engine
applies to every executed opcode from `OP_DATA_1` to `OP_PUSHDATA4`, and
`canonicalPush` of the standard-script templates.

The script builder chooses its push opcodes by the same boundaries, but three
of its calls step outside what it promises (`scriptBuilder_counterexamples`):
`AddInt64` panics on the least `int64`, `AddData` of the single byte `0x00`
writes `OP_0`, which pushes the empty string instead, and `AddOp` writes any
byte, a push opcode without its data included.
-/

set_option autoImplicit false

namespace Cryptixd.Txscript

def ParsedOpcode.pushedValue (pop : ParsedOpcode) : Option (List UInt8) :=
  if pop.opcode = op0 then some []
  else if pop.opcode ≤ opPushData4 then some pop.data
  else if pop.opcode = op1Negate then (ScriptNum.bytes (-1)).toOption
  else if op1 ≤ pop.opcode ∧ pop.opcode ≤ op16 then
    (ScriptNum.bytes (pop.opcode - (op1 - 1)).toUInt64.toInt64).toOption
  else none

def ParsedOpcode.checkMinimalDataPush (pop : ParsedOpcode) : Except ScriptError Unit :=
  let data := pop.data
  let dataLen := data.length
  let opcode := pop.opcode
  if dataLen = 0 ∧ opcode ≠ op0 then .error (.nonMinimalPush opcode dataLen)
  else if dataLen = 1 ∧ 1 ≤ data.headD 0 ∧ data.headD 0 ≤ 16 then
    if opcode ≠ op1 + data.headD 0 - 1 then .error (.nonMinimalPush opcode dataLen) else .ok ()
  else if dataLen = 1 ∧ data.headD 0 = 0x81 then
    if opcode ≠ op1Negate then .error (.nonMinimalPush opcode dataLen) else .ok ()
  else if dataLen ≤ 75 then
    if opcode.toNat ≠ dataLen then .error (.nonMinimalPush opcode dataLen) else .ok ()
  else if dataLen ≤ 255 then
    if opcode ≠ opPushData1 then .error (.nonMinimalPush opcode dataLen) else .ok ()
  else if dataLen ≤ 65535 then
    if opcode ≠ opPushData2 then .error (.nonMinimalPush opcode dataLen) else .ok ()
  else .ok ()

def canonicalPush (pop : ParsedOpcode) : Bool :=
  let opcode := pop.opcode
  let data := pop.data
  let dataLen := data.length
  if opcode > op16 then true
  else if opcode < opPushData1 ∧ opcode > op0 ∧ (dataLen = 1 ∧ data.headD 0 ≤ 16) then false
  else if opcode = opPushData1 ∧ dataLen < opPushData1.toNat then false
  else if opcode = opPushData2 ∧ dataLen ≤ 0xff then false
  else if opcode = opPushData4 ∧ dataLen ≤ 0xffff then false
  else true

/-- Three calls on a new builder break what it promises: `AddInt64` of the
least `int64` panics, `AddData([0x00])` writes `OP_0`, which pushes the empty
string, and `AddOp(OP_DATA_1)` ends without error in a script the parser
refuses. -/
theorem scriptBuilder_counterexamples :
    (newScriptBuilder.addInt64 Int64.minValue).map ScriptBuilder.script = .error indexOutOfRangePanic ∧
    ((newScriptBuilder.addData [0x00]).toScript = .ok [op0] ∧
      parseScript [op0] = .ok [⟨op0, []⟩] ∧ ParsedOpcode.pushedValue ⟨op0, []⟩ = some []) ∧
    ((newScriptBuilder.addOp opData1).toScript = .ok [opData1] ∧
      parseScript [opData1] = .error (.malformedPush opData1 2 1)) := by
  decide

end Cryptixd.Txscript
