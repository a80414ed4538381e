import Mathlib
import Cryptixd.Txscript.ScriptNum
import Cryptixd.Lib.Trace

/-!
# The script stack

`txscript/stack.go`: the data and alt stacks of the script engine hold byte
strings, with the top at the end of the slice.  The model keeps a stack as a
list with the top first, so that the source's `stk[sz-idx-1]` is `stk[idx]`
here, and `GetStack`, which lists the items bottom first, is the reverse.

`DupN` and `OverN` copy a block of items onto the top by peeking at the same
depth once for each item, `RotN` and `SwapN` move one by taking out the item at
the same depth each time; on a stack too shallow the first pass fails, and so
does the whole call.
-/

set_option autoImplicit false

namespace Cryptixd.Txscript

open Transition

/-- The codes of `txscript/error.go` that the engine returns. -/
inductive ErrorCode where
  | errInvalidIndex | errEarlyReturn | errEmptyStack | errEvalFalse | errScriptUnfinished
  | errInvalidProgramCounter | errScriptTooBig | errElementTooBig | errTooManyOperations
  | errStackOverflow | errInvalidPubKeyCount | errInvalidSignatureCount | errNumberTooBig
  | errVerify | errEqualVerify | errNumEqualVerify | errCheckSigVerify | errCheckMultiSigVerify
  | errDisabledOpcode | errReservedOpcode | errInvalidStackOperation | errUnbalancedConditional
  | errInvalidSigHashType | errSigLength | errNotPushOnly | errPubKeyFormat | errCleanStack
  | errNullFail | errUnsatisfiedLockTime | errMinimalIf
  deriving DecidableEq, Repr

/-- How a call into the engine can end other than well: a script error with its
code, one of the errors of the parser and the number decoder with the data
their messages name, or a Go runtime panic. -/
inductive EngineError where
  | code (errorCode : ErrorCode)
  | script (err : ScriptError)
  | panic (message : String)
  deriving DecidableEq, Repr

def defaultScriptNumLen : Nat := 4

/-- `asBool`: false for the empty string, for zeros and for negative zero. -/
def asBool : List UInt8 → Bool
  | [] => false
  | [x] => x != 0 && x != 0x80
  | x :: rest => x != 0 || asBool rest

def fromBool (v : Bool) : List UInt8 := if v then [1] else []

def nipN (idx : Int) (stk : List (List UInt8)) :
    Except EngineError (List UInt8 × List (List UInt8)) :=
  if h : 0 ≤ idx ∧ idx < stk.length then .ok (stk[idx.toNat], stk.eraseIdx idx.toNat)
  else .error (.code .errInvalidStackOperation)

def popByteArray (stk : List (List UInt8)) : Except EngineError (List UInt8 × List (List UInt8)) :=
  nipN 0 stk

def peekByteArray (idx : Int) (stk : List (List UInt8)) : Except EngineError (List UInt8) :=
  if h : 0 ≤ idx ∧ idx < stk.length then .ok stk[idx.toNat]
  else .error (.code .errInvalidStackOperation)

def pushInt (val : ScriptNum) (stk : List (List UInt8)) : Except EngineError (List (List UInt8)) :=
  match val.bytes with
  | .ok bytes => .ok (bytes :: stk)
  | .error message => .error (.panic message)

def pushBool (val : Bool) (stk : List (List UInt8)) : List (List UInt8) := fromBool val :: stk

def popInt (stk : List (List UInt8)) : Except EngineError (ScriptNum × List (List UInt8)) := do
  let (so, stk) ← popByteArray stk
  let n ← (makeScriptNum so defaultScriptNumLen).mapError .script
  return (n, stk)

def popBool (stk : List (List UInt8)) : Except EngineError (Bool × List (List UInt8)) := do
  let (so, stk) ← popByteArray stk
  return (asBool so, stk)

def tuck (stk : List (List UInt8)) : Except EngineError (List (List UInt8)) := do
  let (so2, stk) ← popByteArray stk
  let (so1, stk) ← popByteArray stk
  return so2 :: so1 :: so2 :: stk

def dropOne (stk : List (List UInt8)) : Except EngineError (List (List UInt8)) := do
  let (_, stk) ← popByteArray stk
  return stk

/-- One pass of the loops of `DupN` and `OverN`: the item `entry` below the top,
copied onto the top. -/
def peekPush (entry : Int) (stk : List (List UInt8)) : Except EngineError (List (List UInt8)) := do
  let so ← peekByteArray entry stk
  return so :: stk

/-- One pass of the loops of `RotN` and `SwapN`: the item `entry` below the top,
moved onto the top. -/
def nipPush (entry : Int) (stk : List (List UInt8)) : Except EngineError (List (List UInt8)) := do
  let (so, stk) ← nipN entry stk
  return so :: stk

def dropN (n : Int) (stk : List (List UInt8)) : Except EngineError (List (List UInt8)) :=
  if n < 1 then .error (.code .errInvalidStackOperation) else repeatM n.toNat dropOne stk

def dupN (n : Int) (stk : List (List UInt8)) : Except EngineError (List (List UInt8)) :=
  if n < 1 then .error (.code .errInvalidStackOperation) else repeatM n.toNat (peekPush (n - 1)) stk

def rotN (n : Int) (stk : List (List UInt8)) : Except EngineError (List (List UInt8)) :=
  if n < 1 then .error (.code .errInvalidStackOperation)
  else repeatM n.toNat (nipPush (3 * n - 1)) stk

def swapN (n : Int) (stk : List (List UInt8)) : Except EngineError (List (List UInt8)) :=
  if n < 1 then .error (.code .errInvalidStackOperation)
  else repeatM n.toNat (nipPush (2 * n - 1)) stk

def overN (n : Int) (stk : List (List UInt8)) : Except EngineError (List (List UInt8)) :=
  if n < 1 then .error (.code .errInvalidStackOperation)
  else repeatM n.toNat (peekPush (2 * n - 1)) stk

def pickN (n : Int) (stk : List (List UInt8)) : Except EngineError (List (List UInt8)) :=
  peekPush n stk

def rollN (n : Int) (stk : List (List UInt8)) : Except EngineError (List (List UInt8)) :=
  nipPush n stk

/-! ## The primitives on a stack deep enough -/

section Primitives

variable {stk : List (List UInt8)}

theorem nipN_of_getElem? {idx : ℕ} {so : List UInt8} (at_ : stk[idx]? = some so) :
    nipN idx stk = .ok (so, stk.eraseIdx idx) := by
  obtain ⟨lt, rfl⟩ := List.getElem?_eq_some_iff.mp at_
  rw [nipN, dif_pos (by omega)]
  rfl

theorem nipN_of_le {idx : ℤ} (le : stk.length ≤ idx) : nipN idx stk = .error (.code .errInvalidStackOperation) := by
  rw [nipN, dif_neg (by omega)]

@[simp] theorem popByteArray_cons (so : List UInt8) : popByteArray (so :: stk) = .ok (so, stk) :=
  @nipN_of_getElem? (so :: stk) 0 so rfl

@[simp] theorem popByteArray_nil : popByteArray [] = .error (.code .errInvalidStackOperation) :=
  nipN_of_le (by simp)

end Primitives

end Cryptixd.Txscript

