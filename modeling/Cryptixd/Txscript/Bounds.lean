import Mathlib
import Cryptixd.Txscript.PayToScriptHash

/-!
# Bounds of a run, and no panic

`txscript/engine.go` enforces two bounds: `MaxScriptElementSize` on the data an
opcode pushes, and `MaxStackSize` on the items of the data and alt stacks,
checked after every opcode.  No opcode makes an item longer than what it was
given or pushed, so every state a run reaches holds at most 244 items, each of
at most 520 bytes, and so does the stack saved for a pay-to-script-hash spend
(`newEngine_bounded`).

The engine panics, in Go, in two places: `scriptNum.Bytes` on the least
`int64` and `savedFirstStack[len(savedFirstStack)-1]` on an empty saved stack.
Numbers are read from at most four bytes, so no arithmetic opcode reaches the
least `int64` and no length pushed by `OP_SIZE` does; and a pay-to-script-hash
spend only ends its public key script after `OP_BLAKE2B` has hashed the top of
the saved stack.  So `Execute` on a new engine never panics
(`newEngine_execute_notPanic`).

A handler is `Safe` when on stacks of short items it never panics and leaves
such stacks; `safe_opcodeFunction` shows every opcode is, from one lemma per
handler, and `step_post` lifts it to the steps with the rules of `Except.Post`.
-/

set_option autoImplicit false

namespace Cryptixd.Txscript
open Transition
open Except (Post)
open Cryptixd.Atomic (ScriptPublicKey)

/-- Every error but a Go runtime panic. -/
def EngineError.NotPanic : EngineError → Prop
  | .panic _ => False
  | _ => True

/-- Every item at most `MaxScriptElementSize` bytes. -/
def ItemsWithin (stk : List (List UInt8)) : Prop := ∀ item ∈ stk, item.length ≤ maxScriptElementSize

def Stacks.Within (s : Stacks) : Prop := ItemsWithin s.dstack ∧ ItemsWithin s.astack

def DataSafe (g : List (List UInt8) → Except EngineError (List (List UInt8))) : Prop :=
  ∀ stk, ItemsWithin stk → Post EngineError.NotPanic ItemsWithin (g stk)

/-- A handler that, on stacks of short items, never panics and leaves such stacks. -/
def Safe (f : Stacks → Except EngineError Stacks) : Prop :=
  ∀ s, s.Within → Post EngineError.NotPanic Stacks.Within (f s)

section Items

variable {stk : List (List UInt8)}

theorem ItemsWithin.cons {x : List UInt8} (short : x.length ≤ maxScriptElementSize) (h : ItemsWithin stk) :
    ItemsWithin (x :: stk) := by
  simpa [ItemsWithin, short] using h

theorem ItemsWithin.of_subset {stk' : List (List UInt8)} (h : ItemsWithin stk) (sub : ∀ x ∈ stk', x ∈ stk) :
    ItemsWithin stk' := fun x mem => h x (sub x mem)

theorem nipN_post {idx : ℤ} (h : ItemsWithin stk) :
    Post EngineError.NotPanic (fun r : List UInt8 × List (List UInt8) => r.1.length ≤ maxScriptElementSize ∧
      ItemsWithin r.2) (nipN idx stk) := by
  unfold nipN
  split
  · exact ⟨h _ (List.getElem_mem _), h.of_subset fun x mem => List.mem_of_mem_eraseIdx mem⟩
  · trivial

theorem peekByteArray_post {idx : ℤ} (h : ItemsWithin stk) :
    Post EngineError.NotPanic (fun so : List UInt8 => so.length ≤ maxScriptElementSize) (peekByteArray idx stk) := by
  unfold peekByteArray
  split
  · exact h _ (List.getElem_mem _)
  · trivial

/-- An encoding `front ++ [last]` carries a magnitude below the weight of its sign bit. -/
theorem encodedMagnitude_lt_signWeight (front : List UInt8) (last : UInt8) :
    encodedMagnitude front last < 256 ^ front.length * 128 := by
  have frontBound := LittleEndian.ofListLE_lt front
  have lowBits : last.toNat % 128 < 128 := Nat.mod_lt _ (by norm_num)
  unfold encodedMagnitude
  nlinarith

/-- A number of at most four bytes is below `2 ^ 31` in magnitude. -/
theorem makeScriptNum_natAbs_lt {v : List UInt8} {n : ScriptNum}
    (made : makeScriptNum v defaultScriptNumLen = .ok n) : n.toInt.natAbs < 2 ^ 31 := by
  obtain ⟨fits, short, minimal⟩ := makeScriptNum_ok_inv made
  rcases v.eq_nil_or_concat' with rfl | ⟨front, last, rfl⟩
  · rw [makeScriptNum_nil] at made
    cases made
    decide
  · rw [makeScriptNum_append fits short minimal] at made
    cases made
    rw [toInt_ofInt_encodedValue short]
    have bound := encodedMagnitude_lt_signWeight front last
    have weight : 256 ^ front.length * 128 ≤ 2 ^ 31 := by
      have three : front.length ≤ 3 := by
        simp only [List.length_append, List.length_singleton, defaultScriptNumLen] at fits
        omega
      calc 256 ^ front.length * 128 ≤ 256 ^ 3 * 128 :=
            Nat.mul_le_mul_right _ (Nat.pow_le_pow_right (by norm_num) three)
        _ = 2 ^ 31 := by norm_num
    unfold encodedValue
    split_ifs <;> omega

theorem popInt_post (h : ItemsWithin stk) :
    Post EngineError.NotPanic (fun r : ScriptNum × List (List UInt8) => r.1.toInt.natAbs < 2 ^ 31 ∧
      ItemsWithin r.2) (popInt stk) := by
  unfold popInt
  refine Except.Post.bind (nipN_post h) ?_
  rintro ⟨so, rest⟩ ⟨-, within⟩
  dsimp only
  cases made : makeScriptNum so defaultScriptNumLen with
  | error e => exact trivial
  | ok n => exact ⟨makeScriptNum_natAbs_lt made, within⟩

theorem bytes_of_ne_minValue {n : ScriptNum} (notMin : n ≠ Int64.minValue) :
    ∃ bytes, ScriptNum.bytes n = .ok bytes ∧ bytes.length ≤ 8 := by
  by_cases zero : n = 0
  · exact ⟨[], by rw [zero, bytes_zero], by simp⟩
  obtain ⟨front, last, short, minimal, value, -⟩ := exists_encoding zero notMin
  exact ⟨front ++ [last], by rw [← Int64.ofInt_toInt n, ← value, bytes_encodedValue short minimal], short⟩

theorem pushInt_post {n : ScriptNum} (notMin : n ≠ Int64.minValue) (h : ItemsWithin stk) :
    Post EngineError.NotPanic ItemsWithin (pushInt n stk) := by
  obtain ⟨bytes, written, short⟩ := bytes_of_ne_minValue notMin
  unfold pushInt
  rw [written]
  exact h.cons (by unfold maxScriptElementSize; omega)

theorem popBool_post (h : ItemsWithin stk) :
    Post EngineError.NotPanic (fun r : Bool × List (List UInt8) => ItemsWithin r.2) (popBool stk) :=
  (nipN_post h).bind fun _ popped => popped.2

theorem ItemsWithin.pushBool (v : Bool) (h : ItemsWithin stk) : ItemsWithin (pushBool v stk) :=
  h.cons (by unfold fromBool; split <;> simp [maxScriptElementSize])

end Items

/-! ## The primitives of the data stack -/

section Primitives

theorem dataSafe_dropOne : DataSafe dropOne := fun _ h =>
  (nipN_post h).bind fun _ popped => popped.2

theorem dataSafe_peekPush (entry : ℤ) : DataSafe (peekPush entry) := fun _ h =>
  (peekByteArray_post h).bind fun _ short => h.cons short

theorem dataSafe_nipPush (entry : ℤ) : DataSafe (nipPush entry) := fun _ h =>
  (nipN_post h).bind fun _ popped => popped.2.cons popped.1

theorem DataSafe.repeatM_ite {n : ℤ} {body : List (List UInt8) → Except EngineError (List (List UInt8))}
    (h : DataSafe body) :
    DataSafe fun stk => if n < 1 then .error (.code .errInvalidStackOperation) else repeatM n.toNat body stk := by
  intro stk within
  split
  · trivial
  · exact repeatM_post h _ stk within

theorem dataSafe_tuck : DataSafe tuck := fun _ h =>
  (nipN_post h).bind fun _ first => (nipN_post first.2).bind fun _ second =>
    (second.2.cons first.1).cons second.1 |>.cons first.1

end Primitives

/-! ## The handlers -/

section Handlers

theorem Safe.ite {c : Prop} [Decidable c] {f g : Stacks → Except EngineError Stacks} (hf : Safe f) (hg : Safe g) :
    Safe (if c then f else g) := by
  split <;> assumption

theorem Safe.ite_of {c : Prop} [Decidable c] {f g : Stacks → Except EngineError Stacks} (hf : c → Safe f)
    (hg : ¬c → Safe g) : Safe (if c then f else g) := by
  split
  · exact hf ‹_›
  · exact hg ‹_›

theorem Safe.bind {f g : Stacks → Except EngineError Stacks} (hf : Safe f) (hg : Safe g) :
    Safe fun s => f s >>= g := fun s within =>
  (hf s within).bind fun s' within' => hg s' within'

theorem DataSafe.onData {g : List (List UInt8) → Except EngineError (List (List UInt8))} (h : DataSafe g) :
    Safe (Stacks.onData g) := fun s within =>
  (h s.dstack within.1).bind fun _ inner => ⟨inner, within.2⟩

theorem ne_minValue_of_natAbs_lt {n : ScriptNum} (small : n.toInt.natAbs < 2 ^ 63) : n ≠ Int64.minValue := by
  rintro rfl
  rw [Int64.toInt_minValue] at small
  omega

theorem unaryNumeric_safe {f : ScriptNum → ScriptNum} (hf : ∀ m, m.toInt.natAbs < 2 ^ 31 → f m ≠ Int64.minValue) :
    Safe (unaryNumeric f) := by
  refine DataSafe.onData fun stk within => (popInt_post within).bind ?_
  rintro ⟨m, rest⟩ ⟨small, rest⟩
  exact pushInt_post (hf m small) rest

theorem binaryNumeric_safe {f : ScriptNum → ScriptNum → ScriptNum}
    (hf : ∀ a b, a.toInt.natAbs < 2 ^ 31 → b.toInt.natAbs < 2 ^ 31 → f a b ≠ Int64.minValue) :
    Safe (binaryNumeric f) := by
  refine DataSafe.onData fun stk within => (popInt_post within).bind ?_
  rintro ⟨a, rest⟩ ⟨smallA, rest⟩
  refine (popInt_post rest).bind ?_
  rintro ⟨b, rest'⟩ ⟨smallB, rest'⟩
  exact pushInt_post (hf a b smallA smallB) rest'

/-- The result of an arithmetic opcode on operands below `2 ^ 31` in magnitude. -/
theorem natAbs_add_lt {a b : ScriptNum} (ha : a.toInt.natAbs < 2 ^ 31) (hb : b.toInt.natAbs < 2 ^ 31) :
    (a + b).toInt.natAbs < 2 ^ 63 := by
  rw [Int64.toInt_add, Int.bmod_eq_of_le (by omega) (by omega)]
  omega

theorem natAbs_sub_lt {a b : ScriptNum} (ha : a.toInt.natAbs < 2 ^ 31) (hb : b.toInt.natAbs < 2 ^ 31) :
    (a - b).toInt.natAbs < 2 ^ 63 := by
  rw [Int64.toInt_sub, Int.bmod_eq_of_le (by omega) (by omega)]
  omega

theorem natAbs_neg_lt {a : ScriptNum} (ha : a.toInt.natAbs < 2 ^ 31) : (-a).toInt.natAbs < 2 ^ 63 := by
  rw [Int64.toInt_neg, Int.bmod_eq_of_le (by omega) (by omega)]
  omega

theorem bit_ne_minValue (c : Prop) [Decidable c] : (if c then 1 else 0 : ScriptNum) ≠ Int64.minValue := by
  split <;> decide

@[simp] theorem safe_opcodeFalse : Safe opcodeFalse := fun _ within =>
  ⟨within.1.cons (by simp), within.2⟩

theorem safe_opcodePushData {pop : ParsedOpcode} (short : pop.data.length ≤ maxScriptElementSize) :
    Safe (opcodePushData pop) := fun _ within =>
  ⟨within.1.cons short, within.2⟩

@[simp] theorem safe_opcode1Negate : Safe opcode1Negate :=
  DataSafe.onData fun _ within => pushInt_post (by decide) within

@[simp] theorem safe_opcodeN (pop : ParsedOpcode) : Safe (opcodeN pop) := by
  refine DataSafe.onData fun _ within => pushInt_post (ne_minValue_of_natAbs_lt ?_) within
  have byte := (pop.opcode - (op1 - 1)).toNat_lt
  rw [Int64.toInt_ofNat_of_lt (by omega)]
  omega

@[simp] theorem safe_opcodeNop : Safe opcodeNop := fun _ within => within

@[simp] theorem safe_opcodeReserved : Safe opcodeReserved := fun _ _ => trivial

@[simp] theorem safe_opcodeDisabled : Safe opcodeDisabled := fun _ _ => trivial

@[simp] theorem safe_opcodeReturn : Safe opcodeReturn := fun _ _ => trivial

@[simp] theorem safe_abstractVerify (c : ErrorCode) : Safe (abstractVerify c) := by
  intro s within
  unfold abstractVerify
  refine (popBool_post within.1).bind ?_
  rintro ⟨verified, rest⟩ rest
  dsimp only
  split
  · trivial
  · exact ⟨rest, within.2⟩

@[simp] theorem safe_opcodeVerify : Safe opcodeVerify := safe_abstractVerify _

theorem verifyLockTime_post (txLockTime lockTime : ℕ) :
    Post EngineError.NotPanic (fun _ => True) (verifyLockTime txLockTime lockTime) := by
  unfold verifyLockTime
  split <;> trivial

theorem verifyLockTimeWithThreshold_post (txLockTime threshold lockTime : ℕ) :
    Post EngineError.NotPanic (fun _ => True) (verifyLockTimeWithThreshold txLockTime threshold lockTime) := by
  unfold verifyLockTimeWithThreshold verifyLockTimeThreshold
  split
  · trivial
  · exact verifyLockTime_post _ _

@[simp] theorem safe_opcodeCheckLockTimeVerify (env : Env) : Safe (opcodeCheckLockTimeVerify env) := by
  intro s within
  unfold opcodeCheckLockTimeVerify
  refine (nipN_post within.1).bind ?_
  rintro ⟨bytes, rest⟩ ⟨-, rest⟩
  dsimp only
  split
  · trivial
  refine (verifyLockTimeWithThreshold_post _ _ _).bind fun _ _ => ?_
  split
  · trivial
  · exact ⟨rest, within.2⟩

@[simp] theorem safe_opcodeCheckSequenceVerify (env : Env) : Safe (opcodeCheckSequenceVerify env) := by
  intro s within
  unfold opcodeCheckSequenceVerify
  refine (nipN_post within.1).bind ?_
  rintro ⟨bytes, rest⟩ ⟨-, rest⟩
  dsimp only
  split
  · trivial
  split
  · exact ⟨rest, within.2⟩
  split
  · trivial
  exact (verifyLockTime_post _ _).bind fun _ _ => ⟨rest, within.2⟩

@[simp] theorem safe_opcodeToAltStack : Safe opcodeToAltStack := fun _ within =>
  (nipN_post within.1).bind fun _ popped => ⟨popped.2, within.2.cons popped.1⟩

@[simp] theorem safe_opcodeFromAltStack : Safe opcodeFromAltStack := fun _ within =>
  (nipN_post within.2).bind fun _ popped => ⟨within.1.cons popped.1, popped.2⟩

theorem dataSafe_dropN (n : ℤ) : DataSafe (dropN n) := dataSafe_dropOne.repeatM_ite
theorem dataSafe_dupN (n : ℤ) : DataSafe (dupN n) := (dataSafe_peekPush _).repeatM_ite
theorem dataSafe_rotN (n : ℤ) : DataSafe (rotN n) := (dataSafe_nipPush _).repeatM_ite
theorem dataSafe_swapN (n : ℤ) : DataSafe (swapN n) := (dataSafe_nipPush _).repeatM_ite
theorem dataSafe_overN (n : ℤ) : DataSafe (overN n) := (dataSafe_peekPush _).repeatM_ite

@[simp] theorem safe_opcode2Drop : Safe opcode2Drop := (dataSafe_dropN _).onData
@[simp] theorem safe_opcode2Dup : Safe opcode2Dup := (dataSafe_dupN _).onData
@[simp] theorem safe_opcode3Dup : Safe opcode3Dup := (dataSafe_dupN _).onData
@[simp] theorem safe_opcode2Over : Safe opcode2Over := (dataSafe_overN _).onData
@[simp] theorem safe_opcode2Rot : Safe opcode2Rot := (dataSafe_rotN _).onData
@[simp] theorem safe_opcode2Swap : Safe opcode2Swap := (dataSafe_swapN _).onData
@[simp] theorem safe_opcodeDrop : Safe opcodeDrop := (dataSafe_dropN _).onData
@[simp] theorem safe_opcodeDup : Safe opcodeDup := (dataSafe_dupN _).onData
@[simp] theorem safe_opcodeOver : Safe opcodeOver := (dataSafe_overN _).onData
@[simp] theorem safe_opcodeRot : Safe opcodeRot := (dataSafe_rotN _).onData
@[simp] theorem safe_opcodeSwap : Safe opcodeSwap := (dataSafe_swapN _).onData
@[simp] theorem safe_opcodeTuck : Safe opcodeTuck := dataSafe_tuck.onData

@[simp] theorem safe_opcodeIfDup : Safe opcodeIfDup := fun s within =>
  (peekByteArray_post within.1).bind fun so short =>
    ⟨by dsimp only; split <;> [exact within.1.cons short; exact within.1], within.2⟩

@[simp] theorem safe_opcodeDepth : Safe opcodeDepth := by
  intro s
  refine DataSafe.onData (fun _ within => pushInt_post (ne_minValue_of_natAbs_lt ?_) within) s
  rw [Int32.toInt_toInt64]
  have := Int32.le_toInt (Int32.ofNat s.dstack.length)
  have := Int32.toInt_lt (Int32.ofNat s.dstack.length)
  omega

@[simp] theorem safe_opcodeNip : Safe opcodeNip :=
  DataSafe.onData fun _ within => (nipN_post within).bind fun _ popped => popped.2

@[simp] theorem safe_opcodePick : Safe opcodePick :=
  DataSafe.onData fun _ within => (popInt_post within).bind fun _ popped => dataSafe_peekPush _ _ popped.2

@[simp] theorem safe_opcodeRoll : Safe opcodeRoll :=
  DataSafe.onData fun _ within => (popInt_post within).bind fun _ popped => dataSafe_nipPush _ _ popped.2

@[simp] theorem safe_opcodeSize : Safe opcodeSize := by
  intro s within
  refine (peekByteArray_post within.1).bind fun so short => ?_
  refine DataSafe.onData (fun _ within => pushInt_post (ne_minValue_of_natAbs_lt ?_) within) s within
  rw [Int64.toInt_ofNat_of_lt (by unfold maxScriptElementSize at short; omega)]
  unfold maxScriptElementSize at short
  omega

@[simp] theorem safe_opcodeEqual : Safe opcodeEqual := fun _ within =>
  (nipN_post within.1).bind fun _ first => (nipN_post first.2).bind fun _ second =>
    ⟨second.2.pushBool _, within.2⟩

@[simp] theorem safe_opcodeEqualVerify : Safe opcodeEqualVerify :=
  Safe.bind safe_opcodeEqual (safe_abstractVerify _)

@[simp] theorem safe_opcode1Add : Safe opcode1Add :=
  unaryNumeric_safe fun _ small => ne_minValue_of_natAbs_lt (natAbs_add_lt small (by decide))
@[simp] theorem safe_opcode1Sub : Safe opcode1Sub :=
  unaryNumeric_safe fun _ small => ne_minValue_of_natAbs_lt (natAbs_sub_lt small (by decide))
@[simp] theorem safe_opcodeNegate : Safe opcodeNegate :=
  unaryNumeric_safe fun _ small => ne_minValue_of_natAbs_lt (natAbs_neg_lt small)
@[simp] theorem safe_opcodeAbs : Safe opcodeAbs := by
  refine unaryNumeric_safe fun m small => ?_
  split
  · exact ne_minValue_of_natAbs_lt (natAbs_neg_lt small)
  · exact ne_minValue_of_natAbs_lt (by omega)
@[simp] theorem safe_opcodeNot : Safe opcodeNot := unaryNumeric_safe fun _ _ => bit_ne_minValue _
@[simp] theorem safe_opcode0NotEqual : Safe opcode0NotEqual := by
  refine unaryNumeric_safe fun m small => ?_
  split
  · decide
  · exact ne_minValue_of_natAbs_lt (by omega)

@[simp] theorem safe_opcodeAdd : Safe opcodeAdd :=
  binaryNumeric_safe fun _ _ ha hb => ne_minValue_of_natAbs_lt (natAbs_add_lt ha hb)
@[simp] theorem safe_opcodeSub : Safe opcodeSub :=
  binaryNumeric_safe fun _ _ ha hb => ne_minValue_of_natAbs_lt (natAbs_sub_lt hb ha)
@[simp] theorem safe_opcodeBoolAnd : Safe opcodeBoolAnd := binaryNumeric_safe fun _ _ _ _ => bit_ne_minValue _
@[simp] theorem safe_opcodeBoolOr : Safe opcodeBoolOr := binaryNumeric_safe fun _ _ _ _ => bit_ne_minValue _
@[simp] theorem safe_opcodeNumEqual : Safe opcodeNumEqual := binaryNumeric_safe fun _ _ _ _ => bit_ne_minValue _
@[simp] theorem safe_opcodeNumEqualVerify : Safe opcodeNumEqualVerify :=
  Safe.bind safe_opcodeNumEqual (safe_abstractVerify _)
@[simp] theorem safe_opcodeNumNotEqual : Safe opcodeNumNotEqual :=
  binaryNumeric_safe fun _ _ _ _ => bit_ne_minValue _
@[simp] theorem safe_opcodeLessThan : Safe opcodeLessThan := binaryNumeric_safe fun _ _ _ _ => bit_ne_minValue _
@[simp] theorem safe_opcodeGreaterThan : Safe opcodeGreaterThan :=
  binaryNumeric_safe fun _ _ _ _ => bit_ne_minValue _
@[simp] theorem safe_opcodeLessThanOrEqual : Safe opcodeLessThanOrEqual :=
  binaryNumeric_safe fun _ _ _ _ => bit_ne_minValue _
@[simp] theorem safe_opcodeGreaterThanOrEqual : Safe opcodeGreaterThanOrEqual :=
  binaryNumeric_safe fun _ _ _ _ => bit_ne_minValue _
@[simp] theorem safe_opcodeMin : Safe opcodeMin := by
  refine binaryNumeric_safe fun a b ha hb => ?_
  split <;> exact ne_minValue_of_natAbs_lt (by omega)
@[simp] theorem safe_opcodeMax : Safe opcodeMax := by
  refine binaryNumeric_safe fun a b ha hb => ?_
  split <;> exact ne_minValue_of_natAbs_lt (by omega)

@[simp] theorem safe_opcodeWithin : Safe opcodeWithin :=
  DataSafe.onData fun _ within => (popInt_post within).bind fun _ first =>
    (popInt_post first.2).bind fun _ second => (popInt_post second.2).bind fun _ third =>
      pushInt_post (bit_ne_minValue _) third.2

theorem length_toList_hash (digest : Vector UInt8 32) : digest.toList.length ≤ maxScriptElementSize := by
  simp [maxScriptElementSize]

@[simp] theorem safe_opcodeSha256 (env : Env) : Safe (opcodeSha256 env) := fun _ within =>
  (nipN_post within.1).bind fun _ popped => ⟨popped.2.cons (length_toList_hash _), within.2⟩

@[simp] theorem safe_opcodeBlake2b (env : Env) : Safe (opcodeBlake2b env) := fun _ within =>
  (nipN_post within.1).bind fun _ popped => ⟨popped.2.cons (length_toList_hash _), within.2⟩

theorem checkSignatureLength_post (sig : List UInt8) :
    Post EngineError.NotPanic (fun _ => True) (checkSignatureLength sig) := by
  unfold checkSignatureLength
  split <;> trivial

theorem checkPubKeyEncoding_post (pubKeyLength : ℕ) (pubKey : List UInt8) :
    Post EngineError.NotPanic (fun _ => True) (checkPubKeyEncoding pubKeyLength pubKey) := by
  unfold checkPubKeyEncoding
  split <;> trivial

@[simp] theorem safe_checkSigWith (pubKeyLength : ℕ) (scheme : SigScheme) : Safe (checkSigWith pubKeyLength scheme) := by
  intro s within
  unfold checkSigWith
  refine (nipN_post within.1).bind ?_
  rintro ⟨pkBytes, dstack⟩ ⟨-, popped⟩
  refine (nipN_post popped).bind ?_
  rintro ⟨fullSigBytes, dstack⟩ ⟨-, popped⟩
  have pushed : ∀ v, Stacks.Within { s with dstack := pushBool v dstack } := fun v => ⟨popped.pushBool v, within.2⟩
  dsimp only
  split
  · exact pushed false
  split
  · exact trivial
  refine (checkSignatureLength_post _).bind fun _ _ => (checkPubKeyEncoding_post _ _).bind fun _ _ => ?_
  split
  · exact pushed false
  split
  · exact pushed false
  split
  · exact trivial
  · exact pushed _

@[simp] theorem safe_opcodeCheckSig (env : Env) : Safe (opcodeCheckSig env) := safe_checkSigWith _ _

@[simp] theorem safe_opcodeCheckSigECDSA (env : Env) : Safe (opcodeCheckSigECDSA env) := safe_checkSigWith _ _

@[simp] theorem safe_opcodeCheckSigVerify (env : Env) : Safe (opcodeCheckSigVerify env) :=
  Safe.bind (safe_opcodeCheckSig env) (safe_abstractVerify _)

theorem parseSigInfo_post (scheme : SigScheme) (info : ParsedSigInfo) :
    Post EngineError.NotPanic (fun _ => True) (parseSigInfo scheme info) := by
  unfold parseSigInfo
  split
  · trivial
  dsimp only
  split
  · exact trivial
  · exact (checkSignatureLength_post _).bind fun _ _ => trivial

theorem multiSigLoop_post (pubKeyLength : ℕ) (scheme : SigScheme) :
    ∀ (keys : List (List UInt8)) (infos : List ParsedSigInfo),
      Post EngineError.NotPanic (fun _ => True) (multiSigLoop pubKeyLength scheme keys infos)
  | [], [] | _ :: _, [] | [], _ :: _ => trivial
  | key :: keys, info :: infos => by
    unfold multiSigLoop
    split
    · trivial
    split
    · exact multiSigLoop_post pubKeyLength scheme keys _
    split
    · rename_i e failed
      exact (parseSigInfo_post scheme info).of_error failed
    split_ifs
    all_goals first
      | trivial
      | exact multiSigLoop_post pubKeyLength scheme keys _

theorem popByteArrays_post {stk : List (List UInt8)} (h : ItemsWithin stk) :
    ∀ n, Post EngineError.NotPanic (fun r : List (List UInt8) × List (List UInt8) => ItemsWithin r.2)
      (popByteArrays n stk) := by
  intro n
  induction n generalizing stk with
  | zero => exact h
  | succ n ih =>
    refine (nipN_post h).bind ?_
    rintro ⟨so, rest⟩ ⟨-, popped⟩
    exact (ih popped).bind fun _ inner => inner

@[simp] theorem safe_checkMultiSigWith (pubKeyLength : ℕ) (scheme : SigScheme) :
    Safe (checkMultiSigWith pubKeyLength scheme) := by
  intro s within
  unfold checkMultiSigWith
  refine (popInt_post within.1).bind ?_
  rintro ⟨numKeys, dstack⟩ ⟨-, popped⟩
  refine Except.Post.ite_throw trivial fun _ => Except.Post.ite_throw trivial fun _ =>
    Except.Post.ite_throw trivial fun _ => ?_
  refine (popByteArrays_post popped _).bind ?_
  rintro ⟨pubKeys, dstack⟩ popped
  refine (popInt_post popped).bind ?_
  rintro ⟨numSigs, dstack⟩ ⟨-, popped⟩
  refine Except.Post.ite_throw trivial fun _ => Except.Post.ite_throw trivial fun _ => ?_
  refine (popByteArrays_post popped _).bind ?_
  rintro ⟨signatures, dstack⟩ popped
  refine (multiSigLoop_post _ _ _ _).bind fun success _ => ?_
  exact Except.Post.ite_throw trivial fun _ => ⟨popped.pushBool _, within.2⟩

@[simp] theorem safe_opcodeCheckMultiSig (env : Env) : Safe (opcodeCheckMultiSig env) :=
  safe_checkMultiSigWith _ _

@[simp] theorem safe_opcodeCheckMultiSigECDSA (env : Env) : Safe (opcodeCheckMultiSigECDSA env) :=
  safe_checkMultiSigWith _ _

@[simp] theorem safe_opcodeCheckMultiSigVerify (env : Env) : Safe (opcodeCheckMultiSigVerify env) :=
  Safe.bind (safe_opcodeCheckMultiSig env) (safe_abstractVerify _)

/-- Every opcode but the conditionals: pushed data within the bound is the only
premise, the one `executeOpcode` checks. -/
theorem safe_opcodeFunction (env : Env) (pop : ParsedOpcode)
    (fits : pop.opcode ≤ op16 → pop.data.length ≤ maxScriptElementSize) : Safe (opcodeFunction env pop) := by
  dsimp only [opcodeFunction]
  refine Safe.ite safe_opcodeFalse (Safe.ite_of (fun push => safe_opcodePushData (fits (UInt8.le_trans push (by decide))))
    fun _ => ?_)
  repeat' apply Safe.ite
  all_goals simp

end Handlers

/-! ## Steps -/

section Steps

variable {env : Env} {pop : ParsedOpcode} {vm : Engine}

theorem post_mapError_script {α : Type} (x : Except ScriptError α) :
    Post EngineError.NotPanic (fun _ => True) (x.mapError .script) := by
  cases x <;> trivial

theorem popIfBool_post {stk : List (List UInt8)} (h : ItemsWithin stk) :
    Post EngineError.NotPanic (fun r : Bool × List (List UInt8) => ItemsWithin r.2) (popIfBool stk) := by
  unfold popIfBool
  refine (nipN_post h).bind ?_
  rintro ⟨so, rest⟩ ⟨-, popped⟩
  dsimp only
  split
  · exact popped
  split
  · exact popped
  · exact trivial

theorem conditionalIf_post {negate : Bool} (within : vm.st.Within) :
    Post EngineError.NotPanic (fun vm' : Engine => vm'.st.Within) (conditionalIf negate vm) := by
  unfold conditionalIf
  split
  · exact (popIfBool_post within.1).bind fun _ popped => ⟨popped, within.2⟩
  · exact within

theorem opfunc_post (within : vm.st.Within) (fits : pop.opcode ≤ op16 → pop.data.length ≤ maxScriptElementSize) :
    Post EngineError.NotPanic (fun vm' : Engine => vm'.st.Within) (opfunc env pop vm) := by
  unfold opfunc
  split_ifs
  · exact conditionalIf_post within
  · exact conditionalIf_post within
  · unfold opcodeElse
    split
    · trivial
    · exact within
  · unfold opcodeEndif
    split
    · trivial
    · exact within
  · exact (safe_opcodeFunction env pop fits vm.st within).bind fun _ ran => ran

theorem runOpcode_post (within : vm.st.Within)
    (fits : pop.opcode ≤ op16 → pop.data.length ≤ maxScriptElementSize) :
    Post EngineError.NotPanic (fun vm' : Engine => vm'.st.Within) (runOpcode env pop vm) := by
  unfold runOpcode
  split_ifs
  · exact within
  · exact (post_mapError_script _).bind fun _ _ => opfunc_post within fits
  · exact opfunc_post within fits

theorem countOperation_post (within : vm.st.Within) :
    Post EngineError.NotPanic
      (fun vm' : Engine => vm'.st.Within ∧ (pop.opcode ≤ op16 → pop.data.length ≤ maxScriptElementSize))
      (countOperation pop vm) := by
  unfold countOperation
  split_ifs with above _ long
  · trivial
  · exact ⟨within, fun below => absurd below (UInt8.not_le.mpr above)⟩
  · trivial
  · exact ⟨within, fun _ => not_lt.mp long⟩

theorem executeOpcode_post (within : vm.st.Within) :
    Post EngineError.NotPanic (fun vm' : Engine => vm'.st.Within) (executeOpcode env pop vm) := by
  unfold executeOpcode
  split_ifs
  · trivial
  · trivial
  · exact (countOperation_post within).bind fun _ counted => runOpcode_post counted.1 counted.2

/-- The bounds every state of a run keeps: at most `MaxStackSize` items on the
data and alt stacks together and on the saved stack, none of them longer than
`MaxScriptElementSize` bytes. -/
structure Bounded (vm : Engine) : Prop where
  within : vm.st.Within
  saved : ItemsWithin vm.savedFirstStack
  depth : vm.st.dstack.length + vm.st.astack.length ≤ maxStackSize
  savedDepth : vm.savedFirstStack.length ≤ maxStackSize

theorem Bounded.of_eq {vm' : Engine} (h : Bounded vm) (st : vm'.st = vm.st)
    (saved : vm'.savedFirstStack = vm.savedFirstStack) : Bounded vm' := by
  obtain ⟨within, savedWithin, depth, savedDepth⟩ := h
  exact ⟨st ▸ within, saved ▸ savedWithin, st ▸ depth, saved ▸ savedDepth⟩

theorem skipEmptyScript_bounded (h : Bounded vm) : Bounded (skipEmptyScript vm) := by
  unfold skipEmptyScript
  split
  · exact h.of_eq rfl rfl
  · exact h

theorem checkErrorCondition_post (finalScript : Bool) (within : ItemsWithin vm.st.dstack) :
    Post EngineError.NotPanic (fun _ => True) (checkErrorCondition finalScript vm) := by
  unfold checkErrorCondition
  split_ifs
  · trivial
  · trivial
  · trivial
  · refine (popBool_post within).bind ?_
    rintro ⟨verified, rest⟩ -
    dsimp only
    split <;> trivial

/-- The move to the next script keeps the bounds.  It panics only when a
pay-to-script-hash spend ends its public key script with nothing saved. -/
theorem nextScript_post (within : vm.st.Within) (saved : ItemsWithin vm.savedFirstStack)
    (depth : vm.st.dstack.length + vm.st.astack.length ≤ maxStackSize)
    (savedDepth : vm.savedFirstStack.length ≤ maxStackSize) :
    Post (fun e => (vm.isP2SH = true → vm.scriptIdx = 1 → vm.savedFirstStack ≠ []) → e.NotPanic)
      (fun r : Bool × Engine => Bounded r.2) (nextScript vm) := by
  unfold nextScript
  split
  · exact fun _ => trivial
  rw [Except.post_map]
  unfold advanceScript
  dsimp only
  have emptied : ItemsWithin [] := fun _ mem => absurd mem List.not_mem_nil
  split_ifs with first second
  · -- the stack of the signature script is saved
    refine skipEmptyScript_bounded ⟨⟨within.1, emptied⟩, fun x mem => within.1 x (List.mem_reverse.mp mem), ?_, ?_⟩
    · simpa using (Nat.le_add_right _ _).trans depth
    · simpa using (Nat.le_add_right _ _).trans depth
  · -- the redeem script is pulled out of the saved stack
    unfold runRedeemScript
    refine ((checkErrorCondition_post false ?_).imp (fun _ h _ => h) fun _ h => h).bind fun _ _ => ?_
    · exact within.1
    split
    · rename_i none
      exact fun ready => absurd (List.getLast?_eq_none_iff.mp none) (ready second.2 second.1)
    refine ((post_mapError_script _).imp (fun _ h _ => h) fun _ h => h).bind fun pops _ => ?_
    have below : ∀ x ∈ vm.savedFirstStack.dropLast.reverse, x ∈ vm.savedFirstStack := fun x mem =>
      List.mem_of_mem_dropLast (List.mem_reverse.mp mem)
    refine skipEmptyScript_bounded ⟨⟨saved.of_subset below, emptied⟩, saved, ?_, savedDepth⟩
    simp only [List.length_reverse, List.length_dropLast, List.length_nil, add_zero]
    omega
  · refine skipEmptyScript_bounded ⟨⟨within.1, emptied⟩, saved, ?_, savedDepth⟩
    simpa using (Nat.le_add_right _ _).trans depth

theorem afterOpcode_post (within : vm.st.Within) (saved : ItemsWithin vm.savedFirstStack)
    (savedDepth : vm.savedFirstStack.length ≤ maxStackSize) :
    Post (fun e => (vm.isP2SH = true → vm.scriptIdx = 1 → (vm.scripts.getD vm.scriptIdx []).length ≤ vm.scriptOff →
        vm.savedFirstStack ≠ []) → e.NotPanic)
      (fun r : Bool × Engine => Bounded r.2) (afterOpcode vm) := by
  unfold afterOpcode
  split
  · exact fun _ => trivial
  rename_i fits
  split
  · rename_i ended
    exact (nextScript_post within saved (not_lt.mp fits) savedDepth).imp
      (fun _ h ready => h fun p2sh one => ready p2sh one ended) fun _ h => h
  · exact ⟨within, saved, not_lt.mp fits, savedDepth⟩

theorem currentOpcode_post : Post EngineError.NotPanic (fun _ => True) (currentOpcode vm) := by
  unfold currentOpcode
  split
  · trivial
  · split <;> trivial

/-- A pay-to-script-hash spend about to end its public key script has saved the
stack of its signature script. -/
def RedeemReady (vm : Engine) : Prop :=
  vm.isP2SH = true → vm.scriptIdx = 1 → (vm.scripts.getD 1 []).length ≤ vm.scriptOff + 1 → vm.savedFirstStack ≠ []

/-- A step keeps the bounds, and panics only where a pay-to-script-hash spend
would pull its redeem script out of an empty saved stack. -/
theorem step_post (bounded : Bounded vm) :
    Post (fun e => RedeemReady vm → e.NotPanic) (fun r : Bool × Engine => Bounded r.2) (step env vm) := by
  unfold step
  refine (currentOpcode_post.imp (fun _ h _ => h) fun _ h => h).bind fun pop _ => ?_
  refine Except.Post.bind_ok ((executeOpcode_post ?_).imp (fun _ h _ => h) fun _ h => h) fun executed ran within => ?_
  · exact bounded.within
  obtain ⟨scripts, index, offset, p2sh, saved⟩ := step_fields ran
  refine (afterOpcode_post within (saved ▸ bounded.saved) (saved ▸ bounded.savedDepth)).imp ?_ fun _ h => h
  intro e notPanic ready
  refine notPanic fun p2sh' one ended => ?_
  have one' : vm.scriptIdx = 1 := index ▸ one
  rw [scripts, index, offset, one'] at ended
  exact saved ▸ ready (p2sh ▸ p2sh') one' ended

theorem step_isP2SH {vm' : Engine} {done : Bool} (h : step env vm = .ok (done, vm')) :
    vm'.isP2SH = vm.isP2SH := by
  obtain ⟨pop, executed, -, execution, moved⟩ := step_cases h
  obtain ⟨-, -, -, p2sh, -⟩ := step_fields execution
  rcases moved with ⟨-, -, rfl⟩ | ⟨-, next⟩
  · exact p2sh
  unfold nextScript at next
  split_ifs at next
  obtain ⟨moved, advanced, finished⟩ := Except.map_eq_ok.mp next
  obtain ⟨-, rfl⟩ := Prod.mk.inj finished
  obtain ⟨-, -, same, -⟩ := advanceScript_cases advanced
  unfold skipEmptyScript
  split_ifs <;> exact same.trans p2sh

end Steps

/-! ## Runs -/

/-- The loop rule: an invariant every step keeps, and a kind of error no step
from it fails with, hold of the loop. -/
theorem executeLoop_post {env : Env} {Inv : Engine → Prop} {P : EngineError → Prop}
    (keep : ∀ vm, Inv vm → Post P (fun r : Bool × Engine => Inv r.2) (step env vm)) :
    ∀ vm, Inv vm → Post P Inv (executeLoop env vm) := by
  intro vm
  induction vm using executeLoop.induct env with
  | case1 vm e failed =>
    intro h
    rw [executeLoop, failed]
    exact (keep vm h).of_error failed
  | case2 vm vm' ended =>
    intro h
    rw [executeLoop, ended]
    exact (keep vm h).of_ok ended
  | case3 vm vm' continued ih =>
    intro h
    rw [executeLoop, continued]
    exact ih ((keep vm h).of_ok continued)

theorem newEngine_empty {scriptPubKey : ScriptPublicKey} {signatureScripts : List (List UInt8)} {txIdx : ℤ}
    {vm : Engine} (h : newEngine scriptPubKey signatureScripts txIdx = .ok vm) :
    vm.st.dstack = [] ∧ vm.st.astack = [] ∧ vm.savedFirstStack = [] := by
  unfold newEngine at h
  split at h
  · cases h
  split at h
  · cases h
  split at h
  · cases h
  simp only at h
  split at h
  · cases h
    exact ⟨rfl, rfl, rfl⟩
  obtain ⟨_, -, h⟩ := Except.bind_eq_ok.mp h
  split at h
  · cases h
  obtain ⟨_, -, h⟩ := Except.bind_eq_ok.mp h
  split at h <;> split at h <;> cases h <;> exact ⟨rfl, rfl, rfl⟩

theorem Bounded.empty {vm : Engine} (fresh : vm.st.dstack = [] ∧ vm.st.astack = [] ∧ vm.savedFirstStack = []) :
    Bounded vm := by
  obtain ⟨dstack, astack, saved⟩ := fresh
  refine ⟨⟨?_, ?_⟩, ?_, ?_, ?_⟩ <;> simp [ItemsWithin, dstack, astack, saved, maxStackSize]

/-- Every state a run reaches from a new engine keeps the bounds. -/
theorem newEngine_bounded {scriptPubKey : ScriptPublicKey} {signatureScripts : List (List UInt8)} {txIdx : ℤ}
    {env : Env} {vm vm' : Engine} {flags : List Bool} (created : newEngine scriptPubKey signatureScripts txIdx = .ok vm)
    (run : Trace (Steps env) vm flags vm') : Bounded vm' :=
  run.invariant (Bounded.empty (newEngine_empty created)) fun _ _ _ bounded stepped =>
    (step_post bounded).of_ok stepped

theorem newEngine_bounded_inElse :
    let inElse : Engine := ⟨0, ifElseScripts, 1, 3, ⟨[[1]], [], 2⟩, [.opCondFalse], false, []⟩
    newEngine ⟨[0x63, 0x51, 0x67, 0x6a, 0x68], 0⟩ [[0x51]] 0 = .ok ifElseEngine ∧
      Trace (Steps testEnv) ifElseEngine [false, false, false, false] inElse ∧ Bounded inElse := by
  intro inElse
  have created : newEngine ⟨[0x63, 0x51, 0x67, 0x6a, 0x68], 0⟩ [[0x51]] 0 = .ok ifElseEngine := rfl
  have run : Trace (Steps testEnv) ifElseEngine [false, false, false, false] inElse :=
    Trace.cons rfl (Trace.cons rfl (Trace.cons rfl (Trace.single rfl)))
  exact ⟨created, run, newEngine_bounded created run⟩

/-- A spend stands ready for its redeem script in every stage. -/
theorem PayToScriptHashStage.redeemReady {env : Env} {first : List (List ParsedOpcode)} {hash : List UInt8}
    (template : first.getD 1 [] = [⟨opBlake2b, []⟩, ⟨opData32, hash⟩, ⟨opEqual, []⟩]) {vm : Engine}
    (stage : PayToScriptHashStage env first hash vm) : RedeemReady vm := by
  intro _ one ended
  cases stage with
  | signature _ _ index => omega
  | redeem _ _ _ index => omega
  | publicKey _ scripts _ _ progress =>
    rw [scripts, template] at ended
    generalize vm.scriptOff = k at progress ended
    match k, progress with
    | 0, _ | 1, _ => simp at ended
    | 2, ⟨_, _, below, _⟩ =>
      intro empty
      simp [empty] at below
    | _ + 3, progress => exact progress.elim

/-- A loop from bounded states that a step invariant keeps ready for the redeem
script never panics. -/
theorem executeLoop_notPanic {env : Env} {Inv : Engine → Prop}
    (keep : ∀ vm vm' done, Inv vm → step env vm = .ok (done, vm') → Inv vm') (ready : ∀ vm, Inv vm → RedeemReady vm)
    {vm : Engine} (bounded : Bounded vm) (h : Inv vm) :
    Post EngineError.NotPanic (fun final => Bounded final ∧ Inv final) (executeLoop env vm) := by
  refine executeLoop_post (fun vm invariant => ?_) vm ⟨bounded, h⟩
  exact ((step_post invariant.1).and_ok fun r stepped => keep vm r.2 r.1 invariant.2 stepped).imp
    (fun _ notPanic => notPanic (ready vm invariant.2)) fun _ h => h

/-- `Execute` on a new engine never panics: the arithmetic of the numeric opcodes
never overflows, every item stays short enough for `OP_SIZE`, and a
pay-to-script-hash spend pulls its redeem script out of a saved stack that
holds it. -/
theorem newEngine_execute_notPanic {scriptPubKey : ScriptPublicKey} {signatureScripts : List (List UInt8)}
    {txIdx : ℤ} {env : Env} {vm : Engine} (created : newEngine scriptPubKey signatureScripts txIdx = .ok vm)
    (message : String) : execute env vm ≠ .error (.panic message) := by
  have start := Bounded.empty (newEngine_empty created)
  have loop : Post EngineError.NotPanic Bounded (executeLoop env vm) := by
    cases p2sh : vm.isP2SH
    · -- a spend that is not pay-to-script-hash never pulls a redeem script
      refine (@executeLoop_notPanic env (fun vm => vm.isP2SH = false) ?_ ?_ vm start p2sh).imp
        (fun _ h => h) fun _ h => h.1
      · intro vm vm' done stays stepped
        exact (step_isP2SH stepped).trans stays
      · intro vm stays p2sh'
        rw [stays] at p2sh'
        cases p2sh'
    · obtain ⟨hash, -, two, template, stage⟩ := @newEngine_payToScriptHash_start _ _ _ env _ created p2sh
      exact (executeLoop_notPanic (fun _ _ _ staged stepped => staged.step two template stepped)
        (fun _ staged => staged.redeemReady template) start stage).imp (fun _ h => h) fun _ h => h.1
  unfold execute
  split
  · exact fun failed => by cases failed
  intro failed
  exact ((loop.bind fun final bounded => checkErrorCondition_post true bounded.within.1).of_error failed : False)

theorem newEngine_execute_notPanic_pushOne :
    let scriptPubKey : ScriptPublicKey := ⟨opBlake2b :: opData32 :: (List.replicate 32 0 ++ [opEqual]), 0⟩
    newEngine scriptPubKey [[0x01, op1]] 0 = .ok payToScriptHashEngine ∧
      execute testEnv payToScriptHashEngine ≠ .error (.panic indexOutOfRangePanic) := by
  intro scriptPubKey
  have created : newEngine scriptPubKey [[0x01, op1]] 0 = .ok payToScriptHashEngine := rfl
  exact ⟨created, newEngine_execute_notPanic created _⟩

end Cryptixd.Txscript
