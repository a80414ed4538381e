import Mathlib
import Cryptixd.Txscript.Opcode
import Cryptixd.Atomic.Owner

/-!
# The script engine

`txscript/engine.go`: the engine runs the signature script, then the public
key script, and for a pay-to-script-hash spend the redeem script that the
signature script pushed last, one opcode per `Step`.  The condition stack
records, for each `OP_IF` or `OP_NOTIF` still open, whether its branch runs
(`OpCondTrue`), is passed over (`OpCondFalse`), or lies inside a branch passed
over (`OpCondSkip`); a branch executes when the top entry is `OpCondTrue`.
The model keeps the condition stack, like the data stacks, top first.

`executeOpcode` fails on a disabled or always-illegal opcode and counts
operations even in a branch that does not run; only the conditionals are
executed there.  At the end of each script the conditionals must be closed, the
alt stack and the count start afresh, and an empty next script is passed over.

Each step takes an opcode of the scripts the engine holds or ends a script,
and the redeem script is appended once, so `Execute` terminates: the loop is
defined by well-founded recursion on what the engine has still to run
(`step_remaining`).
-/

set_option autoImplicit false

namespace Cryptixd.Txscript

open Cryptixd.Atomic (ScriptPublicKey maxScriptPublicKeyVersion)

def maxStackSize : Nat := 244

/-- `OpCondFalse`, `OpCondTrue` and `OpCondSkip`. -/
inductive CondValue where
  | opCondFalse | opCondTrue | opCondSkip
  deriving DecidableEq, Repr

/-- `Engine`.  The transaction and the signature caches are read only by the
opcodes, through `Env`; `scriptVersion` is the version of the public key script. -/
structure Engine where
  scriptVersion : UInt16
  scripts : List (List ParsedOpcode)
  scriptIdx : Nat
  scriptOff : Nat
  st : Stacks
  condStack : List CondValue
  isP2SH : Bool
  savedFirstStack : List (List UInt8)

namespace Engine

def isBranchExecuting (vm : Engine) : Bool :=
  match vm.condStack with
  | [] => true
  | c :: _ => c == .opCondTrue

end Engine

def ParsedOpcode.isDisabled (pop : ParsedOpcode) : Bool :=
  let value := pop.opcode
  value == opCat || value == opSubStr || value == opLeft || value == opRight ||
    value == opInvert || value == opAnd || value == opOr || value == opXor ||
    value == op2Mul || value == op2Div || value == opMul || value == opDiv || value == opMod ||
    value == opLShift || value == opRShift

def ParsedOpcode.alwaysIllegal (pop : ParsedOpcode) : Bool :=
  pop.opcode == opVerIf || pop.opcode == opVerNotIf

def ParsedOpcode.isConditional (pop : ParsedOpcode) : Bool :=
  pop.opcode == opIf || pop.opcode == opNotIf || pop.opcode == opElse || pop.opcode == opEndIf

/-! ## The conditionals -/

def popIfBool (stk : List (List UInt8)) : Except EngineError (Bool × List (List UInt8)) := do
  let (so, stk) ← popByteArray stk
  if so.length = 1 ∧ so.headD 0 = 0x01 then return (true, stk)
  if so.length = 0 then return (false, stk)
  throw (.code .errMinimalIf)

/-- `opcodeIf` and `opcodeNotIf`: on an executing branch the popped boolean,
negated for `OP_NOTIF`, decides whether the new branch runs; on another the new
branch is passed over with it. -/
def conditionalIf (negate : Bool) (vm : Engine) : Except EngineError Engine :=
  if vm.isBranchExecuting then do
    let (ok, dstack) ← popIfBool vm.st.dstack
    let condVal := if ok != negate then CondValue.opCondTrue else .opCondFalse
    return { vm with st := { vm.st with dstack }, condStack := condVal :: vm.condStack }
  else .ok { vm with condStack := .opCondSkip :: vm.condStack }

def opcodeIf : Engine → Except EngineError Engine := conditionalIf false

def opcodeNotIf : Engine → Except EngineError Engine := conditionalIf true

/-- The switch of `opcodeElse`: a branch that ran is passed over and one
passed over runs, unless it lies inside a branch passed over. -/
def CondValue.inverted : CondValue → CondValue
  | .opCondTrue => .opCondFalse
  | .opCondFalse => .opCondTrue
  | .opCondSkip => .opCondSkip

def opcodeElse (vm : Engine) : Except EngineError Engine :=
  match vm.condStack with
  | [] => .error (.code .errUnbalancedConditional)
  | condVal :: rest => .ok { vm with condStack := condVal.inverted :: rest }

def opcodeEndif (vm : Engine) : Except EngineError Engine :=
  match vm.condStack with
  | [] => .error (.code .errUnbalancedConditional)
  | _ :: rest => .ok { vm with condStack := rest }

def opfunc (env : Env) (pop : ParsedOpcode) (vm : Engine) : Except EngineError Engine :=
  if pop.opcode = opIf then opcodeIf vm
  else if pop.opcode = opNotIf then opcodeNotIf vm
  else if pop.opcode = opElse then opcodeElse vm
  else if pop.opcode = opEndIf then opcodeEndif vm
  else do
    let st ← opcodeFunction env pop vm.st
    return { vm with st }

/-! ## Steps -/

/-- The count of operations and the size of pushed data, checked by
`executeOpcode` on every opcode the program counter passes. -/
def countOperation (pop : ParsedOpcode) (vm : Engine) : Except EngineError Engine :=
  if pop.opcode > op16 then
    if vm.st.numOps + 1 > maxOpsPerScript then .error (.code .errTooManyOperations)
    else .ok { vm with st := { vm.st with numOps := vm.st.numOps + 1 } }
  else if pop.data.length > maxScriptElementSize then .error (.code .errElementTooBig)
  else .ok vm

/-- The part of `executeOpcode` after the checks every passed opcode gets: on a
branch that does not run only the conditionals are executed, and an executed
push must be minimal. -/
def runOpcode (env : Env) (pop : ParsedOpcode) (vm : Engine) : Except EngineError Engine :=
  if !vm.isBranchExecuting && !pop.isConditional then .ok vm
  else if vm.isBranchExecuting && pop.opcode ≠ 0 && pop.opcode ≤ opPushData4 then
    pop.checkMinimalDataPush.mapError .script >>= fun _ => opfunc env pop vm
  else opfunc env pop vm

def executeOpcode (env : Env) (pop : ParsedOpcode) (vm : Engine) : Except EngineError Engine :=
  if pop.isDisabled then .error (.code .errDisabledOpcode)
  else if pop.alwaysIllegal then .error (.code .errReservedOpcode)
  else countOperation pop vm >>= runOpcode env pop

def currentOpcode (vm : Engine) : Except EngineError ParsedOpcode :=
  match vm.scripts[vm.scriptIdx]? with
  | none => .error (.code .errInvalidProgramCounter)
  | some script =>
    match script[vm.scriptOff]? with
    | none => .error (.code .errInvalidProgramCounter)
    | some pop => .ok pop

def checkErrorCondition (finalScript : Bool) (vm : Engine) : Except EngineError Unit :=
  if vm.scriptIdx < vm.scripts.length then .error (.code .errScriptUnfinished)
  else if finalScript ∧ vm.st.dstack.length > 1 then .error (.code .errCleanStack)
  else if finalScript ∧ vm.st.dstack.length < 1 then .error (.code .errEmptyStack)
  else popBool vm.st.dstack >>= fun (v, _) => if !v then .error (.code .errEvalFalse) else .ok ()

/-- After the public key script of a pay-to-script-hash spend: it must have
left true, and the script the signature script pushed last is parsed and
appended, to run on the items below it. -/
def runRedeemScript (vm : Engine) : Except EngineError Engine :=
  checkErrorCondition false vm >>= fun _ =>
    match vm.savedFirstStack.getLast? with
    | none => .error (.panic indexOutOfRangePanic)
    | some script =>
      (parseScript script).mapError .script >>= fun pops =>
        .ok { vm with scripts := vm.scripts ++ [pops],
                      st := { vm.st with dstack := vm.savedFirstStack.dropLast.reverse } }

/-- The move to the next script: after the signature script of a
pay-to-script-hash spend its stack is saved, after the public key script the
redeem script is appended. -/
def advanceScript (vm : Engine) : Except EngineError Engine :=
  if vm.scriptIdx = 0 ∧ vm.isP2SH then
    .ok { vm with scriptIdx := vm.scriptIdx + 1, savedFirstStack := vm.st.dstack.reverse }
  else if vm.scriptIdx = 1 ∧ vm.isP2SH then runRedeemScript { vm with scriptIdx := vm.scriptIdx + 1 }
  else .ok { vm with scriptIdx := vm.scriptIdx + 1 }

def skipEmptyScript (vm : Engine) : Engine :=
  if vm.scriptIdx < vm.scripts.length ∧ vm.scriptOff ≥ (vm.scripts.getD vm.scriptIdx []).length then
    { vm with scriptIdx := vm.scriptIdx + 1 }
  else vm

/-- The end of a script in `Step`: the conditionals must be closed, the alt
stack and the count of operations start afresh, and the next script begins.
The flag says whether the scripts are done. -/
def nextScript (vm : Engine) : Except EngineError (Bool × Engine) :=
  if vm.condStack ≠ [] then .error (.code .errUnbalancedConditional)
  else
    (advanceScript { vm with st := { vm.st with astack := [], numOps := 0 }, scriptOff := 0 }).map
      fun vm => (decide ((skipEmptyScript vm).scriptIdx ≥ (skipEmptyScript vm).scripts.length),
        skipEmptyScript vm)

def afterOpcode (vm : Engine) : Except EngineError (Bool × Engine) :=
  if vm.st.dstack.length + vm.st.astack.length > maxStackSize then .error (.code .errStackOverflow)
  else if vm.scriptOff ≥ (vm.scripts.getD vm.scriptIdx []).length then nextScript vm
  else .ok (false, vm)

def step (env : Env) (vm : Engine) : Except EngineError (Bool × Engine) :=
  currentOpcode vm >>= fun pop =>
    executeOpcode env pop { vm with scriptOff := vm.scriptOff + 1 } >>= afterOpcode

/-! ## What a step leaves in place -/

section Frame

variable {env : Env} {pop : ParsedOpcode} {vm vm' : Engine}

def Engine.SamePlace (vm vm' : Engine) : Prop :=
  vm' = { vm with st := vm'.st, condStack := vm'.condStack }

theorem Engine.SamePlace.refl (vm : Engine) : vm.SamePlace vm := rfl

theorem Engine.SamePlace.trans {vm₁ vm₂ vm₃ : Engine} (h₁ : vm₁.SamePlace vm₂) (h₂ : vm₂.SamePlace vm₃) :
    vm₁.SamePlace vm₃ := by
  unfold Engine.SamePlace at *
  rw [h₂, h₁]

theorem conditionalIf_samePlace {negate : Bool} (h : conditionalIf negate vm = .ok vm') : vm.SamePlace vm' := by
  unfold conditionalIf at h
  split at h
  · obtain ⟨⟨ok, dstack⟩, -, done⟩ := Except.bind_eq_ok.mp h
    cases done
    rfl
  · cases h
    rfl

theorem opcodeElse_samePlace (h : opcodeElse vm = .ok vm') : vm.SamePlace vm' := by
  unfold opcodeElse at h
  split at h
  · cases h
  · cases h
    rfl

theorem opcodeEndif_samePlace (h : opcodeEndif vm = .ok vm') : vm.SamePlace vm' := by
  unfold opcodeEndif at h
  split at h
  · cases h
  · cases h
    rfl

theorem opfunc_samePlace (h : opfunc env pop vm = .ok vm') : vm.SamePlace vm' := by
  unfold opfunc at h
  split_ifs at h
  · exact conditionalIf_samePlace h
  · exact conditionalIf_samePlace h
  · exact opcodeElse_samePlace h
  · exact opcodeEndif_samePlace h
  · obtain ⟨st, -, done⟩ := Except.bind_eq_ok.mp h
    cases done
    rfl

theorem countOperation_samePlace (h : countOperation pop vm = .ok vm') : vm.SamePlace vm' := by
  unfold countOperation at h
  split_ifs at h <;> cases h <;> rfl

theorem runOpcode_samePlace (h : runOpcode env pop vm = .ok vm') : vm.SamePlace vm' := by
  unfold runOpcode at h
  split_ifs at h
  · cases h
    rfl
  · obtain ⟨_, -, ran⟩ := Except.bind_eq_ok.mp h
    exact opfunc_samePlace ran
  · exact opfunc_samePlace h

theorem executeOpcode_samePlace (h : executeOpcode env pop vm = .ok vm') : vm.SamePlace vm' := by
  unfold executeOpcode at h
  split_ifs at h
  obtain ⟨counted, count, ran⟩ := Except.bind_eq_ok.mp h
  exact (countOperation_samePlace count).trans (runOpcode_samePlace ran)

end Frame

/-! ## Termination -/

/-- What an engine has still to run: whether a redeem script is still to be
appended, and the opcodes left in the scripts it holds. -/
def Engine.remaining (vm : Engine) : ℕ × ℕ :=
  (if vm.isP2SH ∧ vm.scriptIdx ≤ 1 then 1 else 0,
    ((vm.scripts.drop vm.scriptIdx).map List.length).sum - vm.scriptOff)

theorem sum_drop_eq {α : Type*} (scripts : List (List α)) (i : ℕ) :
    ((scripts.drop i).map List.length).sum =
      (scripts.getD i []).length + ((scripts.drop (i + 1)).map List.length).sum := by
  induction scripts generalizing i with
  | nil => simp
  | cons script rest ih =>
    cases i with
    | zero => simp
    | succ i => simpa using ih i

theorem currentOpcode_lt {pop : ParsedOpcode} {vm : Engine} (h : currentOpcode vm = .ok pop) :
    vm.scriptOff < (vm.scripts.getD vm.scriptIdx []).length := by
  unfold currentOpcode at h
  split at h
  · cases h
  · rename_i script found
    split at h
    · cases h
    · rename_i at_
      rw [List.getD_eq_getElem?_getD, found, Option.getD_some]
      exact (List.getElem?_eq_some_iff.mp at_).1

theorem pending_anti (p : Bool) {i j : ℕ} (le : i ≤ j) :
    (if p = true ∧ j ≤ 1 then 1 else 0) ≤ (if p = true ∧ i ≤ 1 then 1 else 0) := by
  cases p <;> simp only [Bool.false_eq_true, false_and, if_false, le_refl, true_and]
  split_ifs <;> omega

theorem prodLex_of_le {x y : ℕ × ℕ} (first : x.1 ≤ y.1) (second : x.1 = y.1 → x.2 < y.2) :
    Prod.Lex (· < ·) (· < ·) x y := by
  obtain ⟨a', b'⟩ := x
  obtain ⟨a, b⟩ := y
  rcases Nat.lt_or_eq_of_le first with lt | same
  · exact .left _ _ lt
  · simp only at same
    subst same
    exact .right _ (second rfl)

theorem advanceScript_cases {vm vm' : Engine} (h : advanceScript vm = .ok vm') :
    vm'.scriptIdx = vm.scriptIdx + 1 ∧ vm'.scriptOff = vm.scriptOff ∧ vm'.isP2SH = vm.isP2SH ∧
      (vm'.scripts = vm.scripts ∨ (vm.scriptIdx = 1 ∧ vm.isP2SH = true)) := by
  unfold advanceScript at h
  split_ifs at h with first second
  · cases h
    exact ⟨rfl, rfl, rfl, .inl rfl⟩
  · obtain ⟨-, -, appended⟩ := Except.bind_eq_ok.mp h
    split at appended
    · cases appended
    · obtain ⟨pops, -, done⟩ := Except.bind_eq_ok.mp appended
      cases done
      exact ⟨rfl, rfl, rfl, .inr second⟩
  · cases h
    exact ⟨rfl, rfl, rfl, .inl rfl⟩

theorem remaining_skipEmptyScript (vm : Engine) (start : vm.scriptOff = 0) :
    (skipEmptyScript vm).remaining.1 ≤ vm.remaining.1 ∧
      (skipEmptyScript vm).remaining.2 ≤ vm.remaining.2 := by
  unfold skipEmptyScript
  split_ifs with empty
  · have split := sum_drop_eq vm.scripts vm.scriptIdx
    simp only [Engine.remaining, start] at split ⊢
    exact ⟨pending_anti _ (Nat.le_succ _), by omega⟩
  · exact ⟨le_rfl, le_rfl⟩

theorem nextScript_remaining {vm vm' : Engine} (h : nextScript vm = .ok (false, vm'))
    (ended : vm.scriptOff = (vm.scripts.getD vm.scriptIdx []).length) :
    Prod.Lex (· < ·) (· < ·) vm'.remaining (vm.remaining.1, vm.remaining.2 + 1) := by
  unfold nextScript at h
  split_ifs at h
  obtain ⟨moved, advanced, finished⟩ := Except.map_eq_ok.mp h
  obtain ⟨-, rfl⟩ := Prod.mk.inj finished
  obtain ⟨index, start, p2sh, scripts⟩ := advanceScript_cases advanced
  simp only at index start p2sh scripts
  obtain ⟨skipFirst, skipSecond⟩ := remaining_skipEmptyScript moved start
  have split := sum_drop_eq vm.scripts vm.scriptIdx
  rcases scripts with same | ⟨one, p2shSpend⟩
  · have movedFirst : moved.remaining.1 ≤ vm.remaining.1 := by
      simp only [Engine.remaining, index, p2sh]
      exact pending_anti _ (Nat.le_succ _)
    have movedSecond : moved.remaining.2 = ((vm.scripts.drop (vm.scriptIdx + 1)).map List.length).sum := by
      simp only [Engine.remaining, index, start, same, Nat.sub_zero]
    have vmSecond : vm.remaining.2 = ((vm.scripts.drop (vm.scriptIdx + 1)).map List.length).sum := by
      simp only [Engine.remaining]
      omega
    exact prodLex_of_le (skipFirst.trans movedFirst) fun _ => by simp only; omega
  · have after : moved.remaining.1 = 0 := by
      simp only [Engine.remaining, index, one]
      split_ifs <;> omega
    have before : vm.remaining.1 = 1 := by
      simp [Engine.remaining, one, p2shSpend]
    exact prodLex_of_le (by simp only; omega) fun same => by simp only at same; omega

theorem step_remaining {env : Env} {vm vm' : Engine} (h : step env vm = .ok (false, vm')) :
    Prod.Lex (· < ·) (· < ·) vm'.remaining vm.remaining := by
  obtain ⟨pop, current, h⟩ := Except.bind_eq_ok.mp h
  obtain ⟨executed, execution, after⟩ := Except.bind_eq_ok.mp h
  have inScript := currentOpcode_lt current
  have place := executeOpcode_samePlace execution
  have split := sum_drop_eq vm.scripts vm.scriptIdx
  have fields : executed.scripts = vm.scripts ∧ executed.scriptIdx = vm.scriptIdx ∧
      executed.scriptOff = vm.scriptOff + 1 ∧ executed.isP2SH = vm.isP2SH := by
    rw [place]
    exact ⟨rfl, rfl, rfl, rfl⟩
  obtain ⟨scripts, index, offset, p2sh⟩ := fields
  have executedRemaining : executed.remaining = (vm.remaining.1, vm.remaining.2 - 1) := by
    simp only [Engine.remaining, scripts, index, offset, p2sh, Nat.sub_sub]
  unfold afterOpcode at after
  split_ifs at after with overflow ended
  · have last : vm.remaining = (executed.remaining.1, executed.remaining.2 + 1) := by
      rw [executedRemaining]
      simp only [Engine.remaining] at split ⊢
      congr 1
      omega
    rw [last]
    exact nextScript_remaining after (by rw [scripts, index, offset] at ended ⊢; omega)
  · cases after
    rw [executedRemaining]
    exact prodLex_of_le le_rfl fun _ => by simp only [Engine.remaining] at split ⊢; omega

def executeLoop (env : Env) (vm : Engine) : Except EngineError Engine :=
  match _h : step env vm with
  | .error e => .error e
  | .ok (true, vm') => .ok vm'
  | .ok (false, vm') => executeLoop env vm'
termination_by vm.remaining
decreasing_by exact step_remaining _h

def execute (env : Env) (vm : Engine) : Except EngineError Unit :=
  if vm.scriptVersion > maxScriptPublicKeyVersion then .ok ()
  else do
    let vm ← executeLoop env vm
    checkErrorCondition true vm

/-! ## A new engine -/

def parseScriptAndVerifySize (script : List UInt8) : Except EngineError (List ParsedOpcode) :=
  if script.length > maxScriptSize then .error (.code .errScriptTooBig)
  else (parseScript script).mapError .script

def isPushOnly (pops : List ParsedOpcode) : Bool := pops.all fun pop => pop.opcode ≤ op16

def newEngine (scriptPubKey : ScriptPublicKey) (signatureScripts : List (List UInt8)) (txIdx : Int) :
    Except EngineError Engine :=
  if txIdx < 0 then .error (.code .errInvalidIndex)
  else
    match signatureScripts[txIdx.toNat]? with
    | none => .error (.code .errInvalidIndex)
    | some scriptSig =>
      if scriptSig.length = 0 ∧ scriptPubKey.script.length = 0 then .error (.code .errEvalFalse)
      else
        let vm : Engine := ⟨scriptPubKey.version, [], 0, 0, ⟨[], [], 0⟩, [], false, []⟩
        if vm.scriptVersion > maxScriptPublicKeyVersion then .ok vm
        else
          parseScriptAndVerifySize scriptSig >>= fun parsedScriptSig =>
          if !isPushOnly parsedScriptSig then .error (.code .errNotPushOnly)
          else
            parseScriptAndVerifySize scriptPubKey.script >>= fun parsedScriptPubKey =>
            let vm := { vm with scripts := [parsedScriptSig, parsedScriptPubKey] }
            -- an empty signature script is not run
            let vm := if scriptSig.length = 0 then { vm with scriptIdx := vm.scriptIdx + 1 } else vm
            if isScriptHash parsedScriptPubKey then
              if !isPushOnly parsedScriptSig then .error (.code .errNotPushOnly)
              else .ok { vm with isP2SH := true }
            else .ok vm

end Cryptixd.Txscript

