import Mathlib
import Cryptixd.Txscript.EngineRun

/-!
# Pay-to-script-hash spends

A public key script `OP_BLAKE2B <32 bytes> OP_EQUAL` commits to the BLAKE2b
hash of a redeem script.  After the signature script the engine saves its
stack and runs the public key script on it; when that leaves true, the item
the signature script pushed last is parsed and run as a third script.

`PayToScriptHashStage` says where such a spend stands after every step, and
`newEngine_payToScriptHash` that every spend the engine runs to the end ran,
as its third script, a redeem script whose hash is the one committed.
-/

set_option autoImplicit false

namespace Cryptixd.Txscript

open Transition
open Cryptixd.Atomic (ScriptPublicKey)

/-! ## The opcodes of the public key script -/

theorem opcodeFunction_blake2b {env : Env} {pop : ParsedOpcode} (h : pop.opcode = opBlake2b) :
    opcodeFunction env pop = opcodeBlake2b env := by
  unfold opcodeFunction
  simp only [h]
  rfl

theorem opcodeFunction_data32 {env : Env} {pop : ParsedOpcode} (h : pop.opcode = opData32) :
    opcodeFunction env pop = opcodePushData pop := by
  unfold opcodeFunction
  simp only [h]
  rfl

theorem opcodeFunction_equal {env : Env} {pop : ParsedOpcode} (h : pop.opcode = opEqual) :
    opcodeFunction env pop = opcodeEqual := by
  unfold opcodeFunction
  simp only [h]
  rfl

theorem popByteArray_eq_ok {stk rest : List (List UInt8)} {x : List UInt8}
    (h : popByteArray stk = .ok (x, rest)) : stk = x :: rest := by
  cases stk with
  | nil =>
    rw [popByteArray_nil] at h
    cases h
  | cons y tail =>
    rw [popByteArray_cons] at h
    cases h
    rfl

theorem opcodeBlake2b_dstack {env : Env} {s s' : Stacks} (h : opcodeBlake2b env s = .ok s') :
    ∃ x rest, s.dstack = x :: rest ∧ s'.dstack = (env.blake2b x).toList :: rest := by
  obtain ⟨⟨x, rest⟩, popped, h⟩ := Except.bind_eq_ok.mp h
  cases h
  exact ⟨x, rest, popByteArray_eq_ok popped, rfl⟩

theorem opcodePushData_dstack {pop : ParsedOpcode} {s s' : Stacks} (h : opcodePushData pop s = .ok s') :
    s'.dstack = pop.data :: s.dstack := by
  cases h
  rfl

theorem opcodeEqual_dstack {s s' : Stacks} (h : opcodeEqual s = .ok s') :
    ∃ a b rest, s.dstack = a :: b :: rest ∧ s'.dstack = pushBool (a == b) rest := by
  obtain ⟨⟨a, dstack⟩, popped, h⟩ := Except.bind_eq_ok.mp h
  obtain ⟨⟨b, rest⟩, popped', h⟩ := Except.bind_eq_ok.mp h
  cases h
  rw [popByteArray_eq_ok popped, popByteArray_eq_ok popped']
  exact ⟨a, b, rest, rfl, rfl⟩

theorem executeOpcode_of_executing {env : Env} {pop : ParsedOpcode} {vm vm' : Engine}
    (h : executeOpcode env pop vm = .ok vm') (empty : vm.condStack = []) (plain : pop.isConditional = false) :
    vm'.condStack = [] ∧ ∃ s : Stacks, s.dstack = vm.st.dstack ∧ opcodeFunction env pop s = .ok vm'.st := by
  unfold executeOpcode at h
  split_ifs at h
  obtain ⟨counted, count, ran⟩ := Except.bind_eq_ok.mp h
  have place : counted.st.dstack = vm.st.dstack ∧ counted.condStack = vm.condStack := by
    unfold countOperation at count
    split_ifs at count <;> cases count <;> exact ⟨rfl, rfl⟩
  have executing : counted.isBranchExecuting = true := by
    simp [Engine.isBranchExecuting, place.2, empty]
  have called : opfunc env pop counted = .ok vm' := by
    unfold runOpcode at ran
    split_ifs at ran with skipped
    · simp [executing] at skipped
    · obtain ⟨_, -, ran⟩ := Except.bind_eq_ok.mp ran
      exact ran
    · exact ran
  simp only [ParsedOpcode.isConditional, Bool.or_eq_false_iff, beq_eq_false_iff_ne] at plain
  obtain ⟨⟨⟨notIf, notNotIf⟩, notElse⟩, notEndIf⟩ := plain
  unfold opfunc at called
  rw [if_neg notIf, if_neg notNotIf, if_neg notElse, if_neg notEndIf] at called
  obtain ⟨st, function, done⟩ := Except.bind_eq_ok.mp called
  cases done
  exact ⟨place.2.trans empty, counted.st, place.1, function⟩

@[simp] theorem asBool_fromBool (v : Bool) : asBool (fromBool v) = v := by
  cases v <;> rfl

theorem parseScript_of_isScriptHash {script : List UInt8} {pops : List ParsedOpcode}
    (parsed : parseScript script = .ok pops) (h : isScriptHash pops = true) :
    ∃ hash : List UInt8, script = opBlake2b :: opData32 :: (hash ++ [opEqual]) ∧
      pops = [⟨opBlake2b, []⟩, ⟨opData32, hash⟩, ⟨opEqual, []⟩] := by
  unfold isScriptHash at h
  split at h
  · rename_i first second third
    simp only [Bool.and_eq_true, beq_iff_eq] at h
    obtain ⟨⟨isBlake, isData⟩, isEqual⟩ := h
    obtain ⟨bytes, plain⟩ :=
      serialize_of_parseScriptFrom _ _ _ parsed (by simp [isBlake, isData, isEqual]; decide)
    have noneFirst := data_length_of_plain 0 (plain first (by simp)) (by rw [isBlake]; decide)
    have noneThird := data_length_of_plain 0 (plain third (by simp)) (by rw [isEqual]; decide)
    have first_eq : first = ⟨opBlake2b, []⟩ := by
      cases first
      simp_all
    have third_eq : third = ⟨opEqual, []⟩ := by
      cases third
      simp_all
    have second_eq : second = ⟨opData32, second.data⟩ := by
      cases second
      simp_all
    refine ⟨second.data, ?_, by rw [first_eq, third_eq, ← second_eq]⟩
    rw [bytes, first_eq, third_eq, second_eq]
    rfl
  · cases h

/-! ## The moves between scripts -/

theorem nextScript_signature {vm vm' : Engine} {done : Bool} (h : nextScript vm = .ok (done, vm'))
    (p2sh : vm.isP2SH = true) (index : vm.scriptIdx = 0) (next : vm.scripts.getD 1 [] ≠ []) :
    vm'.isP2SH = true ∧ vm'.scripts = vm.scripts ∧ vm'.scriptIdx = 1 ∧ vm'.scriptOff = 0 ∧ vm'.condStack = [] ∧
      vm'.savedFirstStack = vm.st.dstack.reverse ∧ vm'.st.dstack = vm.st.dstack := by
  unfold nextScript at h
  split_ifs at h with open_
  simp only [ne_eq, Decidable.not_not] at open_
  obtain ⟨moved, advanced, finished⟩ := Except.map_eq_ok.mp h
  obtain ⟨-, rfl⟩ := Prod.mk.inj finished
  unfold advanceScript at advanced
  rw [if_pos ⟨index, p2sh⟩] at advanced
  cases advanced
  have notEmpty : 0 < (vm.scripts.getD 1 []).length := List.length_pos_iff.mpr next
  unfold skipEmptyScript
  rw [if_neg]
  · exact ⟨p2sh, rfl, by simp [index], rfl, open_, rfl, rfl⟩
  · simp only [index, zero_add, not_and, not_le]
    exact fun _ => notEmpty

/-- After the public key script, which must leave true, the redeem script the
signature script pushed last is parsed and appended. -/
theorem nextScript_publicKey {vm vm' : Engine} {done : Bool} (h : nextScript vm = .ok (done, vm'))
    (p2sh : vm.isP2SH = true) (index : vm.scriptIdx = 1) (scripts : vm.scripts.length = 2) :
    ∃ top rest redeem pops, vm.st.dstack = top :: rest ∧ asBool top = true ∧
      vm.savedFirstStack.getLast? = some redeem ∧ parseScript redeem = .ok pops ∧
      vm'.isP2SH = true ∧ 2 ≤ vm'.scriptIdx ∧ vm'.scripts = vm.scripts ++ [pops] := by
  unfold nextScript at h
  split_ifs at h
  obtain ⟨moved, advanced, finished⟩ := Except.map_eq_ok.mp h
  obtain ⟨-, rfl⟩ := Prod.mk.inj finished
  unfold advanceScript at advanced
  rw [if_neg (by simp [index]), if_pos ⟨index, p2sh⟩] at advanced
  unfold runRedeemScript at advanced
  obtain ⟨_, checked, advanced⟩ := Except.bind_eq_ok.mp advanced
  have top : ∃ top rest, vm.st.dstack = top :: rest ∧ asBool top = true := by
    unfold checkErrorCondition at checked
    simp only [index, scripts, lt_self_iff_false, if_false, Bool.false_eq_true, false_and] at checked
    obtain ⟨⟨verified, _⟩, popped, checked⟩ := Except.bind_eq_ok.mp checked
    cases stk : vm.st.dstack with
    | nil =>
      rw [stk] at popped
      cases popped
    | cons top rest =>
      rw [stk, show popBool (top :: rest) = .ok (asBool top, rest) by rw [popBool, popByteArray_cons]; rfl]
        at popped
      obtain ⟨rfl, -⟩ := Prod.mk.inj (Except.ok.inj popped)
      refine ⟨top, rest, rfl, ?_⟩
      cases truth : asBool top
      · simp [truth] at checked
      · rfl
  obtain ⟨top, rest, stk, truth⟩ := top
  split at advanced
  · cases advanced
  rename_i redeem last
  obtain ⟨pops, parsed, advanced⟩ := Except.bind_eq_ok.mp advanced
  cases advanced
  have parsed' : parseScript redeem = .ok pops := by
    cases parsing : parseScript redeem <;> rw [parsing] at parsed <;> cases parsed
    rfl
  refine ⟨top, rest, redeem, pops, stk, truth, last, parsed', ?_⟩
  unfold skipEmptyScript
  split_ifs <;> simp [index, p2sh]

theorem nextScript_scripts {vm vm' : Engine} {done : Bool} (h : nextScript vm = .ok (done, vm'))
    (index : vm.scriptIdx ≠ 1) :
    vm'.isP2SH = vm.isP2SH ∧ vm.scriptIdx < vm'.scriptIdx ∧ vm'.scripts = vm.scripts := by
  obtain ⟨-, -, -, -, later, -, -, -⟩ := nextScript_cases h
  have kept : vm'.isP2SH = vm.isP2SH ∧ vm'.scripts = vm.scripts := by
    unfold nextScript at h
    split_ifs at h
    obtain ⟨moved, advanced, finished⟩ := Except.map_eq_ok.mp h
    obtain ⟨-, rfl⟩ := Prod.mk.inj finished
    obtain ⟨-, -, p2sh, same | ⟨one, -⟩⟩ := advanceScript_cases advanced
    · simp only at p2sh same
      unfold skipEmptyScript
      split_ifs <;> exact ⟨p2sh, same⟩
    · exact absurd one index
  exact ⟨kept.1, later, kept.2⟩

/-! ## Stages -/

/-- How far the public key script has got, by its offset: what it has made of
the stack the signature script left, top first. -/
def PubKeyProgress (env : Env) (hash : List UInt8) : ℕ → List (List UInt8) → List (List UInt8) → Prop
  | 0, saved, dstack => dstack = saved.reverse
  | 1, saved, dstack => ∃ x rest, saved.reverse = x :: rest ∧ dstack = (env.blake2b x).toList :: rest
  | 2, saved, dstack => ∃ x rest, saved.reverse = x :: rest ∧ dstack = hash :: (env.blake2b x).toList :: rest
  | _, _, _ => False

/-- Where a pay-to-script-hash spend stands, `first` being its signature and
public key scripts and `hash` the hash the public key script commits to. -/
inductive PayToScriptHashStage (env : Env) (first : List (List ParsedOpcode)) (hash : List UInt8) :
    Engine → Prop
  | signature {vm : Engine} : vm.isP2SH = true → vm.scripts = first → vm.scriptIdx = 0 →
      PayToScriptHashStage env first hash vm
  | publicKey {vm : Engine} : vm.isP2SH = true → vm.scripts = first → vm.scriptIdx = 1 → vm.condStack = [] →
      PubKeyProgress env hash vm.scriptOff vm.savedFirstStack vm.st.dstack → PayToScriptHashStage env first hash vm
  | redeem {vm : Engine} (redeem : List UInt8) (pops : List ParsedOpcode) : vm.isP2SH = true →
      2 ≤ vm.scriptIdx → (env.blake2b redeem).toList = hash → parseScript redeem = .ok pops →
      vm.scripts = first ++ [pops] → PayToScriptHashStage env first hash vm

section Steps

variable {env : Env} {first : List (List ParsedOpcode)} {hash : List UInt8}

theorem step_fields {vm executed : Engine} {pop : ParsedOpcode}
    (execution : executeOpcode env pop { vm with scriptOff := vm.scriptOff + 1 } = .ok executed) :
    executed.scripts = vm.scripts ∧ executed.scriptIdx = vm.scriptIdx ∧ executed.scriptOff = vm.scriptOff + 1 ∧
      executed.isP2SH = vm.isP2SH ∧ executed.savedFirstStack = vm.savedFirstStack := by
  rw [executeOpcode_samePlace execution]
  exact ⟨rfl, rfl, rfl, rfl, rfl⟩

theorem step_signature (template : first.getD 1 [] = [⟨opBlake2b, []⟩, ⟨opData32, hash⟩, ⟨opEqual, []⟩])
    {vm vm' : Engine} {done : Bool} (h : step env vm = .ok (done, vm')) (p2sh : vm.isP2SH = true)
    (scripts : vm.scripts = first) (index : vm.scriptIdx = 0) : PayToScriptHashStage env first hash vm' := by
  obtain ⟨pop, executed, -, execution, moved⟩ := step_cases h
  obtain ⟨sameScripts, sameIndex, -, sameP2SH, -⟩ := step_fields execution
  rcases moved with ⟨-, -, rfl⟩ | ⟨-, next⟩
  · exact .signature (sameP2SH.trans p2sh) (sameScripts.trans scripts) (sameIndex.trans index)
  · obtain ⟨p2sh', scripts', index', start, empty, saved, dstack⟩ :=
      nextScript_signature next (sameP2SH.trans p2sh) (sameIndex.trans index)
        (by rw [sameScripts, scripts, template]; simp)
    refine .publicKey p2sh' (scripts'.trans (sameScripts.trans scripts)) index' empty ?_
    rw [start, saved, dstack]
    simp [PubKeyProgress]

theorem step_publicKey (two : first.length = 2)
    (template : first.getD 1 [] = [⟨opBlake2b, []⟩, ⟨opData32, hash⟩, ⟨opEqual, []⟩])
    {vm vm' : Engine} {done : Bool} (h : step env vm = .ok (done, vm')) (p2sh : vm.isP2SH = true)
    (scripts : vm.scripts = first) (index : vm.scriptIdx = 1) (empty : vm.condStack = [])
    (progress : PubKeyProgress env hash vm.scriptOff vm.savedFirstStack vm.st.dstack) :
    PayToScriptHashStage env first hash vm' := by
  obtain ⟨pop, executed, current, execution, moved⟩ := step_cases h
  obtain ⟨-, at_⟩ := currentOpcode_getElem? current
  obtain ⟨sameScripts, sameIndex, offset, sameP2SH, saved⟩ := step_fields execution
  have length : (executed.scripts.getD executed.scriptIdx []).length = 3 := by
    rw [sameScripts, sameIndex, scripts, index, template]
    rfl
  rw [scripts, index, template] at at_
  rw [length, offset] at moved
  generalize off : vm.scriptOff = k at progress at_ moved
  match k, progress with
  | 0, progress =>
    cases at_
    obtain ⟨empty', s, sameDstack, ran⟩ := executeOpcode_of_executing execution empty rfl
    simp only at sameDstack
    rw [opcodeFunction_blake2b rfl] at ran
    obtain ⟨x, rest, popped, hashed⟩ := opcodeBlake2b_dstack ran
    rcases moved with ⟨-, -, rfl⟩ | ⟨ended, -⟩
    · refine .publicKey (sameP2SH.trans p2sh) (sameScripts.trans scripts) (sameIndex.trans index) empty' ?_
      rw [offset, off, saved]
      exact ⟨x, rest, by rw [← progress, ← sameDstack, popped], hashed⟩
    · omega
  | 1, ⟨x, rest, below, dstack⟩ =>
    cases at_
    obtain ⟨empty', s, sameDstack, ran⟩ := executeOpcode_of_executing execution empty rfl
    simp only at sameDstack
    rw [opcodeFunction_data32 rfl] at ran
    have pushed := opcodePushData_dstack ran
    rcases moved with ⟨-, -, rfl⟩ | ⟨ended, -⟩
    · refine .publicKey (sameP2SH.trans p2sh) (sameScripts.trans scripts) (sameIndex.trans index) empty' ?_
      rw [offset, off, saved]
      exact ⟨x, rest, below, by rw [pushed, sameDstack, dstack]⟩
    · omega
  | 2, ⟨x, rest, below, dstack⟩ =>
    cases at_
    obtain ⟨-, s, sameDstack, ran⟩ := executeOpcode_of_executing execution empty rfl
    simp only at sameDstack
    rw [opcodeFunction_equal rfl] at ran
    obtain ⟨a, b, rest', popped, compared⟩ := opcodeEqual_dstack ran
    rw [sameDstack, dstack, List.cons.injEq, List.cons.injEq] at popped
    obtain ⟨rfl, rfl, rfl⟩ := popped
    rcases moved with ⟨continues, -⟩ | ⟨-, next⟩
    · omega
    obtain ⟨top, below', redeem, pops, top_eq, truth, last, parsed, p2sh', index', scripts'⟩ :=
      nextScript_publicKey next (sameP2SH.trans p2sh) (sameIndex.trans index) (by rw [sameScripts, scripts, two])
    rw [compared, pushBool, List.cons.injEq] at top_eq
    rw [← top_eq.1, asBool_fromBool, beq_iff_eq] at truth
    rw [saved, List.reverse_eq_cons_iff.mp below, List.getLast?_append, List.getLast?_singleton,
      Option.some_or, Option.some.injEq] at last
    subst last
    exact .redeem x pops p2sh' index' truth.symm parsed (by rw [scripts', sameScripts, scripts])

theorem step_redeem {vm vm' : Engine} {done : Bool} {redeem : List UInt8} {pops : List ParsedOpcode}
    (h : step env vm = .ok (done, vm')) (p2sh : vm.isP2SH = true) (index : 2 ≤ vm.scriptIdx)
    (hashed : (env.blake2b redeem).toList = hash) (parsed : parseScript redeem = .ok pops)
    (scripts : vm.scripts = first ++ [pops]) : PayToScriptHashStage env first hash vm' := by
  obtain ⟨pop, executed, -, execution, moved⟩ := step_cases h
  obtain ⟨sameScripts, sameIndex, -, sameP2SH, -⟩ := step_fields execution
  rcases moved with ⟨-, -, rfl⟩ | ⟨-, next⟩
  · exact .redeem redeem pops (sameP2SH.trans p2sh) (sameIndex ▸ index) hashed parsed
      (sameScripts.trans scripts)
  · obtain ⟨p2sh', later, scripts'⟩ := nextScript_scripts next (by omega)
    exact .redeem redeem pops (p2sh'.trans (sameP2SH.trans p2sh)) (by omega) hashed parsed
      (scripts'.trans (sameScripts.trans scripts))

theorem PayToScriptHashStage.step (two : first.length = 2)
    (template : first.getD 1 [] = [⟨opBlake2b, []⟩, ⟨opData32, hash⟩, ⟨opEqual, []⟩])
    {vm vm' : Engine} {done : Bool} (stage : PayToScriptHashStage env first hash vm)
    (h : Txscript.step env vm = .ok (done, vm')) : PayToScriptHashStage env first hash vm' := by
  cases stage with
  | signature p2sh scripts index => exact step_signature template h p2sh scripts index
  | publicKey p2sh scripts index empty progress => exact step_publicKey two template h p2sh scripts index empty progress
  | redeem redeem pops p2sh index hashed parsed scripts => exact step_redeem h p2sh index hashed parsed scripts

end Steps

/-! ## Spends -/

theorem parseScript_of_verifySize {script : List UInt8} {pops : List ParsedOpcode}
    (h : parseScriptAndVerifySize script = .ok pops) : parseScript script = .ok pops := by
  unfold parseScriptAndVerifySize at h
  split at h
  · cases h
  · cases parsed : parseScript script <;> rw [parsed] at h <;> cases h
    rfl

theorem newEngine_payToScriptHash_start {scriptPubKey : ScriptPublicKey} {signatureScripts : List (List UInt8)}
    {txIdx : ℤ} {env : Env} {vm : Engine} (h : newEngine scriptPubKey signatureScripts txIdx = .ok vm)
    (p2sh : vm.isP2SH = true) :
    ∃ hash, scriptPubKey.script = opBlake2b :: opData32 :: (hash ++ [opEqual]) ∧ vm.scripts.length = 2 ∧
      vm.scripts.getD 1 [] = [⟨opBlake2b, []⟩, ⟨opData32, hash⟩, ⟨opEqual, []⟩] ∧
      PayToScriptHashStage env vm.scripts hash vm := by
  unfold newEngine at h
  split at h
  · cases h
  split at h
  · cases h
  rename_i scriptSig found
  split at h
  · cases h
  simp only at h
  split at h
  · cases h
    cases p2sh
  obtain ⟨parsedScriptSig, -, h⟩ := Except.bind_eq_ok.mp h
  split at h
  · cases h
  obtain ⟨parsedScriptPubKey, parsedPubKey, h⟩ := Except.bind_eq_ok.mp h
  split at h
  · rename_i scriptHash
    cases h
    obtain ⟨hash, script, rfl⟩ :=
      parseScript_of_isScriptHash (parseScript_of_verifySize parsedPubKey) scriptHash
    refine ⟨hash, script, ?_⟩
    by_cases empty : scriptSig.length = 0
    · simp only [empty, if_true]
      exact ⟨rfl, rfl, .publicKey rfl rfl rfl rfl rfl⟩
    · simp only [empty, if_false]
      exact ⟨rfl, rfl, .signature rfl rfl rfl⟩
  · cases h
    split at p2sh <;> cases p2sh

/-- A pay-to-script-hash spend the engine runs to the end ran, as its third
script, the parse of a redeem script whose BLAKE2b hash is the one its public
key script commits to. -/
theorem newEngine_payToScriptHash {scriptPubKey : ScriptPublicKey} {signatureScripts : List (List UInt8)}
    {txIdx : ℤ} {env : Env} {vm final : Engine} (created : newEngine scriptPubKey signatureScripts txIdx = .ok vm)
    (p2sh : vm.isP2SH = true) (h : executeLoop env vm = .ok final) :
    ∃ redeem pops, scriptPubKey.script = opBlake2b :: opData32 :: ((env.blake2b redeem).toList ++ [opEqual]) ∧
      parseScript redeem = .ok pops ∧ final.scripts = vm.scripts ++ [pops] := by
  obtain ⟨hash, script, two, template, start⟩ := @newEngine_payToScriptHash_start _ _ _ env _ created p2sh
  obtain ⟨flags, run⟩ := executeLoop_trace h
  have stage : PayToScriptHashStage env vm.scripts hash final :=
    @Trace.invariant _ _ _ (PayToScriptHashStage env vm.scripts hash) _ start
      (fun _ _ _ holds stepped => holds.step two template stepped) _ _ run
  obtain ⟨_, -, last⟩ := run.last
  have ended := step_done last
  cases stage with
  | signature _ scripts index =>
    rw [scripts, two, index] at ended
    omega
  | publicKey _ scripts index =>
    rw [scripts, two, index] at ended
    omega
  | redeem redeem pops _ _ hashed parsed scripts =>
    exact ⟨redeem, pops, by rw [hashed]; exact script, parsed, scripts⟩

/-- A signature script pushing the redeem script OP_1, for the public key
script committing to its hash under `testEnv`. -/
def payToScriptHashEngine : Engine :=
  ⟨0, [[⟨0x01, [op1]⟩], [⟨opBlake2b, []⟩, ⟨opData32, List.replicate 32 0⟩, ⟨opEqual, []⟩]], 0, 0, ⟨[], [], 0⟩, [],
    true, []⟩

theorem newEngine_payToScriptHash_pushOne :
    let scriptPubKey : ScriptPublicKey := ⟨opBlake2b :: opData32 :: (List.replicate 32 0 ++ [opEqual]), 0⟩
    let final : Engine :=
      ⟨0, payToScriptHashEngine.scripts ++ [[⟨op1, []⟩]], 3, 0, ⟨[[1]], [], 0⟩, [], true, [[op1]]⟩
    newEngine scriptPubKey [[0x01, op1]] 0 = .ok payToScriptHashEngine ∧ payToScriptHashEngine.isP2SH = true ∧
      executeLoop testEnv payToScriptHashEngine = .ok final ∧
      ∃ redeem pops,
        scriptPubKey.script = opBlake2b :: opData32 :: ((testEnv.blake2b redeem).toList ++ [opEqual]) ∧
          parseScript redeem = .ok pops ∧ final.scripts = payToScriptHashEngine.scripts ++ [pops] := by
  intro scriptPubKey final
  have created : newEngine scriptPubKey [[0x01, op1]] 0 = .ok payToScriptHashEngine := rfl
  have ran : executeLoop testEnv payToScriptHashEngine = .ok final := by
    apply (executeLoop_of_continue rfl).trans
    apply (executeLoop_of_continue rfl).trans
    apply (executeLoop_of_continue rfl).trans
    apply (executeLoop_of_continue rfl).trans
    exact executeLoop_of_done rfl
  exact ⟨created, rfl, ran, newEngine_payToScriptHash created rfl ran⟩

end Cryptixd.Txscript
