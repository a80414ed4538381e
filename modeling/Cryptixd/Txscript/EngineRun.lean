import Mathlib
import Cryptixd.Txscript.Engine

/-!
# Runs of the script engine

What a step can do to the condition stack (`CondStep`), said once and used by
every invariant: `OP_IF` and `OP_NOTIF` push an entry, which is `OpCondSkip`
exactly when the branch they stand in does not run, `OP_ELSE` switches the top
entry, `OP_ENDIF` pops it, and no other opcode touches it; a script may only end
with the stack empty.

Two consequences over whole runs:

* `isBranchExecuting_iff`: the engine decides whether an opcode runs from the
  top entry alone, and in every state a run reaches this is the rule for
  nested conditionals, that every enclosing `OP_IF` or `OP_NOTIF` took the
  branch the opcode stands in (every entry is `OpCondTrue`).
* `executeLoop_scriptsWellFormed`: every script a successful run passes
  through is well formed as a whole, the branches that did not run included:
  its conditionals are balanced, and it holds no disabled or always-illegal
  opcode and no push of more than `MaxScriptElementSize` bytes.  The engine
  checks all this on every opcode its program counter passes, whether the
  branch runs or not.
-/

set_option autoImplicit false

namespace Cryptixd.Txscript

open Transition
open Cryptixd.Atomic (ScriptPublicKey)

def Steps (env : Env) (vm : Engine) (done : Bool) (vm' : Engine) : Prop :=
  step env vm = .ok (done, vm')

/-- What an opcode does to the condition stack, `executing` being whether its
branch runs. -/
inductive CondStep (executing : Bool) (pop : ParsedOpcode) : List CondValue → List CondValue → Prop
  | other {cs : List CondValue} : pop.isConditional = false → CondStep executing pop cs cs
  | openRun {cs : List CondValue} {c : CondValue} : pop.opcode = opIf ∨ pop.opcode = opNotIf →
      executing = true → c ≠ .opCondSkip → CondStep executing pop cs (c :: cs)
  | openSkip {cs : List CondValue} : pop.opcode = opIf ∨ pop.opcode = opNotIf →
      executing = false → CondStep executing pop cs (.opCondSkip :: cs)
  | switch {c : CondValue} {cs : List CondValue} : pop.opcode = opElse →
      CondStep executing pop (c :: cs) (c.inverted :: cs)
  | close {c : CondValue} {cs : List CondValue} : pop.opcode = opEndIf → CondStep executing pop (c :: cs) cs

/-! ## One step -/

section Step

variable {env : Env} {pop : ParsedOpcode} {vm vm' : Engine}

theorem conditionalIf_condStep {negate : Bool} (conditional : pop.opcode = opIf ∨ pop.opcode = opNotIf)
    (h : conditionalIf negate vm = .ok vm') : CondStep vm.isBranchExecuting pop vm.condStack vm'.condStack := by
  unfold conditionalIf at h
  split at h
  · rename_i executing
    obtain ⟨⟨ok, dstack⟩, -, done⟩ := Except.bind_eq_ok.mp h
    cases done
    refine .openRun conditional executing ?_
    split <;> simp
  · rename_i executing
    cases h
    exact .openSkip conditional (by simpa using executing)

theorem opfunc_condStep (h : opfunc env pop vm = .ok vm') :
    CondStep vm.isBranchExecuting pop vm.condStack vm'.condStack := by
  unfold opfunc at h
  split_ifs at h with isIf isNotIf isElse isEndIf
  · exact conditionalIf_condStep (.inl isIf) h
  · exact conditionalIf_condStep (.inr isNotIf) h
  · unfold opcodeElse at h
    split at h
    · cases h
    · rename_i c rest top
      cases h
      rw [top]
      exact .switch isElse
  · unfold opcodeEndif at h
    split at h
    · cases h
    · rename_i c rest top
      cases h
      rw [top]
      exact .close isEndIf
  · obtain ⟨st, -, done⟩ := Except.bind_eq_ok.mp h
    cases done
    exact .other (by simp [ParsedOpcode.isConditional, isIf, isNotIf, isElse, isEndIf])

theorem runOpcode_condStep (h : runOpcode env pop vm = .ok vm') :
    CondStep vm.isBranchExecuting pop vm.condStack vm'.condStack := by
  unfold runOpcode at h
  split_ifs at h with skipped pushed
  · cases h
    simp only [Bool.and_eq_true, Bool.not_eq_true'] at skipped
    exact .other skipped.2
  · obtain ⟨_, -, ran⟩ := Except.bind_eq_ok.mp h
    exact opfunc_condStep ran
  · exact opfunc_condStep h

/-- The checks every opcode the program counter passes is held to, whether
its branch runs or not. -/
def opcodeWellFormed (pop : ParsedOpcode) : Bool :=
  !pop.isDisabled && !pop.alwaysIllegal && (pop.opcode > op16 || pop.data.length ≤ maxScriptElementSize)

theorem countOperation_cases (h : countOperation pop vm = .ok vm') :
    (pop.opcode > op16 ∨ pop.data.length ≤ maxScriptElementSize) ∧ vm'.condStack = vm.condStack ∧
      vm'.st.numOps = vm.st.numOps + (if op16 < pop.opcode then 1 else 0) ∧
      (op16 < pop.opcode → vm'.st.numOps ≤ maxOpsPerScript) := by
  unfold countOperation at h
  split_ifs at h with large tooMany tooLarge
  · cases h
    exact ⟨.inl large, rfl, by simp [large], fun _ => by simp only; omega⟩
  · cases h
    exact ⟨.inr (by omega), rfl, by simp [large], fun counted => absurd counted large⟩

theorem executeOpcode_cases (h : executeOpcode env pop vm = .ok vm') :
    opcodeWellFormed pop = true ∧
      ∃ counted : Engine, counted.condStack = vm.condStack ∧
        counted.st.numOps = vm.st.numOps + (if op16 < pop.opcode then 1 else 0) ∧
        (op16 < pop.opcode → counted.st.numOps ≤ maxOpsPerScript) ∧ runOpcode env pop counted = .ok vm' := by
  unfold executeOpcode at h
  split_ifs at h with disabled illegal
  obtain ⟨counted, count, ran⟩ := Except.bind_eq_ok.mp h
  obtain ⟨checked, sameStack, raised, bounded⟩ := countOperation_cases count
  refine ⟨?_, counted, sameStack, raised, bounded, ran⟩
  simp only [opcodeWellFormed, disabled, illegal, Bool.not_false, Bool.true_and, Bool.or_eq_true,
    decide_eq_true_eq]
  exact checked

theorem conditionalIf_numOps {negate : Bool} (h : conditionalIf negate vm = .ok vm') :
    vm'.st.numOps = vm.st.numOps := by
  unfold conditionalIf at h
  split at h
  · obtain ⟨_, -, h⟩ := Except.bind_eq_ok.mp h
    cases h
    rfl
  · cases h
    rfl

theorem opcodeElse_st (h : opcodeElse vm = .ok vm') : vm'.st = vm.st := by
  unfold opcodeElse at h
  split at h <;> cases h
  rfl

theorem opcodeEndif_st (h : opcodeEndif vm = .ok vm') : vm'.st = vm.st := by
  unfold opcodeEndif at h
  split at h <;> cases h
  rfl

theorem opfunc_numOps (h : opfunc env pop vm = .ok vm') :
    vm.st.numOps ≤ vm'.st.numOps ∧ (vm'.st.numOps = vm.st.numOps ∨ vm'.st.numOps ≤ maxOpsPerScript) := by
  unfold opfunc at h
  split_ifs at h
  · rw [conditionalIf_numOps h]
    exact ⟨le_rfl, .inl rfl⟩
  · rw [conditionalIf_numOps h]
    exact ⟨le_rfl, .inl rfl⟩
  · rw [opcodeElse_st h]
    exact ⟨le_rfl, .inl rfl⟩
  · rw [opcodeEndif_st h]
    exact ⟨le_rfl, .inl rfl⟩
  · obtain ⟨st, ran, h⟩ := Except.bind_eq_ok.mp h
    cases h
    exact countsOps_opcodeFunction env pop _ _ ran

theorem runOpcode_numOps (h : runOpcode env pop vm = .ok vm') :
    vm.st.numOps ≤ vm'.st.numOps ∧ (vm'.st.numOps = vm.st.numOps ∨ vm'.st.numOps ≤ maxOpsPerScript) := by
  unfold runOpcode at h
  split_ifs at h
  · cases h
    exact ⟨le_rfl, .inl rfl⟩
  · obtain ⟨_, -, ran⟩ := Except.bind_eq_ok.mp h
    exact opfunc_numOps ran
  · exact opfunc_numOps h

theorem step_cases {done : Bool} (h : step env vm = .ok (done, vm')) :
    ∃ pop executed, currentOpcode vm = .ok pop ∧
      executeOpcode env pop { vm with scriptOff := vm.scriptOff + 1 } = .ok executed ∧
      ((executed.scriptOff < (executed.scripts.getD executed.scriptIdx []).length ∧ done = false ∧
          vm' = executed) ∨
        (executed.scriptOff ≥ (executed.scripts.getD executed.scriptIdx []).length ∧
          nextScript executed = .ok (done, vm'))) := by
  obtain ⟨pop, current, h⟩ := Except.bind_eq_ok.mp h
  obtain ⟨executed, execution, after⟩ := Except.bind_eq_ok.mp h
  refine ⟨pop, executed, current, execution, ?_⟩
  unfold afterOpcode at after
  split_ifs at after with overflow ended
  · exact .inr ⟨ended, after⟩
  · cases after
    exact .inl ⟨by omega, rfl, rfl⟩

theorem nextScript_cases {done : Bool} (h : nextScript vm = .ok (done, vm')) :
    vm.condStack = [] ∧ vm'.condStack = [] ∧ vm'.scriptOff = 0 ∧ vm.scripts <+: vm'.scripts ∧
      vm.scriptIdx < vm'.scriptIdx ∧
      (∀ i, vm.scriptIdx < i → i < vm'.scriptIdx → vm'.scripts.getD i [] = []) ∧
      done = decide (vm'.scriptIdx ≥ vm'.scripts.length) ∧ vm'.st.numOps = 0 := by
  unfold nextScript at h
  split_ifs at h with open_
  obtain ⟨moved, advanced, finished⟩ := Except.map_eq_ok.mp h
  obtain ⟨rfl, rfl⟩ := Prod.mk.inj finished
  simp only [ne_eq, Decidable.not_not] at open_
  have grown : moved.condStack = [] ∧ vm.scripts <+: moved.scripts ∧ moved.st.numOps = 0 := by
    unfold advanceScript at advanced
    split_ifs at advanced
    · cases advanced
      exact ⟨open_, List.prefix_refl _, rfl⟩
    · obtain ⟨-, -, appended⟩ := Except.bind_eq_ok.mp advanced
      split at appended
      · cases appended
      · obtain ⟨pops, -, done⟩ := Except.bind_eq_ok.mp appended
        cases done
        exact ⟨open_, List.prefix_append _ _, rfl⟩
    · cases advanced
      exact ⟨open_, List.prefix_refl _, rfl⟩
  obtain ⟨index, start, -, -⟩ := advanceScript_cases advanced
  simp only at index start
  unfold skipEmptyScript
  split_ifs with skip
  · refine ⟨open_, grown.1, start, grown.2.1, by simp only; omega, fun i above below => ?_, rfl, grown.2.2⟩
    simp only at below ⊢
    rw [show i = moved.scriptIdx by omega]
    exact List.eq_nil_of_length_eq_zero (by omega)
  · exact ⟨open_, grown.1, start, grown.2.1, by omega, fun i above below => by omega, rfl, grown.2.2⟩

end Step

/-! ## Runs -/

theorem executeLoop_trace {env : Env} {vm final : Engine} (h : executeLoop env vm = .ok final) :
    ∃ flags, Trace (Steps env) vm (flags ++ [true]) final := by
  induction vm using executeLoop.induct env with
  | case1 vm e failed =>
    rw [executeLoop, failed] at h
    cases h
  | case2 vm vm' ended =>
    rw [executeLoop, ended] at h
    cases h
    exact ⟨[], Trace.single ended⟩
  | case3 vm vm' continued ih =>
    rw [executeLoop, continued] at h
    obtain ⟨flags, rest⟩ := ih h
    exact ⟨false :: flags, Trace.cons continued rest⟩

theorem executeLoop_of_continue {env : Env} {vm vm' : Engine} (h : step env vm = .ok (false, vm')) :
    executeLoop env vm = executeLoop env vm' := by
  rw [executeLoop, h]

theorem executeLoop_of_done {env : Env} {vm vm' : Engine} (h : step env vm = .ok (true, vm')) :
    executeLoop env vm = .ok vm' := by
  rw [executeLoop, h]

theorem step_done {env : Env} {vm vm' : Engine} (h : step env vm = .ok (true, vm')) :
    vm'.scriptIdx ≥ vm'.scripts.length := by
  obtain ⟨pop, executed, -, -, moved⟩ := step_cases h
  rcases moved with ⟨-, continued, -⟩ | ⟨-, next⟩
  · cases continued
  · obtain ⟨-, -, -, -, -, -, flag, -⟩ := nextScript_cases next
    exact of_decide_eq_true flag.symm

theorem step_scripts_isPrefix {env : Env} {vm vm' : Engine} {done : Bool} (h : step env vm = .ok (done, vm')) :
    vm.scripts <+: vm'.scripts := by
  obtain ⟨pop, executed, -, execution, moved⟩ := step_cases h
  have scripts : executed.scripts = vm.scripts := by rw [executeOpcode_samePlace execution]
  rcases moved with ⟨-, -, rfl⟩ | ⟨-, next⟩
  · exact scripts ▸ List.prefix_refl _
  · exact scripts ▸ (nextScript_cases next).2.2.2.1

/-! ## Nested conditionals -/

/-- Every entry above one that is not `OpCondTrue` is `OpCondSkip`: inside a
branch that does not run, every branch is passed over with it. -/
def CondNested : List CondValue → Prop
  | [] => True
  | c :: cs => CondNested cs ∧ ((∃ d ∈ cs, d ≠ .opCondTrue) → c = .opCondSkip)

theorem isBranchExecuting_iff_of_nested {vm : Engine} (nested : CondNested vm.condStack) :
    vm.isBranchExecuting = true ↔ ∀ c ∈ vm.condStack, c = .opCondTrue := by
  unfold Engine.isBranchExecuting
  cases stack : vm.condStack with
  | nil => simp
  | cons c cs =>
    rw [stack] at nested
    obtain ⟨-, above⟩ := nested
    simp only [beq_iff_eq, List.mem_cons, forall_eq_or_imp]
    constructor
    · intro top
      refine ⟨top, fun d member => ?_⟩
      by_contra notTrue
      exact absurd (above ⟨d, member, notTrue⟩) (by rw [top]; decide)
    · exact fun all => all.1

theorem CondStep.nested {executing : Bool} {pop : ParsedOpcode} {cs cs' : List CondValue}
    (move : CondStep executing pop cs cs') (runs : executing = true ↔ ∀ c ∈ cs, c = .opCondTrue)
    (nested : CondNested cs) : CondNested cs' := by
  cases move with
  | other _ => exact nested
  | openRun _ running _ =>
    exact ⟨nested, fun ⟨d, member, notTrue⟩ => absurd (runs.mp running d member) notTrue⟩
  | openSkip => exact ⟨nested, fun _ => rfl⟩
  | @switch c rest _ =>
    obtain ⟨below, above⟩ := nested
    refine ⟨below, fun inner => ?_⟩
    rw [above inner]
    rfl
  | close => exact nested.1

theorem step_condNested {env : Env} {vm vm' : Engine} {done : Bool} (h : step env vm = .ok (done, vm'))
    (nested : CondNested vm.condStack) : CondNested vm'.condStack := by
  obtain ⟨pop, executed, -, execution, moved⟩ := step_cases h
  obtain ⟨-, counted, sameStack, -, -, ran⟩ := executeOpcode_cases execution
  simp only at sameStack
  have counted_nested : CondNested counted.condStack := sameStack ▸ nested
  have after := (runOpcode_condStep ran).nested (isBranchExecuting_iff_of_nested counted_nested)
    counted_nested
  rcases moved with ⟨-, -, rfl⟩ | ⟨-, ended⟩
  · exact after
  · obtain ⟨-, empty, -⟩ := nextScript_cases ended
    rw [empty]
    trivial

/-- In every state a run reaches from an empty condition stack, the engine's
test of the top entry is the rule for nested conditionals: an opcode runs
exactly when every enclosing `OP_IF` or `OP_NOTIF` took the branch it stands in. -/
theorem isBranchExecuting_iff {env : Env} {start vm : Engine} {flags : List Bool}
    (init : start.condStack = []) (run : Trace (Steps env) start flags vm) :
    CondNested vm.condStack ∧ (vm.isBranchExecuting = true ↔ ∀ c ∈ vm.condStack, c = .opCondTrue) := by
  have nested : CondNested vm.condStack :=
    run.invariant (by rw [init]; trivial) fun _ _ _ holds stepped => step_condNested stepped holds
  exact ⟨nested, isBranchExecuting_iff_of_nested nested⟩

def constantHash (_ : List UInt8) : Vector UInt8 32 := Vector.replicate 32 0

def rejectingScheme : SigScheme := ⟨fun _ => [], fun _ => false, fun _ => false, fun _ _ _ => false⟩

def testEnv : Env := ⟨constantHash, constantHash, rejectingScheme, rejectingScheme, 0, 0⟩

/-- A signature script pushing 1, and the public key script
OP_IF OP_1 OP_ELSE OP_RETURN OP_ENDIF. -/
def ifElseScripts : List (List ParsedOpcode) :=
  [[⟨op1, []⟩], [⟨opIf, []⟩, ⟨op1, []⟩, ⟨opElse, []⟩, ⟨opReturn, []⟩, ⟨opEndIf, []⟩]]

def ifElseEngine : Engine := ⟨0, ifElseScripts, 0, 0, ⟨[], [], 0⟩, [], false, []⟩

theorem isBranchExecuting_iff_inElse :
    let inElse : Engine := ⟨0, ifElseScripts, 1, 3, ⟨[[1]], [], 2⟩, [.opCondFalse], false, []⟩
    Trace (Steps testEnv) ifElseEngine [false, false, false, false] inElse ∧ ifElseEngine.condStack = [] ∧
      CondNested inElse.condStack ∧
        (inElse.isBranchExecuting = true ↔ ∀ c ∈ inElse.condStack, c = .opCondTrue) := by
  intro inElse
  have run : Trace (Steps testEnv) ifElseEngine [false, false, false, false] inElse :=
    Trace.cons rfl (Trace.cons rfl (Trace.cons rfl (Trace.single rfl)))
  exact ⟨run, rfl, isBranchExecuting_iff rfl run⟩

/-! ## Well-formed scripts -/

/-- The depth of open conditionals after an opcode, `none` once an `OP_ELSE`
or `OP_ENDIF` finds none open. -/
def conditionalDepthStep : Option ℕ → ParsedOpcode → Option ℕ
  | none, _ => none
  | some depth, pop =>
    if pop.opcode = opIf ∨ pop.opcode = opNotIf then some (depth + 1)
    else if pop.opcode = opElse then if depth = 0 then none else some depth
    else if pop.opcode = opEndIf then if depth = 0 then none else some (depth - 1)
    else some depth

def conditionalDepth (pops : List ParsedOpcode) : Option ℕ := pops.foldl conditionalDepthStep (some 0)

/-- A script each opcode of which passes the checks of `executeOpcode`, whose
conditionals are balanced, and which holds at most `MaxOpsPerScript` opcodes
past `OP_16`. -/
def scriptWellFormed (pops : List ParsedOpcode) : Bool :=
  pops.all opcodeWellFormed && conditionalDepth pops == some 0 &&
    decide (pops.countP (fun pop => op16 < pop.opcode) ≤ maxOpsPerScript)

theorem conditionalDepth_append_singleton (pops : List ParsedOpcode) (pop : ParsedOpcode) :
    conditionalDepth (pops ++ [pop]) = conditionalDepthStep (conditionalDepth pops) pop := by
  simp [conditionalDepth, List.foldl_append]

theorem CondStep.depth {executing : Bool} {pop : ParsedOpcode} {cs cs' : List CondValue}
    (move : CondStep executing pop cs cs') :
    conditionalDepthStep (some cs.length) pop = some cs'.length := by
  cases move with
  | other notConditional =>
    simp only [ParsedOpcode.isConditional, Bool.or_eq_false_iff, beq_eq_false_iff_ne] at notConditional
    obtain ⟨⟨⟨notIf, notNotIf⟩, notElse⟩, notEndIf⟩ := notConditional
    simp [conditionalDepthStep, notIf, notNotIf, notElse, notEndIf]
  | openRun opening _ _ => simp [conditionalDepthStep, opening]
  | openSkip opening _ => simp [conditionalDepthStep, opening]
  | switch isElse => simp [conditionalDepthStep, isElse, opElse, opIf, opNotIf]
  | close isEndIf => simp [conditionalDepthStep, isEndIf, opElse, opIf, opNotIf, opEndIf]

theorem currentOpcode_getElem? {vm : Engine} {pop : ParsedOpcode} (h : currentOpcode vm = .ok pop) :
    vm.scriptIdx < vm.scripts.length ∧ (vm.scripts.getD vm.scriptIdx [])[vm.scriptOff]? = some pop := by
  unfold currentOpcode at h
  split at h
  · cases h
  · rename_i script found
    split at h
    · cases h
    · rename_i at_
      cases h
      rw [List.getD_eq_getElem?_getD, found, Option.getD_some]
      exact ⟨(List.getElem?_eq_some_iff.mp found).1, at_⟩

theorem getD_of_isPrefix {α : Type*} {l₁ l₂ : List α} (p : l₁ <+: l₂) {i : ℕ} (lt : i < l₁.length) (d : α) :
    l₂.getD i d = l₁.getD i d := by
  obtain ⟨rest, rfl⟩ := p
  simp [List.getD_eq_getElem?_getD, List.getElem?_append_left lt]

/-- What the checks of `executeOpcode` have found of the opcodes of a script
passed so far: each passes them, they leave open as many conditionals as the
condition stack holds, and the count of operations, never past
`MaxOpsPerScript`, counts at least those past `OP_16`. -/
structure PassedWellFormed (passed : List ParsedOpcode) (condStack : List CondValue) (numOps : ℕ) : Prop where
  checked : ∀ pop ∈ passed, opcodeWellFormed pop = true
  depth : conditionalDepth passed = some condStack.length
  counted : passed.countP (fun pop => op16 < pop.opcode) ≤ numOps
  bounded : numOps ≤ maxOpsPerScript

theorem PassedWellFormed.nil : PassedWellFormed [] [] 0 where
  checked := by simp
  depth := rfl
  counted := le_rfl
  bounded := by decide

theorem PassedWellFormed.snoc {passed : List ParsedOpcode} {cs cs' : List CondValue} {n n' : ℕ}
    {executing : Bool} {pop : ParsedOpcode} (h : PassedWellFormed passed cs n) (wf : opcodeWellFormed pop = true)
    (move : CondStep executing pop cs cs') (raised : n + (if op16 < pop.opcode then 1 else 0) ≤ n')
    (bounded : n' ≤ maxOpsPerScript) : PassedWellFormed (passed ++ [pop]) cs' n' where
  checked := by
    intro p hp
    rcases List.mem_append.mp hp with hp | hp
    · exact h.checked p hp
    · rw [List.mem_singleton.mp hp]
      exact wf
  depth := by rw [conditionalDepth_append_singleton, h.depth, move.depth]
  counted := by
    have before := h.counted
    rw [List.countP_append, List.countP_singleton]
    by_cases large : op16 < pop.opcode
    · rw [if_pos large] at raised
      simp only [large, decide_true, if_true]
      omega
    · rw [if_neg large] at raised
      simp only [large, decide_false, Bool.false_eq_true, if_false]
      omega
  bounded := bounded

theorem PassedWellFormed.complete {pops : List ParsedOpcode} {n : ℕ} (h : PassedWellFormed pops [] n) :
    scriptWellFormed pops = true := by
  have := h.counted
  have := h.bounded
  simp only [scriptWellFormed, Bool.and_eq_true, List.all_eq_true, beq_iff_eq, decide_eq_true_eq]
  exact ⟨⟨h.checked, h.depth⟩, by omega⟩

/-- What a run has checked of the scripts from the one numbered `first` on:
every script it has left is well formed, and so is what it has passed of the
current one. -/
structure RunWellFormed (first : ℕ) (vm : Engine) : Prop where
  started : first ≤ vm.scriptIdx
  finished : ∀ i, first ≤ i → i < vm.scriptIdx → scriptWellFormed (vm.scripts.getD i []) = true
  current : PassedWellFormed ((vm.scripts.getD vm.scriptIdx []).take vm.scriptOff) vm.condStack vm.st.numOps

theorem RunWellFormed.init {first : ℕ} {vm : Engine} (index : vm.scriptIdx = first) (start : vm.scriptOff = 0)
    (empty : vm.condStack = []) (zero : vm.st.numOps = 0) : RunWellFormed first vm where
  started := index.ge
  finished := fun i above below => absurd below (by omega)
  current := by
    rw [start, empty, zero, List.take_zero]
    exact PassedWellFormed.nil

theorem executeOpcode_numOps {env : Env} {pop : ParsedOpcode} {vm vm' : Engine}
    (h : executeOpcode env pop vm = .ok vm') (bounded : vm.st.numOps ≤ maxOpsPerScript) :
    vm.st.numOps + (if op16 < pop.opcode then 1 else 0) ≤ vm'.st.numOps ∧ vm'.st.numOps ≤ maxOpsPerScript := by
  obtain ⟨-, counted, -, raised, countedBound, ran⟩ := executeOpcode_cases h
  obtain ⟨grown, kept | within⟩ := runOpcode_numOps ran
  · refine ⟨raised ▸ grown, ?_⟩
    rw [kept]
    by_cases large : op16 < pop.opcode
    · exact countedBound large
    · rw [raised, if_neg large]
      exact bounded
  · exact ⟨raised ▸ grown, within⟩

theorem step_runWellFormed {env : Env} {vm vm' : Engine} {done : Bool} {first : ℕ}
    (h : step env vm = .ok (done, vm')) (inv : RunWellFormed first vm) : RunWellFormed first vm' := by
  obtain ⟨pop, executed, current, execution, moved⟩ := step_cases h
  obtain ⟨wellFormed, counted, sameStack, -, -, ran⟩ := executeOpcode_cases execution
  obtain ⟨raised, bounded⟩ := executeOpcode_numOps execution inv.current.bounded
  obtain ⟨inScripts, at_⟩ := currentOpcode_getElem? current
  have place := executeOpcode_samePlace execution
  have scripts : executed.scripts = vm.scripts := by rw [place]
  have index : executed.scriptIdx = vm.scriptIdx := by rw [place]
  have offset : executed.scriptOff = vm.scriptOff + 1 := by rw [place]
  have taken : (vm.scripts.getD vm.scriptIdx []).take (vm.scriptOff + 1) =
      (vm.scripts.getD vm.scriptIdx []).take vm.scriptOff ++ [pop] := by
    rw [List.take_add_one, at_]
    rfl
  have passed : PassedWellFormed ((vm.scripts.getD vm.scriptIdx []).take (vm.scriptOff + 1))
      executed.condStack executed.st.numOps := by
    simp only at sameStack
    rw [taken]
    exact inv.current.snoc wellFormed (sameStack ▸ runOpcode_condStep ran) raised bounded
  rcases moved with ⟨-, -, rfl⟩ | ⟨ended, next⟩
  · -- the script goes on
    refine ⟨index ▸ inv.started, ?_, ?_⟩
    · rw [scripts, index]
      exact inv.finished
    · rw [scripts, index, offset]
      exact passed
  · -- the script is done, and the next begins
    obtain ⟨closed, empty, start, grown, later, skipped, -, zero⟩ := nextScript_cases next
    rw [scripts, index, offset] at ended
    rw [scripts] at grown
    rw [index] at later skipped
    have completed : scriptWellFormed (vm.scripts.getD vm.scriptIdx []) = true := by
      rw [← List.take_of_length_le ended]
      exact (closed ▸ passed).complete
    refine ⟨by have := inv.started; omega, fun i above below => ?_, ?_⟩
    · rcases lt_trichotomy i vm.scriptIdx with earlier | same | skippedOver
      · rw [getD_of_isPrefix grown (by omega)]
        exact inv.finished i above earlier
      · rw [same, getD_of_isPrefix grown inScripts]
        exact completed
      · rw [skipped i skippedOver below]
        rfl
    · rw [start, empty, zero, List.take_zero]
      exact PassedWellFormed.nil

theorem executeLoop_scriptsWellFormed {env : Env} {vm final : Engine} (start : vm.scriptOff = 0)
    (empty : vm.condStack = []) (zero : vm.st.numOps = 0) (h : executeLoop env vm = .ok final) :
    vm.scripts <+: final.scripts ∧
      ∀ i, vm.scriptIdx ≤ i → i < final.scripts.length → scriptWellFormed (final.scripts.getD i []) = true := by
  obtain ⟨flags, run⟩ := executeLoop_trace h
  have grown : vm.scripts <+: final.scripts :=
    @Trace.invariant _ _ _ (fun w => vm.scripts <+: w.scripts) _ (List.prefix_refl vm.scripts)
      (fun _ _ _ before stepped => before.trans (step_scripts_isPrefix stepped)) _ _ run
  have checked : RunWellFormed vm.scriptIdx final :=
    @Trace.invariant _ _ _ (RunWellFormed vm.scriptIdx) _ (RunWellFormed.init rfl start empty zero)
      (fun _ _ _ holds stepped => step_runWellFormed stepped holds) _ _ run
  obtain ⟨_, -, last⟩ := run.last
  have ended := step_done last
  exact ⟨grown, fun i above below => checked.finished i above (by omega)⟩

/-! ## Spends -/

theorem newEngine_start {scriptPubKey : ScriptPublicKey} {signatureScripts : List (List UInt8)} {txIdx : ℤ}
    {vm : Engine} (h : newEngine scriptPubKey signatureScripts txIdx = .ok vm) :
    vm.scriptOff = 0 ∧ vm.condStack = [] ∧ vm.st.numOps = 0 ∧
      (vm.scriptIdx = 0 ∨ vm.scriptIdx = 1 ∧ ∃ pubKeyScript, vm.scripts = [[], pubKeyScript]) := by
  unfold newEngine at h
  split at h
  · cases h
  split at h
  · cases h
  rename_i scriptSig found
  split at h
  · cases h
  simp only at h
  split at h
  · cases h
    exact ⟨rfl, rfl, rfl, .inl rfl⟩
  obtain ⟨parsedScriptSig, parsedSig, h⟩ := Except.bind_eq_ok.mp h
  split at h
  · cases h
  obtain ⟨parsedScriptPubKey, -, h⟩ := Except.bind_eq_ok.mp h
  have engine : vm.scriptOff = 0 ∧ vm.condStack = [] ∧ vm.st.numOps = 0 ∧
      vm.scripts = [parsedScriptSig, parsedScriptPubKey] ∧ vm.scriptIdx = if scriptSig.length = 0 then 1 else 0 := by
    split at h <;> split at h <;> cases h <;> simp_all
  obtain ⟨offset, empty, zero, scripts, index⟩ := engine
  refine ⟨offset, empty, zero, ?_⟩
  split at index
  · -- an empty signature script parses to no opcodes
    rename_i noSig
    rw [List.eq_nil_of_length_eq_zero noSig] at parsedSig
    cases parsedSig
    exact .inr ⟨index, parsedScriptPubKey, scripts⟩
  · exact .inl index

/-- What the engine guarantees of a spend it runs to the end: every script of
it, the signature script, the public key script and, for a pay-to-script-hash
spend, the redeem script, is well formed. -/
theorem newEngine_scriptsWellFormed {scriptPubKey : ScriptPublicKey} {signatureScripts : List (List UInt8)}
    {txIdx : ℤ} {env : Env} {vm final : Engine} (created : newEngine scriptPubKey signatureScripts txIdx = .ok vm)
    (h : executeLoop env vm = .ok final) :
    ∀ i < final.scripts.length, scriptWellFormed (final.scripts.getD i []) = true := by
  obtain ⟨start, empty, zero, first⟩ := newEngine_start created
  obtain ⟨grown, wellFormed⟩ := executeLoop_scriptsWellFormed start empty zero h
  intro i below
  rcases first with zero | ⟨one, pubKeyScript, scripts⟩
  · exact wellFormed i (by omega) below
  · rcases Nat.eq_zero_or_pos i with rfl | positive
    · -- the empty signature script, which is not run
      rw [getD_of_isPrefix grown (by simp [scripts]), scripts]
      rfl
    · exact wellFormed i (by omega) below

theorem newEngine_scriptsWellFormed_ifElse :
    let final : Engine := ⟨0, ifElseScripts, 2, 0, ⟨[[1]], [], 0⟩, [], false, []⟩
    newEngine ⟨[0x63, 0x51, 0x67, 0x6a, 0x68], 0⟩ [[0x51]] 0 = .ok ifElseEngine ∧
      executeLoop testEnv ifElseEngine = .ok final ∧
      ∀ i < final.scripts.length, scriptWellFormed (final.scripts.getD i []) = true := by
  intro final
  have created : newEngine ⟨[0x63, 0x51, 0x67, 0x6a, 0x68], 0⟩ [[0x51]] 0 = .ok ifElseEngine := rfl
  have ran : executeLoop testEnv ifElseEngine = .ok final := by
    apply (executeLoop_of_continue rfl).trans
    apply (executeLoop_of_continue rfl).trans
    apply (executeLoop_of_continue rfl).trans
    apply (executeLoop_of_continue rfl).trans
    apply (executeLoop_of_continue rfl).trans
    exact executeLoop_of_done rfl
  exact ⟨created, ran, newEngine_scriptsWellFormed created ran⟩

end Cryptixd.Txscript
