import Mathlib
import Cryptixd.Lib.Trace
import Cryptixd.Lib.LittleEndian

/-!
# Script parsing and the standard script classes

`parseScript` splits a script into opcodes with their pushed data the way
`parseScriptTemplate` walks `opcodeArray` (`txscript/script.go`): an opcode of
length 1 carries no data, `OP_DATA_n` carries the next `n` bytes, and
`OP_PUSHDATA1/2/4` carry as many bytes as their little-endian length prefix
says.  `getScriptClass` recognises the three standard forms
(`txscript/standard.go`) and answers `nonStandardTy` for everything else,
unparsable scripts included.

The walk consumes at least one byte per opcode, so the script's length is
enough fuel; an exhausted fuel is an error, never a result.  `unparseScript`
writes parsed opcodes back, and `parseScript_unparseScript_roundTrip` shows
that it returns every script the parser accepts unchanged.
-/

set_option autoImplicit false

namespace Cryptixd.Txscript

/-- `txscript.ScriptClass`, a byte: callers use values past the standard ones. -/
abbrev ScriptClass := UInt8

def nonStandardTy : ScriptClass := 0
def pubKeyTy : ScriptClass := 1
def pubKeyECDSATy : ScriptClass := 2
def scriptHashTy : ScriptClass := 3

def opData4 : UInt8 := 0x04
def opData32 : UInt8 := 0x20
def opData33 : UInt8 := 0x21
def opPushData1 : UInt8 := 0x4c
def opPushData2 : UInt8 := 0x4d
def opPushData4 : UInt8 := 0x4e
def opTrue : UInt8 := 0x51
def opDrop : UInt8 := 0x75
def opEqual : UInt8 := 0x87
def opBlake2b : UInt8 := 0xaa
def opCheckSigECDSA : UInt8 := 0xab
def opCheckSig : UInt8 := 0xac

/-- `opcodeArray[value].length`: `OP_DATA_1` .. `OP_DATA_75` span `n + 1`
bytes, the three `OP_PUSHDATA` forms give the width of their length prefix as
a negative number, and every other opcode is one byte. -/
def opcodeLength (value : UInt8) : Int :=
  if value = 0 then 1
  else if value ≤ 0x4b then value.toNat + 1
  else if value = opPushData1 then -1
  else if value = opPushData2 then -2
  else if value = opPushData4 then -4
  else 1

structure ParsedOpcode where
  opcode : UInt8
  data : List UInt8
  deriving DecidableEq, Repr

/-- `ErrMalformedPush`, `ErrInternal`, `ErrNumberTooBig` and `ErrMinimalData`,
with what their messages report. -/
inductive ScriptError where
  | malformedPush (opcode : UInt8) (required remaining : Nat)
  | internalConsistency (opcode : UInt8) (length expected : Nat)
  | numberTooBig (encoded : List UInt8) (limit : Nat)
  | nonMinimalNumber (encoded : List UInt8)
  | nonMinimalPush (opcode : UInt8) (dataLength : Nat)
  | outOfFuel
  deriving DecidableEq, Repr

def pushDataLength (prefixBytes : List UInt8) : Nat :=
  prefixBytes.foldr (fun byte acc => byte.toNat + 256 * acc) 0

def parseScriptFrom : Nat → List UInt8 → Except ScriptError (List ParsedOpcode)
  | _, [] => .ok []
  | 0, _ :: _ => .error .outOfFuel
  | fuel + 1, instr :: rest =>
      let length := opcodeLength instr
      if length = 1 then
        (⟨instr, []⟩ :: ·) <$> parseScriptFrom fuel rest
      else if 1 < length then
        if (instr :: rest).length < length.toNat then
          .error (.malformedPush instr length.toNat (instr :: rest).length)
        else
          (⟨instr, rest.take (length.toNat - 1)⟩ :: ·) <$>
            parseScriptFrom fuel (rest.drop (length.toNat - 1))
      else
        let width := (-length).toNat
        if rest.length < width then
          .error (.malformedPush instr width rest.length)
        else
          let dataLength := pushDataLength (rest.take width)
          let afterPrefix := rest.drop width
          if afterPrefix.length < dataLength then
            .error (.malformedPush instr dataLength afterPrefix.length)
          else
            (⟨instr, afterPrefix.take dataLength⟩ :: ·) <$>
              parseScriptFrom fuel (afterPrefix.drop dataLength)

def parseScript (script : List UInt8) : Except ScriptError (List ParsedOpcode) :=
  parseScriptFrom script.length script

/-- `parsedOpcode.bytes`: the opcode, for an `OP_PUSHDATA` form the data's
length in its little-endian prefix, and the data, checked against the length
the opcode says. -/
def ParsedOpcode.bytes (pop : ParsedOpcode) : Except ScriptError (List UInt8) :=
  let length := opcodeLength pop.opcode
  if length = 1 then
    if pop.data.length ≠ 0 then .error (.internalConsistency pop.opcode pop.data.length 0)
    else .ok [pop.opcode]
  else
    let (header, nbytes) : List UInt8 × Nat :=
      if length < 0 then
        -- `byte(l)`, or the low bytes of `l`, read back by `Uint16` and `Uint32`
        let lengthPrefix := LittleEndian.toListLE (-length).toNat pop.data.length
        (pop.opcode :: lengthPrefix, LittleEndian.ofListLE lengthPrefix + (1 + lengthPrefix.length))
      else ([pop.opcode], length.toNat)
    let retbytes := header ++ pop.data
    if retbytes.length ≠ nbytes then .error (.internalConsistency pop.opcode retbytes.length nbytes)
    else .ok retbytes

/-- `unparseScript`: the bytes of every opcode in order, or the first error. -/
def unparseScript : List ParsedOpcode → Except ScriptError (List UInt8)
  | [] => .ok []
  | pop :: pops => do
    let bytes ← pop.bytes
    let rest ← unparseScript pops
    return bytes ++ rest

def isPayToPubkey : List ParsedOpcode → Bool
  | [first, second] => first.opcode == opData32 && second.opcode == opCheckSig
  | _ => false

def isPayToPubkeyECDSA : List ParsedOpcode → Bool
  | [first, second] => first.opcode == opData33 && second.opcode == opCheckSigECDSA
  | _ => false

def isScriptHash : List ParsedOpcode → Bool
  | [first, second, third] =>
      first.opcode == opBlake2b && second.opcode == opData32 && third.opcode == opEqual
  | _ => false

def typeOfScript (pops : List ParsedOpcode) : ScriptClass :=
  if isPayToPubkey pops then pubKeyTy
  else if isPayToPubkeyECDSA pops then pubKeyECDSATy
  else if isScriptHash pops then scriptHashTy
  else nonStandardTy

def getScriptClass (script : List UInt8) : ScriptClass :=
  match parseScript script with
  | .error _ => nonStandardTy
  | .ok pops => typeOfScript pops

def ParsedOpcode.Plain (op : ParsedOpcode) : Prop := opcodeLength op.opcode = op.data.length + 1

def serialize (pops : List ParsedOpcode) : List UInt8 := pops.flatMap fun op => op.opcode :: op.data

@[simp] theorem serialize_nil : serialize [] = [] := rfl

@[simp] theorem serialize_cons (op : ParsedOpcode) (pops : List ParsedOpcode) :
    serialize (op :: pops) = op.opcode :: (op.data ++ serialize pops) := rfl

theorem length_le_length_serialize (pops : List ParsedOpcode) : pops.length ≤ (serialize pops).length := by
  induction pops with
  | nil => simp
  | cons op pops ih => simp; omega

theorem parseScriptFrom_serialize :
    ∀ (pops : List ParsedOpcode) (fuel : Nat), (∀ op ∈ pops, op.Plain) → pops.length ≤ fuel →
      parseScriptFrom fuel (serialize pops) = .ok pops
  | [], fuel, _, _ => by cases fuel <;> rfl
  | ⟨opcode, data⟩ :: pops, fuel + 1, plain, enough => by
    have length : opcodeLength opcode = data.length + 1 := plain _ List.mem_cons_self
    have rest := parseScriptFrom_serialize pops fuel
      (fun op member => plain op (List.mem_cons_of_mem _ member)) (by simp at enough; omega)
    simp only [serialize_cons, parseScriptFrom, length]
    cases data with
    | nil => simp [rest]
    | cons byte data =>
      have notOne : ((byte :: data).length : Int) + 1 ≠ 1 := by
        simp only [List.length_cons]
        omega
      have more : 1 < ((byte :: data).length : Int) + 1 := by
        simp only [List.length_cons]
        omega
      have width : (((byte :: data).length : Int) + 1).toNat - 1 = (byte :: data).length := by omega
      have enoughBytes : ¬(opcode :: (byte :: data ++ serialize pops)).length <
          (((byte :: data).length : Int) + 1).toNat := by
        simp only [List.length_cons, List.length_append]
        omega
      rw [if_neg notOne, if_pos more, if_neg enoughBytes, width, List.take_left' rfl,
        List.drop_left' rfl, rest]
      rfl

theorem parseScript_serialize (pops : List ParsedOpcode) (plain : ∀ op ∈ pops, op.Plain) :
    parseScript (serialize pops) = .ok pops :=
  parseScriptFrom_serialize pops _ plain (length_le_length_serialize pops)

/-- A script the parser reads as opcodes without a length prefix is their
serialisation, each opcode carrying the bytes its length says. -/
theorem serialize_of_parseScriptFrom :
    ∀ (fuel : Nat) (script : List UInt8) (pops : List ParsedOpcode),
      parseScriptFrom fuel script = .ok pops → (∀ op ∈ pops, 1 ≤ opcodeLength op.opcode) →
      script = serialize pops ∧ ∀ op ∈ pops, op.Plain
  | _, [], pops, parsed, _ => by
    rw [parseScriptFrom] at parsed
    cases parsed
    exact ⟨rfl, by simp⟩
  | 0, _ :: _, _, parsed, _ => by cases parsed
  | fuel + 1, instr :: rest, pops, parsed, plain => by
    simp only [parseScriptFrom] at parsed
    split_ifs at parsed with single more short
    · -- an opcode of one byte
      obtain ⟨tail, restParsed, rfl⟩ := Except.map_eq_ok.mp parsed
      obtain ⟨restBytes, restPlain⟩ := serialize_of_parseScriptFrom fuel rest tail restParsed
        fun op member => plain op (List.mem_cons_of_mem _ member)
      refine ⟨by rw [restBytes]; rfl, fun op member => ?_⟩
      rcases List.mem_cons.mp member with rfl | later
      · simpa [ParsedOpcode.Plain] using single
      · exact restPlain op later
    · -- an OP_DATA opcode and its bytes
      obtain ⟨tail, restParsed, rfl⟩ := Except.map_eq_ok.mp parsed
      obtain ⟨restBytes, restPlain⟩ := serialize_of_parseScriptFrom fuel _ tail restParsed
        fun op member => plain op (List.mem_cons_of_mem _ member)
      have fits : (opcodeLength instr).toNat - 1 ≤ rest.length := by simp at short; omega
      refine ⟨?_, fun op member => ?_⟩
      · rw [serialize_cons, ← restBytes, List.take_append_drop]
      · rcases List.mem_cons.mp member with rfl | later
        · simp only [ParsedOpcode.Plain, List.length_take, Nat.min_eq_left fits]
          omega
        · exact restPlain op later
    all_goals
      obtain ⟨tail, -, rfl⟩ := Except.map_eq_ok.mp parsed
      have positive := plain _ List.mem_cons_self
      simp only at positive
      omega

/-! ## The standard classes as byte shapes -/

theorem getScriptClass_serialize (pops : List ParsedOpcode) (plain : ∀ op ∈ pops, op.Plain) :
    getScriptClass (serialize pops) = typeOfScript pops := by
  rw [getScriptClass, parseScript_serialize pops plain]

theorem getScriptClass_eq_standard {script : List UInt8} {class_ : ScriptClass}
    (classified : getScriptClass script = class_) (standard : class_ ≠ nonStandardTy) :
    ∃ pops, parseScript script = .ok pops ∧ typeOfScript pops = class_ := by
  unfold getScriptClass at classified
  split at classified
  · exact absurd classified.symm standard
  · exact ⟨_, by assumption, classified⟩

/-- An `OP_DATA_n` opcode of a parsed script carries its `n` bytes, and a
one-byte opcode none. -/
theorem data_length_of_plain {op : ParsedOpcode} (n : Nat) (plain : op.Plain)
    (length : opcodeLength op.opcode = n + 1) : op.data.length = n := by
  unfold ParsedOpcode.Plain at plain
  omega

theorem getScriptClass_eq_pubKeyTy (script : List UInt8) :
    getScriptClass script = pubKeyTy ↔
      ∃ key : List UInt8, key.length = 32 ∧ script = opData32 :: (key ++ [opCheckSig]) := by
  constructor
  · intro classified
    obtain ⟨pops, parsed, typed⟩ := getScriptClass_eq_standard classified (by decide)
    unfold typeOfScript at typed
    split_ifs at typed with payToPubkey <;> try exact absurd typed (by decide)
    unfold isPayToPubkey at payToPubkey
    split at payToPubkey
    · rename_i first second
      simp only [Bool.and_eq_true, beq_iff_eq] at payToPubkey
      obtain ⟨isData, isCheckSig⟩ := payToPubkey
      obtain ⟨bytes, plain⟩ := serialize_of_parseScriptFrom _ _ _ parsed (by simp [isData, isCheckSig]; decide)
      have key := data_length_of_plain 32 (plain first (by simp)) (by rw [isData]; decide)
      have none := data_length_of_plain 0 (plain second (by simp)) (by rw [isCheckSig]; decide)
      refine ⟨first.data, key, ?_⟩
      rw [bytes, serialize_cons, serialize_cons, serialize_nil, List.length_eq_zero_iff.mp none,
        isData, isCheckSig]
      rfl
    · cases payToPubkey
  · rintro ⟨key, length, rfl⟩
    have plain : ∀ op ∈ [⟨opData32, key⟩, ⟨opCheckSig, []⟩], ParsedOpcode.Plain op := by
      simp only [List.mem_cons, List.not_mem_nil, or_false, forall_eq_or_imp, forall_eq,
        ParsedOpcode.Plain, length]
      decide
    have bytes : opData32 :: (key ++ [opCheckSig]) = serialize [⟨opData32, key⟩, ⟨opCheckSig, []⟩] := by
      simp
    rw [bytes, getScriptClass_serialize _ plain]
    rfl

theorem getScriptClass_eq_pubKeyECDSATy (script : List UInt8) :
    getScriptClass script = pubKeyECDSATy ↔
      ∃ key : List UInt8, key.length = 33 ∧ script = opData33 :: (key ++ [opCheckSigECDSA]) := by
  constructor
  · intro classified
    obtain ⟨pops, parsed, typed⟩ := getScriptClass_eq_standard classified (by decide)
    unfold typeOfScript at typed
    split_ifs at typed with payToPubkey payToPubkeyECDSA <;> try exact absurd typed (by decide)
    unfold isPayToPubkeyECDSA at payToPubkeyECDSA
    split at payToPubkeyECDSA
    · rename_i first second
      simp only [Bool.and_eq_true, beq_iff_eq] at payToPubkeyECDSA
      obtain ⟨isData, isCheckSig⟩ := payToPubkeyECDSA
      obtain ⟨bytes, plain⟩ :=
        serialize_of_parseScriptFrom _ _ _ parsed (by simp [isData, isCheckSig]; decide)
      have key := data_length_of_plain 33 (plain first (by simp)) (by rw [isData]; decide)
      have none := data_length_of_plain 0 (plain second (by simp)) (by rw [isCheckSig]; decide)
      refine ⟨first.data, key, ?_⟩
      rw [bytes, serialize_cons, serialize_cons, serialize_nil, List.length_eq_zero_iff.mp none,
        isData, isCheckSig]
      rfl
    · cases payToPubkeyECDSA
  · rintro ⟨key, length, rfl⟩
    have plain : ∀ op ∈ [⟨opData33, key⟩, ⟨opCheckSigECDSA, []⟩], ParsedOpcode.Plain op := by
      simp only [List.mem_cons, List.not_mem_nil, or_false, forall_eq_or_imp, forall_eq,
        ParsedOpcode.Plain, length]
      decide
    have bytes : opData33 :: (key ++ [opCheckSigECDSA]) =
        serialize [⟨opData33, key⟩, ⟨opCheckSigECDSA, []⟩] := by
      simp
    rw [bytes, getScriptClass_serialize _ plain]
    rfl

/-- Pay-to-script-hash scripts are `OP_BLAKE2B`, `OP_DATA_32`, a 32-byte hash
and `OP_EQUAL`. -/
theorem getScriptClass_eq_scriptHashTy (script : List UInt8) :
    getScriptClass script = scriptHashTy ↔
      ∃ hash : List UInt8, hash.length = 32 ∧
        script = opBlake2b :: opData32 :: (hash ++ [opEqual]) := by
  constructor
  · intro classified
    obtain ⟨pops, parsed, typed⟩ := getScriptClass_eq_standard classified (by decide)
    unfold typeOfScript at typed
    split_ifs at typed with payToPubkey payToPubkeyECDSA scriptHash <;>
      try exact absurd typed (by decide)
    unfold isScriptHash at scriptHash
    split at scriptHash
    · rename_i first second third
      simp only [Bool.and_eq_true, beq_iff_eq] at scriptHash
      obtain ⟨⟨isBlake, isData⟩, isEqual⟩ := scriptHash
      obtain ⟨bytes, plain⟩ :=
        serialize_of_parseScriptFrom _ _ _ parsed (by simp [isBlake, isData, isEqual]; decide)
      have noneFirst := data_length_of_plain 0 (plain first (by simp)) (by rw [isBlake]; decide)
      have hash := data_length_of_plain 32 (plain second (by simp)) (by rw [isData]; decide)
      have noneThird := data_length_of_plain 0 (plain third (by simp)) (by rw [isEqual]; decide)
      refine ⟨second.data, hash, ?_⟩
      rw [bytes, serialize_cons, serialize_cons, serialize_cons, serialize_nil,
        List.length_eq_zero_iff.mp noneFirst, List.length_eq_zero_iff.mp noneThird, isBlake, isData,
        isEqual]
      rfl
    · cases scriptHash
  · rintro ⟨hash, length, rfl⟩
    have plain : ∀ op ∈ [⟨opBlake2b, []⟩, ⟨opData32, hash⟩, ⟨opEqual, []⟩], ParsedOpcode.Plain op := by
      simp only [List.mem_cons, List.not_mem_nil, or_false, forall_eq_or_imp, forall_eq,
        ParsedOpcode.Plain, length]
      decide
    have bytes : opBlake2b :: opData32 :: (hash ++ [opEqual]) =
        serialize [⟨opBlake2b, []⟩, ⟨opData32, hash⟩, ⟨opEqual, []⟩] := by
      simp
    rw [bytes, getScriptClass_serialize _ plain]
    rfl

/-! ## Unparsing

`unparseScript` writes each parsed opcode back, rebuilding the length prefix
of an `OP_PUSHDATA` form from the data's length.  The parser only produces
opcodes whose data has the length they say, so the consistency checks of
`parsedOpcode.bytes` pass on them and the bytes come back unchanged, whether
the push was minimal or not. -/

theorem opcodeLength_ne_zero (value : UInt8) : opcodeLength value ≠ 0 := by
  unfold opcodeLength
  split_ifs <;> omega

theorem pushDataLength_eq (bytes : List UInt8) :
    pushDataLength bytes = LittleEndian.ofListLE bytes := by
  induction bytes with
  | nil => rfl
  | cons byte bytes ih => rw [pushDataLength, List.foldr_cons, ← pushDataLength, ih]; rfl

theorem ParsedOpcode.bytes_single {instr : UInt8} (single : opcodeLength instr = 1) :
    (⟨instr, []⟩ : ParsedOpcode).bytes = .ok [instr] := by
  rw [ParsedOpcode.bytes, if_pos single, if_neg (by simp)]

theorem ParsedOpcode.bytes_data {instr : UInt8} {data : List UInt8}
    (length : opcodeLength instr = data.length + 1) (more : 1 < opcodeLength instr) :
    (⟨instr, data⟩ : ParsedOpcode).bytes = .ok (instr :: data) := by
  rw [ParsedOpcode.bytes]
  dsimp only
  rw [if_neg (show opcodeLength instr ≠ 1 by omega), if_neg (show ¬opcodeLength instr < 0 by omega)]
  dsimp only
  rw [if_neg (by simp; omega)]
  rfl

theorem ParsedOpcode.bytes_pushData {instr : UInt8} {lengthPrefix data : List UInt8}
    (width : opcodeLength instr = -lengthPrefix.length) (negative : opcodeLength instr < 0)
    (dataLength : data.length = LittleEndian.ofListLE lengthPrefix) :
    (⟨instr, data⟩ : ParsedOpcode).bytes = .ok (instr :: (lengthPrefix ++ data)) := by
  have prefixBytes : LittleEndian.toListLE (-opcodeLength instr).toNat data.length = lengthPrefix := by
    rw [width, neg_neg, Int.toNat_natCast, dataLength, LittleEndian.toListLE_ofListLE]
  rw [ParsedOpcode.bytes]
  dsimp only
  rw [if_neg (show opcodeLength instr ≠ 1 by omega), if_pos negative]
  dsimp only
  rw [prefixBytes, if_neg (by simp; omega)]
  rfl

theorem unparseScript_of_parseScriptFrom :
    ∀ (fuel : Nat) (script : List UInt8) (pops : List ParsedOpcode),
      parseScriptFrom fuel script = .ok pops → unparseScript pops = .ok script
  | _, [], pops, parsed => by
    rw [parseScriptFrom] at parsed
    cases parsed
    rfl
  | 0, _ :: _, _, parsed => by cases parsed
  | fuel + 1, instr :: rest, pops, parsed => by
    simp only [parseScriptFrom] at parsed
    split_ifs at parsed with single more short prefixShort dataShort
    · -- an opcode of one byte
      obtain ⟨tail, restParsed, rfl⟩ := Except.map_eq_ok.mp parsed
      rw [unparseScript, ParsedOpcode.bytes_single single,
        unparseScript_of_parseScriptFrom fuel rest tail restParsed]
      rfl
    · -- an OP_DATA opcode and its bytes
      obtain ⟨tail, restParsed, rfl⟩ := Except.map_eq_ok.mp parsed
      have fits : (opcodeLength instr).toNat - 1 ≤ rest.length := by simp at short; omega
      rw [unparseScript, ParsedOpcode.bytes_data (by simp only [List.length_take]; omega) more,
        unparseScript_of_parseScriptFrom fuel _ tail restParsed]
      simp only [bind, Except.bind, pure, Except.pure, List.cons_append, List.take_append_drop]
    · -- an OP_PUSHDATA opcode, its length prefix and its data
      obtain ⟨tail, restParsed, rfl⟩ := Except.map_eq_ok.mp parsed
      rw [pushDataLength_eq, not_lt] at dataShort
      have negative : opcodeLength instr < 0 := by
        have := opcodeLength_ne_zero instr
        omega
      have width : opcodeLength instr = -(rest.take (-opcodeLength instr).toNat).length := by
        rw [List.length_take, Nat.min_eq_left (by omega)]
        omega
      rw [unparseScript, ParsedOpcode.bytes_pushData width negative
          (by rw [List.length_take, pushDataLength_eq, Nat.min_eq_left dataShort]),
        unparseScript_of_parseScriptFrom fuel _ tail restParsed]
      simp only [bind, Except.bind, pure, Except.pure, List.cons_append, List.append_assoc,
        List.take_append_drop]

/-- Parsing and unparsing are inverse on every script the parser accepts. -/
theorem parseScript_unparseScript_roundTrip :
    ∀ (script : List UInt8) (pops : List ParsedOpcode), parseScript script = .ok pops →
      unparseScript pops = .ok script ∧ (unparseScript pops >>= parseScript) = .ok pops := by
  intro script pops parsed
  have unparsed := unparseScript_of_parseScriptFrom _ script pops parsed
  refine ⟨unparsed, ?_⟩
  rw [unparsed]
  exact parsed

/-- Two bytes pushed by `OP_PUSHDATA2`, not minimally, come back as they were. -/
theorem parseScript_unparseScript_roundTrip_pushData2 :
    unparseScript [⟨opPushData2, [9, 9]⟩] = .ok [opPushData2, 2, 0, 9, 9] ∧
      (unparseScript [⟨opPushData2, [9, 9]⟩] >>= parseScript) = .ok [⟨opPushData2, [9, 9]⟩] :=
  parseScript_unparseScript_roundTrip [opPushData2, 2, 0, 9, 9] _ (by decide)

end Cryptixd.Txscript

