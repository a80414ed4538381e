import Mathlib
import Cryptixd.Atomic.Payload
import Cryptixd.Atomic.Owner

/-!
# The coinbase payload

`coinbasemanager/payload.go`: the payload of a coinbase transaction is the
block's blue score and subsidy (eight little-endian bytes each), the version of
the miner's script public key (two bytes), the script's length (one byte), the
script and the miner's extra data.  `serializeCoinbasePayload` writes it when a
block's expected coinbase is built, `ExtractCoinbaseDataBlueScoreAndSubsidy`
reads it back when a coinbase is validated and when merged blocks are rewarded,
and `ModifyCoinbasePayload` rewrites the script and extra data of a template's
payload in place, keeping its first sixteen bytes.

* `extract_serializeCoinbasePayload`: reading a written payload gives back the
  blue score, the coinbase data and the subsidy, and the writer refuses exactly
  the scripts the reader would refuse.
* `modifyCoinbasePayload_serialize`: rewriting the coinbase data of a written
  payload is writing it afresh with the new data.
* `extract_modifyCoinbasePayload`: on any payload of sixteen bytes or more, the
  reader finds the new data after the payload's old blue score and subsidy.
-/

set_option autoImplicit false

namespace Cryptixd.Consensus

open Cryptixd.Atomic

def uint64Len : ℕ := 8
def uint16Len : ℕ := 2
def lengthOfSubsidy : ℕ := uint64Len
def lengthOfScriptPubKeyLength : ℕ := 1
def lengthOfVersionScriptPubKey : ℕ := uint16Len

structure DomainCoinbaseData where
  scriptPublicKey : ScriptPublicKey
  extraData : List UInt8
  deriving DecidableEq, Repr

/-- The messages `payload.go` wraps `ErrBadCoinbasePayloadLen` in, with the
numbers they report. -/
inductive CoinbasePayloadError where
  | scriptTooLong (maxLength : UInt8)
  | tooShort (minLength : ℕ)
  | scriptTruncated (scriptLength : UInt8)
  deriving DecidableEq, Repr

def coinbaseDataBytes (coinbaseData : DomainCoinbaseData) : List UInt8 :=
  putUint16LE coinbaseData.scriptPublicKey.version ++
    [UInt8.ofNat coinbaseData.scriptPublicKey.script.length] ++
    coinbaseData.scriptPublicKey.script ++ coinbaseData.extraData

def serializeCoinbasePayload (coinbasePayloadScriptPublicKeyMaxLength : UInt8) (blueScore : UInt64)
    (coinbaseData : DomainCoinbaseData) (subsidy : UInt64) : Except CoinbasePayloadError (List UInt8) :=
  if coinbaseData.scriptPublicKey.script.length > coinbasePayloadScriptPublicKeyMaxLength.toNat then
    .error (.scriptTooLong coinbasePayloadScriptPublicKeyMaxLength)
  else .ok (putUint64LE blueScore ++ putUint64LE subsidy ++ coinbaseDataBytes coinbaseData)

/-- Go's message for slicing a short slice past its length; the model takes
the capacity of a payload to be its length. -/
def sliceBoundsPanic : String := "runtime error: slice bounds out of range"

/-- `ModifyCoinbasePayload`.  The outer `Except` is a panic.  A payload of the
new length is rewritten in place, any other is first copied, by its first
sixteen bytes, into a zeroed buffer of the new length; the writes then cover
every byte after the sixteenth. -/
def modifyCoinbasePayload (payload : List UInt8) (coinbaseData : DomainCoinbaseData)
    (coinbasePayloadScriptPublicKeyMaxLength : UInt8) :
    Except String (Except CoinbasePayloadError (List UInt8)) :=
  if coinbaseData.scriptPublicKey.script.length > coinbasePayloadScriptPublicKeyMaxLength.toNat then
    .ok (.error (.scriptTooLong coinbasePayloadScriptPublicKeyMaxLength))
  else
    let newPayloadLen := uint64Len + lengthOfVersionScriptPubKey + lengthOfScriptPubKeyLength +
      coinbaseData.scriptPublicKey.script.length + coinbaseData.extraData.length + lengthOfSubsidy
    if payload.length ≠ newPayloadLen ∧ payload.length < uint64Len + lengthOfSubsidy then
      .error sliceBoundsPanic
    else
      let buffer := if payload.length ≠ newPayloadLen then
          payload.take (uint64Len + lengthOfSubsidy) ++
            List.replicate (newPayloadLen - (uint64Len + lengthOfSubsidy)) 0
        else payload
      .ok (.ok (buffer.take (uint64Len + lengthOfSubsidy) ++ coinbaseDataBytes coinbaseData))

def extractCoinbaseDataBlueScoreAndSubsidy (coinbasePayloadScriptPublicKeyMaxLength : UInt8)
    (payload : List UInt8) : Except CoinbasePayloadError (UInt64 × DomainCoinbaseData × UInt64) :=
  let minLength := uint64Len + lengthOfSubsidy + lengthOfVersionScriptPubKey + lengthOfScriptPubKeyLength
  if payload.length < minLength then .error (.tooShort minLength)
  else
    let blueScore := leUint64 (payload.take uint64Len)
    let subsidy := leUint64 ((payload.drop uint64Len).take uint64Len)
    let scriptPubKeyVersion := leUint16 ((payload.drop (uint64Len + lengthOfSubsidy)).take uint16Len)
    let scriptPubKeyScriptLength := payload.getD (uint64Len + lengthOfSubsidy + lengthOfVersionScriptPubKey) 0
    if scriptPubKeyScriptLength > coinbasePayloadScriptPublicKeyMaxLength then
      .error (.scriptTooLong coinbasePayloadScriptPublicKeyMaxLength)
    else if payload.length < minLength + scriptPubKeyScriptLength.toNat then
      .error (.scriptTruncated scriptPubKeyScriptLength)
    else
      let scriptPubKeyScript := (payload.drop minLength).take scriptPubKeyScriptLength.toNat
      .ok (blueScore,
        ⟨⟨scriptPubKeyScript, scriptPubKeyVersion⟩, payload.drop (minLength + scriptPubKeyScriptLength.toNat)⟩,
        subsidy)

/-! ## Reading back what was written -/

@[simp] theorem length_putUint64LE (value : UInt64) : (putUint64LE value).length = 8 := by
  simp [putUint64LE]

@[simp] theorem length_putUint16LE (value : UInt16) : (putUint16LE value).length = 2 := rfl

theorem leUint16_putUint16LE (value : UInt16) : leUint16 (putUint16LE value) = value := by
  apply UInt16.toNat_inj.mp
  have lt := value.toNat_lt
  simp only [leUint16, putUint16LE, LittleEndian.ofListLE_cons, LittleEndian.ofListLE_nil,
    UInt16.toNat_ofNat, UInt16.toNat_toUInt8, UInt16.toNat_shiftRight, Nat.shiftRight_eq_div_pow]
  norm_num
  omega

theorem toNat_ofNat_length {script : List UInt8} {maxLength : UInt8}
    (short : script.length ≤ maxLength.toNat) : (UInt8.ofNat script.length).toNat = script.length :=
  Nat.mod_eq_of_lt (lt_of_le_of_lt short maxLength.toNat_lt)

theorem layout_of_lengths {blueScore subsidy version rest : List UInt8} {scriptLength : UInt8}
    (hb : blueScore.length = 8) (hs : subsidy.length = 8) (hv : version.length = 2) :
    (blueScore ++ (subsidy ++ (version ++ scriptLength :: rest))).take 8 = blueScore ∧
      ((blueScore ++ (subsidy ++ (version ++ scriptLength :: rest))).drop 8).take 8 = subsidy ∧
      ((blueScore ++ (subsidy ++ (version ++ scriptLength :: rest))).drop 16).take 2 = version ∧
      (blueScore ++ (subsidy ++ (version ++ scriptLength :: rest))).getD 18 0 = scriptLength ∧
      (blueScore ++ (subsidy ++ (version ++ scriptLength :: rest))).drop 19 = rest := by
  have drop8 : (blueScore ++ (subsidy ++ (version ++ scriptLength :: rest))).drop 8 =
      subsidy ++ (version ++ scriptLength :: rest) := List.drop_left' hb
  have drop16 : (blueScore ++ (subsidy ++ (version ++ scriptLength :: rest))).drop 16 =
      version ++ scriptLength :: rest := by
    rw [show 16 = 8 + 8 from rfl, ← List.drop_drop, drop8]
    exact List.drop_left' hs
  have drop18 : (blueScore ++ (subsidy ++ (version ++ scriptLength :: rest))).drop 18 =
      scriptLength :: rest := by
    rw [show 18 = 16 + 2 from rfl, ← List.drop_drop, drop16]
    exact List.drop_left' hv
  refine ⟨List.take_left' hb, ?_, ?_, ?_, ?_⟩
  · rw [drop8]
    exact List.take_left' hs
  · rw [drop16]
    exact List.take_left' hv
  · rw [List.getD_eq_getElem?_getD, show (18 : ℕ) = 18 + 0 from rfl, ← List.getElem?_drop, drop18]
    rfl
  · rw [show 19 = 18 + 1 from rfl, ← List.drop_drop, drop18]
    rfl

theorem coinbasePayload_assoc (blueScore subsidy : List UInt8) (coinbaseData : DomainCoinbaseData) :
    blueScore ++ subsidy ++ coinbaseDataBytes coinbaseData =
      blueScore ++ (subsidy ++ (putUint16LE coinbaseData.scriptPublicKey.version ++
        UInt8.ofNat coinbaseData.scriptPublicKey.script.length ::
          (coinbaseData.scriptPublicKey.script ++ coinbaseData.extraData))) := by
  simp [coinbaseDataBytes]

theorem extract_layout {blueScore subsidy : List UInt8} (hb : blueScore.length = 8)
    (hs : subsidy.length = 8) {coinbaseData : DomainCoinbaseData}
    {coinbasePayloadScriptPublicKeyMaxLength : UInt8}
    (short : coinbaseData.scriptPublicKey.script.length ≤ coinbasePayloadScriptPublicKeyMaxLength.toNat) :
    extractCoinbaseDataBlueScoreAndSubsidy coinbasePayloadScriptPublicKeyMaxLength
        (blueScore ++ subsidy ++ coinbaseDataBytes coinbaseData) =
      .ok (leUint64 blueScore, coinbaseData, leUint64 subsidy) := by
  have len : (blueScore ++ subsidy ++ coinbaseDataBytes coinbaseData).length =
      19 + coinbaseData.scriptPublicKey.script.length + coinbaseData.extraData.length := by
    simp [coinbaseDataBytes, hb, hs]
    omega
  rw [coinbasePayload_assoc] at len ⊢
  obtain ⟨score, reward, version, scriptLength, rest⟩ :=
    @layout_of_lengths blueScore subsidy _ (coinbaseData.scriptPublicKey.script ++ coinbaseData.extraData)
      (UInt8.ofNat coinbaseData.scriptPublicKey.script.length) hb hs
      (length_putUint16LE coinbaseData.scriptPublicKey.version)
  have lengthByte := toNat_ofNat_length short
  have fits : ¬UInt8.ofNat coinbaseData.scriptPublicKey.script.length >
      coinbasePayloadScriptPublicKeyMaxLength := by
    rw [gt_iff_lt, UInt8.lt_iff_toNat_lt, lengthByte]
    omega
  unfold extractCoinbaseDataBlueScoreAndSubsidy
  simp only [uint64Len, lengthOfSubsidy, lengthOfVersionScriptPubKey, lengthOfScriptPubKeyLength,
    uint16Len, Nat.reduceAdd, len, score, reward, version, scriptLength, rest, lengthByte, fits,
    leUint16_putUint16LE, List.take_left', if_false]
  rw [if_neg (by omega), if_neg (by omega), ← List.drop_drop, rest, List.drop_left' rfl]

theorem extract_serializeCoinbasePayload (coinbasePayloadScriptPublicKeyMaxLength : UInt8)
    (blueScore : UInt64) (coinbaseData : DomainCoinbaseData) (subsidy : UInt64) :
    (serializeCoinbasePayload coinbasePayloadScriptPublicKeyMaxLength blueScore coinbaseData subsidy >>=
        extractCoinbaseDataBlueScoreAndSubsidy coinbasePayloadScriptPublicKeyMaxLength) =
      if coinbaseData.scriptPublicKey.script.length ≤ coinbasePayloadScriptPublicKeyMaxLength.toNat then
        .ok (blueScore, coinbaseData, subsidy)
      else .error (.scriptTooLong coinbasePayloadScriptPublicKeyMaxLength) := by
  unfold serializeCoinbasePayload
  split_ifs with long short short
  · omega
  · rfl
  · rw [show ∀ payload : List UInt8, (Except.ok payload : Except CoinbasePayloadError _) >>=
      extractCoinbaseDataBlueScoreAndSubsidy coinbasePayloadScriptPublicKeyMaxLength =
        extractCoinbaseDataBlueScoreAndSubsidy coinbasePayloadScriptPublicKeyMaxLength payload
      from fun _ => rfl, extract_layout (length_putUint64LE blueScore) (length_putUint64LE subsidy) short,
      leUint64_putUint64LE, leUint64_putUint64LE]
  · omega

/-! ## Rewriting the coinbase data -/

theorem modifyCoinbasePayload_eq {payload : List UInt8} {coinbaseData : DomainCoinbaseData}
    {coinbasePayloadScriptPublicKeyMaxLength : UInt8}
    (long : uint64Len + lengthOfSubsidy ≤ payload.length)
    (short : coinbaseData.scriptPublicKey.script.length ≤ coinbasePayloadScriptPublicKeyMaxLength.toNat) :
    modifyCoinbasePayload payload coinbaseData coinbasePayloadScriptPublicKeyMaxLength =
      .ok (.ok (payload.take (uint64Len + lengthOfSubsidy) ++ coinbaseDataBytes coinbaseData)) := by
  unfold modifyCoinbasePayload
  rw [if_neg (by omega), if_neg (by omega)]
  dsimp only
  split
  · -- a payload of another length is first copied into a fresh buffer
    rw [List.take_left' (by simp; omega)]
  · rfl

/-- Rewriting the coinbase data of a written payload is writing the payload
afresh with the new data, the blue score and subsidy kept; a script that is too
long is refused by both. -/
theorem modifyCoinbasePayload_serialize {coinbasePayloadScriptPublicKeyMaxLength : UInt8}
    {blueScore subsidy : UInt64} {coinbaseData : DomainCoinbaseData} {payload : List UInt8}
    (written : serializeCoinbasePayload coinbasePayloadScriptPublicKeyMaxLength blueScore coinbaseData
      subsidy = .ok payload) (newData : DomainCoinbaseData) :
    modifyCoinbasePayload payload newData coinbasePayloadScriptPublicKeyMaxLength =
      .ok (serializeCoinbasePayload coinbasePayloadScriptPublicKeyMaxLength blueScore newData subsidy) := by
  unfold serializeCoinbasePayload at written
  split_ifs at written
  cases written
  have len : (putUint64LE blueScore ++ putUint64LE subsidy ++ coinbaseDataBytes coinbaseData).length ≥ 16 := by
    simp [coinbaseDataBytes]
    omega
  by_cases tooLong : newData.scriptPublicKey.script.length > coinbasePayloadScriptPublicKeyMaxLength.toNat
  · rw [modifyCoinbasePayload, if_pos tooLong, serializeCoinbasePayload, if_pos tooLong]
  · rw [modifyCoinbasePayload_eq (by simp only [uint64Len, lengthOfSubsidy]; omega) (by omega),
      serializeCoinbasePayload, if_neg tooLong, List.append_assoc _ (putUint64LE subsidy),
      ← List.append_assoc]
    rw [List.take_left' (by simp [uint64Len, lengthOfSubsidy])]

theorem modifyCoinbasePayload_serialize_newScript :
    serializeCoinbasePayload 150 7 ⟨⟨[1, 2, 3], 0⟩, [9]⟩ 500 =
        .ok (putUint64LE 7 ++ putUint64LE 500 ++ coinbaseDataBytes ⟨⟨[1, 2, 3], 0⟩, [9]⟩) ∧
      modifyCoinbasePayload (putUint64LE 7 ++ putUint64LE 500 ++ coinbaseDataBytes ⟨⟨[1, 2, 3], 0⟩, [9]⟩)
          ⟨⟨[4, 5], 1⟩, [8, 8, 8]⟩ 150 =
        .ok (serializeCoinbasePayload 150 7 ⟨⟨[4, 5], 1⟩, [8, 8, 8]⟩ 500) :=
  ⟨rfl, @modifyCoinbasePayload_serialize 150 7 500 ⟨⟨[1, 2, 3], 0⟩, [9]⟩ _ rfl _⟩

/-- What the reader finds after a rewrite: the blue score and subsidy the
payload had, and the new coinbase data. -/
theorem extract_modifyCoinbasePayload {payload : List UInt8} {coinbaseData : DomainCoinbaseData}
    {coinbasePayloadScriptPublicKeyMaxLength : UInt8}
    (long : uint64Len + lengthOfSubsidy ≤ payload.length)
    (short : coinbaseData.scriptPublicKey.script.length ≤ coinbasePayloadScriptPublicKeyMaxLength.toNat) :
    ∃ modified, modifyCoinbasePayload payload coinbaseData coinbasePayloadScriptPublicKeyMaxLength =
        .ok (.ok modified) ∧
      extractCoinbaseDataBlueScoreAndSubsidy coinbasePayloadScriptPublicKeyMaxLength modified =
        .ok (leUint64 (payload.take uint64Len), coinbaseData, leUint64 ((payload.drop uint64Len).take uint64Len)) := by
  refine ⟨_, modifyCoinbasePayload_eq long short, ?_⟩
  simp only [uint64Len, lengthOfSubsidy] at long ⊢
  rw [List.take_add]
  exact extract_layout (by simp; omega) (by simp; omega) short

theorem extract_modifyCoinbasePayload_template :
    uint64Len + lengthOfSubsidy ≤ (List.replicate 20 3 : List UInt8).length ∧
      (⟨⟨[4, 5], 1⟩, [8]⟩ : DomainCoinbaseData).scriptPublicKey.script.length ≤ (150 : UInt8).toNat ∧
      ∃ modified, modifyCoinbasePayload (List.replicate 20 3) ⟨⟨[4, 5], 1⟩, [8]⟩ 150 = .ok (.ok modified) ∧
        extractCoinbaseDataBlueScoreAndSubsidy 150 modified =
          .ok (leUint64 (List.replicate 8 3), ⟨⟨[4, 5], 1⟩, [8]⟩, leUint64 (List.replicate 8 3)) :=
  ⟨by decide, by decide, extract_modifyCoinbasePayload (by decide) (by decide)⟩

end Cryptixd.Consensus
