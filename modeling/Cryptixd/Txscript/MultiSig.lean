import Mathlib
import Cryptixd.Txscript.Opcode
import Cryptixd.Lib.SublistMatch

/-!
# Multisig checks

The loop of `opcodeCheckMultiSig` walks the public keys once, trying each
against the current signature and moving on to the next signature when it
verifies, with two shortcuts: it stops as soon as fewer keys than signatures
are left, and it parses each signature once, caching the outcome.  Over keys
and signatures that are well encoded the loop is the greedy matching of the
signatures to the keys (`multiSigLoop_eq`), so it accepts exactly when the
signatures can be matched, in order, to distinct keys each of them verifies
against (`multiSigLoop_spec`).
-/

set_option autoImplicit false

namespace Cryptixd.Txscript

open SublistMatch

/-- A signature verifies against a public key as the loop checks it: it is
not empty, its body and the key parse, and the scheme verifies the body under
the hash of its hash type. -/
def sigVerifies (scheme : SigScheme) (signature pubKey : List UInt8) : Bool :=
  !signature.isEmpty && scheme.signatureParses signature.dropLast && scheme.pubKeyParses pubKey &&
    scheme.verify (scheme.sigHash (signature.getLastD 0)) signature.dropLast pubKey

def SigEncodingValid (signature : List UInt8) : Prop :=
  signature = [] ∨ isStandardSigHashType (signature.getLastD 0) = true ∧ signature.dropLast.length = 64

/-- The cached outcome of parsing a signature, once there is one, is the
scheme's. -/
def ParsedSigInfo.Cached (scheme : SigScheme) (info : ParsedSigInfo) : Prop :=
  info.parsed = true → info.parsedSignature = scheme.signatureParses info.signature.dropLast

theorem parseSigInfo_cached {scheme : SigScheme} {info : ParsedSigInfo} (cached : info.Cached scheme)
    (valid : SigEncodingValid info.signature) (nonEmpty : info.signature ≠ []) :
    ∃ parsed : ParsedSigInfo, parseSigInfo scheme info = .ok parsed ∧ parsed.signature = info.signature ∧
      parsed.parsedSignature = scheme.signatureParses info.signature.dropLast ∧ parsed.Cached scheme := by
  obtain ⟨standard, length⟩ := valid.resolve_left nonEmpty
  unfold parseSigInfo
  split_ifs with first
  · exact ⟨info, rfl, rfl, cached first, cached⟩
  · simp only [standard, Bool.not_true, Bool.false_eq_true, if_false, checkSignatureLength, length, ne_eq,
      not_true_eq_false]
    exact ⟨_, rfl, rfl, rfl, fun _ => rfl⟩

/-- Over well-encoded keys and signatures, the loop is the greedy matching of
the signatures to the keys. -/
theorem multiSigLoop_eq (pubKeyLength : ℕ) (scheme : SigScheme) :
    ∀ (keys : List (List UInt8)) (infos : List ParsedSigInfo), (∀ key ∈ keys, key.length = pubKeyLength) →
      (∀ info ∈ infos, SigEncodingValid info.signature ∧ info.Cached scheme) →
      multiSigLoop pubKeyLength scheme keys infos =
        .ok (greedyMatch (sigVerifies scheme) keys (infos.map (·.signature))) := by
  intro keys
  induction keys with
  | nil =>
    intro infos _ _
    cases infos <;> rfl
  | cons key keys ih =>
    intro infos encoded valid
    cases infos with
    | nil => rfl
    | cons info infos =>
      have encodedRest : ∀ k ∈ keys, k.length = pubKeyLength := fun k member =>
        encoded k (List.mem_cons_of_mem _ member)
      obtain ⟨infoValid, cached⟩ := valid info List.mem_cons_self
      have validRest : ∀ i ∈ infos, SigEncodingValid i.signature ∧ i.Cached scheme := fun i member =>
        valid i (List.mem_cons_of_mem _ member)
      -- a key the current signature does not verify against is passed over
      have skip : ∀ kept : ParsedSigInfo, kept.signature = info.signature →
          SigEncodingValid kept.signature ∧ kept.Cached scheme → sigVerifies scheme info.signature key = false →
          multiSigLoop pubKeyLength scheme keys (kept :: infos) =
            .ok (greedyMatch (sigVerifies scheme) (key :: keys) ((info :: infos).map (·.signature))) := by
        intro kept same keptValid notVerified
        rw [ih (kept :: infos) encodedRest (by simpa using ⟨keptValid, validRest⟩), List.map_cons, List.map_cons,
          same, greedyMatch_cons_cons, if_neg (by simp [notVerified])]
      simp only [multiSigLoop]
      split
      · -- fewer keys than signatures are left, and no matching can succeed
        rename_i cutoff
        have short : ¬((info :: infos).map (·.signature)).length ≤ (key :: keys).length := by
          simp only [List.length_map, List.length_cons]
          omega
        exact congrArg _ (Bool.eq_false_iff.mpr fun h => short (greedyMatch_length _ h)).symm
      split
      · rename_i empty
        exact skip info rfl ⟨infoValid, cached⟩ (by simp [sigVerifies, List.eq_nil_of_length_eq_zero empty])
      rename_i empty
      have nonEmpty : info.signature ≠ [] := fun h => empty (by rw [h]; rfl)
      obtain ⟨parsed, parse, same, outcome, parsedCached⟩ := parseSigInfo_cached cached infoValid nonEmpty
      have parsedValid : SigEncodingValid parsed.signature ∧ parsed.Cached scheme :=
        ⟨same ▸ infoValid, parsedCached⟩
      rw [parse]
      simp only
      split_ifs with unparsed badKey keyUnparsed verified
      · exact skip parsed same parsedValid (by simp_all [sigVerifies])
      · exact absurd (encoded key List.mem_cons_self) badKey
      · exact skip parsed same parsedValid (by simp_all [sigVerifies])
      · -- the key verifies the signature: both move on
        rw [ih infos encodedRest validRest, List.map_cons, greedyMatch_cons_cons, if_pos]
        simp_all [sigVerifies]
      · exact skip parsed same parsedValid (by simp_all [sigVerifies])

theorem multiSigLoop_spec (pubKeyLength : ℕ) (scheme : SigScheme) {keys sigs : List (List UInt8)}
    (encoded : ∀ key ∈ keys, key.length = pubKeyLength) (valid : ∀ sig ∈ sigs, SigEncodingValid sig) :
    ∃ success, multiSigLoop pubKeyLength scheme keys (sigs.map fun signature => ⟨signature, false, false⟩) =
        .ok success ∧
      (success = true ↔ ∃ matched, List.Sublist matched keys ∧
        List.Forall₂ (fun sig key => sigVerifies scheme sig key = true) sigs matched) := by
  have fresh : ∀ info ∈ sigs.map (fun signature => (⟨signature, false, false⟩ : ParsedSigInfo)),
      SigEncodingValid info.signature ∧ info.Cached scheme := by
    simp only [List.mem_map]
    rintro _ ⟨sig, member, rfl⟩
    exact ⟨valid sig member, fun parsed => absurd parsed Bool.false_ne_true⟩
  refine ⟨_, multiSigLoop_eq pubKeyLength scheme keys _ encoded fresh, ?_⟩
  have signatures : (sigs.map fun signature => (⟨signature, false, false⟩ : ParsedSigInfo)).map (·.signature) =
      sigs := by
    rw [List.map_map]
    exact List.map_id _
  rw [signatures]
  exact greedyMatch_iff _ keys sigs

theorem popInt_cons {x : List UInt8} {rest : List (List UInt8)} {n : ScriptNum}
    (h : makeScriptNum x defaultScriptNumLen = .ok n) : popInt (x :: rest) = .ok (n, rest) := by
  rw [popInt, popByteArray_cons]
  simp only [Except.ok_bind, h]
  rfl

theorem popByteArrays_append (items rest : List (List UInt8)) :
    popByteArrays items.length (items ++ rest) = .ok (items, rest) := by
  induction items with
  | nil => rfl
  | cons item items ih =>
    rw [List.length_cons, popByteArrays, List.cons_append, popByteArray_cons]
    simp only [Except.ok_bind, ih]
    rfl

theorem checkMultiSigWith_eq {pubKeyLength : ℕ} {scheme : SigScheme} {s : Stacks}
    {keys sigs rest : List (List UInt8)} {numKeys numSigs : List UInt8} {nk ns : ScriptNum}
    (stack : s.dstack = numKeys :: (keys ++ numSigs :: (sigs ++ rest)))
    (keyCount : makeScriptNum numKeys defaultScriptNumLen = .ok nk) (nkEq : nk.int32 = keys.length)
    (sigCount : makeScriptNum numSigs defaultScriptNumLen = .ok ns) (nsEq : ns.int32 = sigs.length)
    (few : keys.length ≤ maxPubKeysPerMultiSig) (fewer : sigs.length ≤ keys.length)
    (ops : s.numOps + keys.length ≤ maxOpsPerScript) {success : Bool}
    (loop : multiSigLoop pubKeyLength scheme keys (sigs.map fun signature => ⟨signature, false, false⟩) =
      .ok success) :
    checkMultiSigWith pubKeyLength scheme s =
      if !success ∧ sigs.any (·.length > 0) then .error (.code .errNullFail)
      else .ok { s with dstack := pushBool success rest, numOps := s.numOps + keys.length } := by
  unfold checkMultiSigWith
  rw [stack, popInt_cons keyCount]
  have nonneg : ¬((keys.length : ℤ) < 0) := by omega
  have bounded : ¬((keys.length : ℤ) > maxPubKeysPerMultiSig) := by omega
  have counted : ¬(s.numOps + keys.length > maxOpsPerScript) := by omega
  have sigsNonneg : ¬((sigs.length : ℤ) < 0) := by omega
  have sigsBounded : ¬((sigs.length : ℤ) > keys.length) := by omega
  simp only [Except.ok_bind, nkEq, Int.toNat_natCast, nonneg, bounded, counted, if_false,
    popByteArrays_append, popInt_cons sigCount, nsEq, sigsNonneg, sigsBounded, loop]
  split <;> rfl

theorem checkMultiSigWith_spec {pubKeyLength : ℕ} {scheme : SigScheme} {s : Stacks}
    {keys sigs rest : List (List UInt8)} {numKeys numSigs : List UInt8} {nk ns : ScriptNum}
    (stack : s.dstack = numKeys :: (keys ++ numSigs :: (sigs ++ rest)))
    (keyCount : makeScriptNum numKeys defaultScriptNumLen = .ok nk) (nkEq : nk.int32 = keys.length)
    (sigCount : makeScriptNum numSigs defaultScriptNumLen = .ok ns) (nsEq : ns.int32 = sigs.length)
    (few : keys.length ≤ maxPubKeysPerMultiSig) (fewer : sigs.length ≤ keys.length)
    (ops : s.numOps + keys.length ≤ maxOpsPerScript)
    (encoded : ∀ key ∈ keys, key.length = pubKeyLength) (valid : ∀ sig ∈ sigs, SigEncodingValid sig) :
    ∃ success : Bool,
      (success = true ↔ ∃ matched, List.Sublist matched keys ∧
        List.Forall₂ (fun sig key => sigVerifies scheme sig key = true) sigs matched) ∧
      checkMultiSigWith pubKeyLength scheme s =
        if !success ∧ sigs.any (·.length > 0) then .error (.code .errNullFail)
        else .ok { s with dstack := pushBool success rest, numOps := s.numOps + keys.length } := by
  obtain ⟨success, loop, matching⟩ := multiSigLoop_spec pubKeyLength scheme encoded valid
  exact ⟨success, matching, checkMultiSigWith_eq stack keyCount nkEq sigCount nsEq few fewer ops loop⟩

def acceptingScheme : SigScheme := ⟨fun _ => [], fun _ => true, fun _ => true, fun _ _ _ => true⟩

def multiSigKeys : List (List UInt8) := [List.replicate 32 2, List.replicate 32 3]

def multiSigSignature : List UInt8 := List.replicate 64 0 ++ [1]

def multiSigStacks : Stacks := ⟨[2] :: (multiSigKeys ++ [1] :: ([multiSigSignature] ++ [])), [], 0⟩

theorem checkMultiSigWith_spec_oneOfTwo :
    ∃ success : Bool,
      (success = true ↔ ∃ matched, List.Sublist matched multiSigKeys ∧
        List.Forall₂ (fun sig key => sigVerifies acceptingScheme sig key = true) [multiSigSignature] matched) ∧
      checkMultiSigWith 32 acceptingScheme multiSigStacks =
        if !success ∧ [multiSigSignature].any (·.length > 0) then .error (.code .errNullFail)
        else .ok { multiSigStacks with dstack := pushBool success [], numOps := multiSigStacks.numOps + 2 } :=
  checkMultiSigWith_spec rfl rfl (by decide) rfl (by decide) (by decide) (by decide) (by decide)
    (by decide) (by simp [multiSigSignature, SigEncodingValid, isStandardSigHashType])

theorem checkSigWith_eq {pubKeyLength : ℕ} {scheme : SigScheme} {s : Stacks}
    {pubKey signature : List UInt8} {rest : List (List UInt8)}
    (stack : s.dstack = pubKey :: signature :: rest) (encoded : pubKey.length = pubKeyLength)
    (valid : SigEncodingValid signature) :
    checkSigWith pubKeyLength scheme s =
      if signature = [] ∨ scheme.pubKeyParses pubKey = false ∨ scheme.signatureParses signature.dropLast = false then
        .ok { s with dstack := pushBool false rest }
      else if scheme.verify (scheme.sigHash (signature.getLastD 0)) signature.dropLast pubKey then
        .ok { s with dstack := pushBool true rest }
      else .error (.code .errNullFail) := by
  unfold checkSigWith
  rw [stack]
  simp only [popByteArray_cons, Except.ok_bind]
  rcases valid with rfl | ⟨standard, length⟩
  · rfl
  have nonEmpty : ¬signature.length < 1 := by
    rw [List.length_dropLast] at length
    omega
  have notNil : signature ≠ [] := by
    rintro rfl
    simp at nonEmpty
  simp only [nonEmpty, if_false, standard, Bool.not_true, Bool.false_eq_true, checkSignatureLength, length,
    checkPubKeyEncoding, encoded, ne_eq, not_true_eq_false, if_true, Except.ok_bind, notNil, false_or]
  cases scheme.pubKeyParses pubKey <;> cases scheme.signatureParses signature.dropLast <;>
    cases scheme.verify (scheme.sigHash (signature.getLastD 0)) signature.dropLast pubKey <;> rfl

theorem greedyMatch_single (key : List UInt8) (signature : List UInt8) (scheme : SigScheme) :
    greedyMatch (sigVerifies scheme) [key] [signature] = sigVerifies scheme signature key := by
  rw [greedyMatch_cons_cons]
  cases sigVerifies scheme signature key <;> rfl

/-- A 1-of-1 multisig agrees with `OP_CHECKSIG` on well-encoded operands, but
for a signature whose key or body does not deserialize: `OP_CHECKSIG` pushes
false where the multisig fails with `NULLFAIL`. -/
theorem checkSigWith_unparsed {pubKeyLength : ℕ} {scheme : SigScheme} {s : Stacks}
    {pubKey signature : List UInt8} {rest : List (List UInt8)}
    (stack : s.dstack = pubKey :: signature :: rest) (encoded : pubKey.length = pubKeyLength)
    (valid : SigEncodingValid signature)
    (unparsed : scheme.pubKeyParses pubKey = false ∨ scheme.signatureParses signature.dropLast = false) :
    checkSigWith pubKeyLength scheme s = .ok { s with dstack := pushBool false rest } := by
  rw [checkSigWith_eq stack encoded valid, if_pos (Or.inr unparsed)]

theorem checkMultiSigWith_oneOfOne {pubKeyLength : ℕ} {scheme : SigScheme} {s : Stacks}
    {pubKey signature : List UInt8} {rest : List (List UInt8)}
    (stack : s.dstack = pubKey :: signature :: rest) (encoded : pubKey.length = pubKeyLength)
    (valid : SigEncodingValid signature) (ops : s.numOps + 1 ≤ maxOpsPerScript) :
    (checkMultiSigWith pubKeyLength scheme { s with dstack := [1] :: pubKey :: [1] :: signature :: rest } =
      if signature ≠ [] ∧ (scheme.pubKeyParses pubKey = false ∨ scheme.signatureParses signature.dropLast = false)
      then .error (.code .errNullFail)
      else (checkSigWith pubKeyLength scheme s).map fun st => { st with numOps := st.numOps + 1 }) ∧
    (signature ≠ [] ∧ (scheme.pubKeyParses pubKey = false ∨ scheme.signatureParses signature.dropLast = false) →
      checkSigWith pubKeyLength scheme s = .ok { s with dstack := pushBool false rest }) := by
  refine ⟨?_, fun ⟨_, unparsed⟩ => checkSigWith_unparsed stack encoded valid unparsed⟩
  have loop := multiSigLoop_eq pubKeyLength scheme [pubKey] [⟨signature, false, false⟩]
    (by simp [encoded]) (by simp [valid, ParsedSigInfo.Cached])
  let multi : Stacks := { s with dstack := [1] :: pubKey :: [1] :: signature :: rest }
  rw [checkMultiSigWith_eq (show multi.dstack = [1] :: ([pubKey] ++ [1] :: ([signature] ++ rest)) from rfl) rfl rfl rfl rfl
    (by simp [maxPubKeysPerMultiSig]) le_rfl ops loop, checkSigWith_eq stack encoded valid]
  simp only [List.map_cons, List.map_nil, greedyMatch_single]
  by_cases empty : signature = []
  · subst empty
    rfl
  have present : ([signature].any fun x => decide (x.length > 0)) = true := by
    simpa using List.length_pos_iff.mpr empty
  have notEmpty : signature.isEmpty = false := List.isEmpty_eq_false_iff.mpr empty
  simp only [sigVerifies, present, notEmpty, empty, Bool.not_false, Bool.true_and, ne_eq, not_false_eq_true,
    true_and, false_or, and_true]
  cases scheme.pubKeyParses pubKey <;> cases scheme.signatureParses signature.dropLast <;>
    cases scheme.verify (scheme.sigHash (signature.getLastD 0)) signature.dropLast pubKey <;> rfl

theorem checkMultiSigWith_oneOfOne_keyUnparsed :
    let scheme : SigScheme := ⟨fun _ => [], fun _ => true, fun _ => false, fun _ _ _ => true⟩
    let s : Stacks := ⟨[List.replicate 32 2, multiSigSignature], [], 0⟩
    (checkMultiSigWith 32 scheme { s with dstack := [1] :: List.replicate 32 2 :: [1] :: multiSigSignature :: [] } =
      if multiSigSignature ≠ [] ∧ (scheme.pubKeyParses (List.replicate 32 2) = false ∨
          scheme.signatureParses multiSigSignature.dropLast = false)
      then .error (.code .errNullFail)
      else (checkSigWith 32 scheme s).map fun st => { st with numOps := st.numOps + 1 }) ∧
    (multiSigSignature ≠ [] ∧ (scheme.pubKeyParses (List.replicate 32 2) = false ∨
        scheme.signatureParses multiSigSignature.dropLast = false) →
      checkSigWith 32 scheme s = .ok { s with dstack := pushBool false [] }) :=
  checkMultiSigWith_oneOfOne rfl rfl (by simp [multiSigSignature, SigEncodingValid, isStandardSigHashType])
    (by decide)

example :
    checkSigWith 32 ⟨fun _ => [], fun _ => true, fun _ => false, fun _ _ _ => true⟩
        ⟨[List.replicate 32 2, multiSigSignature], [], 0⟩ = .ok ⟨[[]], [], 0⟩ ∧
      checkMultiSigWith 32 ⟨fun _ => [], fun _ => true, fun _ => false, fun _ _ _ => true⟩
        ⟨[[1], List.replicate 32 2, [1], multiSigSignature], [], 0⟩ = .error (.code .errNullFail) :=
  ⟨rfl, rfl⟩

end Cryptixd.Txscript
