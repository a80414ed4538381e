import Mathlib
import Cryptixd.Antifraud.Snapshot
import Cryptixd.Lib.Trace

/-!
# Rollback protection of the applied anti-fraud snapshot

The connection manager's anti-fraud state moves by calls of its three
sources, in any order (`AntiFraudCall`).  What a call can do to the applied
snapshot is said once (`Applies`, `step_applies`): either nothing, or it
applies an enabled snapshot whose sequence number is above the one applied
before.  Over every run this gives that the applied sequence numbers rise
strictly, so no sequence number is applied with two root hashes
(`antiFraud_snapshot_rollback`).  A snapshot applied from peers is one a strict
majority of the unexpired votes at the highest sequence number agree on
(`ingestPeer_applied_majority`).
-/

set_option autoImplicit false

namespace Cryptixd.Antifraud

open Cryptixd.Atomic

/-- The fields of the state that only `tryApplyAntiFraudSnapshotLocked`
writes and the rollback rules read. -/
def AntiFraudState.applied (c : AntiFraudState) :
    Bool × UInt64 × DomainHash × Option ExternalBanlistSnapshot :=
  (c.hasExternalSnapshot, c.externalSnapshotSeq, c.externalSnapshotRootHash,
    c.antiFraudCurrentSnapshot)

/-- What a call that returns `applied` did to the applied snapshot: nothing,
or applied an enabled snapshot above the one applied before. -/
def Applies (c c' : AntiFraudState) : Bool → Prop
  | false => c'.applied = c.applied
  | true => ∃ snapshot : ExternalBanlistSnapshot, snapshot.antiFraudEnabled = true ∧
      (c.hasExternalSnapshot = true → c.externalSnapshotSeq < snapshot.snapshotSeq) ∧
      c'.applied = (true, snapshot.snapshotSeq, snapshot.rootHash, some snapshot)

theorem Applies.of_applied_eq {c c' c'' : AntiFraudState} {applied : Bool}
    (applies : Applies c c' applied) (same : c''.applied = c'.applied) : Applies c c'' applied := by
  cases applied with
  | false => exact same.trans applies
  | true =>
    obtain ⟨snapshot, enabled, above, written⟩ := applies
    exact ⟨snapshot, enabled, above, same.trans written⟩

theorem Applies.of_start_eq {c₀ c c' : AntiFraudState} {applied : Bool}
    (same : c₀.applied = c.applied) (applies : Applies c₀ c' applied) : Applies c c' applied := by
  cases applied with
  | false => exact (show c'.applied = c₀.applied from applies).trans same
  | true =>
    simp only [AntiFraudState.applied, Prod.mk.injEq] at same
    obtain ⟨held, seq, -, -⟩ := same
    obtain ⟨snapshot, enabled, above, written⟩ := applies
    exact ⟨snapshot, enabled, fun present => seq ▸ above (held ▸ present), written⟩

/-! ## Each function, on the applied snapshot -/

theorem tryApplyAntiFraudSnapshotLocked_applies {snapshot : Option ExternalBanlistSnapshot}
    {c c' : AntiFraudState} {applied : Bool}
    (accepted : tryApplyAntiFraudSnapshotLocked snapshot c = .ok (applied, c')) :
    Applies c c' applied := by
  cases snapshot with
  | none => cases accepted
  | some snapshot =>
    have written : (applySnapshot c snapshot).applied =
        (true, snapshot.snapshotSeq, snapshot.rootHash, some snapshot) := rfl
    dsimp only [tryApplyAntiFraudSnapshotLocked] at accepted
    split_ifs at accepted with disabled held older same
    · -- the applied snapshot again: nothing changes
      cases accepted
      rfl
    · -- a snapshot above the applied one
      cases accepted
      have above : c.externalSnapshotSeq < snapshot.snapshotSeq := by
        rw [UInt64.lt_iff_toNat_lt] at older ⊢
        have differ : snapshot.snapshotSeq.toNat ≠ c.externalSnapshotSeq.toNat :=
          fun equal => same (UInt64.toNat_inj.mp equal)
        omega
      exact ⟨snapshot, by simpa using disabled, fun _ => above, written⟩
    · -- the first snapshot
      cases accepted
      exact ⟨snapshot, by simpa using disabled, fun present => absurd present held, written⟩

theorem tryApplyAntiFraudSnapshotLocked_eq_ok_true {snapshot : ExternalBanlistSnapshot}
    {c c' : AntiFraudState}
    (accepted : tryApplyAntiFraudSnapshotLocked (some snapshot) c = .ok (true, c')) :
    c' = applySnapshot c snapshot := by
  dsimp only [tryApplyAntiFraudSnapshotLocked] at accepted
  split_ifs at accepted <;> cases accepted <;> rfl

theorem applied_ensurePeerOnlyAntiFraudRuntime (now : Int) (c : AntiFraudState) :
    (ensurePeerOnlyAntiFraudRuntime now c).applied = c.applied := by
  unfold ensurePeerOnlyAntiFraudRuntime
  split_ifs <;> rfl

theorem applied_handleExternalBanlistRefreshFailure (now : Int) (c : AntiFraudState) :
    (handleExternalBanlistRefreshFailure now c).applied = c.applied := by
  unfold handleExternalBanlistRefreshFailure
  dsimp only
  split_ifs <;> rfl

theorem refreshExternalBanlistIfNeeded_applies (enableExternalBanlist : Bool) (now : Int)
    (fetched : Except String (Option ExternalBanlistSnapshot)) (c : AntiFraudState) :
    Applies c (refreshExternalBanlistIfNeeded enableExternalBanlist now fetched c).2
      (refreshExternalBanlistIfNeeded enableExternalBanlist now fetched c).1 := by
  unfold refreshExternalBanlistIfNeeded
  split_ifs
  · rfl
  · exact applied_ensurePeerOnlyAntiFraudRuntime now c
  · rcases fetched with _ | _ | snapshot
    · exact applied_handleExternalBanlistRefreshFailure now c
    · exact applied_handleExternalBanlistRefreshFailure now c
    · dsimp only
      rcases accepted : tryApplyAntiFraudSnapshot (some snapshot) c with _ | ⟨applied, c'⟩
      · exact applied_handleExternalBanlistRefreshFailure now c
      · -- the flags written after a successful apply leave the snapshot alone
        exact (tryApplyAntiFraudSnapshotLocked_applies accepted).of_applied_eq rfl

theorem tryLoadPersistedAntiFraudSnapshot_applies (loaded : Option ExternalBanlistSnapshot)
    (c : AntiFraudState) :
    Applies c (tryLoadPersistedAntiFraudSnapshot loaded c).2
      (tryLoadPersistedAntiFraudSnapshot loaded c).1 := by
  unfold tryLoadPersistedAntiFraudSnapshot
  rcases loaded with _ | loaded
  · rfl
  · dsimp only
    split_ifs
    · rfl
    · rcases accepted : tryApplyAntiFraudSnapshot (some loaded) c with _ | ⟨applied, c'⟩
      · rfl
      · exact tryApplyAntiFraudSnapshotLocked_applies accepted

/-- The `Applied` flag of a call of `IngestPeerAntiFraudSnapshot`, false when
it fails. -/
def ingestPeerApplied (outcome : Except String IngestPeerAntiFraudSnapshotResult) : Bool :=
  match outcome with
  | .ok result => result.applied
  | .error _ => false

theorem ingestPeerAntiFraudSnapshot_applies (enableExternalBanlist : Bool) (peerID : String)
    (message : Option (Except String ExternalBanlistSnapshot)) (now : Int) (c : AntiFraudState) :
    Applies c (ingestPeerAntiFraudSnapshot enableExternalBanlist peerID message now c).2
      (ingestPeerApplied (ingestPeerAntiFraudSnapshot enableExternalBanlist peerID message now c).1) := by
  unfold ingestPeerAntiFraudSnapshot
  split_ifs
  · rfl
  · rfl
  · rcases message with _ | _ | snapshot
    · rfl
    · rfl
    · dsimp only
      split_ifs
      · rfl
      · -- recording the vote leaves the snapshot alone; only the apply moves it
        cases selectPeerMajority (pruneAntiFraudPeerVotes
          (c.antiFraudPeerVotes.insert peerID ⟨snapshot, now⟩) now) with
        | none => rfl
        | some winner =>
          dsimp only
          split_ifs
          · rfl
          · rcases accepted : tryApplyAntiFraudSnapshotLocked (some winner) { c with
              antiFraudPeerVotes := pruneAntiFraudPeerVotes
                (c.antiFraudPeerVotes.insert peerID ⟨snapshot, now⟩) now } with _ | ⟨applied, c'⟩
            · rfl
            · exact (tryApplyAntiFraudSnapshotLocked_applies accepted).of_start_eq rfl

/-! ## Runs of the three sources -/

/-- A call of one of the three sources of snapshots. -/
inductive AntiFraudCall where
  | refresh (now : Int) (fetched : Except String (Option ExternalBanlistSnapshot))
  | loadPersisted (loaded : Option ExternalBanlistSnapshot)
  | ingestPeer (peerID : String) (message : Option (Except String ExternalBanlistSnapshot))
      (now : Int)

/-- A call run on the state: whether it applied a snapshot, and the state
after. -/
def AntiFraudCall.exec (enableExternalBanlist : Bool) :
    AntiFraudCall → AntiFraudState → Bool × AntiFraudState
  | .refresh now fetched, c => refreshExternalBanlistIfNeeded enableExternalBanlist now fetched c
  | .loadPersisted loaded, c => tryLoadPersistedAntiFraudSnapshot loaded c
  | .ingestPeer peerID message now, c =>
    (ingestPeerApplied (ingestPeerAntiFraudSnapshot enableExternalBanlist peerID message now c).1,
      (ingestPeerAntiFraudSnapshot enableExternalBanlist peerID message now c).2)

theorem AntiFraudCall.exec_applies (enableExternalBanlist : Bool) (call : AntiFraudCall)
    (c : AntiFraudState) :
    Applies c (call.exec enableExternalBanlist c).2 (call.exec enableExternalBanlist c).1 := by
  cases call with
  | refresh now fetched => exact refreshExternalBanlistIfNeeded_applies enableExternalBanlist now fetched c
  | loadPersisted loaded => exact tryLoadPersistedAntiFraudSnapshot_applies loaded c
  | ingestPeer peerID message now =>
    exact ingestPeerAntiFraudSnapshot_applies enableExternalBanlist peerID message now c

def AntiFraudStep (enableExternalBanlist : Bool) (c : AntiFraudState)
    (label : AntiFraudCall × Option ExternalBanlistSnapshot) (c' : AntiFraudState) : Prop :=
  (label.1.exec enableExternalBanlist c).2 = c' ∧
    label.2 = if (label.1.exec enableExternalBanlist c).1 then c'.antiFraudCurrentSnapshot else none

def appliedSnapshots (labels : List (AntiFraudCall × Option ExternalBanlistSnapshot)) :
    List ExternalBanlistSnapshot :=
  labels.filterMap (·.2)

theorem appliedSnapshots_append_singleton (labels : List (AntiFraudCall × Option ExternalBanlistSnapshot))
    (label : AntiFraudCall × Option ExternalBanlistSnapshot) :
    appliedSnapshots (labels ++ [label]) = appliedSnapshots labels ++ label.2.toList := by
  cases observed : label.2 <;> simp [appliedSnapshots, observed]

theorem step_applies {enableExternalBanlist : Bool} {c c' : AntiFraudState}
    {label : AntiFraudCall × Option ExternalBanlistSnapshot}
    (step : AntiFraudStep enableExternalBanlist c label c') :
    (label.2 = none ∧ c'.applied = c.applied) ∨
      ∃ snapshot : ExternalBanlistSnapshot, label.2 = some snapshot ∧
        snapshot.antiFraudEnabled = true ∧
        (c.hasExternalSnapshot = true → c.externalSnapshotSeq < snapshot.snapshotSeq) ∧
        c'.applied = (true, snapshot.snapshotSeq, snapshot.rootHash, some snapshot) := by
  obtain ⟨after, observed⟩ := step
  have applies := label.1.exec_applies enableExternalBanlist c
  rw [after] at applies
  generalize (label.1.exec enableExternalBanlist c).1 = applied at applies observed
  cases applied with
  | false => exact .inl ⟨observed, applies⟩
  | true =>
    obtain ⟨snapshot, enabled, above, written⟩ := applies
    have current : c'.antiFraudCurrentSnapshot = some snapshot := by
      simp only [AntiFraudState.applied, Prod.mk.injEq] at written
      exact written.2.2.2
    exact .inr ⟨snapshot, by rw [observed, if_pos rfl, current], enabled, above, written⟩

section Run

variable {enableExternalBanlist : Bool} {start final : AntiFraudState}
  {labels : List (AntiFraudCall × Option ExternalBanlistSnapshot)}

theorem run_applied (run : Transition.Trace (AntiFraudStep enableExternalBanlist) start labels final) :
    (appliedSnapshots labels).Pairwise (fun earlier later => earlier.snapshotSeq < later.snapshotSeq) ∧
      (∀ snapshot ∈ appliedSnapshots labels, snapshot.antiFraudEnabled = true ∧
        (start.hasExternalSnapshot = true → start.externalSnapshotSeq < snapshot.snapshotSeq) ∧
        final.hasExternalSnapshot = true ∧ snapshot.snapshotSeq ≤ final.externalSnapshotSeq) ∧
      (start.hasExternalSnapshot = true → final.hasExternalSnapshot = true ∧
        start.externalSnapshotSeq ≤ final.externalSnapshotSeq ∧
        (start.externalSnapshotSeq = final.externalSnapshotSeq →
          start.externalSnapshotRootHash = final.externalSnapshotRootHash)) := by
  induction run with
  | nil => exact ⟨List.Pairwise.nil, nofun, fun held => ⟨held, UInt64.le_refl _, fun _ => rfl⟩⟩
  | @snoc labels mid final label _ step ih =>
    obtain ⟨rising, before, kept⟩ := ih
    rcases step_applies step with ⟨none, unchanged⟩ | ⟨snapshot, some, enabled, above, written⟩
    · -- a step that applies nothing leaves the applied fields as they were
      simp only [AntiFraudState.applied, Prod.mk.injEq] at unchanged
      obtain ⟨held, seq, hash, -⟩ := unchanged
      rw [appliedSnapshots_append_singleton, none, Option.toList_none, List.append_nil]
      refine ⟨rising, fun earlier member => ?_, fun present => ?_⟩
      · obtain ⟨enabled', above', present, below⟩ := before earlier member
        exact ⟨enabled', above', held ▸ present, seq ▸ below⟩
      · obtain ⟨present', below, same⟩ := kept present
        exact ⟨held ▸ present', seq ▸ below, fun equal => hash ▸ same (seq ▸ equal)⟩
    · -- a step that applies one snapshot puts it above every earlier one
      simp only [AntiFraudState.applied, Prod.mk.injEq] at written
      obtain ⟨held, seq, -, -⟩ := written
      have aboveEarlier : ∀ earlier ∈ appliedSnapshots labels,
          earlier.snapshotSeq < snapshot.snapshotSeq := fun earlier member =>
        let ⟨_, _, present, below⟩ := before earlier member
        UInt64.lt_of_le_of_lt below (above present)
      rw [appliedSnapshots_append_singleton, some, Option.toList_some]
      refine ⟨List.pairwise_append.mpr ⟨rising, List.pairwise_singleton _ _,
          fun earlier member later isLast => ?_⟩, fun applied member => ?_, fun present => ?_⟩
      · rw [List.mem_singleton.mp isLast]
        exact aboveEarlier earlier member
      · rcases List.mem_append.mp member with earlier | isLast
        · obtain ⟨enabled', above', -, -⟩ := before applied earlier
          exact ⟨enabled', above', held, seq ▸ UInt64.le_of_lt (aboveEarlier applied earlier)⟩
        · rw [List.mem_singleton.mp isLast]
          refine ⟨enabled, fun present => ?_, held, seq ▸ UInt64.le_refl _⟩
          obtain ⟨midHeld, below, -⟩ := kept present
          exact UInt64.lt_of_le_of_lt below (above midHeld)
      · obtain ⟨midHeld, below, -⟩ := kept present
        have rises := UInt64.lt_of_le_of_lt below (above midHeld)
        refine ⟨held, seq ▸ UInt64.le_of_lt rises, fun equal => ?_⟩
        rw [seq] at equal
        exact absurd (equal ▸ rises) (UInt64.lt_irrefl _)

end Run

/-! ## The peer majority -/

/-- A snapshot that one of the votes holds, at a sequence number no vote
exceeds, whose root hash a strict majority of the votes at that number share,
all votes being unexpired at `now`. -/
def PeerMajority (now : Int) (votes : Map String PeerAntiFraudVote)
    (snapshot : ExternalBanlistSnapshot) : Prop :=
  (∀ peerID vote, votes.lookup peerID = some vote →
    voteExpired now vote = false ∧ vote.snapshot.snapshotSeq ≤ snapshot.snapshotSeq) ∧
  (∃ peerID vote, votes.lookup peerID = some vote ∧ vote.snapshot = snapshot) ∧
  votes.entries.countP (fun entry => entry.2.snapshot.snapshotSeq = snapshot.snapshotSeq) <
    2 * votes.entries.countP (fun entry => entry.2.snapshot.snapshotSeq = snapshot.snapshotSeq ∧
      entry.2.snapshot.rootHash = snapshot.rootHash)

theorem lookup_pruneAntiFraudPeerVotes {votes : Map String PeerAntiFraudVote} {now : Int}
    {peerID : String} {vote : PeerAntiFraudVote}
    (found : (pruneAntiFraudPeerVotes votes now).lookup peerID = some vote) :
    votes.lookup peerID = some vote ∧ voteExpired now vote = false := by
  have expiryPass : (votes.entries.foldl (fun kept entry =>
      if voteExpired now entry.2 then kept.erase entry.1 else kept) votes).lookup peerID =
      match votes.lookup peerID with
      | some vote => if voteExpired now vote then none else some vote
      | none => none := by
    refine (AList.observe_foldl_entries (fun kept => kept.lookup peerID) peerID _
      (fun vote seen => if voteExpired now vote then none else seen) ?_ ?_ votes votes).trans ?_
    · intro kept entry other
      split_ifs
      · exact AList.lookup_erase_ne (Ne.symm other)
      · rfl
    · intro kept vote
      split_ifs
      · exact AList.lookup_erase peerID kept
      · rfl
    · cases held : votes.lookup peerID <;> rfl
  have fromKept : ∀ kept, kept = votes.entries.foldl (fun kept entry =>
      if voteExpired now entry.2 then kept.erase entry.1 else kept) votes →
      kept.lookup peerID = some vote → votes.lookup peerID = some vote ∧ voteExpired now vote = false := by
    rintro kept rfl keptFound
    rw [expiryPass] at keptFound
    cases held : votes.lookup peerID with
    | none => rw [held] at keptFound; cases keptFound
    | some stored =>
      rw [held] at keptFound
      dsimp only at keptFound
      split_ifs at keptFound with expired
      cases keptFound
      exact ⟨rfl, by simpa using expired⟩
  unfold pruneAntiFraudPeerVotes at found
  dsimp only at found
  split_ifs at found with empty
  · -- no votes at all
    rw [AList.lookup, List.eq_nil_of_length_eq_zero empty] at found
    cases found
  · exact fromKept _ rfl found
  · exact fromKept _ rfl (AList.lookup_foldl_erase_eq_some _ _ _ found)

theorem highestStep_spec (highest : Option UInt64) (snapshotSeq : UInt64) :
    ∃ next, highestStep highest snapshotSeq = some next ∧ snapshotSeq ≤ next ∧
      (∀ seq, highest = some seq → seq ≤ next) ∧ (next = snapshotSeq ∨ highest = some next) := by
  cases highest with
  | none => exact ⟨snapshotSeq, rfl, UInt64.le_refl _, nofun, .inl rfl⟩
  | some seq =>
    by_cases above : snapshotSeq > seq
    · refine ⟨snapshotSeq, by simp [highestStep, above], UInt64.le_refl _, ?_, .inl rfl⟩
      intro earlier same
      cases same
      exact UInt64.le_of_lt above
    · refine ⟨seq, by simp [highestStep, above], ?_, fun earlier same => ?_, .inr rfl⟩
      · rw [UInt64.le_iff_toNat_le]
        rw [gt_iff_lt, UInt64.lt_iff_toNat_lt] at above
        omega
      · cases same
        exact UInt64.le_refl _

theorem foldl_highestStep {seqs : List UInt64} {start : Option UInt64} {highest : UInt64}
    (result : seqs.foldl highestStep start = some highest) :
    (∀ seq ∈ seqs, seq ≤ highest) ∧ (∀ seq, start = some seq → seq ≤ highest) ∧
      (highest ∈ seqs ∨ start = some highest) := by
  induction seqs generalizing start with
  | nil => exact ⟨nofun, fun seq same => by cases result.symm.trans same; exact UInt64.le_refl _,
      .inr result⟩
  | cons first rest ih =>
    obtain ⟨next, stepped, firstBelow, startBelow, chosen⟩ := highestStep_spec start first
    rw [List.foldl_cons, stepped] at result
    obtain ⟨restBelow, nextBelow, found⟩ := ih result
    have nextLe := nextBelow next rfl
    refine ⟨fun seq member => ?_, fun seq same => UInt64.le_trans (startBelow seq same) nextLe, ?_⟩
    · rcases List.mem_cons.mp member with rfl | inRest
      · exact UInt64.le_trans firstBelow nextLe
      · exact restBelow seq inRest
    · rcases found with inRest | same
      · exact .inl (List.mem_cons_of_mem _ inRest)
      · cases same
        rcases chosen with rfl | fromStart
        · exact .inl List.mem_cons_self
        · exact .inr fromStart

theorem highestSnapshotSeq_spec {votes : Map String PeerAntiFraudVote} {highest : UInt64}
    (result : highestSnapshotSeq votes = some highest) :
    (∀ peerID vote, votes.lookup peerID = some vote → vote.snapshot.snapshotSeq ≤ highest) ∧
      ∃ entry ∈ votes.entries, entry.2.snapshot.snapshotSeq = highest := by
  obtain ⟨below, -, found⟩ := foldl_highestStep result
  refine ⟨fun peerID vote stored => below _ (List.mem_map.mpr ⟨⟨peerID, vote⟩,
    AList.mem_lookup_iff.mp stored, rfl⟩), ?_⟩
  rcases found with member | absurdStart
  · exact List.mem_map.mp member
  · cases absurdStart

theorem getD_lookup_foldl_countVoteStep (candidates : List ExternalBanlistSnapshot)
    (votesByHash : Map DomainHash Nat) (hash : DomainHash) :
    ((candidates.foldl countVoteStep votesByHash).lookup hash).getD 0 =
      (votesByHash.lookup hash).getD 0 + candidates.countP (fun candidate => candidate.rootHash = hash) := by
  induction candidates generalizing votesByHash with
  | nil => rfl
  | cons candidate rest ih =>
    rw [List.foldl_cons, ih, List.countP_cons]
    by_cases same : candidate.rootHash = hash
    · subst same
      simp only [countVoteStep, AList.lookup_insert, Option.getD_some, decide_true, if_pos]
      omega
    · simp [countVoteStep, AList.lookup_insert_ne (Ne.symm same), same]

theorem getD_lookup_countVotesByHash (candidates : List ExternalBanlistSnapshot) (hash : DomainHash) :
    ((countVotesByHash candidates).lookup hash).getD 0 =
      candidates.countP (fun candidate => candidate.rootHash = hash) := by
  rw [countVotesByHash, getD_lookup_foldl_countVoteStep, AList.lookup_empty, Option.getD_none,
    Nat.zero_add]

theorem length_peerCandidates (votes : Map String PeerAntiFraudVote) (highestSeq : UInt64) :
    (peerCandidates votes highestSeq).length =
      votes.entries.countP (fun entry => entry.2.snapshot.snapshotSeq = highestSeq) := by
  rw [peerCandidates, List.length_filterMap_eq_countP]
  refine List.countP_congr fun entry _ => ?_
  split_ifs with atHighest <;> simp [atHighest]

theorem countP_peerCandidates (votes : Map String PeerAntiFraudVote) (highestSeq : UInt64)
    (hash : DomainHash) :
    (peerCandidates votes highestSeq).countP (fun candidate => candidate.rootHash = hash) =
      votes.entries.countP (fun entry => entry.2.snapshot.snapshotSeq = highestSeq ∧
        entry.2.snapshot.rootHash = hash) := by
  rw [peerCandidates, List.countP_filterMap]
  refine List.countP_congr fun entry _ => ?_
  split_ifs with atHighest <;> simp [atHighest]

theorem pickWinnerHash_spec (votesByHash : Map DomainHash Nat) :
    (pickWinnerHash votesByHash).2 = 0 ∨
      votesByHash.lookup (pickWinnerHash votesByHash).1 = some (pickWinnerHash votesByHash).2 := by
  have counted : ∀ entry ∈ votesByHash.entries, votesByHash.lookup entry.1 = some entry.2 :=
    fun entry member => AList.mem_lookup_iff.mpr member
  unfold pickWinnerHash
  generalize votesByHash.entries = entries at counted
  suffices ∀ winner : DomainHash × Nat, (winner.2 = 0 ∨ votesByHash.lookup winner.1 = some winner.2) →
      ((entries.foldl winnerStep winner).2 = 0 ∨
        votesByHash.lookup (entries.foldl winnerStep winner).1 = some (entries.foldl winnerStep winner).2) from
    this _ (.inl rfl)
  induction entries with
  | nil => exact fun winner kept => kept
  | cons entry rest ih =>
    intro winner kept
    rw [List.foldl_cons]
    refine ih (fun other member => counted other (List.mem_cons_of_mem _ member)) _ ?_
    by_cases bigger : entry.2 > winner.2
    · rw [winnerStep, if_pos bigger]
      exact .inr (counted entry List.mem_cons_self)
    · rw [winnerStep, if_neg bigger]
      exact kept

theorem lookup_foldl_insert_byHash {candidates : List ExternalBanlistSnapshot}
    {byHash : Map DomainHash ExternalBanlistSnapshot} {hash : DomainHash}
    {winner : ExternalBanlistSnapshot}
    (found : (candidates.foldl (fun byHash candidate => byHash.insert candidate.rootHash candidate)
      byHash).lookup hash = some winner) :
    (winner ∈ candidates ∧ winner.rootHash = hash) ∨ byHash.lookup hash = some winner := by
  induction candidates generalizing byHash with
  | nil => exact .inr found
  | cons candidate rest ih =>
    rcases ih found with ⟨member, hashed⟩ | stored
    · exact .inl ⟨List.mem_cons_of_mem _ member, hashed⟩
    · by_cases same : candidate.rootHash = hash
      · subst same
        rw [AList.lookup_insert] at stored
        cases stored
        exact .inl ⟨List.mem_cons_self, rfl⟩
      · rw [AList.lookup_insert_ne (Ne.symm same)] at stored
        exact .inr stored

theorem selectPeerMajority_spec {votes : Map String PeerAntiFraudVote}
    {winner : ExternalBanlistSnapshot} (selected : selectPeerMajority votes = some winner) :
    (∀ peerID vote, votes.lookup peerID = some vote →
      vote.snapshot.snapshotSeq ≤ winner.snapshotSeq) ∧
    (∃ peerID vote, votes.lookup peerID = some vote ∧ vote.snapshot = winner) ∧
    votes.entries.countP (fun entry => entry.2.snapshot.snapshotSeq = winner.snapshotSeq) <
      2 * votes.entries.countP (fun entry => entry.2.snapshot.snapshotSeq = winner.snapshotSeq ∧
        entry.2.snapshot.rootHash = winner.rootHash) := by
  unfold selectPeerMajority at selected
  cases highest : highestSnapshotSeq votes with
  | none => rw [highest] at selected; cases selected
  | some highestSeq =>
    rw [highest] at selected
    dsimp only at selected
    split_ifs at selected with noCandidates short
    obtain ⟨below, -⟩ := highestSnapshotSeq_spec highest
    rcases lookup_foldl_insert_byHash selected with ⟨member, hashed⟩ | stored
    swap
    · rw [AList.lookup_empty] at stored
      cases stored
    obtain ⟨entry, entryMember, picked⟩ := List.mem_filterMap.mp member
    split_ifs at picked with atHighest
    cases picked
    refine ⟨fun peerID vote stored => atHighest ▸ below peerID vote stored,
      ⟨entry.1, entry.2, AList.mem_lookup_iff.mpr entryMember, rfl⟩, ?_⟩
    have winnerVotes := getD_lookup_countVotesByHash (peerCandidates votes highestSeq)
      (pickWinnerHash (countVotesByHash (peerCandidates votes highestSeq))).1
    rcases pickWinnerHash_spec (countVotesByHash (peerCandidates votes highestSeq)) with zero | counted
    · omega
    rw [counted, Option.getD_some, countP_peerCandidates, ← hashed] at winnerVotes
    rw [length_peerCandidates] at short noCandidates
    rw [atHighest]
    omega

theorem ingestPeerAntiFraudSnapshot_applied {enableExternalBanlist : Bool} {peerID : String}
    {message : Option (Except String ExternalBanlistSnapshot)} {now : Int} {c : AntiFraudState}
    (applied : ingestPeerApplied
      (ingestPeerAntiFraudSnapshot enableExternalBanlist peerID message now c).1 = true) :
    ∃ votes winner,
      (ingestPeerAntiFraudSnapshot enableExternalBanlist peerID message now c).2.antiFraudPeerVotes =
          pruneAntiFraudPeerVotes votes now ∧
        selectPeerMajority (pruneAntiFraudPeerVotes votes now) = some winner ∧
        (ingestPeerAntiFraudSnapshot enableExternalBanlist peerID message now c).2.antiFraudCurrentSnapshot =
          some winner := by
  unfold ingestPeerAntiFraudSnapshot at applied ⊢
  -- every way out but a successful apply reports `Applied = false`
  split_ifs at applied ⊢
  · cases applied
  · cases applied
  · rcases message with _ | _ | snapshot
    · cases applied
    · cases applied
    · dsimp only at applied ⊢
      split_ifs at applied ⊢
      · cases applied
      · cases selected : selectPeerMajority (pruneAntiFraudPeerVotes
          (c.antiFraudPeerVotes.insert peerID ⟨snapshot, now⟩) now) with
        | none => rw [selected] at applied; cases applied
        | some winner =>
          rw [selected] at applied
          dsimp only at applied ⊢
          split_ifs at applied ⊢
          · cases applied
          · rcases accepted : tryApplyAntiFraudSnapshotLocked (some winner) { c with
              antiFraudPeerVotes := pruneAntiFraudPeerVotes
                (c.antiFraudPeerVotes.insert peerID ⟨snapshot, now⟩) now } with _ | ⟨wasApplied, c'⟩
            · rw [accepted] at applied
              cases applied
            · rw [accepted] at applied
              cases applied
              rw [tryApplyAntiFraudSnapshotLocked_eq_ok_true accepted]
              exact ⟨_, winner, rfl, selected, rfl⟩

theorem ingestPeer_applied_majority {enableExternalBanlist : Bool} {c c' : AntiFraudState}
    {peerID : String} {message : Option (Except String ExternalBanlistSnapshot)} {now : Int}
    {snapshot : ExternalBanlistSnapshot}
    (step : AntiFraudStep enableExternalBanlist c (.ingestPeer peerID message now, some snapshot) c') :
    PeerMajority now c'.antiFraudPeerVotes snapshot := by
  obtain ⟨after, observed⟩ := step
  change (ingestPeerAntiFraudSnapshot enableExternalBanlist peerID message now c).2 = c' at after
  change some snapshot = if ingestPeerApplied
    (ingestPeerAntiFraudSnapshot enableExternalBanlist peerID message now c).1 = true then
      c'.antiFraudCurrentSnapshot else none at observed
  by_cases applied : ingestPeerApplied
      (ingestPeerAntiFraudSnapshot enableExternalBanlist peerID message now c).1 = true
  · obtain ⟨votes, winner, kept, selected, current⟩ := ingestPeerAntiFraudSnapshot_applied applied
    rw [after] at kept current
    rw [if_pos applied, current] at observed
    cases observed
    obtain ⟨below, present, majority⟩ := selectPeerMajority_spec selected
    rw [← kept] at below present majority
    refine ⟨fun peerID vote stored => ⟨?_, below peerID vote stored⟩, present, majority⟩
    rw [kept] at stored
    exact (lookup_pruneAntiFraudPeerVotes stored).2
  · rw [if_neg applied] at observed
    cases observed

theorem eq_of_pairwise_snapshotSeq_lt {snapshots : List ExternalBanlistSnapshot}
    (rising : snapshots.Pairwise (fun earlier later => earlier.snapshotSeq < later.snapshotSeq))
    {snapshot other : ExternalBanlistSnapshot} (member : snapshot ∈ snapshots)
    (otherMember : other ∈ snapshots) (same : snapshot.snapshotSeq = other.snapshotSeq) :
    snapshot = other := by
  induction rising with
  | nil => cases member
  | @cons first rest below _ ih =>
    rcases List.mem_cons.mp member with rfl | inRest <;>
      rcases List.mem_cons.mp otherMember with rfl | otherInRest
    · rfl
    · exact absurd (same ▸ below other otherInRest) (UInt64.lt_irrefl _)
    · exact absurd (same ▸ below snapshot inRest) (UInt64.lt_irrefl _)
    · exact ih inRest otherInRest

/-- Rollback protection of a run from `start` to `final` through `labels`:
the applied sequence numbers rise strictly, so no sequence number is applied
with two root hashes; every applied snapshot is enabled and above the one held
before the run; the held sequence number never decreases and keeps its root
hash while it stays; and each snapshot applied from peers holds a strict
majority of the unexpired votes at the highest sequence number. -/
structure RollbackProtected (enableExternalBanlist : Bool) (start : AntiFraudState)
    (labels : List (AntiFraudCall × Option ExternalBanlistSnapshot)) (final : AntiFraudState) :
    Prop where
  rising : (appliedSnapshots labels).Pairwise
    (fun earlier later => earlier.snapshotSeq < later.snapshotSeq)
  oneRootHashPerSeq : ∀ snapshot ∈ appliedSnapshots labels, ∀ other ∈ appliedSnapshots labels,
    snapshot.snapshotSeq = other.snapshotSeq → snapshot.rootHash = other.rootHash
  enabledAbove : ∀ snapshot ∈ appliedSnapshots labels, snapshot.antiFraudEnabled = true ∧
    (start.hasExternalSnapshot = true → start.externalSnapshotSeq < snapshot.snapshotSeq)
  heldNeverDecreases : start.hasExternalSnapshot = true → final.hasExternalSnapshot = true ∧
    start.externalSnapshotSeq ≤ final.externalSnapshotSeq ∧
    (start.externalSnapshotSeq = final.externalSnapshotSeq →
      start.externalSnapshotRootHash = final.externalSnapshotRootHash)
  peerMajority : ∀ earlier later peerID message now snapshot,
    labels = earlier ++ (AntiFraudCall.ingestPeer peerID message now, some snapshot) :: later →
    ∃ after, Transition.Trace (AntiFraudStep enableExternalBanlist) start
        (earlier ++ [(AntiFraudCall.ingestPeer peerID message now, some snapshot)]) after ∧
      PeerMajority now after.antiFraudPeerVotes snapshot

/-- Every run of the seed, disk and peer sources, in any order, is rollback
protected. -/
theorem antiFraud_snapshot_rollback {enableExternalBanlist : Bool} {start final : AntiFraudState}
    {labels : List (AntiFraudCall × Option ExternalBanlistSnapshot)}
    (run : Transition.Trace (AntiFraudStep enableExternalBanlist) start labels final) :
    RollbackProtected enableExternalBanlist start labels final := by
  obtain ⟨rising, applied, kept⟩ := run_applied run
  refine ⟨rising, fun snapshot member other otherMember same => ?_,
    fun snapshot member => ⟨(applied snapshot member).1, (applied snapshot member).2.1⟩, kept, ?_⟩
  · rw [eq_of_pairwise_snapshotSeq_lt rising member otherMember same]
  · intro earlier later peerID message now snapshot split
    rw [split, ← List.singleton_append, ← List.append_assoc] at run
    obtain ⟨after, upTo⟩ := run.prefix
    obtain ⟨_, -, last⟩ := upTo.last
    exact ⟨after, upTo, ingestPeer_applied_majority last⟩

def peerSnapshot : ExternalBanlistSnapshot := ⟨1, true, Vector.replicate 32 1, ∅, ∅⟩

/-- A node without the seed endpoint switches to peer fallback on its first
refresh, and then applies the snapshot of its only peer. -/
def peerRunLabels : List (AntiFraudCall × Option ExternalBanlistSnapshot) :=
  [(.refresh 0 (.ok none), none), (.ingestPeer "peer" (some (.ok peerSnapshot)) 0, some peerSnapshot)]

def peerFallbackState : AntiFraudState :=
  (AntiFraudCall.exec false (.refresh 0 (.ok none)) newAntiFraudState).2

def peerRunFinal : AntiFraudState :=
  (AntiFraudCall.exec false (.ingestPeer "peer" (some (.ok peerSnapshot)) 0) peerFallbackState).2

theorem peerRunLabels_trace :
    Transition.Trace (AntiFraudStep false) newAntiFraudState peerRunLabels peerRunFinal := by
  have refreshed : AntiFraudStep false newAntiFraudState (.refresh 0 (.ok none), none)
      peerFallbackState := by
    refine ⟨rfl, ?_⟩
    rw [if_neg (by decide)]
  have ingested : AntiFraudStep false peerFallbackState
      (.ingestPeer "peer" (some (.ok peerSnapshot)) 0, some peerSnapshot) peerRunFinal := by
    refine ⟨rfl, ?_⟩
    rw [if_pos (by decide)]
    rfl
  exact Transition.Trace.snoc (Transition.Trace.single refreshed) ingested

theorem antiFraud_snapshot_rollback_peerRun :
    Transition.Trace (AntiFraudStep false) newAntiFraudState peerRunLabels peerRunFinal ∧
      RollbackProtected false newAntiFraudState peerRunLabels peerRunFinal :=
  ⟨peerRunLabels_trace, antiFraud_snapshot_rollback peerRunLabels_trace⟩

end Cryptixd.Antifraud
