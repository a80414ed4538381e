import Mathlib
import Cryptixd.Antifraud.Rollback
import Cryptixd.Antifraud.HashWindow

/-!
# The window of recent root hashes along runs

A node sends the window of its latest applied root hashes in its version
message. Only `applySnapshot` writes the window, and it puts the applied root
hash in; every other write of the three sources of snapshots leaves the window
alone (`WindowStep`). Along a run the window is therefore the all-zero window
advanced by the root hashes of the applied snapshots, in order (`run_window`).
From a new state it lists the latest distinct root hashes the node applied
(`antiFraudHashWindow_run_recent`).
-/

set_option autoImplicit false

namespace Cryptixd.Antifraud

open Cryptixd.Atomic RecentWindow

/-- What a call that returns `applied` did to the window: it advanced it by the
applied root hash, or left it. -/
def WindowStep (c c' : AntiFraudState) (applied : Bool) : Prop :=
  c'.antiFraudHashWindow =
    if applied then advanceAntiFraudHashWindow c.antiFraudHashWindow c'.externalSnapshotRootHash
    else c.antiFraudHashWindow

/-! ## Each function, on the window -/

theorem tryApplyAntiFraudSnapshotLocked_window {snapshot : Option ExternalBanlistSnapshot}
    {c c' : AntiFraudState} {applied : Bool}
    (accepted : tryApplyAntiFraudSnapshotLocked snapshot c = .ok (applied, c')) :
    WindowStep c c' applied := by
  cases snapshot with
  | none => cases accepted
  | some snapshot =>
    dsimp only [tryApplyAntiFraudSnapshotLocked] at accepted
    split_ifs at accepted <;> cases accepted <;> rfl

theorem window_ensurePeerOnlyAntiFraudRuntime (now : Int) (c : AntiFraudState) :
    (ensurePeerOnlyAntiFraudRuntime now c).antiFraudHashWindow = c.antiFraudHashWindow := by
  unfold ensurePeerOnlyAntiFraudRuntime
  split_ifs <;> rfl

theorem window_handleExternalBanlistRefreshFailure (now : Int) (c : AntiFraudState) :
    (handleExternalBanlistRefreshFailure now c).antiFraudHashWindow = c.antiFraudHashWindow := by
  unfold handleExternalBanlistRefreshFailure
  dsimp only
  split_ifs <;> rfl

theorem refreshExternalBanlistIfNeeded_window (enableExternalBanlist : Bool) (now : Int)
    (fetched : Except String (Option ExternalBanlistSnapshot)) (c : AntiFraudState) :
    WindowStep c (refreshExternalBanlistIfNeeded enableExternalBanlist now fetched c).2
      (refreshExternalBanlistIfNeeded enableExternalBanlist now fetched c).1 := by
  unfold refreshExternalBanlistIfNeeded
  split_ifs
  · rfl
  · exact window_ensurePeerOnlyAntiFraudRuntime now c
  · rcases fetched with _ | _ | snapshot
    · exact window_handleExternalBanlistRefreshFailure now c
    · exact window_handleExternalBanlistRefreshFailure now c
    · dsimp only
      rcases accepted : tryApplyAntiFraudSnapshot (some snapshot) c with _ | ⟨applied, c'⟩
      · exact window_handleExternalBanlistRefreshFailure now c
      · -- the flags written after a successful apply leave the window alone
        have moved := tryApplyAntiFraudSnapshotLocked_window accepted
        exact moved

theorem tryLoadPersistedAntiFraudSnapshot_window (loaded : Option ExternalBanlistSnapshot)
    (c : AntiFraudState) :
    WindowStep c (tryLoadPersistedAntiFraudSnapshot loaded c).2
      (tryLoadPersistedAntiFraudSnapshot loaded c).1 := by
  unfold tryLoadPersistedAntiFraudSnapshot
  rcases loaded with _ | loaded
  · rfl
  · dsimp only
    split_ifs
    · rfl
    · rcases accepted : tryApplyAntiFraudSnapshot (some loaded) c with _ | ⟨applied, c'⟩
      · rfl
      · exact tryApplyAntiFraudSnapshotLocked_window accepted

theorem ingestPeerAntiFraudSnapshot_window (enableExternalBanlist : Bool) (peerID : String)
    (message : Option (Except String ExternalBanlistSnapshot)) (now : Int) (c : AntiFraudState) :
    WindowStep c (ingestPeerAntiFraudSnapshot enableExternalBanlist peerID message now c).2
      (ingestPeerApplied (ingestPeerAntiFraudSnapshot enableExternalBanlist peerID message now c).1) := by
  unfold ingestPeerAntiFraudSnapshot
  split_ifs
  · rfl
  · rfl
  · rcases message with _ | _ | snapshot
    · rfl
    · rfl
    · dsimp only
      split_ifs
      · rfl
      · -- recording the vote leaves the window alone; only the apply moves it
        cases selectPeerMajority (pruneAntiFraudPeerVotes
          (c.antiFraudPeerVotes.insert peerID ⟨snapshot, now⟩) now) with
        | none => rfl
        | some winner =>
          dsimp only
          split_ifs
          · rfl
          · rcases accepted : tryApplyAntiFraudSnapshotLocked (some winner) { c with
              antiFraudPeerVotes := pruneAntiFraudPeerVotes
                (c.antiFraudPeerVotes.insert peerID ⟨snapshot, now⟩) now } with _ | ⟨applied, c'⟩
            · rfl
            · have moved := tryApplyAntiFraudSnapshotLocked_window accepted
              exact moved

theorem AntiFraudCall.exec_window (enableExternalBanlist : Bool) (call : AntiFraudCall)
    (c : AntiFraudState) :
    WindowStep c (call.exec enableExternalBanlist c).2 (call.exec enableExternalBanlist c).1 := by
  cases call with
  | refresh now fetched => exact refreshExternalBanlistIfNeeded_window enableExternalBanlist now fetched c
  | loadPersisted loaded => exact tryLoadPersistedAntiFraudSnapshot_window loaded c
  | ingestPeer peerID message now =>
    exact ingestPeerAntiFraudSnapshot_window enableExternalBanlist peerID message now c

/-! ## Runs -/

theorem step_window {enableExternalBanlist : Bool} {c c' : AntiFraudState}
    {label : AntiFraudCall × Option ExternalBanlistSnapshot}
    (step : AntiFraudStep enableExternalBanlist c label c') :
    c'.antiFraudHashWindow =
      (label.2.toList.map (·.rootHash)).foldl advanceAntiFraudHashWindow c.antiFraudHashWindow := by
  obtain ⟨after, observed⟩ := step
  have window := label.1.exec_window enableExternalBanlist c
  have applies := label.1.exec_applies enableExternalBanlist c
  rw [after] at window applies
  generalize (label.1.exec enableExternalBanlist c).1 = applied at window applies observed
  cases applied with
  | false =>
    rw [observed]
    exact window
  | true =>
    obtain ⟨snapshot, -, -, written⟩ := applies
    simp only [AntiFraudState.applied, Prod.mk.injEq] at written
    obtain ⟨-, -, hash, current⟩ := written
    rw [observed, if_pos rfl, current]
    rw [window, if_pos rfl, hash]
    rfl

section Run

variable {enableExternalBanlist : Bool} {start final : AntiFraudState}
  {labels : List (AntiFraudCall × Option ExternalBanlistSnapshot)}

theorem run_window (run : Transition.Trace (AntiFraudStep enableExternalBanlist) start labels final) :
    final.antiFraudHashWindow =
      ((appliedSnapshots labels).map (·.rootHash)).foldl advanceAntiFraudHashWindow
        start.antiFraudHashWindow := by
  induction run with
  | nil => rfl
  | @snoc labels mid final label _ step ih =>
    rw [step_window step, ih, appliedSnapshots_append_singleton, List.map_append, List.foldl_append]

/-- From a new state, the window after any run lists the latest distinct
non-zero root hashes of the snapshots the run applied, then zero hashes. -/
theorem antiFraudHashWindow_run_recent
    (run : Transition.Trace (AntiFraudStep enableExternalBanlist) newAntiFraudState labels final) :
    final.antiFraudHashWindow.toList =
        recentRootHashes ((appliedSnapshots labels).map (·.rootHash)) ++
          List.replicate (antiFraudHashWindowLen -
            (recentRootHashes ((appliedSnapshots labels).map (·.rootHash))).length) zeroHash ∧
      (recentRootHashes ((appliedSnapshots labels).map (·.rootHash))).Nodup ∧
      zeroHash ∉ recentRootHashes ((appliedSnapshots labels).map (·.rootHash)) := by
  rw [run_window run]
  exact ⟨foldl_advance_represents _, recentRootHashes_nodup _, zeroHash_not_mem_recentRootHashes _⟩

end Run

theorem antiFraudHashWindow_run_recent_peerRun :
    peerRunFinal.antiFraudHashWindow.toList =
        recentRootHashes ((appliedSnapshots peerRunLabels).map (·.rootHash)) ++
          List.replicate (antiFraudHashWindowLen -
            (recentRootHashes ((appliedSnapshots peerRunLabels).map (·.rootHash))).length) zeroHash ∧
      (recentRootHashes ((appliedSnapshots peerRunLabels).map (·.rootHash))).Nodup ∧
      zeroHash ∉ recentRootHashes ((appliedSnapshots peerRunLabels).map (·.rootHash)) :=
  antiFraudHashWindow_run_recent peerRunLabels_trace

example : recentRootHashes ((appliedSnapshots peerRunLabels).map (·.rootHash)) =
    [Vector.replicate 32 1] := by
  decide

end Cryptixd.Antifraud
