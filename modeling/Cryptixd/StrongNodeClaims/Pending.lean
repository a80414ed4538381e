import Mathlib
import Cryptixd.StrongNodeClaims.Engine

/-!
# The pending pool

Claims for blocks not yet known wait in `PendingUnknownClaims`.
`cleanupPendingUnknownClaims` runs before every ingestion, after every enqueue
and at the end of every chain update. It first drops expired claims and then
evicts the oldest claim while more than `PENDING_UNKNOWN_CLAIMS_CAP` wait. The
loop's fuel is the number of claims waiting. Each pass finds a claim
(`oldestPendingClaim_spec`) and removes exactly one
(`pendingClaimsCount_removePendingClaim`), so the loop always ends within the
cap (`pendingClaimsCount_cleanupPendingUnknownClaims`). Cleanup and enqueue
touch no other field of the state.
-/

set_option autoImplicit false

namespace Cryptixd.StrongNodeClaims

open Cryptixd.Atomic

/-- A found claim that names a block with a pending list and an index inside it. -/
def PointsInto (pending : Map DomainHash (List ClaimRecord))
    (oldest : Option (DomainHash × ℕ × UInt64)) : Prop :=
  ∀ found ∈ oldest, ∃ list, pending.lookup found.1 = some list ∧ found.2.1 < list.length

section Scan

variable (pending : Map DomainHash (List ClaimRecord))

/-- One block's list keeps a found claim pointing into the pool, and finds one when
it is not empty. -/
theorem foldl_oldestStep {blockHash : DomainHash} {list : List ClaimRecord}
    (stored : pending.lookup blockHash = some list) :
    ∀ (items : List (ClaimRecord × ℕ)), (∀ item ∈ items, item.2 < list.length) →
      ∀ oldest, PointsInto pending oldest →
        PointsInto pending (items.foldl (oldestStep blockHash) oldest) ∧
          (items ≠ [] ∨ oldest.isSome → (items.foldl (oldestStep blockHash) oldest).isSome) := by
  intro items
  induction items with
  | nil => exact fun _ oldest pointing => ⟨pointing, by simp⟩
  | cons item rest ih =>
    intro inRange oldest pointing
    rw [List.foldl_cons]
    have here : item.2 < list.length := inRange item List.mem_cons_self
    have next : PointsInto pending (oldestStep blockHash oldest item) ∧
        (oldestStep blockHash oldest item).isSome := by
      unfold oldestStep
      cases oldest with
      | none => exact ⟨by simpa [PointsInto] using ⟨list, stored, here⟩, rfl⟩
      | some best =>
        obtain ⟨_, _, oldestMs⟩ := best
        dsimp only
        split_ifs
        · exact ⟨by simpa [PointsInto] using ⟨list, stored, here⟩, rfl⟩
        · exact ⟨pointing, rfl⟩
    have later := ih (fun item member => inRange item (List.mem_cons_of_mem _ member))
      (oldestStep blockHash oldest item) next.1
    exact ⟨later.1, fun _ => later.2 (.inr next.2)⟩

/-- The scan over all blocks finds, when some claim waits, a claim of the pool. -/
theorem oldestPendingClaim_spec :
    (∀ found ∈ oldestPendingClaim pending,
      ∃ list, pending.lookup found.1 = some list ∧ found.2 < list.length) ∧
    (0 < pendingClaimsCount pending → (oldestPendingClaim pending).isSome) := by
  have outer : ∀ (entries : List (Σ _ : DomainHash, List ClaimRecord)), (∀ entry ∈ entries,
      pending.lookup entry.1 = some entry.2) → ∀ oldest, PointsInto pending oldest →
      PointsInto pending (entries.foldl (fun oldest entry =>
        entry.2.zipIdx.foldl (oldestStep entry.1) oldest) oldest) ∧
      ((∃ entry ∈ entries, entry.2 ≠ []) ∨ oldest.isSome →
        (entries.foldl (fun oldest entry =>
          entry.2.zipIdx.foldl (oldestStep entry.1) oldest) oldest).isSome) := by
    intro entries
    induction entries with
    | nil => exact fun _ oldest pointing => ⟨pointing, by simp⟩
    | cons entry rest ih =>
      intro stored oldest pointing
      rw [List.foldl_cons]
      have inner := foldl_oldestStep pending (stored entry List.mem_cons_self) entry.2.zipIdx
        (fun ⟨_, _⟩ member => by have := (List.mem_zipIdx member).2.1; omega) oldest pointing
      have later := ih (fun other member => stored other (List.mem_cons_of_mem _ member)) _
        inner.1
      refine ⟨later.1, fun found => later.2 ?_⟩
      rcases found with ⟨other, member, nonempty⟩ | started
      · rcases List.mem_cons.1 member with rfl | member
        · exact .inr (inner.2 (.inl (by simpa using nonempty)))
        · exact .inl ⟨other, member, nonempty⟩
      · exact .inr (inner.2 (.inr started))
  have scanned := outer pending.entries (fun entry member => AList.mem_lookup_iff.2 member) none
    (by simp [PointsInto])
  refine ⟨?_, fun positive => ?_⟩
  · intro found member
    unfold oldestPendingClaim at member
    obtain ⟨raw, rawMember, rfl⟩ := Option.mem_map.1 member
    exact scanned.1 raw rawMember
  · unfold oldestPendingClaim
    rw [Option.isSome_map]
    apply scanned.2
    left
    by_contra none
    simp only [not_exists, not_and, ne_eq, not_not] at none
    have zero : pendingClaimsCount pending = 0 := by
      unfold pendingClaimsCount AList.sumBy
      apply List.sum_eq_zero
      intro length member
      obtain ⟨entry, entryMember, rfl⟩ := List.mem_map.1 member
      simp only [none entry entryMember, List.length_nil]
    omega

theorem pendingClaimsCount_removePendingClaim {blockHash : DomainHash} {index : ℕ}
    {list : List ClaimRecord} (stored : pending.lookup blockHash = some list)
    (inRange : index < list.length) :
    pendingClaimsCount (removePendingClaim pending blockHash index) + 1 =
      pendingClaimsCount pending := by
  have whole := AList.sumBy_erase_add (fun _ list => list.length) pending blockHash
  have held : AList.entryValue (fun _ (list : List ClaimRecord) => list.length) pending blockHash =
      list.length := by
    rw [AList.entryValue, stored]
    rfl
  have shorter : (list.eraseIdx index).length + 1 = list.length := by
    rw [List.length_eraseIdx_of_lt inRange]
    omega
  unfold removePendingClaim pendingClaimsCount
  rw [stored, Option.getD_some]
  dsimp only
  split_ifs with empty
  · rw [List.isEmpty_iff.1 empty, List.length_nil] at shorter
    omega
  · rw [AList.sumBy_insert]
    omega

theorem pendingClaimsCount_evictOldestPendingClaims (fuel : ℕ) :
    ∀ pending : Map DomainHash (List ClaimRecord),
      pendingClaimsCount pending ≤ pendingUnknownClaimsCap + fuel →
      pendingClaimsCount (evictOldestPendingClaims fuel pending) ≤ pendingUnknownClaimsCap := by
  induction fuel with
  | zero => exact fun pending enough => enough
  | succ fuel ih =>
    intro pending enough
    unfold evictOldestPendingClaims
    split_ifs with overCap
    · obtain ⟨pointing, found⟩ := oldestPendingClaim_spec pending
      obtain ⟨⟨blockHash, index⟩, oldest⟩ := Option.isSome_iff_exists.1 (found (by omega))
      rw [oldest]
      obtain ⟨list, stored, inRange⟩ := pointing _ oldest
      dsimp only at stored inRange
      apply ih
      have removed := pendingClaimsCount_removePendingClaim pending stored inRange
      omega
    · omega

end Scan

theorem pendingClaimsCount_cleanupPendingUnknownClaims (state : EngineState) (nowMs : UInt64) :
    pendingClaimsCount (cleanupPendingUnknownClaims state nowMs).pendingUnknownClaims ≤
      pendingUnknownClaimsCap :=
  pendingClaimsCount_evictOldestPendingClaims _ _ (Nat.le_add_left _ _)

section Frame

variable (state : EngineState) (nowMs : UInt64)

@[simp] theorem cleanupPendingUnknownClaims_windowHashes :
    (cleanupPendingUnknownClaims state nowMs).windowHashes = state.windowHashes := rfl

@[simp] theorem cleanupPendingUnknownClaims_windowSet :
    (cleanupPendingUnknownClaims state nowMs).windowSet = state.windowSet := rfl

@[simp] theorem cleanupPendingUnknownClaims_retentionHashes :
    (cleanupPendingUnknownClaims state nowMs).retentionHashes = state.retentionHashes := rfl

@[simp] theorem cleanupPendingUnknownClaims_retentionSet :
    (cleanupPendingUnknownClaims state nowMs).retentionSet = state.retentionSet := rfl

@[simp] theorem cleanupPendingUnknownClaims_recentClaimsByBlock :
    (cleanupPendingUnknownClaims state nowMs).recentClaimsByBlock = state.recentClaimsByBlock := rfl

@[simp] theorem cleanupPendingUnknownClaims_winningClaimByBlock :
    (cleanupPendingUnknownClaims state nowMs).winningClaimByBlock = state.winningClaimByBlock := rfl

@[simp] theorem cleanupPendingUnknownClaims_scoreByNodeID :
    (cleanupPendingUnknownClaims state nowMs).scoreByNodeID = state.scoreByNodeID := rfl

theorem enqueuePendingUnknownClaim_frame (record : ClaimRecord) :
    let after := (enqueuePendingUnknownClaim state record nowMs).2
    after.windowHashes = state.windowHashes ∧ after.windowSet = state.windowSet ∧
      after.retentionHashes = state.retentionHashes ∧ after.retentionSet = state.retentionSet ∧
      after.recentClaimsByBlock = state.recentClaimsByBlock ∧
      after.winningClaimByBlock = state.winningClaimByBlock ∧
      after.scoreByNodeID = state.scoreByNodeID := by
  unfold enqueuePendingUnknownClaim
  dsimp only
  split_ifs <;> exact ⟨rfl, rfl, rfl, rfl, rfl, rfl, rfl⟩

theorem enqueuePendingUnknownClaim_pendingOnly (record : ClaimRecord) :
    ∃ pending, (enqueuePendingUnknownClaim state record nowMs).2 =
      { state with pendingUnknownClaims := pending } := by
  unfold enqueuePendingUnknownClaim
  dsimp only
  split_ifs <;> exact ⟨_, rfl⟩

theorem pendingClaimsCount_enqueuePendingUnknownClaim (record : ClaimRecord)
    (capped : pendingClaimsCount state.pendingUnknownClaims ≤ pendingUnknownClaimsCap) :
    pendingClaimsCount (enqueuePendingUnknownClaim state record nowMs).2.pendingUnknownClaims ≤
      pendingUnknownClaimsCap := by
  unfold enqueuePendingUnknownClaim
  dsimp only
  split_ifs with duplicate full evicting
  · exact capped
  · exact pendingClaimsCount_cleanupPendingUnknownClaims _ _
  · exact capped
  · exact pendingClaimsCount_cleanupPendingUnknownClaims _ _

end Frame

end Cryptixd.StrongNodeClaims

