import Mathlib
import Cryptixd.StrongNodeClaims.Engine

/-!
# Window scores

`ScoreByNodeID` is meant to hold, for each node, the number of window blocks
whose winning claim names it, as a `uint32` with no zero entries.
`ScoresCount score wins` says a score map holds the counts `wins` exactly in
that form, wrap included. The engine keeps the map in step in two ways.
`recomputeScores` rebuilds it from the window (`recomputeScores_count`).
`insertKnownClaim` adjusts it when one block's winner changes
(`rescoreWinner_count`), with `incrementScore` and the saturating
`decrementScore`. The adjustment is exact only while a count stays below
`2 ^ 32`.
-/

set_option autoImplicit false

namespace Cryptixd.StrongNodeClaims

open Cryptixd.Atomic

/-- A score map holding the counts `wins`: no entry for a count of zero, the count
as a `uint32` otherwise. -/
def ScoresCount (score : Map NodeID UInt32) (wins : NodeID → ℕ) : Prop :=
  ∀ nodeID, score.lookup nodeID =
    if wins nodeID = 0 then none else some (UInt32.ofNat (wins nodeID))

/-- The number of blocks of `window` whose winning claim names `nodeID`. -/
def winsIn (window : List DomainHash) (winners : Map DomainHash ClaimRecord) (nodeID : NodeID) :
    ℕ :=
  window.countP fun blockHash => decide ((winners.lookup blockHash).map (·.nodeID) = some nodeID)

def windowWins (state : EngineState) : NodeID → ℕ :=
  winsIn state.windowHashes state.winningClaimByBlock

section Counting

variable {score : Map NodeID UInt32} {wins wins' : NodeID → ℕ}

theorem ScoresCount.congr (counted : ScoresCount score wins) (same : ∀ nodeID, wins nodeID = wins' nodeID) :
    ScoresCount score wins' := by
  intro nodeID
  rw [counted nodeID, same nodeID]

theorem scoresCount_empty : ScoresCount ∅ fun _ => 0 := by
  intro nodeID
  rfl

theorem ofNat_add_one (count : ℕ) : UInt32.ofNat count + 1 = UInt32.ofNat (count + 1) := by
  apply UInt32.toNat_inj.1
  simp only [UInt32.toNat_add, UInt32.toNat_ofNat', UInt32.toNat_one]
  omega

theorem incrementScore_count (counted : ScoresCount score wins) (nodeID : NodeID) :
    ScoresCount (incrementScore score nodeID) (Function.update wins nodeID (wins nodeID + 1)) := by
  intro other
  unfold incrementScore
  by_cases same : other = nodeID
  · subst same
    have before : (score.lookup other).getD 0 = UInt32.ofNat (wins other) := by
      rw [counted other]
      split_ifs with none
      · rw [none]
        rfl
      · rfl
    rw [AList.lookup_insert, before, ofNat_add_one, Function.update_self, if_neg (by omega)]
  · rw [AList.lookup_insert_ne same, Function.update_of_ne same, counted other]

theorem decrementScore_count (counted : ScoresCount score wins) {nodeID : NodeID}
    (won : 0 < wins nodeID) (fits : wins nodeID < 2 ^ 32) :
    ScoresCount (decrementScore score nodeID) (Function.update wins nodeID (wins nodeID - 1)) := by
  intro other
  have stored : score.lookup nodeID = some (UInt32.ofNat (wins nodeID)) := by
    rw [counted nodeID, if_neg (by omega)]
  have small : (UInt32.ofNat (wins nodeID)).toNat = wins nodeID := by
    rw [UInt32.toNat_ofNat']
    exact Nat.mod_eq_of_lt fits
  unfold decrementScore
  rw [stored]
  dsimp only
  by_cases last : UInt32.ofNat (wins nodeID) ≤ 1
  · have one : wins nodeID = 1 := by
      rw [UInt32.le_iff_toNat_le, small] at last
      simp only [UInt32.reduceToNat] at last
      omega
    rw [if_pos last]
    by_cases same : other = nodeID
    · subst same
      rw [AList.lookup_erase, Function.update_self, one, if_pos rfl]
    · rw [AList.lookup_erase_ne same, Function.update_of_ne same, counted other]
  · have many : 1 < wins nodeID := by
      rw [UInt32.le_iff_toNat_le, small] at last
      simp only [UInt32.reduceToNat] at last
      omega
    rw [if_neg last]
    by_cases same : other = nodeID
    · subst same
      rw [AList.lookup_insert, Function.update_self, if_neg (by omega)]
      congr 1
      apply UInt32.toNat_inj.1
      rw [UInt32.toNat_sub_of_le _ _ (by rw [UInt32.le_iff_toNat_le, small]; simp; omega), small,
        UInt32.toNat_ofNat', Nat.mod_eq_of_lt (by omega)]
      rfl
    · rw [AList.lookup_insert_ne same, Function.update_of_ne same, counted other]

end Counting

/-! ## Wins over a window -/

section Wins

variable (window : List DomainHash) (winners : Map DomainHash ClaimRecord)

theorem winsIn_le_length (nodeID : NodeID) : winsIn window winners nodeID ≤ window.length :=
  List.countP_le_length

@[simp]
theorem winsIn_nil (nodeID : NodeID) : winsIn [] winners nodeID = 0 := rfl

theorem winsIn_cons (blockHash : DomainHash) (nodeID : NodeID) :
    winsIn (blockHash :: window) winners nodeID = winsIn window winners nodeID +
      if (winners.lookup blockHash).map (·.nodeID) = some nodeID then 1 else 0 := by
  unfold winsIn
  rw [List.countP_cons]
  simp only [decide_eq_true_eq]

theorem winsIn_congr {winners' : Map DomainHash ClaimRecord}
    (agree : ∀ blockHash ∈ window, winners'.lookup blockHash = winners.lookup blockHash)
    (nodeID : NodeID) : winsIn window winners' nodeID = winsIn window winners nodeID := by
  unfold winsIn
  apply List.countP_congr
  intro blockHash member
  rw [agree blockHash member]

/-- Giving one window block a new winner moves one win from the old winner, if any,
to the new one. -/
theorem winsIn_insert (nodup : window.Nodup) {blockHash : DomainHash} (member : blockHash ∈ window)
    (winner : ClaimRecord) (nodeID : NodeID) :
    winsIn window (winners.insert blockHash winner) nodeID +
        (if (winners.lookup blockHash).map (·.nodeID) = some nodeID then 1 else 0) =
      winsIn window winners nodeID + if winner.nodeID = nodeID then 1 else 0 := by
  induction window with
  | nil => simp at member
  | cons head rest ih =>
    rw [List.nodup_cons] at nodup
    rw [winsIn_cons, winsIn_cons]
    by_cases here : head = blockHash
    · subst here
      have untouched : winsIn rest (winners.insert head winner) nodeID = winsIn rest winners nodeID :=
        winsIn_congr rest winners (fun other member' => AList.lookup_insert_ne
          (fun same : other = head => nodup.1 (same ▸ member'))) nodeID
      rw [untouched, AList.lookup_insert]
      simp only [Option.map_some, Option.some.injEq]
      omega
    · have later : blockHash ∈ rest := (List.mem_cons.1 member).resolve_left (Ne.symm here)
      rw [AList.lookup_insert_ne here]
      have := ih nodup.2 later
      omega

theorem winsIn_insert_of_notMem {blockHash : DomainHash} (outside : blockHash ∉ window)
    (winner : ClaimRecord) (nodeID : NodeID) :
    winsIn window (winners.insert blockHash winner) nodeID = winsIn window winners nodeID :=
  winsIn_congr window winners (fun other member => AList.lookup_insert_ne
    (fun same : other = blockHash => outside (same ▸ member))) nodeID

end Wins

/-! ## The two ways the scores are kept -/

theorem recountStep_count (winners : Map DomainHash ClaimRecord) (window : List DomainHash)
    (acc : Map NodeID UInt32 × Map NodeID UInt64 × Map NodeID DomainHash) (wins : NodeID → ℕ)
    (counted : ScoresCount acc.1 wins) :
    ScoresCount (window.foldl (recountStep winners) acc).1
      fun nodeID => wins nodeID + winsIn window winners nodeID := by
  induction window generalizing acc wins with
  | nil => exact counted
  | cons blockHash rest ih =>
    rw [List.foldl_cons]
    unfold recountStep
    cases found : winners.lookup blockHash with
    | none =>
      refine (ih acc wins counted).congr fun nodeID => ?_
      rw [winsIn_cons, found]
      simp
    | some winner =>
      refine (ih _ _ (incrementScore_count counted winner.nodeID)).congr fun nodeID => ?_
      rw [winsIn_cons, found]
      by_cases same : nodeID = winner.nodeID
      · subst same
        simp only [Function.update_self, Option.map_some, if_pos]
        omega
      · rw [Function.update_of_ne same]
        simp only [Option.map_some, Option.some.injEq, Ne.symm same, if_false]
        omega

theorem recomputeScores_count (state : EngineState) :
    ScoresCount (recomputeScores state).scoreByNodeID (windowWins state) :=
  (recountStep_count state.winningClaimByBlock state.windowHashes (∅, ∅, ∅) (fun _ => 0)
    scoresCount_empty).congr fun _ => Nat.zero_add _

/-- The adjustment `insertKnownClaim` makes when a window block's winner becomes
`newWinner` keeps the scores counting, while counts stay below `2 ^ 32`. -/
theorem rescoreWinner_count {window : List DomainHash} {winners : Map DomainHash ClaimRecord}
    {score : Map NodeID UInt32} (nodup : window.Nodup) (fits : window.length < 2 ^ 32)
    (counted : ScoresCount score (winsIn window winners)) {blockHash : DomainHash}
    (member : blockHash ∈ window) (newWinner : ClaimRecord) :
    ScoresCount (rescoreWinner score (winners.lookup blockHash) newWinner.nodeID)
      (winsIn window (winners.insert blockHash newWinner)) := by
  have moved := winsIn_insert window winners nodup member newWinner
  have bounded := winsIn_le_length window winners
  unfold rescoreWinner
  cases old : winners.lookup blockHash with
  | none =>
    simp only [Option.all_none, if_true]
    refine (incrementScore_count counted newWinner.nodeID).congr fun nodeID => ?_
    have := moved nodeID
    rw [old] at this
    by_cases same : nodeID = newWinner.nodeID
    · subst same
      simp only [Function.update_self]
      simp at this
      omega
    · rw [Function.update_of_ne same]
      simp only [Option.map_none, reduceCtorEq, if_false, Ne.symm same] at this
      omega
  | some oldWinner =>
    by_cases kept : oldWinner.nodeID = newWinner.nodeID
    · simp only [kept, ne_eq, not_true_eq_false, if_false, Option.all_some, decide_false,
        Bool.false_eq_true]
      refine counted.congr fun nodeID => ?_
      have := moved nodeID
      rw [old, Option.map_some, kept] at this
      simp only [Option.some.injEq] at this
      omega
    · simp only [kept, ne_eq, not_false_eq_true, if_true, Option.all_some, decide_true]
      have held : 0 < winsIn window winners oldWinner.nodeID := by
        have := moved oldWinner.nodeID
        rw [old, Option.map_some, if_pos rfl, if_neg (Ne.symm kept)] at this
        omega
      have dropped := decrementScore_count counted held
        (lt_of_le_of_lt (bounded oldWinner.nodeID) fits)
      refine (incrementScore_count dropped newWinner.nodeID).congr fun nodeID => ?_
      have := moved nodeID
      rw [old, Option.map_some] at this
      simp only [Option.some.injEq] at this
      by_cases isNew : nodeID = newWinner.nodeID
      · subst isNew
        rw [Function.update_self, Function.update_of_ne (Ne.symm kept)]
        rw [if_neg kept, if_pos rfl] at this
        omega
      · rw [Function.update_of_ne isNew]
        by_cases isOld : nodeID = oldWinner.nodeID
        · subst isOld
          rw [Function.update_self]
          rw [if_pos rfl, if_neg (Ne.symm kept)] at this
          omega
        · rw [Function.update_of_ne isOld]
          rw [if_neg (Ne.symm isOld), if_neg (Ne.symm isNew)] at this
          omega

theorem ScoresCount.toNat {score : Map NodeID UInt32} {wins : NodeID → ℕ}
    (counted : ScoresCount score wins) (fits : ∀ nodeID, wins nodeID < 2 ^ 32) (nodeID : NodeID) :
    (score.lookup nodeID).map UInt32.toNat =
      if wins nodeID = 0 then none else some (wins nodeID) := by
  rw [counted nodeID]
  split_ifs
  · rfl
  · rw [Option.map_some, UInt32.toNat_ofNat', Nat.mod_eq_of_lt (fits nodeID)]

end Cryptixd.StrongNodeClaims

