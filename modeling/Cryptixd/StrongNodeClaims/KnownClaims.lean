import Mathlib
import Cryptixd.Lib.SmallestK
import Cryptixd.StrongNodeClaims.Scores

/-!
# Known claims: the per-block cap and the winner

`insertKnownClaim` keeps the claims of at most `KNOWN_CLAIMS_PER_BLOCK_CAP`
nodes for each block. On node ids it is one capped insertion
(`Finset.cappedInsert`). A node already held is ignored, and a new node is
added while there is room. At the cap the largest node id makes room for a
smaller one (`knownClaimEvictionCandidate_eq`). The winner is the claim of the
least node id (`selectWinner_spec`). `insertKnownClaim_cases` says once what a
call does, and the engine's invariants are read off it.
-/

set_option autoImplicit false

namespace Cryptixd.StrongNodeClaims

open Cryptixd.Atomic Finset

def nodeIDsOf (claims : Map NodeID ClaimRecord) : Finset NodeID :=
  claims.keys.toFinset

/-- The node ids of a block's recent claims. -/
def retainedNodeIDs (state : EngineState) (blockHash : DomainHash) : Finset NodeID :=
  nodeIDsOf ((state.recentClaimsByBlock.lookup blockHash).getD ∅)

/-- Each claim of a map is stored under its own node id. -/
def ClaimsKeyed (claims : Map NodeID ClaimRecord) : Prop :=
  ∀ nodeID record, claims.lookup nodeID = some record → record.nodeID = nodeID

section NodeIDs

variable (claims : Map NodeID ClaimRecord)

theorem mem_nodeIDsOf {nodeID : NodeID} :
    nodeID ∈ nodeIDsOf claims ↔ (claims.lookup nodeID).isSome := by
  rw [nodeIDsOf, List.mem_toFinset, ← AList.mem_keys, AList.lookup_isSome]

theorem card_nodeIDsOf : (nodeIDsOf claims).card = claims.entries.length := by
  rw [nodeIDsOf, List.toFinset_card_of_nodup claims.keys_nodup, AList.keys, List.keys,
    List.length_map]

@[simp]
theorem nodeIDsOf_empty : nodeIDsOf ∅ = ∅ := rfl

theorem nodeIDsOf_insert (nodeID : NodeID) (record : ClaimRecord) :
    nodeIDsOf (claims.insert nodeID record) = insert nodeID (nodeIDsOf claims) := by
  ext other
  rw [mem_nodeIDsOf, Finset.mem_insert, mem_nodeIDsOf]
  by_cases same : other = nodeID
  · subst same
    simp
  · rw [AList.lookup_insert_ne same]
    simp [same]

theorem nodeIDsOf_erase (nodeID : NodeID) :
    nodeIDsOf (claims.erase nodeID) = (nodeIDsOf claims).erase nodeID := by
  ext other
  rw [mem_nodeIDsOf, Finset.mem_erase, mem_nodeIDsOf]
  by_cases same : other = nodeID
  · subst same
    simp
  · rw [AList.lookup_erase_ne same]
    simp [same]

theorem ClaimsKeyed.mem_entries {claims : Map NodeID ClaimRecord} (keyed : ClaimsKeyed claims)
    {entry : Σ _ : NodeID, ClaimRecord} (member : entry ∈ claims.entries) :
    entry.2.nodeID = entry.1 :=
  keyed entry.1 entry.2 (AList.mem_lookup_iff.2 member)

end NodeIDs

/-! ## The two scans -/

theorem foldl_largestStep (ids : List NodeID) (acc : NodeID × Bool) (started : acc.2 = true) :
    (ids.foldl largestStep acc).2 = true ∧
      ((ids.foldl largestStep acc).1 = acc.1 ∨ (ids.foldl largestStep acc).1 ∈ ids) ∧
      acc.1 ≤ (ids.foldl largestStep acc).1 ∧ ∀ nodeID ∈ ids, nodeID ≤ (ids.foldl largestStep acc).1 := by
  induction ids generalizing acc with
  | nil => exact ⟨started, .inl rfl, le_rfl, by simp⟩
  | cons head rest ih =>
    obtain ⟨largest, found⟩ := acc
    simp only at started
    subst started
    rw [List.foldl_cons]
    by_cases bigger : largest < head
    · have step : largestStep (largest, true) head = (head, true) := by
        simp [largestStep, bigger]
      rw [step]
      obtain ⟨done, origin, above, bound⟩ := ih (head, true) rfl
      refine ⟨done, .inr ?_, bigger.le.trans above, ?_⟩
      · rcases origin with same | member
        · exact same ▸ List.mem_cons_self
        · exact List.mem_cons_of_mem _ member
      · intro nodeID member
        rcases List.mem_cons.1 member with rfl | member
        · exact above
        · exact bound nodeID member
    · have step : largestStep (largest, true) head = (largest, true) := by
        simp [largestStep, bigger]
      rw [step]
      obtain ⟨done, origin, above, bound⟩ := ih (largest, true) rfl
      refine ⟨done, ?_, above, ?_⟩
      · rcases origin with same | member
        · exact .inl same
        · exact .inr (List.mem_cons_of_mem _ member)
      · intro nodeID member
        rcases List.mem_cons.1 member with rfl | member
        · exact (not_lt.1 bigger).trans above
        · exact bound nodeID member

/-- `knownClaimEvictionCandidate` names the largest node id held, and lets a smaller
one in. -/
theorem knownClaimEvictionCandidate_eq (claims : Map NodeID ClaimRecord)
    (nonempty : (nodeIDsOf claims).Nonempty) (incoming : NodeID) :
    knownClaimEvictionCandidate claims incoming =
      ((nodeIDsOf claims).max' nonempty, decide (incoming < (nodeIDsOf claims).max' nonempty)) := by
  obtain ⟨head, rest, split⟩ : ∃ head rest, claims.keys = head :: rest := by
    apply List.exists_cons_of_ne_nil
    intro empty
    rw [nodeIDsOf, empty] at nonempty
    simp at nonempty
  have first : largestStep (zeroNodeID, false) head = (head, true) := by
    simp [largestStep]
  obtain ⟨done, origin, above, bound⟩ := foldl_largestStep rest (head, true) rfl
  have largest : (claims.keys.foldl largestStep (zeroNodeID, false)).1 =
      (nodeIDsOf claims).max' nonempty := by
    rw [split, List.foldl_cons, first]
    apply le_antisymm
    · apply le_max'
      rw [nodeIDsOf, split, List.mem_toFinset]
      rcases origin with same | member
      · rw [same]
        exact List.mem_cons_self
      · exact List.mem_cons_of_mem _ member
    · apply max'_le
      intro nodeID member
      rw [nodeIDsOf, split, List.mem_toFinset] at member
      rcases List.mem_cons.1 member with rfl | member
      · exact above
      · exact bound nodeID member
  have finished : (claims.keys.foldl largestStep (zeroNodeID, false)).2 = true := by
    rw [split, List.foldl_cons, first]
    exact done
  unfold knownClaimEvictionCandidate
  simp only [finished, Bool.not_true, Bool.false_eq_true, if_false, largest]
  by_cases atLeast : (nodeIDsOf claims).max' nonempty ≤ incoming
  · rw [if_pos atLeast, decide_eq_false (not_lt.2 atLeast)]
  · rw [if_neg atLeast, decide_eq_true (not_le.1 atLeast)]

theorem foldl_winnerStep (entries : List (Σ _ : NodeID, ClaimRecord))
    (keyed : ∀ entry ∈ entries, entry.2.nodeID = entry.1) (acc : ClaimRecord × Bool)
    (started : acc.2 = true) :
    (entries.foldl winnerStep acc).2 = true ∧
      ((entries.foldl winnerStep acc).1 = acc.1 ∨
        ∃ entry ∈ entries, (entries.foldl winnerStep acc).1 = entry.2) ∧
      (entries.foldl winnerStep acc).1.nodeID ≤ acc.1.nodeID ∧
      ∀ entry ∈ entries, (entries.foldl winnerStep acc).1.nodeID ≤ entry.1 := by
  induction entries generalizing acc with
  | nil => exact ⟨started, .inl rfl, le_rfl, by simp⟩
  | cons head rest ih =>
    obtain ⟨winner, found⟩ := acc
    simp only at started
    subst started
    have headKeyed := keyed head List.mem_cons_self
    have restKeyed := fun entry member => keyed entry (List.mem_cons_of_mem head member)
    rw [List.foldl_cons]
    by_cases smaller : head.1 < winner.nodeID
    · have step : winnerStep (winner, true) head = (head.2, true) := by
        simp [winnerStep, smaller]
      rw [step]
      obtain ⟨done, origin, below, bound⟩ := ih restKeyed (head.2, true) rfl
      refine ⟨done, .inr ?_, ?_, ?_⟩
      · rcases origin with same | ⟨entry, member, same⟩
        · exact ⟨head, List.mem_cons_self, same⟩
        · exact ⟨entry, List.mem_cons_of_mem _ member, same⟩
      · rw [headKeyed] at below
        exact below.trans smaller.le
      · intro entry member
        rcases List.mem_cons.1 member with rfl | member
        · rw [← headKeyed]
          exact below
        · exact bound entry member
    · have step : winnerStep (winner, true) head = (winner, true) := by
        simp [winnerStep, smaller]
      rw [step]
      obtain ⟨done, origin, below, bound⟩ := ih restKeyed (winner, true) rfl
      refine ⟨done, ?_, below, ?_⟩
      · rcases origin with same | ⟨entry, member, same⟩
        · exact .inl same
        · exact .inr ⟨entry, List.mem_cons_of_mem _ member, same⟩
      · intro entry member
        rcases List.mem_cons.1 member with rfl | member
        · exact below.trans (not_lt.1 smaller)
        · exact bound entry member

theorem selectWinner_spec (claims : Map NodeID ClaimRecord) (keyed : ClaimsKeyed claims)
    (nonempty : (nodeIDsOf claims).Nonempty) :
    claims.lookup (selectWinner claims).nodeID = some (selectWinner claims) ∧
      ∀ nodeID ∈ nodeIDsOf claims, (selectWinner claims).nodeID ≤ nodeID := by
  obtain ⟨head, rest, split⟩ : ∃ head rest, claims.entries = head :: rest := by
    apply List.exists_cons_of_ne_nil
    intro empty
    rw [nodeIDsOf, AList.keys, empty] at nonempty
    simp at nonempty
  have entryKeyed := fun entry (member : entry ∈ claims.entries) => keyed.mem_entries member
  rw [split] at entryKeyed
  have first : winnerStep (emptyClaimRecord, false) head = (head.2, true) := by
    simp [winnerStep]
  obtain ⟨-, origin, below, bound⟩ := foldl_winnerStep rest
    (fun entry member => entryKeyed entry (List.mem_cons_of_mem _ member)) (head.2, true) rfl
  have winner : selectWinner claims = (rest.foldl winnerStep (head.2, true)).1 := by
    rw [selectWinner, split, List.foldl_cons, first]
  rw [winner]
  constructor
  · -- the winner is the record of one of the map's entries, stored under its node id
    obtain ⟨entry, member, same⟩ : ∃ entry ∈ claims.entries,
        (rest.foldl winnerStep (head.2, true)).1 = entry.2 := by
      rw [split]
      rcases origin with same | ⟨entry, member, same⟩
      · exact ⟨head, List.mem_cons_self, same⟩
      · exact ⟨entry, List.mem_cons_of_mem _ member, same⟩
    rw [same, keyed.mem_entries member]
    exact AList.mem_lookup_iff.2 member
  · intro nodeID member
    rw [nodeIDsOf, List.mem_toFinset, AList.keys, split, List.keys_cons, List.mem_cons] at member
    rcases member with rfl | member
    · rw [← entryKeyed head List.mem_cons_self]
      exact below
    · obtain ⟨found, entryMember⟩ := List.mem_keys.1 member
      exact bound ⟨nodeID, found⟩ entryMember

/-! ## One call of insertKnownClaim -/

section Insert

variable (state : EngineState) (record : ClaimRecord)

@[simp]
theorem insertKnownClaim_windowHashes :
    (insertKnownClaim state record).2.windowHashes = state.windowHashes := by
  unfold insertKnownClaim
  dsimp only
  split_ifs <;> (try split) <;> rfl

@[simp]
theorem insertKnownClaim_windowSet :
    (insertKnownClaim state record).2.windowSet = state.windowSet := by
  unfold insertKnownClaim
  dsimp only
  split_ifs <;> (try split) <;> rfl

@[simp]
theorem insertKnownClaim_retentionHashes :
    (insertKnownClaim state record).2.retentionHashes = state.retentionHashes := by
  unfold insertKnownClaim
  dsimp only
  split_ifs <;> (try split) <;> rfl

@[simp]
theorem insertKnownClaim_retentionSet :
    (insertKnownClaim state record).2.retentionSet = state.retentionSet := by
  unfold insertKnownClaim
  dsimp only
  split_ifs <;> (try split) <;> rfl

@[simp]
theorem insertKnownClaim_pendingUnknownClaims :
    (insertKnownClaim state record).2.pendingUnknownClaims = state.pendingUnknownClaims := by
  unfold insertKnownClaim
  dsimp only
  split_ifs <;> (try split) <;> rfl

@[simp]
theorem insertKnownClaim_hasLastSink :
    (insertKnownClaim state record).2.hasLastSink = state.hasLastSink := by
  unfold insertKnownClaim
  dsimp only
  split_ifs <;> (try split) <;> rfl

@[simp]
theorem insertKnownClaim_lastSinkHash :
    (insertKnownClaim state record).2.lastSinkHash = state.lastSinkHash := by
  unfold insertKnownClaim
  dsimp only
  split_ifs <;> (try split) <;> rfl

/-- What one `insertKnownClaim` does to the claims, the winners and the scores.
Either it drops the claim, storing at most an empty map for a block it had not
seen, and the block's node ids are what the capped insertion leaves; or it stores
the block's new claim map, whose node ids are the capped insertion's and whose
other claims it already held, makes its least claim the winner and moves the
window score. -/
theorem insertKnownClaim_cases :
    ((insertKnownClaim state record).1 = false ∧
      (insertKnownClaim state record).2.recentClaimsByBlock =
        (if (state.recentClaimsByBlock.lookup record.blockHash).isNone then
          state.recentClaimsByBlock.insert record.blockHash ∅
        else state.recentClaimsByBlock) ∧
      (insertKnownClaim state record).2.winningClaimByBlock = state.winningClaimByBlock ∧
      (insertKnownClaim state record).2.scoreByNodeID = state.scoreByNodeID ∧
      cappedInsert knownClaimsPerBlockCap (retainedNodeIDs state record.blockHash) record.nodeID =
        retainedNodeIDs state record.blockHash) ∨
    ∃ claims : Map NodeID ClaimRecord,
      nodeIDsOf claims =
        cappedInsert knownClaimsPerBlockCap (retainedNodeIDs state record.blockHash) record.nodeID ∧
      claims.lookup record.nodeID = some record ∧
      (∀ nodeID found, claims.lookup nodeID = some found → nodeID = record.nodeID ∨
        ((state.recentClaimsByBlock.lookup record.blockHash).getD ∅).lookup nodeID = some found) ∧
      (insertKnownClaim state record).1 = true ∧
      (insertKnownClaim state record).2.recentClaimsByBlock =
        state.recentClaimsByBlock.insert record.blockHash claims ∧
      (insertKnownClaim state record).2.winningClaimByBlock =
        state.winningClaimByBlock.insert record.blockHash (selectWinner claims) ∧
      (insertKnownClaim state record).2.scoreByNodeID =
        if (state.windowSet.lookup record.blockHash).isSome then
          rescoreWinner state.scoreByNodeID (state.winningClaimByBlock.lookup record.blockHash)
            (selectWinner claims).nodeID
        else state.scoreByNodeID := by
  set claims := (state.recentClaimsByBlock.lookup record.blockHash).getD ∅ with claimsDef
  have retained : retainedNodeIDs state record.blockHash = nodeIDsOf claims := rfl
  rw [retained]
  have dropped : ∀ result : Bool × EngineState, result = (false,
      if (state.recentClaimsByBlock.lookup record.blockHash).isNone then
        { state with recentClaimsByBlock := state.recentClaimsByBlock.insert record.blockHash ∅ }
      else state) →
      result.1 = false ∧ result.2.recentClaimsByBlock =
        (if (state.recentClaimsByBlock.lookup record.blockHash).isNone then
          state.recentClaimsByBlock.insert record.blockHash ∅
        else state.recentClaimsByBlock) ∧
      result.2.winningClaimByBlock = state.winningClaimByBlock ∧
      result.2.scoreByNodeID = state.scoreByNodeID := by
    rintro result rfl
    split_ifs <;> exact ⟨rfl, rfl, rfl, rfl⟩
  have stored : ∀ room : Map NodeID ClaimRecord,
      (∀ nodeID found, room.lookup nodeID = some found → claims.lookup nodeID = some found) →
      nodeIDsOf (room.insert record.nodeID record) =
        cappedInsert knownClaimsPerBlockCap (nodeIDsOf claims) record.nodeID →
      (∀ nodeID found, (room.insert record.nodeID record).lookup nodeID = some found →
        nodeID = record.nodeID ∨ claims.lookup nodeID = some found) := by
    intro room sub _ nodeID found lookedUp
    by_cases same : nodeID = record.nodeID
    · exact .inl same
    · rw [AList.lookup_insert_ne same] at lookedUp
      exact .inr (sub nodeID found lookedUp)
  have kept : ∀ newClaims : Map NodeID ClaimRecord,
      (if (state.recentClaimsByBlock.lookup record.blockHash).isNone then
          { state with recentClaimsByBlock := state.recentClaimsByBlock.insert record.blockHash ∅ }
        else state).recentClaimsByBlock.insert record.blockHash newClaims =
        state.recentClaimsByBlock.insert record.blockHash newClaims := by
    intro newClaims
    split_ifs
    · rw [AList.insert_insert]
    · rfl
  unfold insertKnownClaim
  dsimp only
  rw [← claimsDef]
  by_cases held : (claims.lookup record.nodeID).isSome
  · rw [if_pos held]
    refine .inl ⟨(dropped _ rfl).1, (dropped _ rfl).2.1, (dropped _ rfl).2.2.1, (dropped _ rfl).2.2.2, ?_⟩
    rw [cappedInsert, if_pos ((mem_nodeIDsOf claims).2 held)]
  rw [if_neg held]
  have fresh : record.nodeID ∉ nodeIDsOf claims :=
    fun member => held ((mem_nodeIDsOf claims).1 member)
  by_cases full : knownClaimsPerBlockCap ≤ claims.entries.length
  · have nonempty : (nodeIDsOf claims).Nonempty := by
      rw [← card_pos, card_nodeIDsOf]
      exact lt_of_lt_of_le (by decide) full
    have notRoom : ¬(nodeIDsOf claims).card < knownClaimsPerBlockCap := by
      rw [card_nodeIDsOf]
      omega
    rw [if_pos full, knownClaimEvictionCandidate_eq claims nonempty]
    dsimp only
    by_cases smaller : record.nodeID < (nodeIDsOf claims).max' nonempty
    · rw [decide_eq_true smaller, if_pos rfl]
      dsimp only
      have ids : nodeIDsOf ((claims.erase ((nodeIDsOf claims).max' nonempty)).insert record.nodeID
          record) = cappedInsert knownClaimsPerBlockCap (nodeIDsOf claims) record.nodeID := by
        rw [nodeIDsOf_insert, nodeIDsOf_erase, cappedInsert, if_neg fresh, if_neg notRoom,
          dif_pos nonempty, if_pos smaller]
      refine .inr ⟨_, ids, by rw [AList.lookup_insert], stored _ (fun nodeID found lookedUp => ?_) ids,
        rfl, kept _, by split_ifs <;> rfl, by split_ifs <;> rfl⟩
      by_cases same : nodeID = (nodeIDsOf claims).max' nonempty
      · subst same
        rw [AList.lookup_erase] at lookedUp
        cases lookedUp
      · rwa [AList.lookup_erase_ne same] at lookedUp
    · rw [decide_eq_false smaller, if_neg Bool.false_ne_true]
      refine .inl ⟨(dropped _ rfl).1, (dropped _ rfl).2.1, (dropped _ rfl).2.2.1, (dropped _ rfl).2.2.2, ?_⟩
      rw [cappedInsert, if_neg fresh, if_neg notRoom, dif_pos nonempty, if_neg smaller]
  · rw [if_neg full]
    dsimp only
    have room : (nodeIDsOf claims).card < knownClaimsPerBlockCap := by
      rw [card_nodeIDsOf]
      omega
    have ids : nodeIDsOf (claims.insert record.nodeID record) =
        cappedInsert knownClaimsPerBlockCap (nodeIDsOf claims) record.nodeID := by
      rw [nodeIDsOf_insert, cappedInsert, if_neg fresh, if_pos room]
    exact .inr ⟨_, ids, by rw [AList.lookup_insert], stored _ (fun _ _ lookedUp => lookedUp) ids,
      rfl, kept _, by split_ifs <;> rfl, by split_ifs <;> rfl⟩

theorem retainedNodeIDs_insertKnownClaim (blockHash : DomainHash) :
    retainedNodeIDs (insertKnownClaim state record).2 blockHash =
      if blockHash = record.blockHash then
        cappedInsert knownClaimsPerBlockCap (retainedNodeIDs state blockHash) record.nodeID
      else retainedNodeIDs state blockHash := by
  split_ifs with same
  · subst same
    rcases insertKnownClaim_cases state record with
      ⟨-, recent, -, -, kept⟩ | ⟨claims, ids, -, -, -, recent, -⟩
    · -- a dropped claim leaves the block's node ids, or stores an empty map for it
      rw [kept, retainedNodeIDs, recent]
      split_ifs with absent
      · rw [AList.lookup_insert, Option.getD_some, retainedNodeIDs,
          Option.isNone_iff_eq_none.1 absent]
        rfl
      · rfl
    · rw [retainedNodeIDs, recent, AList.lookup_insert, Option.getD_some, ids]
  · rcases insertKnownClaim_cases state record with
      ⟨-, recent, -⟩ | ⟨claims, -, -, -, -, recent, -⟩
    · rw [retainedNodeIDs, recent]
      split_ifs
      · rw [AList.lookup_insert_ne same]
        rfl
      · rfl
    · rw [retainedNodeIDs, recent, AList.lookup_insert_ne same]
      rfl

end Insert

/-! ## The per-block invariant -/

/-- The node id of a block's winning claim. -/
def winnerNodeID (state : EngineState) (blockHash : DomainHash) : Option NodeID :=
  (state.winningClaimByBlock.lookup blockHash).map (·.nodeID)

/-- The per-block claim maps: each within the cap, each claim under its node id, and
the winner of a block the least node id it holds claims of. -/
structure ClaimsInvariant (state : EngineState) : Prop where
  capped : ∀ blockHash claims, state.recentClaimsByBlock.lookup blockHash = some claims →
    claims.entries.length ≤ knownClaimsPerBlockCap
  keyed : ∀ blockHash claims, state.recentClaimsByBlock.lookup blockHash = some claims →
    ClaimsKeyed claims
  winner : ∀ blockHash nodeID, winnerNodeID state blockHash = some nodeID ↔
    IsLeast (retainedNodeIDs state blockHash : Set NodeID) nodeID

section ClaimsInvariant

variable {state state' : EngineState}

theorem ClaimsInvariant.congr (holds : ClaimsInvariant state)
    (recent : state'.recentClaimsByBlock = state.recentClaimsByBlock)
    (winning : state'.winningClaimByBlock = state.winningClaimByBlock) : ClaimsInvariant state' where
  capped := by
    rw [recent]
    exact holds.capped
  keyed := by
    rw [recent]
    exact holds.keyed
  winner := by
    intro blockHash nodeID
    rw [winnerNodeID, retainedNodeIDs, recent, winning]
    exact holds.winner blockHash nodeID

theorem ClaimsInvariant.retained_card_le (holds : ClaimsInvariant state) (blockHash : DomainHash) :
    (retainedNodeIDs state blockHash).card ≤ knownClaimsPerBlockCap := by
  rw [retainedNodeIDs, card_nodeIDsOf]
  cases found : state.recentClaimsByBlock.lookup blockHash with
  | none => exact Nat.zero_le _
  | some claims => exact holds.capped blockHash claims found

theorem ClaimsInvariant.store (holds : ClaimsInvariant state) {blockHash : DomainHash}
    {claims : Map NodeID ClaimRecord} (capped : claims.entries.length ≤ knownClaimsPerBlockCap)
    (keyed : ClaimsKeyed claims)
    (recent : state'.recentClaimsByBlock = state.recentClaimsByBlock.insert blockHash claims)
    (winner : ∀ nodeID, winnerNodeID state' blockHash = some nodeID ↔
      IsLeast (nodeIDsOf claims : Set NodeID) nodeID)
    (others : ∀ other, other ≠ blockHash →
      state'.winningClaimByBlock.lookup other = state.winningClaimByBlock.lookup other) :
    ClaimsInvariant state' where
  capped := by
    intro other found lookedUp
    rw [recent] at lookedUp
    by_cases same : other = blockHash
    · subst same
      rw [AList.lookup_insert, Option.some.injEq] at lookedUp
      exact lookedUp ▸ capped
    · rw [AList.lookup_insert_ne same] at lookedUp
      exact holds.capped other found lookedUp
  keyed := by
    intro other found lookedUp
    rw [recent] at lookedUp
    by_cases same : other = blockHash
    · subst same
      rw [AList.lookup_insert, Option.some.injEq] at lookedUp
      exact lookedUp ▸ keyed
    · rw [AList.lookup_insert_ne same] at lookedUp
      exact holds.keyed other found lookedUp
  winner := by
    intro other nodeID
    by_cases same : other = blockHash
    · subst same
      rw [winner nodeID, retainedNodeIDs, recent, AList.lookup_insert, Option.getD_some]
    · rw [winnerNodeID, others other same, retainedNodeIDs, recent, AList.lookup_insert_ne same]
      exact holds.winner other nodeID

theorem ClaimsInvariant.insertKnownClaim (holds : ClaimsInvariant state) (record : ClaimRecord) :
    ClaimsInvariant (StrongNodeClaims.insertKnownClaim state record).2 := by
  rcases insertKnownClaim_cases state record with
    ⟨-, recent, winning, -, -⟩ | ⟨claims, ids, own, older, -, recent, winning, -⟩
  · -- a dropped claim: at most an empty map is stored for a block without claims
    split_ifs at recent with absent
    · have empty : retainedNodeIDs state record.blockHash = ∅ := by
        rw [retainedNodeIDs, Option.isNone_iff_eq_none.1 absent]
        rfl
      refine holds.store (by simp) (fun _ _ found => by simp at found) recent (fun nodeID => ?_)
        (fun other _ => by rw [winning])
      rw [winnerNodeID, winning, ← winnerNodeID, holds.winner, empty, nodeIDsOf_empty]
    · exact holds.congr recent winning
  · -- a stored claim: the capped insertion's node ids, and the least of them wins
    have keyed : ClaimsKeyed claims := by
      intro nodeID found lookedUp
      rcases older nodeID found lookedUp with same | before
      · subst same
        rw [own, Option.some.injEq] at lookedUp
        rw [← lookedUp]
      · cases stored : state.recentClaimsByBlock.lookup record.blockHash with
        | none => rw [stored] at before; simp at before
        | some held => rw [stored] at before; exact holds.keyed _ held stored nodeID found before
    have nonempty : (nodeIDsOf claims).Nonempty :=
      ⟨record.nodeID, (mem_nodeIDsOf claims).2 (by rw [own]; rfl)⟩
    obtain ⟨stored, least⟩ := selectWinner_spec claims keyed nonempty
    have isLeast : IsLeast (nodeIDsOf claims : Set NodeID) (selectWinner claims).nodeID :=
      ⟨(mem_nodeIDsOf claims).2 (by rw [stored]; rfl), fun nodeID member => least nodeID member⟩
    refine holds.store ?_ keyed recent (fun nodeID => ?_) (fun other same => ?_)
    · rw [← card_nodeIDsOf, ids]
      exact card_cappedInsert_le (by decide) (holds.retained_card_le _) _
    · rw [winnerNodeID, winning, AList.lookup_insert, Option.map_some, Option.some.injEq]
      exact ⟨fun same => same ▸ isLeast, fun other => isLeast.unique other⟩
    · rw [winning, AList.lookup_insert_ne same]

theorem ClaimsInvariant.purge (holds : ClaimsInvariant state) (blockHash : DomainHash) :
    ClaimsInvariant (purgeClaimStateForBlock state blockHash).2 where
  capped := by
    intro other claims lookedUp
    by_cases same : other = blockHash
    · subst same
      simp [purgeClaimStateForBlock] at lookedUp
    · rw [purgeClaimStateForBlock, AList.lookup_erase_ne same] at lookedUp
      exact holds.capped other claims lookedUp
  keyed := by
    intro other claims lookedUp
    by_cases same : other = blockHash
    · subst same
      simp [purgeClaimStateForBlock] at lookedUp
    · rw [purgeClaimStateForBlock, AList.lookup_erase_ne same] at lookedUp
      exact holds.keyed other claims lookedUp
  winner := by
    intro other nodeID
    by_cases same : other = blockHash
    · subst same
      simp only [winnerNodeID, retainedNodeIDs, purgeClaimStateForBlock, AList.lookup_erase,
        Option.map_none, reduceCtorEq, Option.getD_none, nodeIDsOf_empty, Finset.coe_empty,
        false_iff]
      exact fun least => least.1
    · simp only [winnerNodeID, retainedNodeIDs, purgeClaimStateForBlock,
        AList.lookup_erase_ne same]
      exact holds.winner other nodeID

end ClaimsInvariant

end Cryptixd.StrongNodeClaims

