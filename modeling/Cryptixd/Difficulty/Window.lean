import Mathlib
import Cryptixd.Difficulty.Compact
import Cryptixd.Atomic.Types

/-!
# The difficulty retarget over a block window

`difficultymanager.go` and `blockwindow.go`: the required difficulty of a
block is computed from an unordered window of blocks.  The block with the
least timestamp (ties broken by blue work, then by hash) is found by a scan,
removed by swapping in the last block, and the new target is the average
target of the rest, scaled by the window's time span and capped at `powMax`.

`requiredDifficulty_perm` shows that the result does not depend on the
order of the window when no two blocks share their blue work and hash, and
`requiredDifficulty_le_powMax` that the decoded result never exceeds
`powMax`.
-/

set_option autoImplicit false

namespace Cryptixd.Difficulty

open Cryptixd.Atomic (DomainHash)

structure DifficultyBlock where
  timeInMilliseconds : Int64
  bits : UInt32
  hash : DomainHash
  blueWork : Int
  deriving DecidableEq, Repr

/-- `time.Duration.Milliseconds`: truncating division of the nanoseconds. -/
def milliseconds (duration : Int64) : Int64 := duration / 1000000

/-- The fields of `difficultyManager` that `requiredDifficultyFromTargetsWindow`
reads; `targetTimePerBlock` is a `time.Duration` in nanoseconds.  The retarget
divides a `big.Int` by its milliseconds, which panics on zero, so the target
time of a manager is at least a millisecond, as in every network's
parameters. -/
structure DifficultyManager where
  powMax : Int
  disableDifficultyAdjustment : Bool
  targetTimePerBlock : Int64
  genesisBits : UInt32
  milliseconds_ne_zero : milliseconds targetTimePerBlock ≠ 0

def minDifficultyWindowLen : Nat := 10

def maxInt64 (x y : Int64) : Int64 := if x > y then x else y

/-- `DomainHash.Less`: `bytes.Compare` of the two arrays is negative, i.e. the
byte values compare lexicographically. -/
def hashLess (hash other : DomainHash) : Bool :=
  decide (hash.toList.map UInt8.toNat < other.toList.map UInt8.toNat)

def ghostdagLess (block other : DifficultyBlock) : Bool :=
  match compare block.blueWork other.blueWork with
  | .lt => true
  | .gt => false
  | .eq => hashLess block.hash other.hash

/-- One round of the loop of `minMaxTimestamps`, over `window` at index `i`. -/
def minMaxStep (window : List DifficultyBlock) (found : Int64 × Int64 × Nat)
    (entry : DifficultyBlock × Nat) : Int64 × Int64 × Nat :=
  let (min, max, minIndex) := found
  let (block, i) := entry
  -- equal timestamps are ordered by `ghostdagLess` so that every node picks the same block
  let (min, minIndex) :=
    if block.timeInMilliseconds < min ||
        (block.timeInMilliseconds == min &&
          (window[minIndex]?.map (ghostdagLess block)).getD false) then
      (block.timeInMilliseconds, i)
    else (min, minIndex)
  let max := if block.timeInMilliseconds > max then block.timeInMilliseconds else max
  (min, max, minIndex)

def minMaxTimestamps (window : List DifficultyBlock) : Int64 × Int64 × Nat :=
  window.zipIdx.foldl (minMaxStep window) (Int64.maxValue, 0, 0)

def remove (window : List DifficultyBlock) (n : Nat) : List DifficultyBlock :=
  match window.getLast? with
  | some last => (window.set n last).dropLast
  | none => window

def averageTarget (window : List DifficultyBlock) : Int :=
  window.foldl (fun averageTarget block => averageTarget + compactToBig block.bits) 0 /
    (window.length : Int)

def requiredDifficultyFromTargetsWindow (dm : DifficultyManager)
    (targetsWindow : List DifficultyBlock) : UInt32 :=
  if dm.disableDifficultyAdjustment then dm.genesisBits
  else if targetsWindow.length < minDifficultyWindowLen then dm.genesisBits
  else
    let (windowMinTimestamp, windowMaxTimeStamp, windowMinIndex) := minMaxTimestamps targetsWindow
    let targetsWindow := remove targetsWindow windowMinIndex
    -- the time span is clamped to one so that the target never becomes zero
    let newTarget := averageTarget targetsWindow *
      (maxInt64 (windowMaxTimeStamp - windowMinTimestamp) 1).toInt /
      (milliseconds dm.targetTimePerBlock).toInt / (targetsWindow.length : Int)
    if newTarget > dm.powMax then bigToCompact dm.powMax else bigToCompact newTarget

/-! ## The order of the scan -/

def hashBytes (hash : DomainHash) : List Nat := hash.toList.map UInt8.toNat

/-- The order `minMaxTimestamps` picks its block by: timestamp, blue work,
hash bytes. -/
def windowRank (block : DifficultyBlock) : Int ×ₗ Int ×ₗ List Nat :=
  toLex (block.timeInMilliseconds.toInt, toLex (block.blueWork, hashBytes block.hash))

theorem hashBytes_injective : Function.Injective hashBytes := by
  intro hash other same
  exact Vector.toList_inj.mp
    ((List.map_injective_iff.mpr fun _ _ h => UInt8.toNat_inj.mp h) (by exact same))

theorem ghostdagLess_iff (block other : DifficultyBlock) :
    ghostdagLess block other = true ↔
      toLex (block.blueWork, hashBytes block.hash) < toLex (other.blueWork, hashBytes other.hash) := by
  rw [Prod.Lex.toLex_lt_toLex]
  unfold ghostdagLess hashLess
  rcases lt_trichotomy block.blueWork other.blueWork with less | same | greater
  · simp [compare_lt_iff_lt.mpr less, less]
  · rw [same, compare_eq_iff_eq.mpr rfl]
    simp only [lt_irrefl, false_or, true_and, decide_eq_true_eq, hashBytes]
  · simp [compare_gt_iff_gt.mpr greater, greater.ne', not_lt_of_gt greater]

theorem scanTest_iff (block current : DifficultyBlock) :
    (block.timeInMilliseconds < current.timeInMilliseconds ||
      (block.timeInMilliseconds == current.timeInMilliseconds && ghostdagLess block current)) = true ↔
      windowRank block < windowRank current := by
  unfold windowRank
  rw [Prod.Lex.toLex_lt_toLex, Bool.or_eq_true, Bool.and_eq_true, beq_iff_eq, ghostdagLess_iff,
    decide_eq_true_iff, Int64.lt_iff_toInt_lt, ← Int64.toInt_inj]

/-! ## The scan -/

def maxTimestamp (seen : List DifficultyBlock) : Int64 :=
  seen.foldl (fun max block => if block.timeInMilliseconds > max then block.timeInMilliseconds else max) 0

/-- What the scan of `minMaxTimestamps` knows after a prefix `seen` of the
window: the largest timestamp, and the least block of `seen` by `windowRank`
with its timestamp and index; before the first block, its starting values. -/
def ScanInvariant (window seen : List DifficultyBlock) (found : Int64 × Int64 × Nat) : Prop :=
  found.2.1 = maxTimestamp seen ∧
    (seen = [] → found.1 = Int64.maxValue ∧ found.2.2 = 0) ∧
    (seen ≠ [] → ∃ least, window[found.2.2]? = some least ∧ least ∈ seen ∧
      found.1 = least.timeInMilliseconds ∧ ∀ block ∈ seen, windowRank least ≤ windowRank block)

theorem ghostdagLess_irrefl (block : DifficultyBlock) : ghostdagLess block block = false := by
  rw [Bool.eq_false_iff, ne_eq, ghostdagLess_iff]
  exact lt_irrefl _

theorem eq_maxValue_of_not_lt {time : Int64} (notBelow : ¬time < Int64.maxValue) :
    time = Int64.maxValue := by
  rw [Int64.lt_iff_toInt_lt] at notBelow
  have atMost := Int64.le_iff_toInt_le.mp (Int64.le_maxValue time)
  exact Int64.toInt_inj.mp (by omega)

theorem scanInvariant_step {window seen : List DifficultyBlock} {block : DifficultyBlock}
    {found : Int64 × Int64 × Nat} (isPrefix : seen ++ [block] <+: window)
    (invariant : ScanInvariant window seen found) :
    ScanInvariant window (seen ++ [block]) (minMaxStep window found (block, seen.length)) := by
  obtain ⟨min, max, minIndex⟩ := found
  obtain ⟨largest, fresh, known⟩ := invariant
  have atEnd : window[seen.length]? = some block := by
    obtain ⟨rest, rfl⟩ := isPrefix
    simp
  refine ⟨?_, fun empty => absurd empty (by simp), fun _ => ?_⟩
  · unfold maxTimestamp at largest ⊢
    rw [List.foldl_append, ← largest]
    rfl
  unfold minMaxStep
  dsimp only
  by_cases empty : seen = []
  · -- the first block is the least so far, whatever the test says
    obtain ⟨rfl, rfl⟩ := fresh empty
    subst empty
    refine ⟨block, ?_⟩
    split_ifs with earlier
    · exact ⟨atEnd, by simp, rfl, by simp⟩
    · simp only [List.length_nil] at atEnd
      simp only [atEnd, Option.map_some, Option.getD_some, ghostdagLess_irrefl, Bool.and_false,
        Bool.or_false, decide_eq_true_eq] at earlier
      exact ⟨atEnd, by simp, (eq_maxValue_of_not_lt earlier).symm, by simp⟩
  · obtain ⟨least, found, member, rfl, lowest⟩ := known empty
    rw [found]
    simp only [Option.map_some, Option.getD_some]
    split_ifs with earlier
    · rw [scanTest_iff] at earlier
      refine ⟨block, atEnd, by simp, rfl, fun other member => ?_⟩
      rcases List.mem_append.mp member with before | now
      · exact (earlier.trans_le (lowest other before)).le
      · rw [List.mem_singleton.mp now]
    · rw [scanTest_iff, not_lt] at earlier
      refine ⟨least, found, List.mem_append_left _ member, rfl, fun other member => ?_⟩
      rcases List.mem_append.mp member with before | now
      · exact lowest other before
      · rwa [List.mem_singleton.mp now]

theorem scanInvariant_run (window : List DifficultyBlock) :
    ∀ seen, seen <+: window →
      ScanInvariant window seen (seen.zipIdx.foldl (minMaxStep window) (Int64.maxValue, 0, 0)) := by
  intro seen
  induction seen using List.reverseRecOn with
  | nil => exact fun _ => ⟨rfl, fun _ => ⟨rfl, rfl⟩, fun nonempty => absurd rfl nonempty⟩
  | append_singleton seen block earlier =>
    intro isPrefix
    rw [List.zipIdx_append, List.foldl_append]
    simp only [List.zipIdx_cons, List.zipIdx_nil, zero_add, List.foldl_cons, List.foldl_nil]
    exact scanInvariant_step isPrefix (earlier ((List.prefix_append _ _).trans isPrefix))

def LeastOf (window : List DifficultyBlock) (least : DifficultyBlock) : Prop :=
  least ∈ window ∧ ∀ block ∈ window, windowRank least ≤ windowRank block

theorem minMaxTimestamps_spec {window : List DifficultyBlock} (nonempty : window ≠ []) :
    (minMaxTimestamps window).2.1 = maxTimestamp window ∧
      ∃ least, window[(minMaxTimestamps window).2.2]? = some least ∧
        (minMaxTimestamps window).1 = least.timeInMilliseconds ∧ LeastOf window least := by
  obtain ⟨largest, -, known⟩ := scanInvariant_run window window (List.prefix_refl window)
  obtain ⟨least, found, member, earliest, lowest⟩ := known nonempty
  exact ⟨largest, least, found, earliest, member, lowest⟩

theorem windowRank_inj {block other : DifficultyBlock} (same : windowRank block = windowRank other) :
    (block.blueWork, block.hash) = (other.blueWork, other.hash) := by
  simp only [windowRank, toLex_inj, Prod.mk.injEq] at same
  rw [same.2.1, hashBytes_injective same.2.2]

theorem leastOf_unique {window : List DifficultyBlock}
    (distinct : (window.map fun block => (block.blueWork, block.hash)).Nodup)
    {least other : DifficultyBlock} (isLeast : LeastOf window least)
    (otherLeast : LeastOf window other) : least = other :=
  List.inj_on_of_nodup_map distinct isLeast.1 otherLeast.1
    (windowRank_inj (le_antisymm (isLeast.2 other otherLeast.1) (otherLeast.2 least isLeast.1)))

theorem LeastOf.perm {window window' : List DifficultyBlock} {least : DifficultyBlock}
    (perm : window.Perm window') (isLeast : LeastOf window least) : LeastOf window' least :=
  ⟨perm.mem_iff.mp isLeast.1, fun block member => isLeast.2 block (perm.mem_iff.mpr member)⟩

/-! ## Removal and averaging -/

theorem getElem_cons_set_perm {α : Type} (l : List α) (n : Nat) (inRange : n < l.length) (x : α) :
    (l[n] :: l.set n x).Perm (x :: l) := by
  induction l generalizing n with
  | nil => exact absurd inRange (Nat.not_lt_zero n)
  | cons a l ih =>
    cases n with
    | zero => exact List.Perm.swap x a l
    | succ n =>
      have inBounds : n < l.length := Nat.lt_of_succ_lt_succ inRange
      exact (List.Perm.swap a l[n] _).trans (((ih n inBounds).cons a).trans (List.Perm.swap x a l))

theorem remove_perm {window : List DifficultyBlock} {n : Nat} (inRange : n < window.length) :
    (window[n] :: remove window n).Perm window := by
  rcases List.eq_nil_or_concat' window with rfl | ⟨rest, last, rfl⟩
  · exact absurd inRange (Nat.not_lt_zero n)
  unfold remove
  rw [List.getLast?_concat]
  dsimp only
  rcases Nat.lt_or_ge n rest.length with before | atLast
  · -- the last block overwrites the removed one
    rw [List.set_append_left n last before, List.dropLast_concat,
      List.getElem_append_left before]
    exact (getElem_cons_set_perm rest n before last).trans (List.perm_append_singleton last rest).symm
  · -- the removed block is the last one
    have atLast : n = rest.length := by simp at inRange; omega
    subst atLast
    rw [List.set_append_right _ _ le_rfl, Nat.sub_self, List.set_cons_zero, List.dropLast_concat,
      List.getElem_concat_length rfl]
    exact (List.perm_append_singleton last rest).symm

theorem averageTarget_perm {window window' : List DifficultyBlock} (perm : window.Perm window') :
    averageTarget window = averageTarget window' := by
  unfold averageTarget
  rw [perm.length_eq, perm.foldl_eq' (fun block _ other _ total =>
    add_right_comm total (compactToBig block.bits) (compactToBig other.bits))]

theorem maxTimestamp_perm {window window' : List DifficultyBlock} (perm : window.Perm window') :
    maxTimestamp window = maxTimestamp window' := by
  unfold maxTimestamp
  refine perm.foldl_eq' (fun block _ other _ max => ?_) 0
  simp only [gt_iff_lt, Int64.lt_iff_toInt_lt]
  split_ifs <;> apply Int64.toInt_inj.mp <;> omega

theorem minMaxTimestamps_perm {window window' : List DifficultyBlock} (perm : window.Perm window')
    (distinct : (window.map fun block => (block.blueWork, block.hash)).Nodup) (nonempty : window ≠ []) :
    (minMaxTimestamps window).1 = (minMaxTimestamps window').1 ∧
      (minMaxTimestamps window).2.1 = (minMaxTimestamps window').2.1 ∧
      (remove window (minMaxTimestamps window).2.2).Perm
        (remove window' (minMaxTimestamps window').2.2) := by
  have nonempty' : window' ≠ [] := by
    rintro rfl
    exact nonempty perm.eq_nil
  obtain ⟨largest, least, found, earliest, isLeast⟩ := minMaxTimestamps_spec nonempty
  obtain ⟨largest', least', found', earliest', isLeast'⟩ := minMaxTimestamps_spec nonempty'
  obtain rfl : least = least' := leastOf_unique distinct isLeast (isLeast'.perm perm.symm)
  refine ⟨by rw [earliest, earliest'], by rw [largest, largest', maxTimestamp_perm perm], ?_⟩
  obtain ⟨inRange, atIndex⟩ := List.getElem?_eq_some_iff.mp found
  obtain ⟨inRange', atIndex'⟩ := List.getElem?_eq_some_iff.mp found'
  have removed := remove_perm inRange
  have removed' := remove_perm inRange'
  rw [atIndex] at removed
  rw [atIndex'] at removed'
  exact (removed.trans (perm.trans removed'.symm)).cons_inv

theorem requiredDifficulty_perm (dm : DifficultyManager) {window window' : List DifficultyBlock}
    (perm : window.Perm window')
    (distinct : (window.map fun block => (block.blueWork, block.hash)).Nodup) :
    requiredDifficultyFromTargetsWindow dm window = requiredDifficultyFromTargetsWindow dm window' := by
  unfold requiredDifficultyFromTargetsWindow
  rw [← perm.length_eq]
  split_ifs with disabled short
  · rfl
  · rfl
  have nonempty : window ≠ [] := by
    rintro rfl
    exact short (by decide)
  obtain ⟨earliest, latest, rest⟩ := minMaxTimestamps_perm perm distinct nonempty
  rcases found : minMaxTimestamps window with ⟨min, max, minIndex⟩
  rcases found' : minMaxTimestamps window' with ⟨min', max', minIndex'⟩
  rw [found, found'] at earliest latest rest
  dsimp only at earliest latest rest ⊢
  rw [earliest, latest, averageTarget_perm rest, rest.length_eq]

theorem requiredDifficulty_le_powMax (dm : DifficultyManager) (nonneg : 0 ≤ dm.powMax)
    (genesisBelow : dm.disableDifficultyAdjustment = true → compactToBig dm.genesisBits ≤ dm.powMax)
    (window : List DifficultyBlock) (long : minDifficultyWindowLen ≤ window.length) :
    compactToBig (requiredDifficultyFromTargetsWindow dm window) ≤ dm.powMax := by
  unfold requiredDifficultyFromTargetsWindow
  split_ifs with disabled short
  · exact genesisBelow disabled
  · exact absurd long (not_le.mpr short)
  rcases minMaxTimestamps window with ⟨min, max, minIndex⟩
  dsimp only
  split_ifs with above
  · exact (compactToBig_bigToCompact_le_max _).trans (max_le le_rfl nonneg)
  · exact (compactToBig_bigToCompact_le_max _).trans (max_le (not_lt.mp above) nonneg)

-- simnet, the one network with the adjustment disabled: its genesis target is below its powMax
example : compactToBig 0x207fffff ≤ 2 ^ 255 - 1 := by decide

theorem requiredDifficulty_orderFree_capped (dm : DifficultyManager) (nonneg : 0 ≤ dm.powMax)
    (genesisBelow : dm.disableDifficultyAdjustment = true → compactToBig dm.genesisBits ≤ dm.powMax)
    (window : List DifficultyBlock) (long : minDifficultyWindowLen ≤ window.length)
    (distinct : (window.map fun block => (block.blueWork, block.hash)).Nodup) :
    (∀ window', window.Perm window' →
      requiredDifficultyFromTargetsWindow dm window' = requiredDifficultyFromTargetsWindow dm window) ∧
    compactToBig (requiredDifficultyFromTargetsWindow dm window) ≤ dm.powMax :=
  ⟨fun _ perm => (requiredDifficulty_perm dm perm distinct).symm,
    requiredDifficulty_le_powMax dm nonneg genesisBelow window long⟩

/-- The mainnet parameters, on ten blocks of one timestamp told apart by blue work. -/
theorem requiredDifficulty_orderFree_capped_mainnet :
    let dm : DifficultyManager := ⟨2 ^ 255 - 1, false, 1000000000, 486962709, by decide⟩
    let window := (List.range 10).map fun work : Nat =>
      (⟨0, 486962709, Vector.replicate 32 0, work⟩ : DifficultyBlock)
    (∀ window', window.Perm window' →
      requiredDifficultyFromTargetsWindow dm window' = requiredDifficultyFromTargetsWindow dm window) ∧
    compactToBig (requiredDifficultyFromTargetsWindow dm window) ≤ dm.powMax :=
  requiredDifficulty_orderFree_capped _ (by decide) (fun disabled => absurd disabled (by decide)) _
    (by decide) (by decide)

end Cryptixd.Difficulty
