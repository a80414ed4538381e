import Mathlib
import Cryptixd.Utxo.DiffAlgebra

/-!
# What a UTXO diff means, and what `withDiff` and `diffFrom` preserve

A diff `d` applied to a base set of entries keeps the base entries that
`d.toRemove` does not remove with their DAA score, and adds `d.toAdd`
(`applyDiff`).  A diff is consistent with a base when it removes only base
entries and adds only at outpoints whose base entry it removes
(`ConsistentWith`).  Within a node the entry at an outpoint is fixed by its DAA
score: the outpoint names a transaction output, and the score the block that
accepted it (`EntriesDistinguished`).

* `withDiff_applyDiff`: composing two diffs, each consistent with the set it
  applies to, succeeds and applies as the two in turn; so does the iterator
  that flattens nested diffs (`iteratorWithDiff_entries`).
* `diffFrom_withDiff_roundTrip`: for diffs of a common base that do not add
  and remove one entry, `diffFrom` and `withDiff` undo each other.

Both need that entries are told apart by their DAA score, and the round trip
needs the common base and diffs that do not add and remove the same entry:
the counterexamples after each theorem show what goes wrong without.

Every statement is proved one outpoint at a time: the lookups of the results
at an outpoint are functions of the lookups of the arguments there
(`Cryptixd.Utxo.DiffAlgebra`), and their DAA scores are functions of the
arguments' scores (`scoreOf_subtractCell`).  The score-level facts are finite
case analyses; entries are then recovered from their scores.
-/

set_option autoImplicit false

namespace Cryptixd.Utxo

open Cryptixd.Atomic

/-! ## The cell functions on scores

The lookups of `diffFrom` and `withDiffInPlace` at one outpoint, with each
entry replaced by its DAA score; stated for any type of scores. -/

section ScoreCells

variable {α : Type} [DecidableEq α]

def subtractScore (score1 score2 fallback : Option α) : Option α :=
  match score1 with
  | some daaScore => if score2 = some daaScore then fallback else some daaScore
  | none => fallback

def intersectScore (score1 score2 fallback : Option α) : Option α :=
  match score1 with
  | some daaScore => if score2 = some daaScore then some daaScore else fallback
  | none => fallback

@[simp] theorem subtractScore_none (score2 fallback : Option α) :
    subtractScore none score2 fallback = fallback := rfl

@[simp] theorem subtractScore_some (daaScore : α) (score2 fallback : Option α) :
    subtractScore (some daaScore) score2 fallback =
      if score2 = some daaScore then fallback else some daaScore := rfl

-- pushed through a branch before the match is read, so that a case split on
-- the five scores leaves only conditions on scores
@[simp] theorem subtractScore_ite (condition : Prop) [Decidable condition]
    (score1 score1' score2 fallback : Option α) :
    subtractScore (if condition then score1 else score1') score2 fallback =
      if condition then subtractScore score1 score2 fallback
      else subtractScore score1' score2 fallback := by
  split_ifs <;> rfl

@[simp] theorem intersectScore_none (score2 fallback : Option α) :
    intersectScore none score2 fallback = fallback := rfl

@[simp] theorem intersectScore_some (daaScore : α) (score2 fallback : Option α) :
    intersectScore (some daaScore) score2 fallback =
      if score2 = some daaScore then some daaScore else fallback := rfl

@[simp] theorem intersectScore_ite (condition : Prop) [Decidable condition]
    (score1 score1' score2 fallback : Option α) :
    intersectScore (if condition then score1 else score1') score2 fallback =
      if condition then intersectScore score1 score2 fallback
      else intersectScore score1' score2 fallback := by
  split_ifs <;> rfl

def diffFromScores (add1 remove1 add2 remove2 : Option α) : Option α × Option α :=
  (subtractScore add2 add1 (subtractScore remove1 remove2 none),
    subtractScore remove2 remove1 (subtractScore add1 add2 none))

def withDiffScores (add1 remove1 add2 remove2 : Option α) : Option α × Option α :=
  let removed := subtractScore remove2 add1 remove1
  let kept := if (intersectScore remove2 add1 none).isSome then none else add1
  (subtractScore add2 removed kept,
    if (intersectScore add2 removed none).isSome then none else removed)

end ScoreCells

/-! ## Scores of entries -/

def scoreOf (cell : Option UTXOEntry) : Option UInt64 := cell.map (·.blockDAAScore)

@[simp] theorem scoreOf_none : scoreOf none = none := rfl

@[simp] theorem scoreOf_some (utxoEntry : UTXOEntry) :
    scoreOf (some utxoEntry) = some utxoEntry.blockDAAScore := rfl

theorem cellContains_iff (cell : Option UTXOEntry) (daaScore : UInt64) :
    cellContains cell daaScore = true ↔ scoreOf cell = some daaScore := by
  cases cell <;> simp

theorem scoreOf_subtractCell (cell1 cell2 fallback : Option UTXOEntry) :
    scoreOf (subtractCell cell1 cell2 fallback) =
      subtractScore (scoreOf cell1) (scoreOf cell2) (scoreOf fallback) := by
  cases cell1 with
  | none => rfl
  | some utxoEntry =>
    by_cases held : scoreOf cell2 = some utxoEntry.blockDAAScore
    · simp [subtractCell, held, (cellContains_iff _ _).mpr held]
    · have missing : cellContains cell2 utxoEntry.blockDAAScore = false := by
        simpa [← cellContains_iff] using held
      simp [subtractCell, held, missing]

theorem scoreOf_intersectCell (cell1 cell2 fallback : Option UTXOEntry) :
    scoreOf (intersectCell cell1 cell2 fallback) =
      intersectScore (scoreOf cell1) (scoreOf cell2) (scoreOf fallback) := by
  cases cell1 with
  | none => rfl
  | some utxoEntry =>
    by_cases held : scoreOf cell2 = some utxoEntry.blockDAAScore
    · simp [intersectCell, held, (cellContains_iff _ _).mpr held]
    · have missing : cellContains cell2 utxoEntry.blockDAAScore = false := by
        simpa [← cellContains_iff] using held
      simp [intersectCell, held, missing]

theorem isSome_scoreOf (cell : Option UTXOEntry) : (scoreOf cell).isSome = cell.isSome := by
  cases cell <;> rfl

/-! ## Entries told apart by their score -/

/-- Two present lookups at one outpoint with the same DAA score hold the same
entry. -/
def CellDistinct (cells : List (Option UTXOEntry)) : Prop :=
  ∀ cell1 ∈ cells, ∀ cell2 ∈ cells, ∀ utxoEntry1 utxoEntry2, cell1 = some utxoEntry1 →
    cell2 = some utxoEntry2 → utxoEntry1.blockDAAScore = utxoEntry2.blockDAAScore →
      utxoEntry1 = utxoEntry2

def Drawn (cells : List (Option UTXOEntry)) (cell : Option UTXOEntry) : Prop :=
  ∀ utxoEntry, cell = some utxoEntry → ∃ source ∈ cells, source = some utxoEntry

theorem drawn_none (cells : List (Option UTXOEntry)) : Drawn cells none := by
  intro utxoEntry absent
  cases absent

theorem drawn_of_mem {cells : List (Option UTXOEntry)} {cell : Option UTXOEntry}
    (member : cell ∈ cells) : Drawn cells cell :=
  fun _ present => ⟨cell, member, present⟩

theorem drawn_subtractCell {cells : List (Option UTXOEntry)} {cell1 fallback : Option UTXOEntry}
    (cell2 : Option UTXOEntry) (drawn1 : Drawn cells cell1) (drawnFallback : Drawn cells fallback) :
    Drawn cells (subtractCell cell1 cell2 fallback) := by
  unfold subtractCell
  split
  · split_ifs
    · exact drawnFallback
    · exact drawn1
  · exact drawnFallback

theorem drawn_ite {cells : List (Option UTXOEntry)} (condition : Prop) [Decidable condition]
    {cell : Option UTXOEntry} (drawn : Drawn cells cell) :
    Drawn cells (if condition then none else cell) := by
  split_ifs
  · exact drawn_none cells
  · exact drawn

theorem eq_of_scoreOf_eq {cells : List (Option UTXOEntry)} (distinct : CellDistinct cells)
    {cell1 cell2 : Option UTXOEntry} (drawn1 : Drawn cells cell1) (drawn2 : Drawn cells cell2)
    (same : scoreOf cell1 = scoreOf cell2) : cell1 = cell2 := by
  cases cell1 with
  | none => cases cell2 with
    | none => rfl
    | some _ => cases same
  | some utxoEntry1 =>
    cases cell2 with
    | none => cases same
    | some utxoEntry2 =>
      obtain ⟨source1, member1, found1⟩ := drawn1 utxoEntry1 rfl
      obtain ⟨source2, member2, found2⟩ := drawn2 utxoEntry2 rfl
      simp only [scoreOf_some, Option.some.injEq] at same
      rw [distinct source1 member1 source2 member2 utxoEntry1 utxoEntry2 found1 found2 same]

theorem eq_some_iff_scoreOf {cells : List (Option UTXOEntry)} (distinct : CellDistinct cells)
    {cell : Option UTXOEntry} (drawn : Drawn cells cell) {utxoEntry : UTXOEntry}
    (held : ∃ source ∈ cells, source = some utxoEntry) :
    cell = some utxoEntry ↔ scoreOf cell = some utxoEntry.blockDAAScore := by
  constructor
  · intro present
    rw [present, scoreOf_some]
  · intro sameScore
    exact eq_of_scoreOf_eq distinct drawn (fun _ found => found ▸ held) sameScore

/-! ## What a diff means -/

def UTXOCollection.toSet (collection : UTXOCollection) : Set (DomainOutpoint × UTXOEntry) :=
  {pair | collection.lookup pair.1 = some pair.2}

/-- A diff applied to a set of entries: the entries `toRemove` does not remove
with their DAA score, and the entries of `toAdd`. -/
def applyDiff (base : Set (DomainOutpoint × UTXOEntry)) (diff : MutableUTXODiff) :
    Set (DomainOutpoint × UTXOEntry) :=
  {pair | (pair ∈ base ∧ diff.toRemove.containsWithDAAScore pair.1 pair.2.blockDAAScore = false) ∨
    diff.toAdd.lookup pair.1 = some pair.2}

/-- A diff that removes only entries of the base, with their DAA score, and
adds only at outpoints whose base entries it removes. -/
def ConsistentWith (base : Set (DomainOutpoint × UTXOEntry)) (diff : MutableUTXODiff) : Prop :=
  (∀ outpoint utxoEntry, diff.toRemove.lookup outpoint = some utxoEntry →
    ∃ baseEntry, (outpoint, baseEntry) ∈ base ∧ baseEntry.blockDAAScore = utxoEntry.blockDAAScore) ∧
  (∀ outpoint utxoEntry, diff.toAdd.lookup outpoint = some utxoEntry →
    ∀ baseEntry, (outpoint, baseEntry) ∈ base →
      diff.toRemove.containsWithDAAScore outpoint baseEntry.blockDAAScore = true)

def MutableUTXODiff.Normalized (diff : MutableUTXODiff) : Prop :=
  ∀ outpoint utxoEntry, diff.toAdd.lookup outpoint = some utxoEntry →
    diff.toRemove.containsWithDAAScore outpoint utxoEntry.blockDAAScore = false

/-- At every outpoint, the entries of the collections are told apart by their
DAA score. -/
def EntriesDistinguished (collections : List UTXOCollection) : Prop :=
  ∀ outpoint, CellDistinct (collections.map (·.lookup outpoint))

/-- Two diffs with the same entries to add and to remove (`reflect.DeepEqual`
of the collections). -/
def MutableUTXODiff.Equal (diff1 diff2 : MutableUTXODiff) : Prop :=
  ∀ outpoint, diff1.toAdd.lookup outpoint = diff2.toAdd.lookup outpoint ∧
    diff1.toRemove.lookup outpoint = diff2.toRemove.lookup outpoint

/-! ## One outpoint, on scores

`base` is the DAA score of the base entry at the outpoint, `add1`, `remove1`,
`add2`, `remove2` those of the two diffs.  Consistency with the base and with
the base after the first diff, and normalisation, read at one outpoint, are
the hypotheses of these lemmas. -/

section Scores

variable {α : Type} [DecidableEq α] (base add1 remove1 add2 remove2 : Option α)

/-- Composing two diffs at one outpoint: neither check of `withDiffInPlace`
fires, and the result applied to the base holds the scores the two diffs
applied in turn hold. -/
theorem withDiffScores_compose
    (removes1 : ∀ s, remove1 = some s → base = some s)
    (adds1 : ∀ s t, add1 = some s → base = some t → remove1 = some t)
    (removes2 : ∀ s, remove2 = some s → (base = some s ∧ remove1 ≠ some s) ∨ add1 = some s)
    (adds2 : ∀ s t, add2 = some s → ((base = some t ∧ remove1 ≠ some t) ∨ add1 = some t) →
      remove2 = some t) :
    (∀ x y, remove2 = some x → remove1 = some y → add1 = some x) ∧
      (∀ x y, add2 = some x → add1 = some y → remove2 = some y) ∧
      ∀ s, ((base = some s ∧ (withDiffScores add1 remove1 add2 remove2).2 ≠ some s) ∨
          (withDiffScores add1 remove1 add2 remove2).1 = some s) ↔
        ((((base = some s ∧ remove1 ≠ some s) ∨ add1 = some s) ∧ remove2 ≠ some s) ∨
          add2 = some s) := by
  rcases base with _ | base <;> rcases add1 with _ | add1 <;> rcases remove1 with _ | remove1 <;>
    rcases add2 with _ | add2 <;> rcases remove2 with _ | remove2 <;>
    simp only [withDiffScores, subtractScore_none, subtractScore_some, intersectScore_none,
      intersectScore_some, Option.isSome_none, Option.some.injEq, Bool.false_eq_true, ↓reduceIte,
      reduceCtorEq] <;>
    grind -ring -linarith -lia

/-- `diffFrom` and then `withDiff` at one outpoint, for two diffs of one base
that add no entry they remove: no check of either fires, and the round trip
gives back the second diff. -/
theorem diffFromScores_roundTrip
    (normal1 : ∀ s, add1 = some s → remove1 ≠ some s)
    (normal2 : ∀ s, add2 = some s → remove2 ≠ some s)
    (removes1 : ∀ s, remove1 = some s → base = some s)
    (adds1 : ∀ s t, add1 = some s → base = some t → remove1 = some t)
    (removes2 : ∀ s, remove2 = some s → base = some s)
    (adds2 : ∀ s t, add2 = some s → base = some t → remove2 = some t) :
    (∀ u d, remove1 = some u → add2 = some d → d ≠ u ∧ (add1 = some d ∨ remove2 = some u)) ∧
      (∀ u d, add1 = some u → remove2 = some d → d ≠ u ∧ (remove1 = some d ∨ add2 = some u)) ∧
      (∀ u d, remove1 = some u → remove2 = some d → u = d) ∧
      ((intersectScore add1 add2 none).isSome → (remove1.isSome ↔ remove2.isSome)) ∧
      (∀ x y, (diffFromScores add1 remove1 add2 remove2).2 = some x → remove1 = some y →
        add1 = some x) ∧
      (∀ x y, (diffFromScores add1 remove1 add2 remove2).1 = some x → add1 = some y →
        (diffFromScores add1 remove1 add2 remove2).2 = some y) ∧
      withDiffScores add1 remove1 (diffFromScores add1 remove1 add2 remove2).1
        (diffFromScores add1 remove1 add2 remove2).2 = (add2, remove2) := by
  rcases base with _ | base <;> rcases add1 with _ | add1 <;> rcases remove1 with _ | remove1 <;>
    rcases add2 with _ | add2 <;> rcases remove2 with _ | remove2 <;>
    simp only [diffFromScores, withDiffScores, Prod.mk.injEq, subtractScore_none, subtractScore_some,
      intersectScore_none, intersectScore_some, Option.isSome_none, Option.isSome_some,
      subtractScore_ite, intersectScore_ite, ite_self, Option.some.injEq, Bool.false_eq_true,
      ↓reduceIte, reduceCtorEq] <;>
    grind -ring -linarith -lia

/-- `withDiff` and then `diffFrom` at one outpoint, for a first diff of the
base and a second of the base after it, neither adding an entry it removes:
no check of `diffFrom` fires, and the round trip gives back the second
diff. -/
theorem withDiffScores_roundTrip
    (normal1 : ∀ s, add1 = some s → remove1 ≠ some s)
    (normal2 : ∀ s, add2 = some s → remove2 ≠ some s)
    (removes1 : ∀ s, remove1 = some s → base = some s)
    (adds1 : ∀ s t, add1 = some s → base = some t → remove1 = some t)
    (removes2 : ∀ s, remove2 = some s → (base = some s ∧ remove1 ≠ some s) ∨ add1 = some s)
    (adds2 : ∀ s t, add2 = some s → ((base = some t ∧ remove1 ≠ some t) ∨ add1 = some t) →
      remove2 = some t) :
    let added := (withDiffScores add1 remove1 add2 remove2).1
    let removed := (withDiffScores add1 remove1 add2 remove2).2
    (∀ u d, remove1 = some u → added = some d → d ≠ u ∧ (add1 = some d ∨ removed = some u)) ∧
      (∀ u d, add1 = some u → removed = some d → d ≠ u ∧ (remove1 = some d ∨ added = some u)) ∧
      (∀ u d, remove1 = some u → removed = some d → u = d) ∧
      ((intersectScore add1 added none).isSome → (remove1.isSome ↔ removed.isSome)) ∧
      diffFromScores add1 remove1 added removed = (add2, remove2) := by
  dsimp only
  rcases base with _ | base <;> rcases add1 with _ | add1 <;> rcases remove1 with _ | remove1 <;>
    rcases add2 with _ | add2 <;> rcases remove2 with _ | remove2 <;>
    simp only [diffFromScores, withDiffScores, Prod.mk.injEq, subtractScore_none, subtractScore_some,
      intersectScore_none, intersectScore_some, Option.isSome_none, Option.isSome_some,
      subtractScore_ite, ite_self, Option.some.injEq, Bool.false_eq_true, ↓reduceIte, reduceCtorEq] <;>
    grind -ring -linarith -lia

end Scores

/-! ## Reading the operations on scores -/

theorem scoreOf_eq_some_iff (cell : Option UTXOEntry) (daaScore : UInt64) :
    scoreOf cell = some daaScore ↔ ∃ utxoEntry, cell = some utxoEntry ∧
      utxoEntry.blockDAAScore = daaScore :=
  Option.map_eq_some_iff

theorem containsWithDAAScore_eq_true_iff (collection : UTXOCollection) (outpoint : DomainOutpoint)
    (daaScore : UInt64) :
    collection.containsWithDAAScore outpoint daaScore = true ↔
      scoreOf (collection.lookup outpoint) = some daaScore :=
  cellContains_iff _ _

theorem containsWithDAAScore_eq_false_iff (collection : UTXOCollection) (outpoint : DomainOutpoint)
    (daaScore : UInt64) :
    collection.containsWithDAAScore outpoint daaScore = false ↔
      scoreOf (collection.lookup outpoint) ≠ some daaScore := by
  rw [← Bool.not_eq_true, containsWithDAAScore_eq_true_iff]

theorem scoreOf_lookup_diffFrom {this other d : MutableUTXODiff} (accepted : diffFrom this other = .ok d)
    (outpoint : DomainOutpoint) :
    let scores := diffFromScores (scoreOf (this.toAdd.lookup outpoint))
      (scoreOf (this.toRemove.lookup outpoint)) (scoreOf (other.toAdd.lookup outpoint))
      (scoreOf (other.toRemove.lookup outpoint))
    scoreOf (d.toAdd.lookup outpoint) = scores.1 ∧ scoreOf (d.toRemove.lookup outpoint) = scores.2 := by
  obtain ⟨added, removed⟩ := lookup_diffFrom accepted outpoint
  rw [added, removed]
  simp only [diffFromScores, scoreOf_subtractCell, scoreOf_none, and_self]

theorem scoreOf_lookup_withDiffInPlace {this other d : MutableUTXODiff}
    (accepted : withDiffInPlace this other = .ok d) (outpoint : DomainOutpoint) :
    let scores := withDiffScores (scoreOf (this.toAdd.lookup outpoint))
      (scoreOf (this.toRemove.lookup outpoint)) (scoreOf (other.toAdd.lookup outpoint))
      (scoreOf (other.toRemove.lookup outpoint))
    scoreOf (d.toAdd.lookup outpoint) = scores.1 ∧ scoreOf (d.toRemove.lookup outpoint) = scores.2 := by
  obtain ⟨added, removed⟩ := lookup_withDiffInPlace accepted outpoint
  rw [added, removed]
  simp only [withDiffScores, scoreOf_subtractCell, apply_ite scoreOf, scoreOf_none, ← isSome_scoreOf,
    scoreOf_intersectCell, and_self]

theorem drawn_lookup_diffFrom {cells : List (Option UTXOEntry)} {this other d : MutableUTXODiff}
    (accepted : diffFrom this other = .ok d) {outpoint : DomainOutpoint}
    (add1 : Drawn cells (this.toAdd.lookup outpoint)) (remove1 : Drawn cells (this.toRemove.lookup outpoint))
    (add2 : Drawn cells (other.toAdd.lookup outpoint))
    (remove2 : Drawn cells (other.toRemove.lookup outpoint)) :
    Drawn cells (d.toAdd.lookup outpoint) ∧ Drawn cells (d.toRemove.lookup outpoint) := by
  obtain ⟨added, removed⟩ := lookup_diffFrom accepted outpoint
  rw [added, removed]
  exact ⟨drawn_subtractCell _ add2 (drawn_subtractCell _ remove1 (drawn_none cells)),
    drawn_subtractCell _ remove2 (drawn_subtractCell _ add1 (drawn_none cells))⟩

theorem drawn_lookup_withDiffInPlace {cells : List (Option UTXOEntry)} {this other d : MutableUTXODiff}
    (accepted : withDiffInPlace this other = .ok d) {outpoint : DomainOutpoint}
    (add1 : Drawn cells (this.toAdd.lookup outpoint)) (remove1 : Drawn cells (this.toRemove.lookup outpoint))
    (add2 : Drawn cells (other.toAdd.lookup outpoint))
    (remove2 : Drawn cells (other.toRemove.lookup outpoint)) :
    Drawn cells (d.toAdd.lookup outpoint) ∧ Drawn cells (d.toRemove.lookup outpoint) := by
  obtain ⟨added, removed⟩ := lookup_withDiffInPlace accepted outpoint
  rw [added, removed]
  have removedDrawn := drawn_subtractCell (this.toAdd.lookup outpoint) remove2 remove1
  exact ⟨drawn_subtractCell _ add2 (drawn_ite _ add1), drawn_ite _ removedDrawn⟩

theorem diffFrom_accepts {this other : MutableUTXODiff}
    (first : ∀ outpoint u d, scoreOf (this.toRemove.lookup outpoint) = some u →
      scoreOf (other.toAdd.lookup outpoint) = some d →
        d ≠ u ∧ (scoreOf (this.toAdd.lookup outpoint) = some d ∨
          scoreOf (other.toRemove.lookup outpoint) = some u))
    (second : ∀ outpoint u d, scoreOf (this.toAdd.lookup outpoint) = some u →
      scoreOf (other.toRemove.lookup outpoint) = some d →
        d ≠ u ∧ (scoreOf (this.toRemove.lookup outpoint) = some d ∨
          scoreOf (other.toAdd.lookup outpoint) = some u))
    (third : ∀ outpoint u d, scoreOf (this.toRemove.lookup outpoint) = some u →
      scoreOf (other.toRemove.lookup outpoint) = some d → u = d)
    (fourth : ∀ outpoint, (intersectScore (scoreOf (this.toAdd.lookup outpoint))
        (scoreOf (other.toAdd.lookup outpoint)) none).isSome →
      ((scoreOf (this.toRemove.lookup outpoint)).isSome ↔
        (scoreOf (other.toRemove.lookup outpoint)).isSome)) :
    ∃ d, diffFrom this other = .ok d := by
  refine ⟨_, (diffFrom_eq_ok_iff this other _).mpr ⟨?_, ?_, ?_, ?_, rfl⟩⟩
  · rw [checkIntersectionWithRule_eq_none_iff]
    intro outpoint utxoEntry diffEntry removed added
    obtain ⟨differ, held⟩ := first outpoint _ _ (by rw [removed, scoreOf_some])
      (by rw [added, scoreOf_some])
    simp only [← containsWithDAAScore_eq_true_iff] at held
    rcases held with held | held <;> simp [isNotAddedOutputRemovedWithDAAScore, differ, held]
  · rw [checkIntersectionWithRule_eq_none_iff]
    intro outpoint utxoEntry diffEntry added removed
    obtain ⟨differ, held⟩ := second outpoint _ _ (by rw [added, scoreOf_some])
      (by rw [removed, scoreOf_some])
    simp only [← containsWithDAAScore_eq_true_iff] at held
    rcases held with held | held <;> simp [isNotRemovedOutputAddedWithDAAScore, differ, held]
  · rw [checkIntersectionWithRule_eq_none_iff]
    intro outpoint utxoEntry diffEntry removed1 removed2
    have same := third outpoint _ _ (by rw [removed1, scoreOf_some]) (by rw [removed2, scoreOf_some])
    simp [hasDifferentDAAScores, same]
  · -- the fourth check compares two searches over the outpoints both diffs add
    rw [Bool.eq_iff_iff, checkIntersection_eq_true_iff, checkIntersection_eq_true_iff]
    simp only [(lookup_subtractionWithRemainderHavingDAAScoreInPlace _ _ _ _ _).2, AList.lookup_empty,
      ← isSome_scoreOf, scoreOf_intersectCell, scoreOf_none]
    exact exists_congr fun outpoint => and_congr_right (fourth outpoint)

theorem withDiffInPlace_accepts {this other : MutableUTXODiff}
    (first : ∀ outpoint x y, scoreOf (other.toRemove.lookup outpoint) = some x →
      scoreOf (this.toRemove.lookup outpoint) = some y → scoreOf (this.toAdd.lookup outpoint) = some x)
    (second : ∀ outpoint x y, scoreOf (other.toAdd.lookup outpoint) = some x →
      scoreOf (this.toAdd.lookup outpoint) = some y → scoreOf (other.toRemove.lookup outpoint) = some y) :
    ∃ d, withDiffInPlace this other = .ok d := by
  refine ⟨_, (withDiffInPlace_eq_ok_iff this other _).mpr ⟨?_, ?_, rfl⟩⟩
  · rw [checkIntersectionWithRule_eq_none_iff]
    intro outpoint entryToAdd existingEntry removed2 removed1
    have added := first outpoint _ _ (by rw [removed2, scoreOf_some]) (by rw [removed1, scoreOf_some])
    simp [isRemovedWithoutThisAdding, (containsWithDAAScore_eq_true_iff _ _ _).mpr added]
  · rw [checkIntersectionWithRule_eq_none_iff]
    intro outpoint entryToAdd existingEntry added2 added1
    have removed := second outpoint _ _ (by rw [added2, scoreOf_some]) (by rw [added1, scoreOf_some])
    simp [isAddedWithoutOtherRemoving, (containsWithDAAScore_eq_true_iff _ _ _).mpr removed]

/-! ## Consistency, one outpoint at a time -/

def scoresAt (entries : Set (DomainOutpoint × UTXOEntry)) (outpoint : DomainOutpoint) : Set UInt64 :=
  {daaScore | ∃ utxoEntry, (outpoint, utxoEntry) ∈ entries ∧ utxoEntry.blockDAAScore = daaScore}

theorem mem_scoresAt_toSet (collection : UTXOCollection) (outpoint : DomainOutpoint)
    (daaScore : UInt64) :
    daaScore ∈ scoresAt collection.toSet outpoint ↔
      scoreOf (collection.lookup outpoint) = some daaScore := by
  rw [scoreOf_eq_some_iff]
  rfl

theorem mem_scoresAt_applyDiff (entries : Set (DomainOutpoint × UTXOEntry)) (diff : MutableUTXODiff)
    (outpoint : DomainOutpoint) (daaScore : UInt64) :
    daaScore ∈ scoresAt (applyDiff entries diff) outpoint ↔
      (daaScore ∈ scoresAt entries outpoint ∧
          scoreOf (diff.toRemove.lookup outpoint) ≠ some daaScore) ∨
        scoreOf (diff.toAdd.lookup outpoint) = some daaScore := by
  rw [scoreOf_eq_some_iff]
  constructor
  · rintro ⟨utxoEntry, ⟨member, notRemoved⟩ | added, rfl⟩
    · exact .inl ⟨⟨utxoEntry, member, rfl⟩,
        (containsWithDAAScore_eq_false_iff _ _ _).mp notRemoved⟩
    · exact .inr ⟨utxoEntry, added, rfl⟩
  · rintro (⟨⟨utxoEntry, member, rfl⟩, notRemoved⟩ | ⟨utxoEntry, added, rfl⟩)
    · exact ⟨utxoEntry, .inl ⟨member, (containsWithDAAScore_eq_false_iff _ _ _).mpr notRemoved⟩, rfl⟩
    · exact ⟨utxoEntry, .inr added, rfl⟩

section Consistency

variable {entries : Set (DomainOutpoint × UTXOEntry)} {diff : MutableUTXODiff}
  {outpoint : DomainOutpoint}

theorem ConsistentWith.removes (consistent : ConsistentWith entries diff) {daaScore : UInt64}
    (removed : scoreOf (diff.toRemove.lookup outpoint) = some daaScore) :
    daaScore ∈ scoresAt entries outpoint := by
  obtain ⟨utxoEntry, found, rfl⟩ := (scoreOf_eq_some_iff _ _).mp removed
  obtain ⟨baseEntry, member, same⟩ := consistent.1 outpoint utxoEntry found
  exact ⟨baseEntry, member, same⟩

theorem ConsistentWith.adds (consistent : ConsistentWith entries diff) {daaScore present : UInt64}
    (added : scoreOf (diff.toAdd.lookup outpoint) = some daaScore)
    (held : present ∈ scoresAt entries outpoint) :
    scoreOf (diff.toRemove.lookup outpoint) = some present := by
  obtain ⟨utxoEntry, found, -⟩ := (scoreOf_eq_some_iff _ _).mp added
  obtain ⟨baseEntry, member, rfl⟩ := held
  exact (containsWithDAAScore_eq_true_iff _ _ _).mp (consistent.2 outpoint utxoEntry found baseEntry member)

end Consistency

section OfBase

variable {base : UTXOCollection} {diff1 diff2 : MutableUTXODiff} (outpoint : DomainOutpoint)

theorem MutableUTXODiff.Normalized.scores (normal : diff1.Normalized) :
    ∀ s, scoreOf (diff1.toAdd.lookup outpoint) = some s →
      scoreOf (diff1.toRemove.lookup outpoint) ≠ some s := by
  intro daaScore added
  obtain ⟨utxoEntry, found, rfl⟩ := (scoreOf_eq_some_iff _ _).mp added
  exact (containsWithDAAScore_eq_false_iff _ _ _).mp (normal outpoint utxoEntry found)

theorem ConsistentWith.scores_toSet (consistent : ConsistentWith base.toSet diff1) :
    (∀ s, scoreOf (diff1.toRemove.lookup outpoint) = some s → scoreOf (base.lookup outpoint) = some s) ∧
      ∀ s t, scoreOf (diff1.toAdd.lookup outpoint) = some s → scoreOf (base.lookup outpoint) = some t →
        scoreOf (diff1.toRemove.lookup outpoint) = some t :=
  ⟨fun _ removed => (mem_scoresAt_toSet _ _ _).mp (consistent.removes removed),
    fun _ _ added present => consistent.adds added ((mem_scoresAt_toSet _ _ _).mpr present)⟩

theorem ConsistentWith.scores_applyDiff (consistent : ConsistentWith (applyDiff base.toSet diff1) diff2) :
    (∀ s, scoreOf (diff2.toRemove.lookup outpoint) = some s →
        (scoreOf (base.lookup outpoint) = some s ∧ scoreOf (diff1.toRemove.lookup outpoint) ≠ some s) ∨
          scoreOf (diff1.toAdd.lookup outpoint) = some s) ∧
      ∀ s t, scoreOf (diff2.toAdd.lookup outpoint) = some s →
        ((scoreOf (base.lookup outpoint) = some t ∧ scoreOf (diff1.toRemove.lookup outpoint) ≠ some t) ∨
          scoreOf (diff1.toAdd.lookup outpoint) = some t) →
        scoreOf (diff2.toRemove.lookup outpoint) = some t := by
  refine ⟨fun s removed => ?_, fun s t added present => consistent.adds added ?_⟩
  · have held := consistent.removes removed
    rwa [mem_scoresAt_applyDiff, mem_scoresAt_toSet] at held
  · rwa [mem_scoresAt_applyDiff, mem_scoresAt_toSet]

end OfBase

/-! ## Distinguished entries, and one-entry collections -/

/-- Collections whose entries are fixed by their outpoint and DAA score are
distinguished: an entry is the output the outpoint names, accepted by the
block the score names. -/
theorem entriesDistinguished_of_determined (entryOf : DomainOutpoint → UInt64 → UTXOEntry)
    (collections : List UTXOCollection)
    (determined : ∀ collection ∈ collections, ∀ outpoint utxoEntry,
      collection.lookup outpoint = some utxoEntry → utxoEntry = entryOf outpoint utxoEntry.blockDAAScore) :
    EntriesDistinguished collections := by
  intro outpoint cell1 member1 cell2 member2 utxoEntry1 utxoEntry2 found1 found2 same
  obtain ⟨collection1, held1, rfl⟩ := List.mem_map.mp member1
  obtain ⟨collection2, held2, rfl⟩ := List.mem_map.mp member2
  rw [determined collection1 held1 outpoint utxoEntry1 found1,
    determined collection2 held2 outpoint utxoEntry2 found2, same]

theorem lookup_add_empty (outpoint outpoint' : DomainOutpoint) (utxoEntry : UTXOEntry) :
    ((∅ : UTXOCollection).add outpoint utxoEntry).lookup outpoint' =
      if outpoint' = outpoint then some utxoEntry else none := by
  unfold UTXOCollection.add
  by_cases same : outpoint' = outpoint
  · subst same
    rw [AList.lookup_insert, if_pos rfl]
  · rw [AList.lookup_insert_ne same, AList.lookup_empty, if_neg same]

def outpoint0 : DomainOutpoint := ⟨zeroHash, 0⟩

/-- An entry of the examples below, paying `amount` to an empty script from
the block with DAA score `blockDAAScore`. -/
def entryWith (amount blockDAAScore : UInt64) : UTXOEntry := ⟨amount, ⟨[], 0⟩, blockDAAScore, false⟩

def singleEntry (utxoEntry : UTXOEntry) : UTXOCollection := (∅ : UTXOCollection).add outpoint0 utxoEntry

theorem lookup_singleEntry (utxoEntry : UTXOEntry) (outpoint : DomainOutpoint) :
    (singleEntry utxoEntry).lookup outpoint = if outpoint = outpoint0 then some utxoEntry else none :=
  lookup_add_empty _ _ _

theorem entriesDistinguished_entryWith (collections : List UTXOCollection)
    (shaped : ∀ collection ∈ collections, ∀ outpoint utxoEntry,
      collection.lookup outpoint = some utxoEntry → ∃ daaScore, utxoEntry = entryWith 1 daaScore) :
    EntriesDistinguished collections := by
  refine entriesDistinguished_of_determined (fun _ daaScore => entryWith 1 daaScore) collections ?_
  intro collection member outpoint utxoEntry found
  obtain ⟨daaScore, rfl⟩ := shaped collection member outpoint utxoEntry found
  rfl

theorem shaped_empty (outpoint : DomainOutpoint) (utxoEntry : UTXOEntry)
    (found : (∅ : UTXOCollection).lookup outpoint = some utxoEntry) :
    ∃ daaScore, utxoEntry = entryWith 1 daaScore := by
  rw [AList.lookup_empty] at found
  cases found

theorem shaped_singleEntry (daaScore : UInt64) (outpoint : DomainOutpoint) (utxoEntry : UTXOEntry)
    (found : (singleEntry (entryWith 1 daaScore)).lookup outpoint = some utxoEntry) :
    ∃ daaScore, utxoEntry = entryWith 1 daaScore := by
  rw [lookup_singleEntry] at found
  split_ifs at found
  exact ⟨daaScore, (Option.some.inj found).symm⟩

/-! ## `diffFrom` and `withDiff` undo each other -/

/-- For two diffs of one base that add no entry they remove, `diffFrom` and
then `withDiff` give back the second; for a diff of the base and a diff of
the base after it, `withDiff` and then `diffFrom` give back the second. -/
theorem diffFrom_withDiff_roundTrip (base : UTXOCollection) (this other : MutableUTXODiff)
    (distinguished :
      EntriesDistinguished [base, this.toAdd, this.toRemove, other.toAdd, other.toRemove])
    (normal1 : this.Normalized) (normal2 : other.Normalized)
    (consistent1 : ConsistentWith base.toSet this) :
    (ConsistentWith base.toSet other →
        ∃ d, diffFrom this other = .ok d ∧ ∃ w, withDiff this d = .ok w ∧ w.Equal other) ∧
      (ConsistentWith (applyDiff base.toSet this) other →
        ∃ w, withDiff this other = .ok w ∧ ∃ d, diffFrom this w = .ok d ∧ d.Equal other) := by
  -- every lookup below is drawn from the five collections at its outpoint
  have drawn : ∀ outpoint, ∀ collection ∈ [this.toAdd, this.toRemove, other.toAdd, other.toRemove],
      Drawn ([base, this.toAdd, this.toRemove, other.toAdd, other.toRemove].map (·.lookup outpoint))
        (collection.lookup outpoint) := by
    intro outpoint collection member
    exact drawn_of_mem (List.mem_map_of_mem (List.mem_cons_of_mem _ member))
  constructor
  · intro consistent2
    have cell := fun outpoint => diffFromScores_roundTrip _ _ _ _ _
      (normal1.scores outpoint) (normal2.scores outpoint)
      (consistent1.scores_toSet outpoint).1 (consistent1.scores_toSet outpoint).2
      (consistent2.scores_toSet outpoint).1 (consistent2.scores_toSet outpoint).2
    obtain ⟨d, accepted⟩ := diffFrom_accepts (fun outpoint => (cell outpoint).1)
      (fun outpoint => (cell outpoint).2.1) (fun outpoint => (cell outpoint).2.2.1)
      (fun outpoint => (cell outpoint).2.2.2.1)
    obtain ⟨w, combined⟩ := @withDiffInPlace_accepts this d
      (fun outpoint x y removed => by
        rw [(scoreOf_lookup_diffFrom accepted outpoint).2] at removed
        exact (cell outpoint).2.2.2.2.1 x y removed)
      (fun outpoint x y added => by
        rw [(scoreOf_lookup_diffFrom accepted outpoint).1] at added
        rw [(scoreOf_lookup_diffFrom accepted outpoint).2]
        exact (cell outpoint).2.2.2.2.2.1 x y added)
    refine ⟨d, accepted, w, combined, fun outpoint => ?_⟩
    have scores := scoreOf_lookup_withDiffInPlace combined outpoint
    rw [(scoreOf_lookup_diffFrom accepted outpoint).1, (scoreOf_lookup_diffFrom accepted outpoint).2,
      (cell outpoint).2.2.2.2.2.2] at scores
    have drawnD := drawn_lookup_diffFrom accepted (drawn outpoint _ (by simp))
      (drawn outpoint _ (by simp)) (drawn outpoint _ (by simp)) (drawn outpoint _ (by simp))
    have drawnW := drawn_lookup_withDiffInPlace combined (drawn outpoint _ (by simp))
      (drawn outpoint _ (by simp)) drawnD.1 drawnD.2
    exact ⟨eq_of_scoreOf_eq (distinguished outpoint) drawnW.1 (drawn outpoint _ (by simp)) scores.1,
      eq_of_scoreOf_eq (distinguished outpoint) drawnW.2 (drawn outpoint _ (by simp)) scores.2⟩
  · intro consistent2
    have compose := fun outpoint => withDiffScores_compose _ _ _ _ _
      (consistent1.scores_toSet outpoint).1 (consistent1.scores_toSet outpoint).2
      (consistent2.scores_applyDiff outpoint).1 (consistent2.scores_applyDiff outpoint).2
    have cell := fun outpoint => withDiffScores_roundTrip _ _ _ _ _
      (normal1.scores outpoint) (normal2.scores outpoint)
      (consistent1.scores_toSet outpoint).1 (consistent1.scores_toSet outpoint).2
      (consistent2.scores_applyDiff outpoint).1 (consistent2.scores_applyDiff outpoint).2
    obtain ⟨w, combined⟩ := withDiffInPlace_accepts (fun outpoint => (compose outpoint).1)
      (fun outpoint => (compose outpoint).2.1)
    have wScores := scoreOf_lookup_withDiffInPlace combined
    obtain ⟨d, accepted⟩ := @diffFrom_accepts this w
      (fun outpoint => by rw [(wScores outpoint).1, (wScores outpoint).2]; exact (cell outpoint).1)
      (fun outpoint => by rw [(wScores outpoint).1, (wScores outpoint).2]; exact (cell outpoint).2.1)
      (fun outpoint => by rw [(wScores outpoint).2]; exact (cell outpoint).2.2.1)
      (fun outpoint => by rw [(wScores outpoint).1, (wScores outpoint).2]; exact (cell outpoint).2.2.2.1)
    refine ⟨w, combined, d, accepted, fun outpoint => ?_⟩
    have scores := scoreOf_lookup_diffFrom accepted outpoint
    rw [(wScores outpoint).1, (wScores outpoint).2, (cell outpoint).2.2.2.2] at scores
    have drawnW := drawn_lookup_withDiffInPlace combined (drawn outpoint _ (by simp))
      (drawn outpoint _ (by simp)) (drawn outpoint _ (by simp)) (drawn outpoint _ (by simp))
    have drawnD := drawn_lookup_diffFrom accepted (drawn outpoint _ (by simp))
      (drawn outpoint _ (by simp)) drawnW.1 drawnW.2
    exact ⟨eq_of_scoreOf_eq (distinguished outpoint) drawnD.1 (drawn outpoint _ (by simp)) scores.1,
      eq_of_scoreOf_eq (distinguished outpoint) drawnD.2 (drawn outpoint _ (by simp)) scores.2⟩

/-- A diff of `singleEntry (entryWith 1 1)` that replaces its entry by one
from the block at DAA score 2. -/
def replaceOneDiff : MutableUTXODiff := ⟨singleEntry (entryWith 1 2), singleEntry (entryWith 1 1)⟩

def addBesideDiff : MutableUTXODiff := ⟨(∅ : UTXOCollection).add ⟨zeroHash, 1⟩ (entryWith 1 3), ∅⟩

theorem lookup_addBesideDiff {outpoint : DomainOutpoint} {utxoEntry : UTXOEntry}
    (found : addBesideDiff.toAdd.lookup outpoint = some utxoEntry) :
    outpoint = ⟨zeroHash, 1⟩ ∧ utxoEntry = entryWith 1 3 := by
  rw [addBesideDiff, lookup_add_empty] at found
  split_ifs at found with here
  exact ⟨here, (Option.some.inj found).symm⟩

/-- `addBesideDiff` removes nothing, so it is consistent with every base that
has no entry at the outpoint it adds. -/
theorem consistentWith_addBesideDiff {base : Set (DomainOutpoint × UTXOEntry)}
    (absent : ∀ baseEntry, ((⟨zeroHash, 1⟩ : DomainOutpoint), baseEntry) ∉ base) :
    ConsistentWith base addBesideDiff :=
  ⟨fun _ _ found => by simp [addBesideDiff] at found,
    fun _ _ found baseEntry inBase => by
      obtain ⟨rfl, -⟩ := lookup_addBesideDiff found
      exact absurd inBase (absent baseEntry)⟩

theorem diffFrom_withDiff_roundTrip_replaceOne :
    EntriesDistinguished [singleEntry (entryWith 1 1), replaceOneDiff.toAdd, replaceOneDiff.toRemove,
        addBesideDiff.toAdd, addBesideDiff.toRemove] ∧
      replaceOneDiff.Normalized ∧ addBesideDiff.Normalized ∧
      ConsistentWith (singleEntry (entryWith 1 1)).toSet replaceOneDiff ∧
      ConsistentWith (singleEntry (entryWith 1 1)).toSet addBesideDiff ∧
      ConsistentWith (applyDiff (singleEntry (entryWith 1 1)).toSet replaceOneDiff) addBesideDiff ∧
      (∃ d, diffFrom replaceOneDiff addBesideDiff = .ok d ∧
        ∃ w, withDiff replaceOneDiff d = .ok w ∧ w.Equal addBesideDiff) ∧
      (∃ w, withDiff replaceOneDiff addBesideDiff = .ok w ∧
        ∃ d, diffFrom replaceOneDiff w = .ok d ∧ d.Equal addBesideDiff) := by
  have distinguished : EntriesDistinguished [singleEntry (entryWith 1 1), replaceOneDiff.toAdd,
      replaceOneDiff.toRemove, addBesideDiff.toAdd, addBesideDiff.toRemove] := by
    refine entriesDistinguished_entryWith _ fun collection member => ?_
    simp only [List.mem_cons, List.not_mem_nil, or_false] at member
    rcases member with rfl | rfl | rfl | rfl | rfl
    · exact shaped_singleEntry 1
    · exact shaped_singleEntry 2
    · exact shaped_singleEntry 1
    · exact fun _ _ found => ⟨3, (lookup_addBesideDiff found).2⟩
    · exact shaped_empty
  have normal1 : replaceOneDiff.Normalized := fun outpoint utxoEntry found => by
    rw [replaceOneDiff, lookup_singleEntry] at found
    split_ifs at found with here
    cases found
    simp [replaceOneDiff, containsWithDAAScore_eq_false_iff, lookup_singleEntry, here, scoreOf, entryWith]
  have normal2 : addBesideDiff.Normalized := fun outpoint utxoEntry _ => by
    simp [addBesideDiff, UTXOCollection.containsWithDAAScore]
  have consistent1 : ConsistentWith (singleEntry (entryWith 1 1)).toSet replaceOneDiff :=
    ⟨fun _ utxoEntry found => ⟨utxoEntry, found, rfl⟩,
      fun outpoint _ _ baseEntry inBase => by
        have removed : replaceOneDiff.toRemove.lookup outpoint = some baseEntry := inBase
        rw [containsWithDAAScore_eq_true_iff, removed]
        rfl⟩
  have apart : (⟨zeroHash, 1⟩ : DomainOutpoint) ≠ outpoint0 := by decide
  have consistent2 : ConsistentWith (singleEntry (entryWith 1 1)).toSet addBesideDiff :=
    consistentWith_addBesideDiff fun baseEntry inBase => by
      have lookedUp : (singleEntry (entryWith 1 1)).lookup ⟨zeroHash, 1⟩ = some baseEntry := inBase
      rw [lookup_singleEntry, if_neg apart] at lookedUp
      cases lookedUp
  have consistent3 : ConsistentWith (applyDiff (singleEntry (entryWith 1 1)).toSet replaceOneDiff)
      addBesideDiff :=
    consistentWith_addBesideDiff fun baseEntry inApplied => by
      simp [applyDiff, UTXOCollection.toSet, replaceOneDiff, lookup_singleEntry, apart] at inApplied
  have roundTrip := diffFrom_withDiff_roundTrip (singleEntry (entryWith 1 1)) replaceOneDiff
    addBesideDiff distinguished normal1 normal2 consistent1
  exact ⟨distinguished, normal1, normal2, consistent1, consistent2, consistent3,
    roundTrip.1 consistent2, roundTrip.2 consistent3⟩

def addRemoveOneDiff : MutableUTXODiff := ⟨singleEntry (entryWith 1 1), singleEntry (entryWith 1 1)⟩

/-- Without a common base the round trip fails: from the empty diff,
`diffFrom` to a diff that adds and removes one entry returns that diff, and
`withDiff` then cancels the addition against the removal. -/
theorem diffFrom_withDiff_not_inverse :
    EntriesDistinguished [newMutableUTXODiff.toAdd, newMutableUTXODiff.toRemove,
        addRemoveOneDiff.toAdd, addRemoveOneDiff.toRemove] ∧
      ∃ d, diffFrom newMutableUTXODiff addRemoveOneDiff = .ok d ∧
        ∃ w, withDiff newMutableUTXODiff d = .ok w ∧ ¬w.Equal addRemoveOneDiff := by
  have distinguished : EntriesDistinguished [newMutableUTXODiff.toAdd, newMutableUTXODiff.toRemove,
      addRemoveOneDiff.toAdd, addRemoveOneDiff.toRemove] := by
    refine entriesDistinguished_entryWith _ fun collection member => ?_
    simp only [List.mem_cons, List.not_mem_nil, or_false] at member
    rcases member with rfl | rfl | rfl | rfl
    · exact shaped_empty
    · exact shaped_empty
    · exact shaped_singleEntry 1
    · exact shaped_singleEntry 1
  have empty : ∀ outpoint, scoreOf (newMutableUTXODiff.toAdd.lookup outpoint) = none ∧
      scoreOf (newMutableUTXODiff.toRemove.lookup outpoint) = none := fun outpoint => by
    simp [newMutableUTXODiff]
  obtain ⟨d, accepted⟩ := @diffFrom_accepts newMutableUTXODiff addRemoveOneDiff
    (fun outpoint u _ removed => by simp [(empty outpoint).2] at removed)
    (fun outpoint u _ added => by simp [(empty outpoint).1] at added)
    (fun outpoint u _ removed => by simp [(empty outpoint).2] at removed)
    (fun outpoint inBoth => by simp [(empty outpoint).1] at inBoth)
  obtain ⟨w, combined⟩ := @withDiffInPlace_accepts newMutableUTXODiff d
    (fun outpoint _ y _ removed => by simp [(empty outpoint).2] at removed)
    (fun outpoint _ y _ added => by simp [(empty outpoint).1] at added)
  refine ⟨distinguished, d, accepted, w, combined, fun equal => ?_⟩
  have added := (equal outpoint0).1
  rw [(lookup_withDiffInPlace combined outpoint0).1, (lookup_diffFrom accepted outpoint0).1,
    (lookup_diffFrom accepted outpoint0).2] at added
  simp [addRemoveOneDiff, newMutableUTXODiff, lookup_singleEntry, subtractCell, intersectCell] at added

/-! ## Composing diffs is applying them in turn -/

theorem mem_toSet (collection : UTXOCollection) (outpoint : DomainOutpoint) (utxoEntry : UTXOEntry) :
    (outpoint, utxoEntry) ∈ collection.toSet ↔ collection.lookup outpoint = some utxoEntry :=
  Iff.rfl

theorem mem_applyDiff (entries : Set (DomainOutpoint × UTXOEntry)) (diff : MutableUTXODiff)
    (outpoint : DomainOutpoint) (utxoEntry : UTXOEntry) :
    (outpoint, utxoEntry) ∈ applyDiff entries diff ↔
      ((outpoint, utxoEntry) ∈ entries ∧
          scoreOf (diff.toRemove.lookup outpoint) ≠ some utxoEntry.blockDAAScore) ∨
        diff.toAdd.lookup outpoint = some utxoEntry := by
  rw [← containsWithDAAScore_eq_false_iff]
  rfl

theorem withDiff_applyDiff_of_consistent (base : UTXOCollection) (diff1 diff2 : MutableUTXODiff)
    (distinguished :
      EntriesDistinguished [base, diff1.toAdd, diff1.toRemove, diff2.toAdd, diff2.toRemove])
    (consistent1 : ConsistentWith base.toSet diff1)
    (consistent2 : ConsistentWith (applyDiff base.toSet diff1) diff2) :
    ∃ combined, withDiff diff1 diff2 = .ok combined ∧
      applyDiff base.toSet combined = applyDiff (applyDiff base.toSet diff1) diff2 := by
  have compose := fun outpoint => withDiffScores_compose _ _ _ _ _
    (consistent1.scores_toSet outpoint).1 (consistent1.scores_toSet outpoint).2
    (consistent2.scores_applyDiff outpoint).1 (consistent2.scores_applyDiff outpoint).2
  obtain ⟨combined, accepted⟩ := withDiffInPlace_accepts (fun outpoint => (compose outpoint).1)
    (fun outpoint => (compose outpoint).2.1)
  refine ⟨combined, accepted, Set.ext fun ⟨outpoint, utxoEntry⟩ => ?_⟩
  simp only [mem_applyDiff, mem_toSet]
  let cells := [base, diff1.toAdd, diff1.toRemove, diff2.toAdd, diff2.toRemove].map (·.lookup outpoint)
  have drawn : ∀ collection ∈ [base, diff1.toAdd, diff1.toRemove, diff2.toAdd, diff2.toRemove],
      Drawn cells (collection.lookup outpoint) :=
    fun _ member => drawn_of_mem (List.mem_map_of_mem member)
  have drawnCombined := drawn_lookup_withDiffInPlace accepted (drawn _ (by simp)) (drawn _ (by simp))
    (drawn _ (by simp)) (drawn _ (by simp))
  by_cases held : ∃ source ∈ cells, source = some utxoEntry
  · -- an entry of the five collections is held exactly where its score is
    rw [eq_some_iff_scoreOf (distinguished outpoint) (drawn base (by simp)) held,
      eq_some_iff_scoreOf (distinguished outpoint) (drawn diff1.toAdd (by simp)) held,
      eq_some_iff_scoreOf (distinguished outpoint) (drawn diff2.toAdd (by simp)) held,
      eq_some_iff_scoreOf (distinguished outpoint) drawnCombined.1 held,
      (scoreOf_lookup_withDiffInPlace accepted outpoint).1,
      (scoreOf_lookup_withDiffInPlace accepted outpoint).2]
    exact (compose outpoint).2.2 utxoEntry.blockDAAScore
  · -- an entry held nowhere is on neither side
    have absent : ∀ collection ∈ [base, diff1.toAdd, diff1.toRemove, diff2.toAdd, diff2.toRemove],
        collection.lookup outpoint ≠ some utxoEntry :=
      fun collection member found => held ⟨_, List.mem_map_of_mem member, found⟩
    have absentCombined : combined.toAdd.lookup outpoint ≠ some utxoEntry :=
      fun found => held (drawnCombined.1 utxoEntry found)
    simp [absent base (by simp), absent diff1.toAdd (by simp), absent diff2.toAdd (by simp),
      absentCombined]

/-! ## Iterating through diffs -/

def UTXOSetIterator.entrySet (iterator : UTXOSetIterator) : Set (DomainOutpoint × UTXOEntry) :=
  {pair | pair ∈ iterator.entries}

theorem mem_entries_map (collection : UTXOCollection) (pair : DomainOutpoint × UTXOEntry) :
    pair ∈ collection.entries.map (fun entry => (entry.1, entry.2)) ↔
      collection.lookup pair.1 = some pair.2 := by
  rw [List.mem_map]
  constructor
  · rintro ⟨entry, member, rfl⟩
    exact AList.mem_lookup_iff.mpr member
  · intro found
    exact ⟨⟨pair.1, pair.2⟩, AList.mem_lookup_iff.mp found, rfl⟩

theorem entrySet_collection (collection : UTXOCollection) :
    (UTXOSetIterator.collection collection).entrySet = collection.toSet :=
  Set.ext fun pair => mem_entries_map collection pair

theorem entrySet_withDiff (baseIterator : UTXOSetIterator) (diff : MutableUTXODiff) :
    (UTXOSetIterator.withDiff baseIterator diff).entrySet = applyDiff baseIterator.entrySet diff := by
  ext pair
  simp only [UTXOSetIterator.entrySet, UTXOSetIterator.entries, applyDiff, Set.mem_ofPred_eq,
    List.mem_append, List.mem_filter, mem_entries_map, Bool.not_eq_eq_eq_not, Bool.not_true]

/-- For diffs each consistent with the set it applies to, `withDiff`
succeeds and applies as the two diffs in turn, and so does an iterator with
the two diffs, which `IteratorWithDiff` flattens into one. -/
theorem withDiff_applyDiff (base : UTXOCollection) (diff1 diff2 : MutableUTXODiff)
    (distinguished :
      EntriesDistinguished [base, diff1.toAdd, diff1.toRemove, diff2.toAdd, diff2.toRemove])
    (consistent1 : ConsistentWith base.toSet diff1)
    (consistent2 : ConsistentWith (applyDiff base.toSet diff1) diff2) :
    ∃ combined, withDiff diff1 diff2 = .ok combined ∧
      applyDiff base.toSet combined = applyDiff (applyDiff base.toSet diff1) diff2 ∧
      ∃ iterator, (iteratorWithDiff (.collection base) diff1 >>= fun inner =>
          iteratorWithDiff inner diff2) = .ok iterator ∧
        iterator.entrySet = applyDiff (applyDiff base.toSet diff1) diff2 := by
  obtain ⟨combined, accepted, applied⟩ :=
    withDiff_applyDiff_of_consistent base diff1 diff2 distinguished consistent1 consistent2
  refine ⟨combined, accepted, applied, .withDiff (.collection base) combined, ?_, ?_⟩
  · -- the second call finds an iterator with a diff and composes the two diffs
    show (withDiff diff1 diff2 >>= fun combinedDiff =>
      iteratorWithDiff (.collection base) combinedDiff) = _
    rw [accepted]
    rfl
  · rw [entrySet_withDiff, entrySet_collection, applied]

def replaceDiff : MutableUTXODiff := ⟨singleEntry (entryWith 1 2), singleEntry (entryWith 1 1)⟩

def spendDiff : MutableUTXODiff := ⟨∅, singleEntry (entryWith 1 2)⟩

theorem withDiff_applyDiff_replaceThenSpend :
    EntriesDistinguished [singleEntry (entryWith 1 1), replaceDiff.toAdd, replaceDiff.toRemove,
        spendDiff.toAdd, spendDiff.toRemove] ∧
      ConsistentWith (singleEntry (entryWith 1 1)).toSet replaceDiff ∧
      ConsistentWith (applyDiff (singleEntry (entryWith 1 1)).toSet replaceDiff) spendDiff ∧
      ∃ combined, withDiff replaceDiff spendDiff = .ok combined ∧
        applyDiff (singleEntry (entryWith 1 1)).toSet combined =
          applyDiff (applyDiff (singleEntry (entryWith 1 1)).toSet replaceDiff) spendDiff ∧
        ∃ iterator, (iteratorWithDiff (.collection (singleEntry (entryWith 1 1))) replaceDiff >>=
            fun inner => iteratorWithDiff inner spendDiff) = .ok iterator ∧
          iterator.entrySet =
            applyDiff (applyDiff (singleEntry (entryWith 1 1)).toSet replaceDiff) spendDiff := by
  have distinguished : EntriesDistinguished [singleEntry (entryWith 1 1), replaceDiff.toAdd,
      replaceDiff.toRemove, spendDiff.toAdd, spendDiff.toRemove] := by
    refine entriesDistinguished_entryWith _ fun collection member => ?_
    simp only [List.mem_cons, List.not_mem_nil, or_false] at member
    rcases member with rfl | rfl | rfl | rfl | rfl
    · exact shaped_singleEntry 1
    · exact shaped_singleEntry 2
    · exact shaped_singleEntry 1
    · exact shaped_empty
    · exact shaped_singleEntry 2
  have consistent1 : ConsistentWith (singleEntry (entryWith 1 1)).toSet replaceDiff := by
    refine ⟨fun outpoint utxoEntry found => ?_, fun outpoint utxoEntry found baseEntry member => ?_⟩
    · simp only [replaceDiff, lookup_singleEntry] at found
      split_ifs at found with atOutpoint
      cases found
      exact ⟨entryWith 1 1, by rw [mem_toSet, lookup_singleEntry, if_pos atOutpoint], rfl⟩
    · rw [mem_toSet, lookup_singleEntry] at member
      split_ifs at member with atOutpoint
      cases member
      rw [containsWithDAAScore_eq_true_iff, replaceDiff, lookup_singleEntry, if_pos atOutpoint]
      rfl
  have consistent2 : ConsistentWith (applyDiff (singleEntry (entryWith 1 1)).toSet replaceDiff)
      spendDiff := by
    refine ⟨fun outpoint utxoEntry found => ?_, fun outpoint utxoEntry found => ?_⟩
    · simp only [spendDiff, lookup_singleEntry] at found
      split_ifs at found with atOutpoint
      cases found
      refine ⟨entryWith 1 2, (mem_applyDiff _ _ _ _).mpr (.inr ?_), rfl⟩
      rw [replaceDiff, lookup_singleEntry, if_pos atOutpoint]
    · simp [spendDiff] at found
  exact ⟨distinguished, consistent1, consistent2,
    withDiff_applyDiff _ replaceDiff spendDiff distinguished consistent1 consistent2⟩

/-- The diff replacing `entryWith 1 1` at `outpoint0` by `entryWith 2 1`, an
entry with the same DAA score. -/
def replaceSameScoreDiff : MutableUTXODiff :=
  ⟨singleEntry (entryWith 2 1), singleEntry (entryWith 1 1)⟩

/-- Without entries told apart by their score, composing is not applying in
turn: `withDiff` cancels the new entry against the removal of the old one,
which has the same DAA score, and the composed diff keeps the old entry. -/
theorem withDiff_applyDiff_same_score :
    ConsistentWith (singleEntry (entryWith 1 1)).toSet newMutableUTXODiff ∧
      ConsistentWith (applyDiff (singleEntry (entryWith 1 1)).toSet newMutableUTXODiff)
        replaceSameScoreDiff ∧
      ∃ combined, withDiff newMutableUTXODiff replaceSameScoreDiff = .ok combined ∧
        applyDiff (singleEntry (entryWith 1 1)).toSet combined ≠
          applyDiff (applyDiff (singleEntry (entryWith 1 1)).toSet newMutableUTXODiff)
            replaceSameScoreDiff := by
  have consistent1 : ConsistentWith (singleEntry (entryWith 1 1)).toSet newMutableUTXODiff :=
    ⟨fun outpoint utxoEntry found => absurd found (by simp [newMutableUTXODiff]),
      fun outpoint utxoEntry found => absurd found (by simp [newMutableUTXODiff])⟩
  have consistent2 : ConsistentWith (applyDiff (singleEntry (entryWith 1 1)).toSet newMutableUTXODiff)
      replaceSameScoreDiff := by
    refine ⟨fun outpoint utxoEntry found => ?_, fun outpoint utxoEntry found baseEntry member => ?_⟩
    · simp only [replaceSameScoreDiff, lookup_singleEntry] at found
      split_ifs at found with atOutpoint
      cases found
      refine ⟨entryWith 1 1, (mem_applyDiff _ _ _ _).mpr (.inl ⟨?_, by simp [newMutableUTXODiff]⟩), rfl⟩
      rw [mem_toSet, lookup_singleEntry, if_pos atOutpoint]
    · simp only [replaceSameScoreDiff, lookup_singleEntry] at found
      split_ifs at found with atOutpoint
      rw [containsWithDAAScore_eq_true_iff, replaceSameScoreDiff, lookup_singleEntry, if_pos atOutpoint]
      rw [mem_applyDiff, mem_toSet, lookup_singleEntry, if_pos atOutpoint] at member
      simp only [newMutableUTXODiff, AList.lookup_empty, reduceCtorEq, or_false] at member
      rw [Option.some.inj member.1]
      rfl
  obtain ⟨combined, accepted⟩ := @withDiffInPlace_accepts newMutableUTXODiff replaceSameScoreDiff
    (fun outpoint _ y _ removed => by simp [newMutableUTXODiff] at removed)
    (fun outpoint _ y _ added => by simp [newMutableUTXODiff] at added)
  refine ⟨consistent1, consistent2, combined, accepted, fun same => ?_⟩
  have kept : (outpoint0, entryWith 1 1) ∈ applyDiff (singleEntry (entryWith 1 1)).toSet combined := by
    rw [mem_applyDiff, mem_toSet, (lookup_withDiffInPlace accepted outpoint0).2]
    simp [replaceSameScoreDiff, newMutableUTXODiff, lookup_singleEntry, subtractCell, intersectCell,
      entryWith]
  rw [same, mem_applyDiff, mem_applyDiff] at kept
  simp [replaceSameScoreDiff, newMutableUTXODiff, lookup_singleEntry, entryWith] at kept

end Cryptixd.Utxo

