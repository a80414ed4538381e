import Mathlib
import Cryptixd.Atomic.Types
import Cryptixd.Lib.MapSum

/-!
# UTXO diffs and their algebra

`utxo/diff_algebra.go`: a UTXO diff is a pair of collections, the entries it
adds and the entries it removes, each a map from outpoint to entry.  An entry
is told apart from another at the same outpoint by its DAA score
(`containsWithDAAScore`).  `withDiff` composes two diffs (first `this`, then
`other`), `diffFrom` computes the diff leading from one diff to another of the
same base; both refuse, with an error, combinations that no common base can
produce.

Every operation is a pass over the entries of a collection whose step at an
outpoint touches only that outpoint.  The lookup lemmas below read each
operation at one outpoint (`AList.observe_foldl_entries`), as a function of
the lookups of its arguments there (the `…Cell` functions); the error checks
are read as "some outpoint fails the rule".  The properties of the algebra are
then proved one outpoint at a time in `Cryptixd.Utxo.DiffSpec`.
-/

set_option autoImplicit false

namespace Cryptixd.Utxo

open Cryptixd.Atomic

abbrev UTXOCollection := Map DomainOutpoint UTXOEntry

structure MutableUTXODiff where
  toAdd : UTXOCollection
  toRemove : UTXOCollection

def newMutableUTXODiff : MutableUTXODiff := ⟨∅, ∅⟩

/-! ## Collections -/

def cellContains (cell : Option UTXOEntry) (daaScore : UInt64) : Bool :=
  match cell with
  | some utxoEntry => utxoEntry.blockDAAScore == daaScore
  | none => false

@[simp] theorem cellContains_none (daaScore : UInt64) : cellContains none daaScore = false := rfl

@[simp] theorem cellContains_some (utxoEntry : UTXOEntry) (daaScore : UInt64) :
    cellContains (some utxoEntry) daaScore = (utxoEntry.blockDAAScore == daaScore) := rfl

namespace UTXOCollection

def containsWithDAAScore (collection : UTXOCollection) (outpoint : DomainOutpoint)
    (daaScore : UInt64) : Bool :=
  cellContains (collection.lookup outpoint) daaScore

def contains (collection : UTXOCollection) (outpoint : DomainOutpoint) : Bool :=
  (collection.lookup outpoint).isSome

def add (collection : UTXOCollection) (outpoint : DomainOutpoint) (utxoEntry : UTXOEntry) :
    UTXOCollection :=
  collection.insert outpoint utxoEntry

def removeMultiple (collection toRemove : UTXOCollection) : UTXOCollection :=
  toRemove.entries.foldl (fun collection entry => collection.erase entry.1) collection

end UTXOCollection

def checkIntersection (collection1 collection2 : UTXOCollection) : Bool :=
  collection1.entries.any fun entry => collection2.contains entry.1

def checkIntersectionWithRule (collection1 collection2 : UTXOCollection)
    (extraRule : DomainOutpoint → UTXOEntry → UTXOEntry → Bool) : Option DomainOutpoint :=
  collection1.entries.findSome? fun entry =>
    match collection2.lookup entry.1 with
    | some diffEntry => if extraRule entry.1 entry.2 diffEntry then some entry.1 else none
    | none => none

/-- The loop shared by the three in-place helpers: every entry of
`collection1` goes to `matched` when `collection2` holds its outpoint with its
DAA score, and to `unmatched` otherwise. -/
def partitionHavingDAAScore (collection1 collection2 matched unmatched : UTXOCollection) :
    UTXOCollection × UTXOCollection :=
  collection1.entries.foldl (fun (acc : UTXOCollection × UTXOCollection) entry =>
    if collection2.containsWithDAAScore entry.1 entry.2.blockDAAScore then
      (acc.1.add entry.1 entry.2, acc.2)
    else (acc.1, acc.2.add entry.1 entry.2)) (matched, unmatched)

def intersectionWithRemainderHavingDAAScoreInPlace
    (collection1 collection2 result remainder : UTXOCollection) : UTXOCollection × UTXOCollection :=
  partitionHavingDAAScore collection1 collection2 result remainder

def subtractionWithRemainderHavingDAAScoreInPlace
    (collection1 collection2 result remainder : UTXOCollection) : UTXOCollection × UTXOCollection :=
  (partitionHavingDAAScore collection1 collection2 remainder result).swap

def subtractionHavingDAAScoreInPlace (collection1 collection2 result : UTXOCollection) :
    UTXOCollection :=
  (partitionHavingDAAScore collection1 collection2 ∅ result).2

/-! ## `diffFrom` and `withDiff` -/

/-- The rule of the first check of `diffFrom`: an outpoint in `this.toRemove`
and `other.toAdd` is an error unless the two entries differ in DAA score and
`this.toAdd` or `other.toRemove` holds the other one. -/
def isNotAddedOutputRemovedWithDAAScore (this other : MutableUTXODiff) (outpoint : DomainOutpoint)
    (utxoEntry diffEntry : UTXOEntry) : Bool :=
  !(diffEntry.blockDAAScore != utxoEntry.blockDAAScore &&
    (this.toAdd.containsWithDAAScore outpoint diffEntry.blockDAAScore ||
      other.toRemove.containsWithDAAScore outpoint utxoEntry.blockDAAScore))

def isNotRemovedOutputAddedWithDAAScore (this other : MutableUTXODiff) (outpoint : DomainOutpoint)
    (utxoEntry diffEntry : UTXOEntry) : Bool :=
  !(diffEntry.blockDAAScore != utxoEntry.blockDAAScore &&
    (this.toRemove.containsWithDAAScore outpoint diffEntry.blockDAAScore ||
      other.toAdd.containsWithDAAScore outpoint utxoEntry.blockDAAScore))

def hasDifferentDAAScores (_outpoint : DomainOutpoint) (utxoEntry diffEntry : UTXOEntry) : Bool :=
  utxoEntry.blockDAAScore != diffEntry.blockDAAScore

def diffFrom (this other : MutableUTXODiff) : Except String MutableUTXODiff := do
  if let some offendingOutpoint := checkIntersectionWithRule this.toRemove other.toAdd
      (isNotAddedOutputRemovedWithDAAScore this other) then
    throw ("diffFrom: outpoint " ++ offendingOutpoint.toText ++
      " both in this.toAdd and in other.toRemove")
  if let some offendingOutpoint := checkIntersectionWithRule this.toAdd other.toRemove
      (isNotRemovedOutputAddedWithDAAScore this other) then
    throw ("diffFrom: outpoint " ++ offendingOutpoint.toText ++
      " both in this.toRemove and in other.toAdd")
  if let some offendingOutpoint :=
      checkIntersectionWithRule this.toRemove other.toRemove hasDifferentDAAScores then
    throw ("diffFrom: outpoint " ++ offendingOutpoint.toText ++
      " both in this.toRemove and other.toRemove with different " ++
      "DAA scores, with no corresponding entry in this.toAdd")
  let (resultToRemove, inBothToAdd) :=
    subtractionWithRemainderHavingDAAScoreInPlace this.toAdd other.toAdd ∅ ∅
  if checkIntersection inBothToAdd this.toRemove != checkIntersection inBothToAdd other.toRemove then
    throw ("diffFrom: outpoint both in this.toAdd, other.toAdd, and only one of " ++
      "this.toRemove and other.toRemove")
  let resultToRemove := subtractionHavingDAAScoreInPlace other.toRemove this.toRemove resultToRemove
  let resultToAdd := subtractionHavingDAAScoreInPlace this.toRemove other.toRemove ∅
  let resultToAdd := subtractionHavingDAAScoreInPlace other.toAdd this.toAdd resultToAdd
  return ⟨resultToAdd, resultToRemove⟩

/-- The rule of the first check of `withDiffInPlace`: an outpoint both diffs
remove is an error unless `this` added the entry `other` removes. -/
def isRemovedWithoutThisAdding (this : MutableUTXODiff) (outpoint : DomainOutpoint)
    (entryToAdd _existingEntry : UTXOEntry) : Bool :=
  !this.toAdd.containsWithDAAScore outpoint entryToAdd.blockDAAScore

def isAddedWithoutOtherRemoving (other : MutableUTXODiff) (outpoint : DomainOutpoint)
    (_entryToAdd existingEntry : UTXOEntry) : Bool :=
  !other.toRemove.containsWithDAAScore outpoint existingEntry.blockDAAScore

/-- `withDiffInPlace`, returning the diff it leaves in `this`.  Both checks
come before the first write, so a failing call leaves `this` as it was. -/
def withDiffInPlace (this other : MutableUTXODiff) : Except String MutableUTXODiff := do
  if let some offendingOutpoint := checkIntersectionWithRule other.toRemove this.toRemove
      (isRemovedWithoutThisAdding this) then
    throw ("withDiffInPlace: outpoint " ++ offendingOutpoint.toText ++
      " both in this.toRemove and in other.toRemove")
  if let some offendingOutpoint := checkIntersectionWithRule other.toAdd this.toAdd
      (isAddedWithoutOtherRemoving other) then
    throw ("withDiffInPlace: outpoint " ++ offendingOutpoint.toText ++
      " both in this.toAdd and in other.toAdd")
  -- a removal of an entry `this` added cancels it; any other removal is kept
  let (intersection, toRemove) :=
    intersectionWithRemainderHavingDAAScoreInPlace other.toRemove this.toAdd ∅ this.toRemove
  let toAdd := this.toAdd.removeMultiple intersection
  let (intersection, toAdd) :=
    intersectionWithRemainderHavingDAAScoreInPlace other.toAdd toRemove ∅ toAdd
  let toRemove := toRemove.removeMultiple intersection
  return ⟨toAdd, toRemove⟩

def withDiff (this diff : MutableUTXODiff) : Except String MutableUTXODiff :=
  withDiffInPlace this diff

/-! ## One outpoint at a time -/

/-- At one outpoint, what a subtraction pass writes: the entry of the first
collection when the second lacks it with that DAA score, else `fallback`, what
was there. -/
def subtractCell (cell1 cell2 fallback : Option UTXOEntry) : Option UTXOEntry :=
  match cell1 with
  | some utxoEntry => if cellContains cell2 utxoEntry.blockDAAScore then fallback else some utxoEntry
  | none => fallback

/-- At one outpoint, what an intersection pass writes: the entry of the first
collection when the second holds it with that DAA score, else `fallback`. -/
def intersectCell (cell1 cell2 fallback : Option UTXOEntry) : Option UTXOEntry :=
  match cell1 with
  | some utxoEntry => if cellContains cell2 utxoEntry.blockDAAScore then some utxoEntry else fallback
  | none => fallback

theorem lookup_partitionHavingDAAScore (collection1 collection2 matched unmatched : UTXOCollection)
    (outpoint : DomainOutpoint) :
    ((partitionHavingDAAScore collection1 collection2 matched unmatched).1.lookup outpoint,
        (partitionHavingDAAScore collection1 collection2 matched unmatched).2.lookup outpoint) =
      (intersectCell (collection1.lookup outpoint) (collection2.lookup outpoint)
          (matched.lookup outpoint),
        subtractCell (collection1.lookup outpoint) (collection2.lookup outpoint)
          (unmatched.lookup outpoint)) := by
  unfold partitionHavingDAAScore
  refine (AList.observe_foldl_entries (fun acc => (acc.1.lookup outpoint, acc.2.lookup outpoint))
    outpoint _ (fun utxoEntry seen =>
      if cellContains (collection2.lookup outpoint) utxoEntry.blockDAAScore then
        (some utxoEntry, seen.2)
      else (seen.1, some utxoEntry)) ?_ ?_ collection1 (matched, unmatched)).trans ?_
  · -- a step at another outpoint writes elsewhere
    intro acc entry other
    by_cases found : collection2.containsWithDAAScore entry.1 entry.2.blockDAAScore = true <;>
      simp [found, UTXOCollection.add, AList.lookup_insert_ne (Ne.symm other)]
  · intro acc utxoEntry
    by_cases found : cellContains (collection2.lookup outpoint) utxoEntry.blockDAAScore = true <;>
      simp [found, UTXOCollection.add, UTXOCollection.containsWithDAAScore]
  · -- read the one entry at the outpoint, if any
    cases collection1.lookup outpoint with
    | none => rfl
    | some utxoEntry =>
      simp only [intersectCell, subtractCell]
      split_ifs <;> rfl

theorem lookup_subtractionHavingDAAScoreInPlace (collection1 collection2 result : UTXOCollection)
    (outpoint : DomainOutpoint) :
    (subtractionHavingDAAScoreInPlace collection1 collection2 result).lookup outpoint =
      subtractCell (collection1.lookup outpoint) (collection2.lookup outpoint)
        (result.lookup outpoint) :=
  congrArg Prod.snd (lookup_partitionHavingDAAScore collection1 collection2 ∅ result outpoint)

theorem lookup_subtractionWithRemainderHavingDAAScoreInPlace
    (collection1 collection2 result remainder : UTXOCollection) (outpoint : DomainOutpoint) :
    (subtractionWithRemainderHavingDAAScoreInPlace collection1 collection2 result remainder).1.lookup
        outpoint =
      subtractCell (collection1.lookup outpoint) (collection2.lookup outpoint)
        (result.lookup outpoint) ∧
    (subtractionWithRemainderHavingDAAScoreInPlace collection1 collection2 result remainder).2.lookup
        outpoint =
      intersectCell (collection1.lookup outpoint) (collection2.lookup outpoint)
        (remainder.lookup outpoint) := by
  have cell := lookup_partitionHavingDAAScore collection1 collection2 remainder result outpoint
  simp only [Prod.mk.injEq] at cell
  exact ⟨cell.2, cell.1⟩

theorem lookup_intersectionWithRemainderHavingDAAScoreInPlace
    (collection1 collection2 result remainder : UTXOCollection) (outpoint : DomainOutpoint) :
    (intersectionWithRemainderHavingDAAScoreInPlace collection1 collection2 result remainder).1.lookup
        outpoint =
      intersectCell (collection1.lookup outpoint) (collection2.lookup outpoint)
        (result.lookup outpoint) ∧
    (intersectionWithRemainderHavingDAAScoreInPlace collection1 collection2 result remainder).2.lookup
        outpoint =
      subtractCell (collection1.lookup outpoint) (collection2.lookup outpoint)
        (remainder.lookup outpoint) := by
  have cell := lookup_partitionHavingDAAScore collection1 collection2 result remainder outpoint
  simp only [Prod.mk.injEq] at cell
  exact cell

theorem lookup_removeMultiple (collection toRemove : UTXOCollection) (outpoint : DomainOutpoint) :
    (collection.removeMultiple toRemove).lookup outpoint =
      if (toRemove.lookup outpoint).isSome then none else collection.lookup outpoint := by
  unfold UTXOCollection.removeMultiple
  refine (AList.observe_foldl_entries (fun acc => acc.lookup outpoint) outpoint _
    (fun _ _ => none) ?_ ?_ toRemove collection).trans ?_
  · intro acc entry other
    exact AList.lookup_erase_ne (Ne.symm other)
  · intro acc _
    exact AList.lookup_erase outpoint acc
  · cases toRemove.lookup outpoint <;> rfl

theorem checkIntersectionWithRule_eq_none_iff (collection1 collection2 : UTXOCollection)
    (extraRule : DomainOutpoint → UTXOEntry → UTXOEntry → Bool) :
    checkIntersectionWithRule collection1 collection2 extraRule = none ↔
      ∀ outpoint utxoEntry diffEntry, collection1.lookup outpoint = some utxoEntry →
        collection2.lookup outpoint = some diffEntry → extraRule outpoint utxoEntry diffEntry = false := by
  unfold checkIntersectionWithRule
  rw [List.findSome?_eq_none_iff]
  constructor
  · intro none outpoint utxoEntry diffEntry first second
    have quiet := none ⟨outpoint, utxoEntry⟩ (AList.mem_lookup_iff.mp first)
    simp only [second] at quiet
    simpa using quiet
  · intro rule entry member
    have first : collection1.lookup entry.1 = some entry.2 := AList.mem_lookup_iff.mpr member
    cases second : collection2.lookup entry.1 with
    | none => rfl
    | some diffEntry => simp [rule _ _ _ first second]

theorem checkIntersection_eq_true_iff (collection1 collection2 : UTXOCollection) :
    checkIntersection collection1 collection2 = true ↔
      ∃ outpoint, (collection1.lookup outpoint).isSome ∧ (collection2.lookup outpoint).isSome := by
  unfold checkIntersection UTXOCollection.contains
  rw [List.any_eq_true]
  constructor
  · rintro ⟨entry, member, present⟩
    exact ⟨entry.1, by rw [AList.mem_lookup_iff.mpr member]; rfl, present⟩
  · rintro ⟨outpoint, first, second⟩
    obtain ⟨utxoEntry, found⟩ := Option.isSome_iff_exists.mp first
    exact ⟨⟨outpoint, utxoEntry⟩, AList.mem_lookup_iff.mp found, second⟩

/-! ## The two operations, read -/

theorem diffFrom_eq_ok_iff (this other d : MutableUTXODiff) :
    diffFrom this other = .ok d ↔
      checkIntersectionWithRule this.toRemove other.toAdd
          (isNotAddedOutputRemovedWithDAAScore this other) = none ∧
        checkIntersectionWithRule this.toAdd other.toRemove
          (isNotRemovedOutputAddedWithDAAScore this other) = none ∧
        checkIntersectionWithRule this.toRemove other.toRemove hasDifferentDAAScores = none ∧
        checkIntersection (subtractionWithRemainderHavingDAAScoreInPlace this.toAdd other.toAdd ∅ ∅).2
            this.toRemove =
          checkIntersection (subtractionWithRemainderHavingDAAScoreInPlace this.toAdd other.toAdd ∅ ∅).2
            other.toRemove ∧
        ⟨subtractionHavingDAAScoreInPlace other.toAdd this.toAdd
              (subtractionHavingDAAScoreInPlace this.toRemove other.toRemove ∅),
            subtractionHavingDAAScoreInPlace other.toRemove this.toRemove
              (subtractionWithRemainderHavingDAAScoreInPlace this.toAdd other.toAdd ∅ ∅).1⟩ = d := by
  unfold diffFrom
  cases checkIntersectionWithRule this.toRemove other.toAdd
    (isNotAddedOutputRemovedWithDAAScore this other) with
  | some first => simp only [reduceCtorEq, false_and, iff_false]; exact nofun
  | none =>
  cases checkIntersectionWithRule this.toAdd other.toRemove
    (isNotRemovedOutputAddedWithDAAScore this other) with
  | some second => simp only [reduceCtorEq, false_and, and_false, iff_false]; exact nofun
  | none =>
  cases checkIntersectionWithRule this.toRemove other.toRemove hasDifferentDAAScores with
  | some third => simp only [reduceCtorEq, false_and, and_false, iff_false]; exact nofun
  | none =>
  simp only [true_and]
  by_cases same : checkIntersection (subtractionWithRemainderHavingDAAScoreInPlace this.toAdd
      other.toAdd ∅ ∅).2 this.toRemove = checkIntersection
      (subtractionWithRemainderHavingDAAScoreInPlace this.toAdd other.toAdd ∅ ∅).2 other.toRemove
  · rw [if_neg (by simp [same])]
    simp only [same, true_and]
    exact ⟨fun accepted => Except.ok.inj accepted, fun built => built ▸ rfl⟩
  · rw [if_pos (by simpa using same)]
    simp only [same, false_and, iff_false]
    exact nofun


theorem withDiffInPlace_eq_ok_iff (this other d : MutableUTXODiff) :
    withDiffInPlace this other = .ok d ↔
      checkIntersectionWithRule other.toRemove this.toRemove (isRemovedWithoutThisAdding this) =
          none ∧
        checkIntersectionWithRule other.toAdd this.toAdd (isAddedWithoutOtherRemoving other) = none ∧
        (let removed := intersectionWithRemainderHavingDAAScoreInPlace other.toRemove this.toAdd ∅
            this.toRemove
          let added := intersectionWithRemainderHavingDAAScoreInPlace other.toAdd removed.2 ∅
            (this.toAdd.removeMultiple removed.1)
          (⟨added.2, removed.2.removeMultiple added.1⟩ : MutableUTXODiff) = d) := by
  unfold withDiffInPlace
  cases checkIntersectionWithRule other.toRemove this.toRemove (isRemovedWithoutThisAdding this) with
  | some first => simp only [reduceCtorEq, false_and, iff_false]; exact nofun
  | none =>
  cases checkIntersectionWithRule other.toAdd this.toAdd (isAddedWithoutOtherRemoving other) with
  | some second => simp only [reduceCtorEq, false_and, and_false, iff_false]; exact nofun
  | none =>
  simp only [true_and]
  exact ⟨fun accepted => Except.ok.inj accepted, fun built => built ▸ rfl⟩

theorem lookup_diffFrom {this other d : MutableUTXODiff} (accepted : diffFrom this other = .ok d)
    (outpoint : DomainOutpoint) :
    d.toAdd.lookup outpoint =
        subtractCell (other.toAdd.lookup outpoint) (this.toAdd.lookup outpoint)
          (subtractCell (this.toRemove.lookup outpoint) (other.toRemove.lookup outpoint) none) ∧
      d.toRemove.lookup outpoint =
        subtractCell (other.toRemove.lookup outpoint) (this.toRemove.lookup outpoint)
          (subtractCell (this.toAdd.lookup outpoint) (other.toAdd.lookup outpoint) none) := by
  obtain ⟨-, -, -, -, rfl⟩ := (diffFrom_eq_ok_iff this other d).mp accepted
  simp only [lookup_subtractionHavingDAAScoreInPlace,
    (lookup_subtractionWithRemainderHavingDAAScoreInPlace _ _ _ _ outpoint).1, AList.lookup_empty,
    and_self]

theorem lookup_withDiffInPlace {this other d : MutableUTXODiff}
    (accepted : withDiffInPlace this other = .ok d) (outpoint : DomainOutpoint) :
    let removed := subtractCell (other.toRemove.lookup outpoint) (this.toAdd.lookup outpoint)
      (this.toRemove.lookup outpoint)
    let kept := if (intersectCell (other.toRemove.lookup outpoint) (this.toAdd.lookup outpoint)
      none).isSome then none else this.toAdd.lookup outpoint
    d.toAdd.lookup outpoint = subtractCell (other.toAdd.lookup outpoint) removed kept ∧
      d.toRemove.lookup outpoint =
        if (intersectCell (other.toAdd.lookup outpoint) removed none).isSome then none else removed := by
  obtain ⟨-, -, built⟩ := (withDiffInPlace_eq_ok_iff this other d).mp accepted
  subst built
  simp only [lookup_removeMultiple, (lookup_intersectionWithRemainderHavingDAAScoreInPlace _ _ _ _
    outpoint).1, (lookup_intersectionWithRemainderHavingDAAScoreInPlace _ _ _ _ outpoint).2,
    AList.lookup_empty, and_self]

/-! ## Iterating a UTXO set through diffs -/

/-- A `ReadOnlyUTXOSetIterator`: over a stored collection, or a
`readOnlyUTXOIteratorWithDiff` over a base iterator and a diff. -/
inductive UTXOSetIterator
  | collection (utxoCollection : UTXOCollection)
  | withDiff (baseIterator : UTXOSetIterator) (diff : MutableUTXODiff)

/-- `IteratorWithDiff`: a diff over an iterator that already carries one is
first composed with that diff by `WithDiff`, so iterators never nest. -/
def iteratorWithDiff (iterator : UTXOSetIterator) (diff : MutableUTXODiff) :
    Except String UTXOSetIterator :=
  match iterator with
  | .withDiff baseIterator baseDiff => do
    let combinedDiff ← withDiff baseDiff diff
    iteratorWithDiff baseIterator combinedDiff
  | .collection utxoCollection => pure (.withDiff (.collection utxoCollection) diff)

def UTXOSetIterator.entries : UTXOSetIterator → List (DomainOutpoint × UTXOEntry)
  | .collection utxoCollection => utxoCollection.entries.map fun entry => (entry.1, entry.2)
  | .withDiff baseIterator diff =>
    (baseIterator.entries.filter fun pair =>
        !diff.toRemove.containsWithDAAScore pair.1 pair.2.blockDAAScore) ++
      diff.toAdd.entries.map fun entry => (entry.1, entry.2)

end Cryptixd.Utxo

