import Mathlib

/-!
# The first index where a predicate holds, by binary search

`search n f` is the loop of Go's `sort.Search`. It keeps a window `[i, j)` such
that `f` is false below `i` and true from `j` on, halves the window at its
midpoint, and returns `i` once the window is empty. Go documents the result
only for a predicate that is false and then true below `n`. For such a
predicate (`Monotone n f`) the result separates the two parts (`search_spec`).
It is therefore the first index where `f` holds, or `n` when there is none
(`search_eq_of_first`, `search_eq_of_none`). On a list whose elements fail a test
and then pass it, the search finds where the passing part begins
(`search_append`).
-/

set_option autoImplicit false

namespace SortSearch

def searchLoop (f : ℕ → Bool) (i j : ℕ) : ℕ :=
  if i < j then
    let h := (i + j) / 2
    if !f h then searchLoop f (h + 1) j else searchLoop f i h
  else i
termination_by j - i

def search (n : ℕ) (f : ℕ → Bool) : ℕ := searchLoop f 0 n

/-- `f` is false and then true on the indices below `n`. -/
def Monotone (n : ℕ) (f : ℕ → Bool) : Prop :=
  ∀ a b, a ≤ b → b < n → f a = true → f b = true

section Spec

variable {n : ℕ} {f : ℕ → Bool}

theorem searchLoop_spec (mono : Monotone n f) {i j : ℕ} (ij : i ≤ j) (jn : j ≤ n)
    (below : ∀ k < i, f k = false) (above : ∀ k, j ≤ k → k < n → f k = true) :
    i ≤ searchLoop f i j ∧ searchLoop f i j ≤ j ∧ (∀ k < searchLoop f i j, f k = false) ∧
      ∀ k, searchLoop f i j ≤ k → k < n → f k = true := by
  fun_induction searchLoop f i j with
  | case1 i j inside h missed ih =>
    have midFalse : f h = false := by simpa using missed
    have upTo : ∀ k < h + 1, f k = false := by
      intro k small
      by_cases early : k < i
      · exact below k early
      · cases fk : f k
        · rfl
        · exact absurd (mono k h (by omega) (by omega) fk) (by simp [midFalse])
    obtain ⟨lower, upper, result⟩ := ih (by omega) jn upTo above
    exact ⟨by omega, upper, result⟩
  | case2 i j inside h hit ih =>
    have midTrue : f h = true := by simpa using hit
    have fromMid : ∀ k, h ≤ k → k < n → f k = true := fun k large bound =>
      mono h k large bound midTrue
    obtain ⟨lower, upper, result⟩ := ih (by omega) (by omega) below fromMid
    exact ⟨lower, by omega, result⟩
  | case3 i j empty =>
    exact ⟨le_refl i, ij, below, fun k large bound => above k (by omega) bound⟩

theorem search_spec (mono : Monotone n f) :
    search n f ≤ n ∧ (∀ k < search n f, f k = false) ∧
      ∀ k, search n f ≤ k → k < n → f k = true := by
  obtain ⟨-, upper, result⟩ :=
    searchLoop_spec mono (Nat.zero_le n) (le_refl n) (fun k small => absurd small (by omega))
      (fun k large bound => absurd bound (by omega))
  exact ⟨upper, result⟩

theorem search_eq_of_first (mono : Monotone n f) {first : ℕ} (bound : first < n)
    (holds : f first = true) (before : ∀ k < first, f k = false) : search n f = first := by
  obtain ⟨-, falseBelow, trueAbove⟩ := search_spec mono
  by_contra differ
  rcases Nat.lt_or_gt_of_ne differ with early | late
  · have := before _ early
    rw [trueAbove (search n f) (le_refl _) (by omega)] at this
    exact absurd this (by simp)
  · rw [falseBelow first late] at holds
    exact absurd holds (by simp)

theorem search_eq_of_none (mono : Monotone n f) (never : ∀ k < n, f k = false) :
    search n f = n := by
  obtain ⟨upper, -, trueAbove⟩ := search_spec mono
  by_contra differ
  have := never (search n f) (by omega)
  rw [trueAbove (search n f) (le_refl _) (by omega)] at this
  exact absurd this (by simp)

end Spec

section Split

variable {α : Type*} (lower upper : List α) (q : α → Bool)

/-- On a list whose elements fail `q` and then satisfy it, testing `q` at an index
tells whether the index is past the first part. -/
theorem any_getElem?_append (falseLower : ∀ x ∈ lower, q x = false)
    (trueUpper : ∀ x ∈ upper, q x = true) (k : ℕ) (bound : k < (lower ++ upper).length) :
    (lower ++ upper)[k]?.any q = decide (lower.length ≤ k) := by
  by_cases early : k < lower.length
  · rw [List.getElem?_append_left early, List.getElem?_eq_getElem early, Option.any_some,
      falseLower _ (List.getElem_mem early), decide_eq_false (by omega)]
  · have inUpper : k - lower.length < upper.length := by
      rw [List.length_append] at bound
      omega
    rw [List.getElem?_append_right (by omega), List.getElem?_eq_getElem inUpper, Option.any_some,
      trueUpper _ (List.getElem_mem inUpper), decide_eq_true (by omega)]

theorem search_append (falseLower : ∀ x ∈ lower, q x = false)
    (trueUpper : ∀ x ∈ upper, q x = true) :
    search (lower ++ upper).length (fun i => (lower ++ upper)[i]?.any q) = lower.length := by
  have tested := any_getElem?_append lower upper q falseLower trueUpper
  have mono : Monotone (lower ++ upper).length fun i => (lower ++ upper)[i]?.any q := by
    intro a b ab bound held
    dsimp only at held ⊢
    rw [tested a (by omega)] at held
    rw [tested b bound]
    simp only [decide_eq_true_eq] at held ⊢
    omega
  cases upper with
  | nil =>
    rw [List.append_nil] at tested mono ⊢
    exact search_eq_of_none mono fun k bound => by
      rw [tested k bound, decide_eq_false (by omega)]
  | cons first rest =>
    have bound : lower.length < (lower ++ first :: rest).length := by simp
    exact search_eq_of_first mono bound (by rw [tested _ bound, decide_eq_true (le_refl _)])
      fun k early => by rw [tested k (by omega), decide_eq_false (by omega)]

end Split

end SortSearch
