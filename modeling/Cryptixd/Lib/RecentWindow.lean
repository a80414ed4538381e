import Mathlib

/-!
# Windows of the most recent distinct entries

`recentDistinct xs` lists the distinct entries of a sequence, the most recently
seen first. `List.dedup` keeps the last occurrence of each entry, in sequence
order, so its reverse is that list. A window of the `k` latest distinct entries
is the prefix of length `k`.

Appending one entry moves it to the front and removes it from its old place
(`recentDistinct_concat`). The new window can be computed from the old window
alone (`take_recentDistinct_concat`), because dropping one entry from a prefix
of length `k + 1` of a list without repetitions keeps the first `k` entries of
the whole list without it (`take_filter_take`). Such a window is often stored in a fixed-size array padded
with a blank value, and `ofFn_getD` reads that array back as the window
followed by blanks.
-/

set_option autoImplicit false

namespace RecentWindow

variable {α : Type*}

section Recent

variable [DecidableEq α]

def recentDistinct (xs : List α) : List α := xs.dedup.reverse

@[simp] theorem recentDistinct_nil : recentDistinct ([] : List α) = [] := rfl

@[simp] theorem mem_recentDistinct {x : α} {xs : List α} : x ∈ recentDistinct xs ↔ x ∈ xs := by
  rw [recentDistinct, List.mem_reverse, List.mem_dedup]

theorem nodup_recentDistinct (xs : List α) : (recentDistinct xs).Nodup :=
  List.nodup_reverse.mpr (List.nodup_dedup xs)

theorem dedup_concat (xs : List α) (x : α) : (xs ++ [x]).dedup = xs.dedup.erase x ++ [x] := by
  induction xs with
  | nil => simp
  | cons y ys ih =>
    have seen : y ∈ ys ++ [x] ↔ y ∈ ys ∨ y = x := by simp
    by_cases same : y = x
    · subst same
      rw [List.cons_append, List.dedup_cons_of_mem (seen.mpr (Or.inr rfl)), ih]
      -- the earlier `y` is either dropped by `dedup` already or erased now
      by_cases mem : y ∈ ys
      · rw [List.dedup_cons_of_mem mem]
      · rw [List.dedup_cons_of_notMem mem, List.erase_cons_head,
          List.erase_of_not_mem (mt List.mem_dedup.mp mem)]
    · by_cases mem : y ∈ ys
      · rw [List.cons_append, List.dedup_cons_of_mem (seen.mpr (Or.inl mem)), ih,
          List.dedup_cons_of_mem mem]
      · have fresh : y ∉ ys ++ [x] := fun held => (seen.mp held).elim mem same
        rw [List.cons_append, List.dedup_cons_of_notMem fresh, ih, List.dedup_cons_of_notMem mem,
          List.erase_cons_tail (by simpa using same), List.cons_append]

theorem recentDistinct_concat (xs : List α) (x : α) :
    recentDistinct (xs ++ [x]) = x :: (recentDistinct xs).filter (· ≠ x) := by
  have nodup := List.nodup_dedup xs
  have sameFilter : xs.dedup.reverse.filter (· != x) = xs.dedup.reverse.filter (· ≠ x) :=
    List.filter_congr fun _ _ => by simp [bne, beq_eq_decide]
  rw [recentDistinct, dedup_concat, List.reverse_append, List.reverse_singleton,
    List.singleton_append, recentDistinct, nodup.erase_eq_filter, ← List.filter_reverse,
    sameFilter]

/-- Dropping an entry from a prefix of length `k + 1` of a list without repetitions
keeps the first `k` entries of the whole list without it. -/
theorem take_filter_take {l : List α} (nodup : l.Nodup) (x : α) (k : ℕ) :
    ((l.take (k + 1)).filter (· ≠ x)).take k = (l.filter (· ≠ x)).take k := by
  induction l generalizing k with
  | nil => simp
  | cons y ys ih =>
    obtain ⟨fresh, restNodup⟩ := List.nodup_cons.mp nodup
    rw [List.take_succ_cons]
    by_cases same : y = x
    · -- `x` occurs only here, so the rest is kept whole
      subst same
      have keep (l : List α) (sub : l.Sublist ys) : l.filter (· ≠ y) = l :=
        List.filter_eq_self.mpr fun z member => by
          simpa using fun same : z = y => fresh (same ▸ sub.subset member)
      rw [List.filter_cons_of_neg (by simp), List.filter_cons_of_neg (by simp),
        keep _ (List.take_sublist _ _), keep _ (List.Sublist.refl _), List.take_take, min_self]
    · rw [List.filter_cons_of_pos (by simpa using same), List.filter_cons_of_pos (by simpa using same)]
      cases k with
      | zero => simp
      | succ k => rw [List.take_succ_cons, List.take_succ_cons, ih restNodup]

/-- The window of the `k + 1` latest distinct entries after appending `x`, from the
window before: `x`, then the old window without `x`, cut to length. -/
theorem take_recentDistinct_concat (xs : List α) (x : α) (k : ℕ) :
    (recentDistinct (xs ++ [x])).take (k + 1) =
      x :: (((recentDistinct xs).take (k + 1)).filter (· ≠ x)).take k := by
  rw [recentDistinct_concat, List.take_succ_cons, take_filter_take (nodup_recentDistinct xs)]

end Recent

theorem ofFn_getD {n : ℕ} {l : List α} (fits : l.length ≤ n) (blank : α) :
    (List.ofFn fun i : Fin n => l.getD i blank) = l ++ List.replicate (n - l.length) blank := by
  apply List.ext_getElem
  · simp only [List.length_ofFn, List.length_append, List.length_replicate]
    omega
  · intro i inOfFn inPadded
    rw [List.getElem_ofFn, Fin.val_mk, List.getD_eq_getElem?_getD]
    by_cases inside : i < l.length
    · rw [List.getElem_append_left inside, List.getElem?_eq_getElem inside, Option.getD_some]
    · rw [List.getElem_append_right (by omega), List.getElem_replicate,
        List.getElem?_eq_none (by omega), Option.getD_none]

end RecentWindow

