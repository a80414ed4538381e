import Mathlib

/-!
# The `k` smallest elements under capped insertion

A container that holds at most `k` elements of a linear order works like this.
When it is full, it makes room for a new element only by dropping its largest
element, and only when the new element is smaller. After any sequence of
insertions it holds exactly the `k` smallest elements inserted so far, so the
order of the insertions does not matter.

`smallest k s` is that set for a finite set `s`: the elements of `s` that have
fewer than `k` elements of `s` below them. `cappedInsert` is one insertion.
`cappedInsert_smallest` is the step lemma, and a run of insertions is an
induction over it. The least of the `k` smallest is the least of the whole set
(`isLeast_smallest_iff`). The characterisation `eq_smallest_of` (a subset of `s` that is
closed downwards in `s` and has `min k |s|` elements) is the lemma the step
lemma reduces to.
-/

set_option autoImplicit false

namespace Finset

variable {α : Type*} [LinearOrder α]

def smallest (k : ℕ) (s : Finset α) : Finset α :=
  s.filter fun a => (s.filter (· < a)).card < k

/-- Insert `a` into a set capped at `k` elements: nothing when `a` is held, add it
while there is room, and when full replace the largest element by `a` if `a` is
smaller. -/
def cappedInsert (k : ℕ) (s : Finset α) (a : α) : Finset α :=
  if a ∈ s then s
  else if s.card < k then insert a s
  else if h : s.Nonempty then
    if a < s.max' h then insert a (s.erase (s.max' h)) else s
  else insert a s

variable {k : ℕ} {s t : Finset α}

theorem mem_smallest {a : α} : a ∈ smallest k s ↔ a ∈ s ∧ (s.filter (· < a)).card < k :=
  mem_filter

theorem smallest_subset (k : ℕ) (s : Finset α) : smallest k s ⊆ s :=
  filter_subset _ _

theorem mem_smallest_of_lt {x y : α} (hx : x ∈ smallest k s) (hy : y ∈ s) (lt : y < x) :
    y ∈ smallest k s := by
  rw [mem_smallest] at hx ⊢
  refine ⟨hy, lt_of_le_of_lt (card_le_card ?_) hx.2⟩
  intro m hm
  rw [mem_filter] at hm ⊢
  exact ⟨hm.1, hm.2.trans lt⟩

theorem smallest_eq_self (fits : s.card ≤ k) : smallest k s = s := by
  apply filter_true_of_mem
  intro a ha
  calc (s.filter (· < a)).card < s.card := card_lt_card (filter_ssubset.2 ⟨a, ha, lt_irrefl a⟩)
    _ ≤ k := fits

theorem smallest_insert_of_gt {m : α} (above : ∀ x ∈ t, x < m) :
    smallest k (insert m t) = if t.card < k then insert m (smallest k t) else smallest k t := by
  have notMem : m ∉ t := fun h => lt_irrefl m (above m h)
  have kept : ∀ x ∈ t, (insert m t).filter (· < x) = t.filter (· < x) := by
    intro x hx
    rw [filter_insert, if_neg (not_lt.2 (above x hx).le)]
  have top : (insert m t).filter (· < m) = t := by
    rw [filter_insert, if_neg (lt_irrefl m)]
    exact filter_true_of_mem above
  have rest : t.filter (fun a => ((insert m t).filter (· < a)).card < k) = smallest k t :=
    filter_congr fun x hx => by rw [kept x hx]
  unfold smallest
  rw [filter_insert, top, rest]
  rfl

theorem card_smallest (k : ℕ) (s : Finset α) : (smallest k s).card = min k s.card := by
  induction s using Finset.induction_on_max with
  | empty => simp [smallest]
  | insert m t above ih =>
    have notMem : m ∉ t := fun h => lt_irrefl m (above m h)
    rw [smallest_insert_of_gt above, card_insert_of_notMem notMem]
    split_ifs with room
    · rw [card_insert_of_notMem (fun h => notMem (smallest_subset k t h)), ih]
      omega
    · rw [ih]
      omega

/-- A subset of `s` that is closed downwards in `s` and has `min k |s|` elements is
the set of the `k` smallest. -/
theorem eq_smallest_of (sub : t ⊆ s) (closed : ∀ x ∈ t, ∀ y ∈ s, y < x → y ∈ t)
    (card : t.card = min k s.card) : t = smallest k s := by
  apply eq_of_subset_of_card_le
  · intro x hx
    rw [mem_smallest]
    refine ⟨sub hx, ?_⟩
    have below : s.filter (· < x) ⊂ t := by
      rw [ssubset_iff_of_subset]
      · exact ⟨x, hx, fun h => lt_irrefl x (mem_filter.1 h).2⟩
      · intro y hy
        rw [mem_filter] at hy
        exact closed x hx y hy.1 hy.2
    calc (s.filter (· < x)).card < t.card := card_lt_card below
      _ ≤ k := card ▸ min_le_left _ _
  · rw [card_smallest, card]

/-- The step lemma: one capped insertion into the `k` smallest of `s` gives the `k`
smallest of `insert a s`. -/
theorem cappedInsert_smallest (pos : 0 < k) (s : Finset α) (a : α) :
    cappedInsert k (smallest k s) a = smallest k (insert a s) := by
  have sizes := card_smallest k s
  unfold cappedInsert
  by_cases held : a ∈ smallest k s
  · rw [if_pos held, insert_eq_of_mem (smallest_subset k s held)]
  rw [if_neg held]
  by_cases room : (smallest k s).card < k
  · -- below the cap nothing of `s` was left out
    have whole : smallest k s = s :=
      eq_of_subset_of_card_le (smallest_subset k s) (by omega)
    have fresh : a ∉ s := whole ▸ held
    rw [if_pos room, whole, smallest_eq_self]
    rw [card_insert_of_notMem fresh]
    omega
  rw [if_neg room]
  have full : (smallest k s).card = k := by omega
  have nonempty : (smallest k s).Nonempty := card_pos.1 (by omega)
  have largest := max'_mem _ nonempty
  have grown : s.card ≤ (insert a s).card := card_le_card (subset_insert a s)
  rw [dif_pos nonempty]
  by_cases smaller : a < (smallest k s).max' nonempty
  · rw [if_pos smaller]
    have fresh : a ∉ s := fun mem => held (mem_smallest_of_lt largest mem smaller)
    apply eq_smallest_of
    · intro x hx
      rcases mem_insert.1 hx with rfl | hx
      · exact mem_insert_self _ _
      · exact mem_insert_of_mem (smallest_subset k s (mem_of_mem_erase hx))
    · intro x hx y hy lt
      rcases mem_insert.1 hy with rfl | hy
      · exact mem_insert_self _ _
      have atMost : x ≤ (smallest k s).max' nonempty := by
        rcases mem_insert.1 hx with rfl | hx
        · exact smaller.le
        · exact le_max' _ _ (mem_of_mem_erase hx)
      have below := lt_of_lt_of_le lt atMost
      exact mem_insert_of_mem (mem_erase.2 ⟨below.ne, mem_smallest_of_lt largest hy below⟩)
    · have notErased : a ∉ (smallest k s).erase ((smallest k s).max' nonempty) :=
        fun h => held (mem_of_mem_erase h)
      rw [card_insert_of_notMem notErased, card_erase_of_mem largest, card_insert_of_notMem fresh]
      omega
  · rw [if_neg smaller]
    apply eq_smallest_of
    · exact (smallest_subset k s).trans (subset_insert a s)
    · intro x hx y hy lt
      rcases mem_insert.1 hy with rfl | hy
      · exact absurd (lt_of_lt_of_le lt (le_max' _ x hx)) smaller
      · exact mem_smallest_of_lt hx hy lt
    · omega

theorem card_cappedInsert_le (pos : 0 < k) (fits : s.card ≤ k) (a : α) :
    (cappedInsert k s a).card ≤ k := by
  rw [← smallest_eq_self fits, cappedInsert_smallest pos, card_smallest]
  exact min_le_left _ _

theorem isLeast_smallest_iff (pos : 0 < k) {a : α} :
    IsLeast (smallest k s : Set α) a ↔ IsLeast (s : Set α) a := by
  constructor
  · rintro ⟨member, lower⟩
    refine ⟨smallest_subset k s member, fun x held => ?_⟩
    by_contra above
    exact above (lower (mem_smallest_of_lt member held (lt_of_not_ge above)))
  · rintro ⟨member, lower⟩
    refine ⟨?_, fun x held => lower (smallest_subset k s held)⟩
    rw [mem_coe, mem_smallest, filter_false_of_mem fun x held => not_lt.2 (lower held), card_empty]
    exact ⟨member, pos⟩

end Finset
