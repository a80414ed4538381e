import Mathlib

/-!
# Greedy matching against a sublist

`greedyMatch R keys items` walks `keys` once and matches each item, in order,
to the first key left that it is related to.  It succeeds exactly when the
items can be matched, in order, to distinct keys, that is when some sublist of
`keys` is related to `items` pointwise (`greedyMatch_iff`): taking the leftmost
key an item is related to never rules out a match of the items after it.
-/

set_option autoImplicit false

namespace SublistMatch

variable {α β : Type*} (R : α → β → Bool)

def greedyMatch : List β → List α → Bool
  | _, [] => true
  | [], _ :: _ => false
  | key :: keys, item :: items =>
    if R item key then greedyMatch keys items else greedyMatch keys (item :: items)

theorem greedyMatch_cons_cons (key : β) (keys : List β) (item : α) (items : List α) :
    greedyMatch R (key :: keys) (item :: items) =
      if R item key then greedyMatch R keys items else greedyMatch R keys (item :: items) := rfl

theorem greedyMatch_iff : ∀ (keys : List β) (items : List α), greedyMatch R keys items = true ↔
    ∃ matched, List.Sublist matched keys ∧ List.Forall₂ (fun a b => R a b = true) items matched := by
  intro keys
  induction keys with
  | nil =>
    intro items
    cases items <;> simp [greedyMatch]
  | cons key keys ih =>
    intro items
    cases items with
    | nil => exact ⟨fun _ => ⟨[], List.nil_sublist _, .nil⟩, fun _ => rfl⟩
    | cons item items =>
      simp only [greedyMatch]
      split_ifs with related
      · rw [ih]
        constructor
        · rintro ⟨matched, sub, rel⟩
          exact ⟨key :: matched, sub.cons_cons key, .cons related rel⟩
        · rintro ⟨matched, sub, rel⟩
          cases rel with
          | cons _ rest => exact ⟨_, sub.tail, rest⟩
      · rw [ih]
        constructor
        · rintro ⟨matched, sub, rel⟩
          exact ⟨matched, sub.cons key, rel⟩
        · rintro ⟨matched, sub, rel⟩
          rcases List.sublist_cons_iff.mp sub with sub | ⟨rest, rfl, -⟩
          · exact ⟨matched, sub, rel⟩
          · cases rel with
            | cons first _ => exact absurd first (by simpa using related)

theorem greedyMatch_length {keys : List β} {items : List α} (h : greedyMatch R keys items = true) :
    items.length ≤ keys.length := by
  obtain ⟨matched, sub, rel⟩ := (greedyMatch_iff R keys items).mp h
  rw [rel.length_eq]
  exact sub.length_le

end SublistMatch
