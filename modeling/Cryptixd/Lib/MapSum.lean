import Mathlib

/-!
# Sums and keyed updates over association-list maps

A Go `map` is modelled by Mathlib's `AList` with a constant value type: lookup,
`m[k] = v` and `delete(m, k)` are `lookup`, `insert` and `erase`, and ranging
over the map walks `entries`.  This file adds what the models built on it need
and Mathlib does not state: the sum of a function over the entries and how one
insert or erase moves it, and `alter`, the write-or-delete step that a loop
over distinct keys applies once per key.
-/

set_option autoImplicit false

namespace AList

section Sum
variable {α β M : Type*} [DecidableEq α] [AddCommMonoid M]

def sumBy (f : α → β → M) (m : AList (fun _ : α => β)) : M :=
  (m.entries.map fun entry => f entry.1 entry.2).sum

/-- The contribution of key `a`: `f a v` when `a` is bound to `v`, else `0`. -/
def entryValue (f : α → β → M) (m : AList (fun _ : α => β)) (a : α) : M :=
  ((m.lookup a).map (f a)).getD 0

omit [DecidableEq α] in
@[simp] theorem sumBy_empty (f : α → β → M) : sumBy f (∅ : AList (fun _ : α => β)) = 0 := rfl

@[simp] theorem entryValue_empty (f : α → β → M) (a : α) :
    entryValue f (∅ : AList (fun _ : α => β)) a = 0 := rfl

theorem sumBy_erase_add (f : α → β → M) (m : AList (fun _ : α => β)) (a : α) :
    entryValue f m a + sumBy f (m.erase a) = sumBy f m := by
  by_cases present : a ∈ m.keys
  · obtain ⟨b, front, back, notFront, split, erased⟩ := List.exists_of_kerase present
    have bound : m.lookup a = some b := by
      rw [AList.lookup, split, List.dlookup_append,
        List.dlookup_eq_none.mpr notFront, Option.none_or, List.dlookup_cons_eq]
    simp only [entryValue, bound, Option.map_some, Option.getD_some, sumBy, AList.erase]
    rw [erased, split]
    simp only [List.map_append, List.map_cons, List.sum_append, List.sum_cons]
    abel
  · have absent : m.lookup a = none := AList.lookup_eq_none.mpr present
    have same : (m.erase a).entries = m.entries := List.kerase_of_notMem_keys present
    simp only [entryValue, absent, Option.map_none, Option.getD_none, zero_add, sumBy, same]

theorem sumBy_insert (f : α → β → M) (m : AList (fun _ : α => β)) (a : α) (b : β) :
    sumBy f (m.insert a b) = f a b + sumBy f (m.erase a) := by
  simp only [sumBy, AList.entries_insert, List.map_cons, List.sum_cons, AList.erase]

end Sum

section Alter
variable {α β : Type*} [DecidableEq α]

/-- Write `some v` or delete on `none`: the shape of a Go update that removes
a key whose new value is the default. -/
def alter (a : α) (value : Option β) (m : AList (fun _ : α => β)) : AList (fun _ : α => β) :=
  match value with
  | some b => m.insert a b
  | none => m.erase a

@[simp] theorem lookup_alter_self (a : α) (value : Option β) (m : AList (fun _ : α => β)) :
    (m.alter a value).lookup a = value := by
  cases value with
  | none => exact AList.lookup_erase a m
  | some b => exact AList.lookup_insert m

@[simp] theorem lookup_alter_ne {a a' : α} (value : Option β) (m : AList (fun _ : α => β))
    (other : a' ≠ a) : (m.alter a value).lookup a' = m.lookup a' := by
  cases value with
  | none => exact AList.lookup_erase_ne other
  | some b => exact AList.lookup_insert_ne other

theorem lookup_foldl_alter (step : α → Option β → Option β) :
    ∀ (keys : List α) (m : AList (fun _ : α => β)) (a : α), keys.Nodup →
      (keys.foldl (fun acc k => acc.alter k (step k (acc.lookup k))) m).lookup a =
        if a ∈ keys then step a (m.lookup a) else m.lookup a := by
  intro keys
  induction keys with
  | nil => intro m a _; simp
  | cons k rest ih =>
      intro m a distinct
      obtain ⟨notRest, restDistinct⟩ := List.nodup_cons.mp distinct
      rw [List.foldl_cons, ih _ a restDistinct]
      by_cases here : a = k
      · subst here
        simp [notRest]
      · have there : (m.alter k (step k (m.lookup k))).lookup a = m.lookup a :=
          lookup_alter_ne _ m here
        simp only [there, List.mem_cons, here, false_or]

end Alter

section Pass
variable {α β σ δ : Type*} [DecidableEq α]

theorem observe_foldl_entries (observe : σ → δ) (a : α) (step : σ → Sigma (fun _ : α => β) → σ)
    (update : β → δ → δ)
    (frame : ∀ s (entry : Sigma (fun _ : α => β)), entry.1 ≠ a → observe (step s entry) = observe s)
    (hit : ∀ s b, observe (step s ⟨a, b⟩) = update b (observe s))
    (m : AList (fun _ : α => β)) (start : σ) :
    observe (m.entries.foldl step start) =
      match m.lookup a with
      | some b => update b (observe start)
      | none => observe start := by
  rw [AList.lookup]
  have distinct := m.nodupKeys
  generalize m.entries = entries at distinct
  induction entries generalizing start with
  | nil => rfl
  | cons entry rest ih =>
    obtain ⟨key, value⟩ := entry
    have restDistinct : rest.NodupKeys := (List.nodupKeys_cons.mp distinct).2
    rw [List.foldl_cons, ih _ restDistinct]
    by_cases here : key = a
    · -- the entry at `a` is the only one: the rest of the pass leaves `a` alone
      subst here
      have absent : rest.dlookup key = none :=
        List.dlookup_eq_none.mpr (List.nodupKeys_cons.mp distinct).1
      rw [absent, List.dlookup_cons_eq, hit]
    · rw [List.dlookup_cons_ne _ _ (Ne.symm here)]
      cases rest.dlookup a with
      | none => exact frame start ⟨key, value⟩ here
      | some b => rw [frame start ⟨key, value⟩ here]

theorem lookup_foldl_erase_eq_some {γ : Type*} (key : γ → α) (keys : List γ)
    (m : AList (fun _ : α => β)) {a : α} {b : β}
    (found : (keys.foldl (fun m item => m.erase (key item)) m).lookup a = some b) :
    m.lookup a = some b := by
  induction keys generalizing m with
  | nil => exact found
  | cons item rest ih =>
    have erased := ih (m.erase (key item)) found
    by_cases same : a = key item
    · subst same
      rw [AList.lookup_erase] at erased
      cases erased
    · rwa [AList.lookup_erase_ne same] at erased

end Pass

end AList

