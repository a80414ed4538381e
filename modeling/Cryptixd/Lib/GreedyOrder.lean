import Mathlib

/-!
# Greedy topological orders

A scheduler over a finite list of elements `S`, some of which wait for others,
emits while it can the least element that is ready (all the elements it waits for
are done), and once none is ready emits the rest sorted. `Greedy dep le S done out`
says that `out` is what such a scheduler emits after `done`, where `dep x p` reads
"`x` waits for `p`" and `le` is the order it picks by.

Two facts make the notion useful to a verifier. When `le` is antisymmetric on `S`
the output is determined by `S` alone (`Greedy.unique`), so a scheduler that meets
the elements in another order emits the same list. And the notion is carried along
a map that is injective on `S` and keeps the dependencies and the order
(`Greedy.map`), so a scheduler that works on positions in a list emits the greedy
order of the values at those positions. Without cycles among the elements, every
element comes after those it waits for (`Greedy.parents_before`).
-/

set_option autoImplicit false

namespace GreedyOrder

variable {α : Type*} (dep : α → α → Prop) (le : α → α → Bool)

/-- `x` may come next after `done`: it is one of `S`, it is not done, and every
element of `S` it waits for is. -/
def Ready (S done : List α) (x : α) : Prop :=
  x ∈ S ∧ x ∉ done ∧ ∀ parent ∈ S, dep x parent → parent ∈ done

/-- What a greedy scheduler over `S` emits after `done`: the least ready element and
then what it emits after that one, or, when nothing is ready, the elements of `S`
not done, once each and sorted. -/
inductive Greedy (S : List α) : List α → List α → Prop
  | next {done out : List α} (x : α) (ready : Ready dep S done x)
      (least : ∀ y, Ready dep S done y → le x y = true)
      (rest : Greedy S (done ++ [x]) out) : Greedy S done (x :: out)
  | stuck {done rest : List α} (blocked : ∀ y, ¬ Ready dep S done y)
      (members : ∀ x, x ∈ rest ↔ x ∈ S ∧ x ∉ done) (nodup : rest.Nodup)
      (sorted : rest.Pairwise fun a b => le a b = true) : Greedy S done rest

variable {dep le}

theorem Greedy.unique {S : List α}
    (antisymm : ∀ x ∈ S, ∀ y ∈ S, le x y = true → le y x = true → x = y)
    {done out₁ out₂ : List α} (first : Greedy dep le S done out₁)
    (second : Greedy dep le S done out₂) : out₁ = out₂ := by
  induction first generalizing out₂ with
  | next x ready least _ ih =>
    cases second with
    | next y ready' least' rest' =>
      have same : x = y := antisymm x ready.1 y ready'.1 (least y ready') (least' x ready)
      subst same
      rw [ih rest']
    | stuck blocked _ _ _ => exact absurd ready (blocked x)
  | @stuck done rest blocked members nodup sorted =>
    cases second with
    | next y ready' _ _ => exact absurd ready' (blocked y)
    | stuck _ members' nodup' sorted' =>
      have perm : rest.Perm out₂ := (List.perm_ext_iff_of_nodup nodup nodup').2 fun x =>
        (members x).trans (members' x).symm
      refine List.Perm.eq_of_pairwise (fun a b inFirst inSecond below above => ?_) sorted sorted'
        perm
      exact antisymm a ((members a).1 inFirst).1 b ((members' b).1 inSecond).1 below above

theorem Greedy.mem_iff {S done out : List α} (greedy : Greedy dep le S done out) :
    ∀ x, x ∈ out ↔ x ∈ S ∧ x ∉ done := by
  induction greedy with
  | @next done out x ready _ _ ih =>
    intro y
    rw [List.mem_cons, ih y, List.mem_append, List.mem_singleton]
    by_cases same : y = x
    · subst same
      simp [ready.1, ready.2.1]
    · simp [same]
  | stuck _ members _ _ => exact members

theorem Greedy.nodup {S done out : List α} (greedy : Greedy dep le S done out) : out.Nodup := by
  induction greedy with
  | @next done out x _ _ rest ih =>
    have absent : x ∉ out := fun member =>
      ((rest.mem_iff x).1 member).2 (List.mem_append_right done (List.mem_singleton_self x))
    exact List.nodup_cons.2 ⟨absent, ih⟩
  | stuck _ _ nodup _ => exact nodup

theorem Greedy.perm {S out : List α} (nodup : S.Nodup) (greedy : Greedy dep le S [] out) :
    out.Perm S :=
  (List.perm_ext_iff_of_nodup greedy.nodup nodup).2 fun x => by
    rw [greedy.mem_iff x]
    simp

theorem ready_congr {S S' : List α} (same : ∀ x, x ∈ S ↔ x ∈ S') {done : List α} {x : α} :
    Ready dep S done x ↔ Ready dep S' done x := by
  unfold Ready
  simp only [same]

theorem Greedy.congr {S S' : List α} (same : ∀ x, x ∈ S ↔ x ∈ S') {done out : List α}
    (greedy : Greedy dep le S done out) : Greedy dep le S' done out := by
  induction greedy with
  | next x ready least _ ih =>
    exact .next x ((ready_congr same).1 ready) (fun y ready' => least y ((ready_congr same).2 ready'))
      ih
  | stuck blocked members nodup sorted =>
    refine .stuck (fun y ready' => blocked y ((ready_congr same).2 ready')) (fun x => ?_) nodup sorted
    rw [members x, same x]

/-! ## Without cycles -/

section Acyclic

variable {S : List α}

def Acyclic (dep : α → α → Prop) (S : List α) : Prop :=
  ∀ x, ¬ Relation.TransGen (fun a b => a ∈ S ∧ b ∈ S ∧ dep a b) x x

theorem acyclic_of_rank (rank : α → ℕ)
    (decreasing : ∀ a ∈ S, ∀ b ∈ S, dep a b → rank b < rank a) : Acyclic dep S := by
  have chain : ∀ a b, Relation.TransGen (fun a b => a ∈ S ∧ b ∈ S ∧ dep a b) a b →
      rank b < rank a := by
    intro a b steps
    induction steps with
    | single step => exact decreasing _ step.1 _ step.2.1 step.2.2
    | tail _ step ih => exact lt_trans (decreasing _ step.1 _ step.2.1 step.2.2) ih
  exact fun x cycle => lt_irrefl _ (chain x x cycle)

/-- Without cycles, a scheduler with nothing ready has done every element: an element
not done and not ready waits for another not done, and the elements of `S` cannot
descend forever. -/
theorem done_of_blocked (acyclic : Acyclic dep S) {done : List α}
    (blocked : ∀ y, ¬ Ready dep S done y) : ∀ x ∈ S, x ∈ done := by
  have : Finite {x // x ∈ S} := (List.finite_toSet S).to_subtype
  -- `a ≺ b`: `b` waits, through elements of `S`, for `a`
  let below : {x // x ∈ S} → {x // x ∈ S} → Prop := fun a b =>
    Relation.TransGen (fun a b => a ∈ S ∧ b ∈ S ∧ dep a b) b.1 a.1
  have : IsTrans _ below := ⟨fun _ _ _ ab bc => Relation.TransGen.trans bc ab⟩
  have : Std.Irrefl below := ⟨fun a cycle => acyclic a.1 cycle⟩
  intro x member
  by_contra absent
  obtain ⟨least, pending, minimal⟩ := (Finite.wellFounded_of_trans_of_irrefl below).has_min
    {a | a.1 ∉ done} ⟨⟨x, member⟩, absent⟩
  -- the least pending element is not ready, so it waits for a pending parent
  have notReady := blocked least.1
  simp only [Ready, not_and, not_forall] at notReady
  obtain ⟨parent, parentIn, waits, parentPending⟩ := notReady least.2 pending
  exact minimal ⟨parent, parentIn⟩ parentPending
    (Relation.TransGen.single ⟨least.2, parentIn, waits⟩)

theorem Greedy.parents_before (acyclic : Acyclic dep S) {done out : List α}
    (greedy : Greedy dep le S done out) :
    ∀ i (bound : i < out.length), ∀ parent ∈ S, dep out[i] parent →
      parent ∈ done ∨ ∃ j < i, out[j]? = some parent := by
  induction greedy with
  | @next done out x ready _ _ ih =>
    intro i bound parent parentIn waits
    cases i with
    | zero => exact .inl (ready.2.2 parent parentIn waits)
    | succ k =>
      rcases ih k (by simpa using bound) parent parentIn waits with inDone | ⟨j, before, found⟩
      · rcases List.mem_append.1 inDone with inDone | isX
        · exact .inl inDone
        · exact .inr ⟨0, Nat.zero_lt_succ k, by rw [List.mem_singleton.1 isX]; rfl⟩
      · exact .inr ⟨j + 1, Nat.succ_lt_succ before, found⟩
  | @stuck done rest blocked members _ _ =>
    intro i bound
    have member := (members rest[i]).1 (List.getElem_mem bound)
    exact absurd (done_of_blocked acyclic blocked _ member.1) member.2

end Acyclic

section Map

variable {β : Type*} {depβ : β → β → Prop} {leβ : β → β → Bool} {S : List β} (f : β → α)

theorem not_mem_map_iff (inj : ∀ x ∈ S, ∀ y ∈ S, f x = f y → x = y) {done : List β}
    (doneIn : ∀ x ∈ done, x ∈ S) {x : β} (member : x ∈ S) : f x ∉ done.map f ↔ x ∉ done := by
  rw [List.mem_map, not_iff_not]
  constructor
  · rintro ⟨d, inDone, same⟩
    rw [inj d (doneIn d inDone) x member same] at inDone
    exact inDone
  · exact fun inDone => ⟨x, inDone, rfl⟩

theorem ready_map (inj : ∀ x ∈ S, ∀ y ∈ S, f x = f y → x = y)
    (deps : ∀ x ∈ S, ∀ y ∈ S, depβ x y ↔ dep (f x) (f y)) {done : List β}
    (doneIn : ∀ x ∈ done, x ∈ S) {x : β} (member : x ∈ S) :
    Ready dep (S.map f) (done.map f) (f x) ↔ Ready depβ S done x := by
  have notDone := not_mem_map_iff f inj doneIn member
  constructor
  · rintro ⟨-, absent, parents⟩
    refine ⟨member, notDone.1 absent, fun parent inS waits => ?_⟩
    obtain ⟨d, inDone, same⟩ := List.mem_map.1
      (parents (f parent) (List.mem_map_of_mem inS) ((deps x member parent inS).1 waits))
    rw [← inj d (doneIn d inDone) parent inS same]
    exact inDone
  · rintro ⟨-, absent, parents⟩
    refine ⟨List.mem_map_of_mem member, notDone.2 absent, fun parent inS waits => ?_⟩
    obtain ⟨p, pIn, rfl⟩ := List.mem_map.1 inS
    exact List.mem_map_of_mem (parents p pIn ((deps x member p pIn).2 waits))

theorem Greedy.map (inj : ∀ x ∈ S, ∀ y ∈ S, f x = f y → x = y)
    (deps : ∀ x ∈ S, ∀ y ∈ S, depβ x y ↔ dep (f x) (f y))
    (order : ∀ x ∈ S, ∀ y ∈ S, leβ x y = le (f x) (f y)) {done out : List β}
    (doneIn : ∀ x ∈ done, x ∈ S) (greedy : Greedy depβ leβ S done out) :
    Greedy dep le (S.map f) (done.map f) (out.map f) := by
  induction greedy with
  | @next done out x ready least _ ih =>
    have doneIn' : ∀ y ∈ done ++ [x], y ∈ S := by
      intro y member
      rcases List.mem_append.1 member with inDone | isX
      · exact doneIn y inDone
      · rw [List.mem_singleton.1 isX]
        exact ready.1
    refine .next (f x) ((ready_map f inj deps doneIn ready.1).2 ready) (fun y' ready' => ?_) ?_
    · obtain ⟨y, yIn, rfl⟩ := List.mem_map.1 ready'.1
      rw [← order x ready.1 y yIn]
      exact least y ((ready_map f inj deps doneIn yIn).1 ready')
    · simpa using ih doneIn'
  | @stuck done rest blocked members nodup sorted =>
    have restIn : ∀ x ∈ rest, x ∈ S := fun x member => ((members x).1 member).1
    refine .stuck (fun y' ready' => ?_) (fun y' => ?_) ?_ ?_
    · obtain ⟨y, yIn, rfl⟩ := List.mem_map.1 ready'.1
      exact blocked y ((ready_map f inj deps doneIn yIn).1 ready')
    · constructor
      · intro inMap
        obtain ⟨y, yIn, rfl⟩ := List.mem_map.1 inMap
        obtain ⟨inS, absent⟩ := (members y).1 yIn
        exact ⟨List.mem_map_of_mem inS, (not_mem_map_iff f inj doneIn inS).2 absent⟩
      · rintro ⟨inS, absent⟩
        obtain ⟨y, yIn, rfl⟩ := List.mem_map.1 inS
        exact List.mem_map_of_mem ((members y).2 ⟨yIn, fun inDone =>
          absent (List.mem_map_of_mem inDone)⟩)
    · exact List.Nodup.map_on (fun x xIn y yIn => inj x (restIn x xIn) y (restIn y yIn)) nodup
    · rw [List.pairwise_map]
      exact sorted.imp_of_mem fun {a b} aIn bIn below => by
        rw [← order a (restIn a aIn) b (restIn b bIn)]
        exact below

end Map

end GreedyOrder
