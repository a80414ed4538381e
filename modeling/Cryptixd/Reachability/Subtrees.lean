import Mathlib
import Cryptixd.Lib.LinkedTree

/-!
# Counting subtree sizes breadth first

`countSubtrees` (reindex_context.go) fills the cache of subtree sizes that a
reachability reindex reads. It walks the tree under `node` breadth first, without
expanding a node whose size is cached, and each time it reaches a leaf or a cached
node it pushes sizes up the parent chain, keeping for each node a count of the
children whose size is known.

The loop invariant (`Invariant`) sorts the nodes under `node` by the queue. A
node below a queued node is untouched. A node over a queued node, or over the
node whose size the push-up carries, counts its finished children. Every other
node is finished, with its size in the cache. Each step of the loop and of the
push-up keeps the invariant; the push-up ends within the height of `node`
(`pushUp_spec`) and the loop within the size of its subtree
(`countSubtreesLoop_spec`).

A cached node is never expanded, so the cache `countSubtrees` starts from has to
hold whole subtrees: a cached node whose children are not cached keeps them out
of the walk, and they stay uncached (`countSubtrees_precached_child`).
-/

set_option autoImplicit false

namespace Cryptixd.Reachability

open LinkedTree

section Model

variable {Node : Type*} [DecidableEq Node] (tree : LinkedTree Node)

/-- The push-up of `countSubtrees`, from `current`, whose size is known, up the
parent chain to `node`. The fuel bounds the number of parents it climbs. -/
def pushUp (node : Node) :
    ℕ → Node → (Node → ℕ) → (Node → Option ℕ) → Option ((Node → ℕ) × (Node → Option ℕ))
  | 0, _, _, _ => none
  | fuel + 1, current, calculatedChildrenCount, subTreeSizesCache =>
    if current = node then some (calculatedChildrenCount, subTreeSizesCache)
    else
      match tree.parent current with
      -- the genesis block has no parent
      | none => some (calculatedChildrenCount, subTreeSizesCache)
      | some parent =>
        let calculatedChildrenCount :=
          Function.update calculatedChildrenCount parent (calculatedChildrenCount parent + 1)
        let children := tree.children parent
        if calculatedChildrenCount parent ≠ children.length then
          -- not all subtrees of the parent are ready
          some (calculatedChildrenCount, subTreeSizesCache)
        else
          let childSubtreeSizeSum :=
            (children.map fun child => (subTreeSizesCache child).getD 0).sum
          pushUp node fuel parent calculatedChildrenCount
            (Function.update subTreeSizesCache parent (some (childSubtreeSizeSum + 1)))

def countSubtreesLoop (node : Node) :
    ℕ → List Node → (Node → ℕ) → (Node → Option ℕ) → Option (Node → Option ℕ)
  | 0, _, _, _ => none
  | _ + 1, [], _, subTreeSizesCache => some subTreeSizesCache
  | fuel + 1, current :: queue, calculatedChildrenCount, subTreeSizesCache =>
    let children := tree.children current
    if children = [] then
      match pushUp tree node (tree.height node + 1) current calculatedChildrenCount
          (Function.update subTreeSizesCache current (some 1)) with
      | some (calculatedChildrenCount, subTreeSizesCache) =>
        countSubtreesLoop node fuel queue calculatedChildrenCount subTreeSizesCache
      | none => none
    else if subTreeSizesCache current = none then
      countSubtreesLoop node fuel (queue ++ children) calculatedChildrenCount subTreeSizesCache
    else
      match pushUp tree node (tree.height node + 1) current calculatedChildrenCount
          subTreeSizesCache with
      | some (calculatedChildrenCount, subTreeSizesCache) =>
        countSubtreesLoop node fuel queue calculatedChildrenCount subTreeSizesCache
      | none => none

/-- `reindexContext.countSubtrees`: the sizes of the subtrees under `node`, added
to `subTreeSizesCache`. -/
def countSubtrees (fuel : ℕ) (subTreeSizesCache : Node → Option ℕ) (node : Node) :
    Option (Node → Option ℕ) :=
  if (subTreeSizesCache node).isSome then some subTreeSizesCache
  else countSubtreesLoop tree node fuel [node] (fun _ => 0) subTreeSizesCache

end Model

theorem countP_or_eq {α : Type*} [DecidableEq α] (p : α → Prop) [DecidablePred p] {l : List α}
    (nodup : l.Nodup) {a : α} (fails : ¬p a) :
    l.countP (fun x => decide (p x ∨ x = a)) =
      l.countP (fun x => decide (p x)) + if a ∈ l then 1 else 0 := by
  induction l with
  | nil => simp
  | cons x rest ih =>
    obtain ⟨fresh, restNodup⟩ := List.nodup_cons.mp nodup
    rw [List.countP_cons, List.countP_cons, ih restNodup]
    by_cases same : x = a
    · subst same
      simp [fails, fresh]
    · simp only [List.mem_cons, decide_eq_true_eq, same, Ne.symm same, or_false, false_or]
      omega

/-! ## The loop invariant -/

section Invariant

variable {Node : Type*} [DecidableEq Node]

variable (tree : LinkedTree Node) (root : Node) (initial : Node → Option ℕ)

open Classical

/-- The state of `countSubtrees` under `root`, started from the cache `initial`.
The nodes below `waiting` are untouched. A node over `markers` counts in `counts`
its finished children, but for `uncounted` of them. Every other node under `root`
is finished: its size is in the cache. -/
structure Invariant (waiting markers : List Node) (uncounted counts : Node → ℕ)
    (cache : Node → Option ℕ) : Prop where
  correct : ∀ u size, cache u = some size → size = tree.subtreeSize u
  untouched : ∀ u, tree.Below waiting u → cache u = initial u ∧ counts u = 0
  counting : ∀ u, tree.Descends root u → ¬tree.Below waiting u → tree.Above markers u →
    counts u + uncounted u =
      (tree.children u).countP fun child => ¬tree.Below waiting child ∧ ¬tree.Above markers child
  finished : ∀ u, tree.Descends root u → ¬tree.Below waiting u → ¬tree.Above markers u →
    cache u = some (tree.subtreeSize u)

/-- The invariant at the head of the queue loop. -/
structure LoopInvariant (queue : List Node) (counts : Node → ℕ) (cache : Node → Option ℕ) :
    Prop where
  inv : Invariant tree root initial queue queue (fun _ => 0) counts cache
  queued : ∀ q ∈ queue, tree.Descends root q
  antichain : tree.Antichain queue

/-- The invariant at the head of the push-up from `current`, whose size is in the
cache but not yet counted by its parent. -/
structure ClimbInvariant (queue : List Node) (current : Node) (counts : Node → ℕ)
    (cache : Node → Option ℕ) : Prop where
  inv : Invariant tree root initial queue ((tree.parent current).toList ++ queue)
    (fun u => if tree.parent current = some u then 1 else 0) counts cache
  below_root : tree.Descends root current
  not_below : ¬tree.Below queue current
  queued : ∀ q ∈ queue, tree.Descends root q
  antichain : tree.Antichain queue

variable {tree root initial}

variable {queue : List Node} {current : Node} {counts : Node → ℕ} {cache : Node → Option ℕ}

omit [DecidableEq Node] in
theorem Invariant.congr {waiting markers markers' : List Node} {uncounted uncounted' : Node → ℕ}
    (inv : Invariant tree root initial waiting markers uncounted counts cache)
    (sameAbove : ∀ u, tree.Descends root u → (tree.Above markers u ↔ tree.Above markers' u))
    (sameUncounted : ∀ u, tree.Descends root u → uncounted u = uncounted' u) :
    Invariant tree root initial waiting markers' uncounted' counts cache where
  correct := inv.correct
  untouched := inv.untouched
  counting u below notBelow above := by
    rw [← sameUncounted u below, inv.counting u below notBelow ((sameAbove u below).mpr above)]
    refine List.countP_congr fun child member => ?_
    simp only [decide_eq_true_eq, sameAbove child (below.trans (Descends.child member))]
  finished u below notBelow notAbove :=
    inv.finished u below notBelow fun above => notAbove ((sameAbove u below).mp above)

omit [DecidableEq Node] in
theorem LoopInvariant.start (correct : ∀ u size, initial u = some size → size = tree.subtreeSize u) :
    LoopInvariant tree root initial [root] (fun _ => 0) initial where
  inv :=
    { correct := correct
      untouched := fun _ _ => ⟨rfl, rfl⟩
      counting := fun _ below notBelow _ => absurd (below_cons.mpr (.inl below)) notBelow
      finished := fun _ below notBelow _ => absurd (below_cons.mpr (.inl below)) notBelow }
  queued q member := by
    rw [List.mem_singleton.mp member]
    exact Descends.refl root
  antichain := List.pairwise_singleton _ _

theorem LoopInvariant.expand (loop : LoopInvariant tree root initial (current :: queue) counts cache)
    (nonempty : tree.children current ≠ []) :
    LoopInvariant tree root initial (queue ++ tree.children current) counts cache := by
  refine ⟨⟨loop.inv.correct, fun u below =>
      loop.inv.untouched u (loop.antichain.below_append_children_iff.mp below).1, ?_, ?_⟩,
    ?_, loop.antichain.append_children⟩
  · intro u rootBelow notBelow above
    by_cases same : u = current
    · -- `current` is now counting, and its children are all queued
      rw [same, (loop.inv.untouched current (below_cons.mpr (.inl (Descends.refl current)))).2,
        Nat.add_zero, eq_comm, List.countP_eq_zero]
      intro child member
      rw [decide_eq_true_eq]
      exact fun ⟨notBelow', _⟩ =>
        notBelow' (below_append.mpr (.inr ⟨child, member, Descends.refl child⟩))
    · have notBelowOld : ¬tree.Below (current :: queue) u :=
        fun below => notBelow (loop.antichain.below_append_children_iff.mpr ⟨below, same⟩)
      have aboveOld : tree.Above (current :: queue) u := by
        by_contra notAbove
        exact ((loop.antichain.outside_append_children_iff nonempty).mpr
          ⟨notBelowOld, notAbove⟩).2 above
      rw [loop.inv.counting u rootBelow notBelowOld aboveOld]
      exact List.countP_congr fun x _ => by
        simp only [decide_eq_true_eq, loop.antichain.outside_append_children_iff nonempty]
  · intro u rootBelow notBelow notAbove
    obtain ⟨notBelowOld, notAboveOld⟩ :=
      (loop.antichain.outside_append_children_iff nonempty).mp ⟨notBelow, notAbove⟩
    exact loop.inv.finished u rootBelow notBelowOld notAboveOld
  · intro q member
    rcases List.mem_append.mp member with old | child
    · exact loop.queued q (List.mem_cons_of_mem _ old)
    · exact (loop.queued current List.mem_cons_self).trans (Descends.child child)

theorem LoopInvariant.dequeue (loop : LoopInvariant tree root initial (current :: queue) counts cache)
    (cachedBelow : ∀ u, tree.Descends current u → u ≠ current → (initial u).isSome) :
    Invariant tree root initial queue (current :: queue)
      (fun u => if u = current then (tree.children current).length else 0) counts cache := by
  refine ⟨loop.inv.correct, fun u below => loop.inv.untouched u (below_cons.mpr (.inr below)), ?_, ?_⟩
  · intro u rootBelow notBelow above
    by_cases down : tree.Descends current u
    · -- only `current` itself is both under and over it
      have same : u = current := by
        rcases above_cons.mp above with up | above
        · exact Descends.antisymm up down
        · exact absurd above (loop.antichain.not_above down)
      rw [same, (loop.inv.untouched current (below_cons.mpr (.inl (Descends.refl current)))).2,
        if_pos rfl, Nat.zero_add, eq_comm, List.countP_eq_length]
      intro child member
      rw [decide_eq_true_eq, loop.antichain.outside_tail_iff]
      refine .inr ⟨Descends.child member, fun same => ?_⟩
      rw [same] at member
      exact not_descends_of_mem_children member (Descends.refl current)
    · have notBelowOld : ¬tree.Below (current :: queue) u :=
        fun below => (below_cons.mp below).elim down notBelow
      have differ : u ≠ current := by
        rintro rfl
        exact down (Descends.refl u)
      rw [if_neg differ, loop.inv.counting u rootBelow notBelowOld above]
      refine List.countP_congr fun x member => ?_
      rw [decide_eq_true_eq, decide_eq_true_eq, loop.antichain.outside_tail_iff]
      refine ⟨.inl, fun finished => finished.resolve_right fun ⟨down', differ'⟩ => ?_⟩
      rcases (descends_child_iff member).mp down' with same | up
      · exact differ' same.symm
      · exact down up
  · intro u rootBelow notBelow notAbove
    rcases loop.antichain.outside_tail_iff.mp ⟨notBelow, notAbove⟩ with
      ⟨notBelowOld, notAboveOld⟩ | ⟨down, differ⟩
    · exact loop.inv.finished u rootBelow notBelowOld notAboveOld
    · obtain ⟨size, cached⟩ := Option.isSome_iff_exists.mp (cachedBelow u down differ)
      have untouched := (loop.inv.untouched u (below_cons.mpr (.inl down))).1
      rw [untouched, cached, loop.inv.correct u size (untouched.trans cached)]

/-- Storing the size of `node`, whose children are all finished: it becomes
finished, and its parent has one finished child it has not counted. -/
theorem Invariant.finish {waiting : List Node} {node : Node} {extra : Node → ℕ}
    (inv : Invariant tree root initial waiting (node :: waiting) extra counts cache)
    (vanish : ∀ u, u ≠ node → extra u = 0) (notBelow : ¬tree.Below waiting node)
    (childrenDone : ∀ child ∈ tree.children node,
      ¬tree.Below waiting child ∧ ¬tree.Above (node :: waiting) child) :
    Invariant tree root initial waiting ((tree.parent node).toList ++ waiting)
      (fun u => if tree.parent node = some u then 1 else 0) counts
      (Function.update cache node (some (tree.subtreeSize node))) := by
  -- nothing waiting lies under `node`: it would lie under a finished child
  have notAbove : ¬tree.Above waiting node := fun above => by
    obtain ⟨child, member, childAbove⟩ := exists_child_above notBelow above
    exact (childrenDone child member).2 (above_cons.mpr (.inr childAbove))
  have notFinished : ¬(¬tree.Below waiting node ∧ ¬tree.Above (node :: waiting) node) :=
    fun ⟨_, notAbove'⟩ => notAbove' (above_cons.mpr (.inl (Descends.refl node)))
  refine ⟨?_, ?_, ?_, ?_⟩
  · intro u size cached
    by_cases same : u = node
    · rw [same, Function.update_self] at cached
      rw [same]
      exact (Option.some.inj cached).symm
    · rw [Function.update_of_ne same] at cached
      exact inv.correct u size cached
  · intro u below
    have differ : u ≠ node := fun same => notBelow (same ▸ below)
    rw [Function.update_of_ne differ]
    exact inv.untouched u below
  · intro u rootBelow notBelowU above
    have differ : u ≠ node := by
      rintro rfl
      exact ((outside_parent_iff notBelow notAbove).mpr (.inr rfl)).2 above
    have aboveOld : tree.Above (node :: waiting) u := by
      rw [above_append, above_parent] at above
      rw [above_cons]
      rcases above with ⟨up, _⟩ | above
      · exact .inl up
      · exact .inr above
    have counted := inv.counting u rootBelow notBelowU aboveOld
    rw [vanish u differ, Nat.add_zero] at counted
    calc counts u + (if tree.parent node = some u then 1 else 0)
        = (tree.children u).countP
            (fun x => decide (¬tree.Below waiting x ∧ ¬tree.Above (node :: waiting) x)) +
          (if node ∈ tree.children u then 1 else 0) := by
          rw [counted]
          simp only [tree.parent_eq_some_iff]
      _ = (tree.children u).countP (fun x =>
            decide ((¬tree.Below waiting x ∧ ¬tree.Above (node :: waiting) x) ∨ x = node)) :=
          (countP_or_eq _ (tree.children_nodup u) notFinished).symm
      _ = _ := List.countP_congr fun x _ => by
          rw [decide_eq_true_eq, decide_eq_true_eq]
          exact (outside_parent_iff notBelow notAbove).symm
  · intro u rootBelow notBelowU notAboveU
    rcases (outside_parent_iff notBelow notAbove).mp ⟨notBelowU, notAboveU⟩ with
      ⟨notBelowOld, notAboveOld⟩ | same
    · have differ : u ≠ node := by
        rintro rfl
        exact notAboveOld (above_cons.mpr (.inl (Descends.refl u)))
      rw [Function.update_of_ne differ]
      exact inv.finished u rootBelow notBelowOld notAboveOld
    · rw [same, Function.update_self]

theorem LoopInvariant.enterClimb
    (loop : LoopInvariant tree root initial (current :: queue) counts cache)
    (cachedBelow : ∀ u, tree.Descends current u → u ≠ current → (initial u).isSome) :
    ClimbInvariant tree root initial queue current counts
      (Function.update cache current (some (tree.subtreeSize current))) where
  inv := (loop.dequeue cachedBelow).finish (fun _ differ => if_neg differ)
    (loop.antichain.not_below (Descends.refl current)) fun _ member =>
      ⟨loop.antichain.not_below (Descends.child member), fun above =>
        (above_cons.mp above).elim (not_descends_of_mem_children member)
          (loop.antichain.not_above (Descends.child member))⟩
  below_root := loop.queued current List.mem_cons_self
  not_below := loop.antichain.not_below (Descends.refl current)
  queued q member := loop.queued q (List.mem_cons_of_mem _ member)
  antichain := loop.antichain.of_cons

theorem ClimbInvariant.not_below_parent
    (climb : ClimbInvariant tree root initial queue current counts cache) {parent : Node}
    (parentEq : tree.parent current = some parent) : ¬tree.Below queue parent :=
  fun ⟨top, member, down⟩ => climb.not_below
    ⟨top, member, down.trans (Descends.child (tree.parent_eq_some_iff.mp parentEq))⟩

theorem ClimbInvariant.increment
    (climb : ClimbInvariant tree root initial queue current counts cache) {parent : Node}
    (parentEq : tree.parent current = some parent) :
    Invariant tree root initial queue (parent :: queue) (fun _ => 0)
      (Function.update counts parent (counts parent + 1)) cache := by
  have inv := climb.inv
  rw [parentEq, Option.toList_some, List.singleton_append] at inv
  have notBelow := climb.not_below_parent parentEq
  refine ⟨inv.correct, ?_, ?_, inv.finished⟩
  · intro u below
    have differ : u ≠ parent := fun same => notBelow (same ▸ below)
    rw [Function.update_of_ne differ]
    exact inv.untouched u below
  · intro u rootBelow notBelowU above
    rw [← inv.counting u rootBelow notBelowU above, Nat.add_zero]
    by_cases same : u = parent
    · rw [same, Function.update_self, if_pos rfl]
    · rw [Function.update_of_ne same, if_neg fun eq => same (Option.some.inj eq).symm, Nat.add_zero]

omit [DecidableEq Node] in
theorem Invariant.leave {parent : Node}
    (inv : Invariant tree root initial queue (parent :: queue) (fun _ => 0) counts cache)
    (rootBelow : tree.Descends root parent) (notBelow : ¬tree.Below queue parent)
    (waiting : counts parent ≠ (tree.children parent).length) :
    Invariant tree root initial queue queue (fun _ => 0) counts cache := by
  have counted :=
    inv.counting parent rootBelow notBelow (above_cons.mpr (.inl (Descends.refl parent)))
  rw [Nat.add_zero] at counted
  have notAll : ¬∀ child ∈ tree.children parent,
      ¬tree.Below queue child ∧ ¬tree.Above (parent :: queue) child := fun allDone =>
    waiting (counted.trans (List.countP_eq_length.mpr fun child member =>
      decide_eq_true (allDone child member)))
  obtain ⟨child, member, unfinished⟩ := not_forall₂.mp notAll
  have above : tree.Above queue parent := by
    refine above_of_child member notBelow ?_
    by_cases below : tree.Below queue child
    · exact .inl below
    · rcases above_cons.mp (not_not.mp fun notAbove => unfinished ⟨below, notAbove⟩) with up | above
      · exact absurd up (not_descends_of_mem_children member)
      · exact .inr above
  refine inv.congr (fun u _ => ?_) fun _ _ => rfl
  rw [above_cons]
  obtain ⟨bottom, bottomMember, up⟩ := above
  exact ⟨fun held => held.elim (fun down => ⟨bottom, bottomMember, down.trans up⟩) id, .inr⟩

omit [DecidableEq Node] in
theorem Invariant.childrenDone {parent : Node}
    (inv : Invariant tree root initial queue (parent :: queue) (fun _ => 0) counts cache)
    (rootBelow : tree.Descends root parent) (notBelow : ¬tree.Below queue parent)
    (ready : counts parent = (tree.children parent).length) :
    ∀ child ∈ tree.children parent,
      ¬tree.Below queue child ∧ ¬tree.Above (parent :: queue) child := by
  have counted :=
    inv.counting parent rootBelow notBelow (above_cons.mpr (.inl (Descends.refl parent)))
  rw [Nat.add_zero, ready, eq_comm, List.countP_eq_length] at counted
  exact fun child member => of_decide_eq_true (counted child member)

theorem ClimbInvariant.atRoot (climb : ClimbInvariant tree root initial queue root counts cache) :
    LoopInvariant tree root initial queue counts cache where
  inv := climb.inv.congr
    (fun u rootBelow => by
      rw [above_append, above_parent]
      exact ⟨fun above => above.resolve_left fun ⟨up, differ⟩ =>
        differ (Descends.antisymm up rootBelow), .inr⟩)
    fun u rootBelow => if_neg fun parentEq =>
      not_descends_of_mem_children (tree.parent_eq_some_iff.mp parentEq) rootBelow
  queued := climb.queued
  antichain := climb.antichain

omit [DecidableEq Node] in
theorem LoopInvariant.sizes (loop : LoopInvariant tree root initial [] counts cache) {u : Node}
    (below : tree.Descends root u) : cache u = some (tree.subtreeSize u) :=
  loop.inv.finished u below (below_nil u) (above_nil u)

end Invariant

/-! ## Runs of the push-up and of the queue loop -/

section Runs

variable {Node : Type*} [DecidableEq Node] {tree : LinkedTree Node} {root : Node}
  {initial : Node → Option ℕ}

omit [DecidableEq Node] in
theorem isSome_of_descends
    (closed : ∀ u, (initial u).isSome → ∀ child ∈ tree.children u, (initial child).isSome)
    {top u : Node} (descends : tree.Descends top u) (cached : (initial top).isSome) :
    (initial u).isSome := by
  induction descends with
  | refl => exact cached
  | tail _ member ih => exact closed _ ih _ member

omit [DecidableEq Node] in
theorem sum_sizes_children {cache : Node → Option ℕ} {node : Node}
    (known : ∀ child ∈ tree.children node, cache child = some (tree.subtreeSize child)) :
    ((tree.children node).map fun child => (cache child).getD 0).sum + 1 = tree.subtreeSize node := by
  rw [subtreeSize_eq]
  congr 2
  exact List.map_congr_left fun child member => by rw [known child member, Option.getD_some]

theorem pushUp_spec (fuel : ℕ) {queue : List Node} {current : Node} {counts : Node → ℕ}
    {cache : Node → Option ℕ} (climb : ClimbInvariant tree root initial queue current counts cache)
    (enough : tree.height root - tree.height current < fuel) :
    ∃ counts' cache', pushUp tree root fuel current counts cache = some (counts', cache') ∧
      LoopInvariant tree root initial queue counts' cache' := by
  induction fuel generalizing current counts cache with
  | zero => omega
  | succ fuel ih =>
    by_cases atRoot : current = root
    · rw [atRoot] at climb
      exact ⟨counts, cache, by rw [pushUp, if_pos atRoot], climb.atRoot⟩
    obtain ⟨parent, parentEq, rootBelow⟩ := exists_parent_of_descends climb.below_root atRoot
    have counted := climb.increment parentEq
    have notBelow := climb.not_below_parent parentEq
    simp only [pushUp, if_neg atRoot, parentEq]
    split_ifs with waiting
    · exact ⟨_, _, rfl, counted.leave rootBelow notBelow waiting, climb.queued, climb.antichain⟩
    · -- every child of `parent` is finished: its size is stored and the climb goes on
      have done := counted.childrenDone rootBelow notBelow (not_not.mp waiting)
      have known : ∀ child ∈ tree.children parent, cache child = some (tree.subtreeSize child) :=
        fun child member => counted.finished child (rootBelow.trans (Descends.child member))
          (done child member).1 (done child member).2
      have higher : tree.height current < tree.height parent :=
        tree.height_lt (tree.parent_eq_some_iff.mp parentEq)
      have belowRoot := rootBelow.height_le
      rw [sum_sizes_children known]
      exact ih ⟨counted.finish (fun _ _ => rfl) notBelow done, rootBelow, notBelow, climb.queued,
        climb.antichain⟩ (by omega)

theorem countSubtreesLoop_spec
    (closed : ∀ u, (initial u).isSome → ∀ child ∈ tree.children u, (initial child).isSome)
    (fuel : ℕ) {queue : List Node} {counts : Node → ℕ} {cache : Node → Option ℕ}
    (loop : LoopInvariant tree root initial queue counts cache)
    (enough : (queue.map tree.subtreeSize).sum < fuel) :
    ∃ counted, countSubtreesLoop tree root fuel queue counts cache = some counted ∧
      (∀ u size, counted u = some size → size = tree.subtreeSize u) ∧
      ∀ u, tree.Descends root u → counted u = some (tree.subtreeSize u) := by
  induction fuel generalizing queue counts cache with
  | zero => omega
  | succ fuel ih =>
    cases queue with
    | nil => exact ⟨cache, rfl, loop.inv.correct, fun u below => loop.sizes below⟩
    | cons current queue =>
      rw [List.map_cons, List.sum_cons] at enough
      have positive : 0 < tree.subtreeSize current := by
        rw [subtreeSize_eq]
        omega
      have climbHeight : tree.height root - tree.height current < tree.height root + 1 := by omega
      simp only [countSubtreesLoop]
      split_ifs with leaf uncached
      · -- a leaf has size one
        have one : tree.subtreeSize current = 1 := by
          rw [subtreeSize_eq, leaf, List.map_nil, List.sum_nil]
        have climb := loop.enterClimb fun u down differ =>
          absurd (below_children.mpr ⟨down, differ⟩) (by rw [leaf]; exact below_nil u)
        rw [one] at climb
        obtain ⟨counts', cache', pushed, loop'⟩ := pushUp_spec (tree.height root + 1) climb climbHeight
        rw [pushed]
        exact ih loop' (by omega)
      · -- the children are queued in place of `current`
        apply ih (loop.expand leaf)
        rw [List.map_append, List.sum_append]
        have split : tree.subtreeSize current =
            ((tree.children current).map tree.subtreeSize).sum + 1 := subtreeSize_eq current
        omega
      · -- a cached size is pushed up as it is
        obtain ⟨size, cached⟩ := Option.ne_none_iff_exists'.mp uncached
        have untouched :=
          (loop.inv.untouched current (below_cons.mpr (.inl (Descends.refl current)))).1
        have correct := loop.inv.correct current size cached
        have climb := loop.enterClimb fun u down _ =>
          isSome_of_descends closed down (by simp [← untouched, cached])
        rw [← correct, ← cached, Function.update_eq_self] at climb
        obtain ⟨counts', cache', pushed, loop'⟩ := pushUp_spec (tree.height root + 1) climb climbHeight
        rw [pushed]
        exact ih loop' (by omega)

end Runs

/-! ## Subtree counting -/

section Count

variable {Node : Type*} [DecidableEq Node]

theorem countSubtrees_matches_recursive (tree : LinkedTree Node) (node : Node)
    (subTreeSizesCache : Node → Option ℕ)
    (correct : ∀ u size, subTreeSizesCache u = some size → size = tree.subtreeSize u)
    (closed : ∀ u, (subTreeSizesCache u).isSome →
      ∀ child ∈ tree.children u, (subTreeSizesCache child).isSome)
    (fuel : ℕ) (enough : tree.subtreeSize node < fuel) :
    ∃ counted, countSubtrees tree fuel subTreeSizesCache node = some counted ∧
      (∀ u size, counted u = some size → size = tree.subtreeSize u) ∧
      ∀ u, tree.Descends node u →
        counted u = some (((tree.children u).map fun child => (counted child).getD 0).sum + 1) ∧
          counted u = some (tree.subtreeNodes u).length := by
  have sizes : ∃ counted, countSubtrees tree fuel subTreeSizesCache node = some counted ∧
      (∀ u size, counted u = some size → size = tree.subtreeSize u) ∧
      ∀ u, tree.Descends node u → counted u = some (tree.subtreeSize u) := by
    rw [countSubtrees]
    split_ifs with cached
    · -- the early return: the whole subtree is cached already
      refine ⟨subTreeSizesCache, rfl, correct, fun u below => ?_⟩
      obtain ⟨size, held⟩ := Option.isSome_iff_exists.mp (isSome_of_descends closed below cached)
      rw [held, correct u size held]
    · exact countSubtreesLoop_spec closed fuel (LoopInvariant.start correct) (by simpa using enough)
  obtain ⟨counted, result, countedCorrect, known⟩ := sizes
  refine ⟨counted, result, countedCorrect, fun u below => ?_⟩
  rw [known u below, sum_sizes_children fun child member =>
    known child (below.trans (Descends.child member)), length_subtreeNodes]
  exact ⟨rfl, rfl⟩

def lineTree : LinkedTree (Fin 3) where
  children := ![[1], [2], []]
  parent := ![none, some 0, some 1]
  height := ![2, 1, 0]
  children_nodup := by decide
  parent_eq_some_iff := by decide
  height_lt := by decide

theorem lineTree_subtreeSize_two : lineTree.subtreeSize 2 = 1 := by
  rw [subtreeSize_eq]
  rfl

theorem lineTree_subtreeSize_one : lineTree.subtreeSize 1 = 2 := by
  rw [subtreeSize_eq, show lineTree.children 1 = [2] from rfl, List.map_singleton,
    List.sum_singleton, lineTree_subtreeSize_two]

def forkTree : LinkedTree (Fin 5) where
  children := ![[1, 2], [3, 4], [], [], []]
  parent := ![none, some 0, some 0, some 1, some 1]
  height := ![2, 1, 0, 0, 0]
  children_nodup := by decide
  parent_eq_some_iff := by decide
  height_lt := by decide

theorem forkTree_subtreeSize_leaf {u : Fin 5} (leaf : forkTree.children u = []) :
    forkTree.subtreeSize u = 1 := by
  rw [subtreeSize_eq, leaf]
  rfl

theorem forkTree_subtreeSize_one : forkTree.subtreeSize 1 = 3 := by
  rw [subtreeSize_eq, show forkTree.children 1 = [3, 4] from rfl, List.map_cons, List.map_cons,
    List.map_nil, forkTree_subtreeSize_leaf rfl, forkTree_subtreeSize_leaf rfl]
  rfl

theorem forkTree_subtreeSize_zero : forkTree.subtreeSize 0 = 5 := by
  rw [subtreeSize_eq, show forkTree.children 0 = [1, 2] from rfl, List.map_cons, List.map_cons,
    List.map_nil, forkTree_subtreeSize_one, forkTree_subtreeSize_leaf rfl]
  rfl

/-- A cache holding the whole subtree of 1: the walk from 0 does not expand 1,
and 0 waits for its second child 2 before its size is known. -/
def forkCache : Fin 5 → Option ℕ := ![none, some 3, none, some 1, some 1]

theorem countSubtrees_matches_recursive_fork :
    (∀ u size, forkCache u = some size → size = forkTree.subtreeSize u) ∧
      (∀ u, (forkCache u).isSome → ∀ child ∈ forkTree.children u, (forkCache child).isSome) ∧
      forkTree.subtreeSize 0 < 10 ∧
      ∃ counted, countSubtrees forkTree 10 forkCache 0 = some counted ∧
        (∀ u size, counted u = some size → size = forkTree.subtreeSize u) ∧
        ∀ u, forkTree.Descends 0 u →
          counted u =
              some (((forkTree.children u).map fun child => (counted child).getD 0).sum + 1) ∧
            counted u = some (forkTree.subtreeNodes u).length := by
  have correct : ∀ u size, forkCache u = some size → size = forkTree.subtreeSize u := by
    intro u size cached
    fin_cases u
    · cases cached
    · change some 3 = some size at cached
      show size = forkTree.subtreeSize 1
      rw [forkTree_subtreeSize_one, Option.some.inj cached]
    · cases cached
    · change some 1 = some size at cached
      rw [forkTree_subtreeSize_leaf rfl, Option.some.inj cached]
    · change some 1 = some size at cached
      rw [forkTree_subtreeSize_leaf rfl, Option.some.inj cached]
  have closed : ∀ u, (forkCache u).isSome →
      ∀ child ∈ forkTree.children u, (forkCache child).isSome := by decide
  have enough : forkTree.subtreeSize 0 < 10 := by
    rw [forkTree_subtreeSize_zero]
    decide
  exact ⟨correct, closed, enough,
    countSubtrees_matches_recursive forkTree 0 forkCache correct closed 10 enough⟩

example : (countSubtrees forkTree 10 forkCache 0).map (fun counted => (counted 0, counted 2)) =
    some (some 5, some 1) := by
  decide

def precachedMiddle : Fin 3 → Option ℕ := ![none, some 2, none]

theorem countSubtrees_precached_child :
    (∀ u size, precachedMiddle u = some size → size = lineTree.subtreeSize u) ∧
      ∃ counted, countSubtrees lineTree 10 precachedMiddle 0 = some counted ∧
        counted 1 ≠
          some (((lineTree.children 1).map fun child => (counted child).getD 0).sum + 1) ∧
        counted 2 = none := by
  refine ⟨fun u size cached => ?_, _, rfl, by decide, rfl⟩
  fin_cases u
  · simp [precachedMiddle] at cached
  · change some 2 = some size at cached
    show size = lineTree.subtreeSize 1
    rw [lineTree_subtreeSize_one, Option.some.inj cached]
  · simp [precachedMiddle] at cached

end Count

end Cryptixd.Reachability
