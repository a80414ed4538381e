import Mathlib
import Cryptixd.Lib.GreedyOrder
import Cryptixd.Mining.AtomicOrder

/-!
# The emission loop of the CAT template order

`orderAtomicCandidateIndices` runs Kahn's algorithm, re-sorting the ready list before
every pop. This module shows that it is a greedy topological order in the sense of
`GreedyOrder.Greedy`: over the positions `0 .. n-1`, where a position waits for the
positions `dependencyParents` names, the loop emits at each pass the least ready
position by `compareAtomicOrderPriority`, and when it runs dry the rest follows
sorted.

The argument has three parts. The priority is a lexicographic comparison of seven
fields (`compareAtomicOrderPriority_eq_lex`), hence a total preorder that identifies
only equal priorities. The dependency loop builds, for every position, a count equal
to the number of its parents and lists each child under each of its parents as often
(`dependencyGraph_dependencyCounts`, `count_dependencyGraph_dependents`). And the
emission loop keeps `LoopInvariant`: a count is the number of parents not yet
emitted, and every position not emitted whose count is zero is in the ready list.
Each pass lowers `pendingWork`, the ready list plus the edges still to release,
which `emitFuel` bounds at the start, so the fuel never runs out
(`emitLoop_greedy`).
-/

set_option autoImplicit false

namespace Cryptixd.Mining

open Cryptixd.Atomic GreedyOrder

/-! ## The priority is lexicographic -/

/-- Go's `if l < r { return -1 }; if l > r { return 1 }; return rest` over a total
order is `compare l r` refined by `rest`. -/
theorem ite_lt_gt_eq_then {β : Type} [LT β] [DecidableRel (α := β) (· < ·)] [DecidableEq β]
    (total : ∀ l r : β, ¬ l < r → l ≠ r → r < l) (l r : β) (rest : Ordering) :
    (if l < r then Ordering.lt else if l > r then .gt else rest) =
      (compareOfLessAndEq l r).then rest := by
  unfold compareOfLessAndEq
  by_cases below : l < r
  · simp [below]
  · by_cases same : l = r
    · subst same
      simp [below]
    · simp [below, same, total l r below same]

theorem then_of_ne_eq {o : Ordering} (differ : o ≠ .eq) (rest : Ordering) : o.then rest = o := by
  cases o <;> simp_all [Ordering.then]

theorem ite_lt_gt_uint64 (l r : UInt64) (rest : Ordering) :
    (if l < r then Ordering.lt else if l > r then .gt else rest) = (compare l r).then rest :=
  ite_lt_gt_eq_then (fun l r notBelow differ => by
    rw [UInt64.lt_iff_toNat_lt] at *
    have := mt UInt64.toNat_inj.1 differ
    omega) l r rest

theorem ite_lt_gt_uint8 (l r : UInt8) (rest : Ordering) :
    (if l < r then Ordering.lt else if l > r then .gt else rest) = (compare l r).then rest :=
  ite_lt_gt_eq_then (fun l r notBelow differ => by
    rw [UInt8.lt_iff_toNat_lt] at *
    have := mt UInt8.toNat_inj.1 differ
    omega) l r rest

theorem compareAtomicNonceKey_eq_then (l r : NonceKey) :
    compareAtomicNonceKey l r = (compare l.ownerID r.ownerID).then
      ((compare l.scopeKind r.scopeKind).then (compare l.scopeID r.scopeID)) := by
  unfold compareAtomicNonceKey
  rw [ite_lt_gt_uint8]
  split
  · rename_i same
    rw [same]
    rfl
  · rename_i differ
    exact (then_of_ne_eq differ _).symm

/-- `compareAtomicOrderPriority` compares owner, scope kind, scope, nonce, pool asset,
pool nonce and transaction id, each deciding unless equal. -/
theorem compareAtomicOrderPriority_eq_lex :
    compareAtomicOrderPriority =
      compareLex (compareOn fun p : TemplateAtomicOrderPriority => p.nonceKey.ownerID)
        (compareLex (compareOn fun p : TemplateAtomicOrderPriority => p.nonceKey.scopeKind)
        (compareLex (compareOn fun p : TemplateAtomicOrderPriority => p.nonceKey.scopeID)
        (compareLex (compareOn fun p : TemplateAtomicOrderPriority => p.nonce)
        (compareLex (compareOn fun p : TemplateAtomicOrderPriority => p.poolAssetID)
        (compareLex (compareOn fun p : TemplateAtomicOrderPriority => p.poolNonce)
          (compareOn fun p : TemplateAtomicOrderPriority => p.txID)))))) := by
  funext l r
  unfold compareAtomicOrderPriority
  rw [compareAtomicNonceKey_eq_then, ite_lt_gt_uint64, ite_lt_gt_uint64]
  simp only [compareLex, compareOn]
  split
  · rename_i keyEq
    obtain ⟨ownerEq, kindEq⟩ := Ordering.then_eq_eq.1 keyEq
    obtain ⟨kindEq, scopeEq⟩ := Ordering.then_eq_eq.1 kindEq
    simp only [ownerEq, kindEq, scopeEq, Ordering.eq_then]
    split
    · rename_i poolEq
      simp only [poolEq, Ordering.eq_then]
    · rename_i poolDiffer
      rw [then_of_ne_eq poolDiffer]
  · rename_i keyDiffer
    simp only [← Ordering.then_assoc] at keyDiffer ⊢
    simp only [then_of_ne_eq keyDiffer]

instance : Std.TransCmp compareAtomicOrderPriority := by
  rw [compareAtomicOrderPriority_eq_lex]
  infer_instance

theorem eq_of_compareAtomicOrderPriority_eq {l r : TemplateAtomicOrderPriority}
    (same : compareAtomicOrderPriority l r = .eq) : l = r := by
  simp only [compareAtomicOrderPriority_eq_lex, compareLex, compareOn, Ordering.then_eq_eq,
    Std.LawfulEqCmp.compare_eq_iff_eq] at same
  obtain ⟨⟨ownerID, scopeKind, scopeID⟩, nonce, poolAssetID, poolNonce, txID⟩ := l
  obtain ⟨⟨ownerID', scopeKind', scopeID'⟩, nonce', poolAssetID', poolNonce', txID'⟩ := r
  simp_all

/-- The order the ready list is sorted by, as a test on order information. -/
def infoLE (left right : TemplateAtomicOrderInfo) : Bool :=
  (compareAtomicOrderPriority left.priority right.priority).isLE

theorem infoLE_refl (info : TemplateAtomicOrderInfo) : infoLE info info = true := by
  simp [infoLE, Std.ReflCmp.compare_self]

theorem infoLE_trans {a b c : TemplateAtomicOrderInfo} (ab : infoLE a b = true)
    (bc : infoLE b c = true) : infoLE a c = true :=
  Std.TransCmp.isLE_trans ab bc

theorem infoLE_total (a b : TemplateAtomicOrderInfo) : (infoLE a b || infoLE b a) = true := by
  unfold infoLE
  rw [@Std.OrientedCmp.eq_swap _ compareAtomicOrderPriority _ a.priority b.priority]
  cases compareAtomicOrderPriority b.priority a.priority <;> rfl

theorem priority_eq_of_infoLE {a b : TemplateAtomicOrderInfo} (ab : infoLE a b = true)
    (ba : infoLE b a = true) : a.priority = b.priority := by
  unfold infoLE at ab ba
  rw [@Std.OrientedCmp.eq_swap _ compareAtomicOrderPriority _ b.priority a.priority] at ba
  apply eq_of_compareAtomicOrderPriority_eq
  revert ab ba
  cases compareAtomicOrderPriority a.priority b.priority <;> simp

/-! ## The dependency relation -/

/-- A CAT operation needs another when it holds the same nonce key at the next nonce,
trades against the same pool at the next pool nonce, or refers to the asset the other
creates. -/
def AtomicDependsOn (child parent : TemplateAtomicOrderInfo) : Prop :=
  (child.nonce > 1 ∧ parent.nonceKey = child.nonceKey ∧ parent.nonce = child.nonce - 1) ∨
  (child.hasPool = true ∧ child.poolNonce > 1 ∧ parent.hasPool = true ∧
    parent.poolAssetID = child.poolAssetID ∧ parent.poolNonce = child.poolNonce - 1) ∨
  (child.hasReferencedAsset = true ∧ parent.hasCreatedAsset = true ∧
    parent.createdAssetID = child.referencedAssetID)

instance : DecidableRel AtomicDependsOn := fun _ _ => by
  unfold AtomicDependsOn
  infer_instance

section Graph

variable (atomicItems : List TemplateAtomicItem)

def positionParents (child : ℕ) : List ℕ :=
  dependencyParents atomicItems (infoAt atomicItems child)

def positionLE (left right : ℕ) : Bool :=
  infoLE (infoAt atomicItems left) (infoAt atomicItems right)

variable {atomicItems}

theorem mem_ite_filter_range {condition : Prop} [Decidable condition] {n parent : ℕ}
    {keep : ℕ → Bool} :
    parent ∈ (if condition then (List.range n).filter keep else []) ↔
      parent < n ∧ condition ∧ keep parent = true := by
  by_cases holds : condition <;> simp [holds]

theorem mem_dependencyParents {info : TemplateAtomicOrderInfo} {parent : ℕ} :
    parent ∈ dependencyParents atomicItems info ↔
      parent < atomicItems.length ∧ AtomicDependsOn info (infoAt atomicItems parent) := by
  unfold dependencyParents byNonce byPool byCreatedAsset AtomicDependsOn
  simp only [List.mem_append, mem_ite_filter_range, decide_eq_true_eq, ← and_or_left, and_assoc,
    or_assoc]

theorem positionParents_of_le {child : ℕ} (outside : atomicItems.length ≤ child) :
    positionParents atomicItems child = [] := by
  simp [positionParents, infoAt, outside, dependencyParents, orderInfoOf]

theorem lt_of_mem_positionParents {child parent : ℕ}
    (member : parent ∈ positionParents atomicItems child) :
    parent < atomicItems.length ∧ child < atomicItems.length := by
  refine ⟨(mem_dependencyParents.1 member).1, Nat.lt_of_not_le fun outside => ?_⟩
  rw [positionParents_of_le outside] at member
  exact List.not_mem_nil member

theorem addDependency_dependencyCounts (graph : DependencyGraph) (parent child c : ℕ) :
    (addDependency graph parent child).dependencyCounts c =
      graph.dependencyCounts c + if c = child then 1 else 0 := by
  unfold addDependency
  by_cases same : c = child <;> simp [same]

theorem count_addDependency_dependents (graph : DependencyGraph) (parent child p c : ℕ) :
    ((addDependency graph parent child).dependents p).count c =
      (graph.dependents p).count c + if p = parent ∧ c = child then 1 else 0 := by
  unfold addDependency
  by_cases same : p = parent
  · subst same
    by_cases isChild : c = child
    · subst isChild
      simp
    · simp [isChild, Ne.symm isChild]
  · simp [same]

theorem foldl_addDependency (parents : List ℕ) (child : ℕ) (graph : DependencyGraph) :
    let added := parents.foldl (fun graph parent => addDependency graph parent child) graph
    (∀ c, added.dependencyCounts c = graph.dependencyCounts c + if c = child then parents.length else 0) ∧
    ∀ p c, (added.dependents p).count c =
      (graph.dependents p).count c + if c = child then parents.count p else 0 := by
  induction parents generalizing graph with
  | nil => simp
  | cons parent rest ih =>
    obtain ⟨counts, dependents⟩ := ih (addDependency graph parent child)
    refine ⟨fun c => ?_, fun p c => ?_⟩
    · rw [List.foldl_cons, counts, addDependency_dependencyCounts, List.length_cons]
      split_ifs <;> omega
    · rw [List.foldl_cons, dependents, count_addDependency_dependents, List.count_cons]
      by_cases isChild : c = child <;> by_cases isParent : p = parent <;>
        simp [isChild, isParent] <;> omega

theorem foldl_addChildDependencies (children : List ℕ) (graph : DependencyGraph) :
    let built := children.foldl (addChildDependencies atomicItems) graph
    (∀ c, built.dependencyCounts c =
      graph.dependencyCounts c + children.count c * (positionParents atomicItems c).length) ∧
    ∀ p c, (built.dependents p).count c =
      (graph.dependents p).count c + children.count c * (positionParents atomicItems c).count p := by
  induction children generalizing graph with
  | nil => simp
  | cons child rest ih =>
    obtain ⟨counts, dependents⟩ := ih (addChildDependencies atomicItems graph child)
    obtain ⟨childCounts, childDependents⟩ := foldl_addDependency
      (dependencyParents atomicItems (infoAt atomicItems child)) child graph
    refine ⟨fun c => ?_, fun p c => ?_⟩
    · rw [List.foldl_cons, counts, addChildDependencies, childCounts, List.count_cons]
      by_cases isChild : c = child
      · subst isChild
        simp [positionParents, Nat.succ_mul]
        omega
      · simp [isChild, Ne.symm isChild]
    · rw [List.foldl_cons, dependents, addChildDependencies, childDependents, List.count_cons]
      by_cases isChild : c = child
      · subst isChild
        simp [positionParents, Nat.succ_mul]
        omega
      · simp [isChild, Ne.symm isChild]

theorem dependencyGraph_dependencyCounts (c : ℕ) :
    (dependencyGraph atomicItems).dependencyCounts c = (positionParents atomicItems c).length := by
  rw [dependencyGraph, (foldl_addChildDependencies _ _).1 c, List.count_range]
  by_cases inRange : c < atomicItems.length
  · simp [inRange]
  · simp [inRange, positionParents_of_le (Nat.le_of_not_lt inRange)]

theorem count_dependencyGraph_dependents (p c : ℕ) :
    ((dependencyGraph atomicItems).dependents p).count c = (positionParents atomicItems c).count p := by
  rw [dependencyGraph, (foldl_addChildDependencies _ _).2 p c, List.count_range]
  by_cases inRange : c < atomicItems.length
  · simp [inRange]
  · simp [inRange, positionParents_of_le (Nat.le_of_not_lt inRange)]

theorem mem_dependencyGraph_dependents {p c : ℕ} :
    c ∈ (dependencyGraph atomicItems).dependents p ↔ p ∈ positionParents atomicItems c := by
  rw [← List.count_pos_iff, count_dependencyGraph_dependents, List.count_pos_iff]

end Graph

/-! ## Releasing the children of an emitted position -/

theorem releaseChild_counts (acc : (ℕ → ℕ) × List ℕ) (child c : ℕ) :
    (releaseChild acc child).1 c = acc.1 c - if c = child then 1 else 0 := by
  unfold releaseChild
  by_cases same : c = child
  · subst same
    split_ifs <;> simp_all
  · split_ifs <;> simp [same]

theorem mem_releaseChild (acc : (ℕ → ℕ) × List ℕ) (child c : ℕ) :
    c ∈ (releaseChild acc child).2 ↔ c ∈ acc.2 ∨ (c = child ∧ acc.1 c - 1 = 0) := by
  unfold releaseChild
  dsimp only
  by_cases same : c = child
  · subst same
    by_cases zero : acc.1 c = 0
    · simp [zero]
    · simp only [Nat.pos_of_ne_zero zero, if_true, Function.update_self]
      split_ifs <;> simp_all
  · split_ifs <;> simp [same]

theorem length_releaseChild (acc : (ℕ → ℕ) × List ℕ) (child : ℕ) :
    (releaseChild acc child).2.length ≤ acc.2.length + 1 := by
  unfold releaseChild
  dsimp only
  split_ifs <;> simp

/-- Releasing the children `children`: each count drops by the number of times the
child is listed, and a child is pushed when its count reaches zero. -/
theorem foldl_releaseChild (children : List ℕ) (acc : (ℕ → ℕ) × List ℕ) :
    let released := children.foldl releaseChild acc
    (∀ c, released.1 c = acc.1 c - children.count c) ∧
    (∀ c, c ∈ released.2 ↔ c ∈ acc.2 ∨ (c ∈ children ∧ acc.1 c - children.count c = 0)) ∧
    released.2.length ≤ acc.2.length + children.length := by
  induction children generalizing acc with
  | nil => simp
  | cons child rest ih =>
    obtain ⟨counts, pushed, length⟩ := ih (releaseChild acc child)
    simp only [List.foldl_cons]
    refine ⟨fun c => ?_, fun c => ?_, ?_⟩
    · rw [counts, releaseChild_counts, List.count_cons]
      by_cases same : c = child
      · subst same
        simp only [if_true, beq_self_eq_true]
        omega
      · simp [same, Ne.symm same]
    · rw [pushed, mem_releaseChild, releaseChild_counts, or_assoc]
      apply or_congr_right
      by_cases same : c = child
      · subst same
        -- the child is pushed at its last listing exactly when its count ends at zero
        by_cases later : c ∈ rest
        · have listed := List.count_pos_iff.2 later
          simp only [if_true, true_and, later, List.mem_cons_self, List.count_cons_self]
          omega
        · simp only [if_true, true_and, later, false_and, or_false, List.mem_cons_self,
            List.count_cons_self, List.count_eq_zero.2 later]
      · simp [same, Ne.symm same]
    · have stepLength := length_releaseChild acc child
      simp only [List.length_cons]
      omega

/-! ## The emission loop -/

section Loop

variable {atomicItems : List TemplateAtomicItem}

theorem mem_sortPositions {positions : List ℕ} {p : ℕ} :
    p ∈ sortPositions atomicItems positions ↔ p ∈ positions :=
  List.mem_mergeSort

theorem sortPositions_perm (positions : List ℕ) :
    (sortPositions atomicItems positions).Perm positions :=
  List.mergeSort_perm _ _

theorem sortPositions_sorted (positions : List ℕ) :
    (sortPositions atomicItems positions).Pairwise fun a b => positionLE atomicItems a b = true :=
  @List.pairwise_mergeSort _ (positionLE atomicItems) (fun _ _ _ => infoLE_trans)
    (fun _ _ => infoLE_total _ _) positions

variable (atomicItems)

/-- What the emission loop keeps: the emitted positions are recorded once each and
flagged, a count is the number of parents not emitted yet, and every position not
emitted whose count is zero is waiting in the ready list. -/
structure LoopInvariant (state : OrderState) : Prop where
  nodup : state.orderedPositions.Nodup
  emitted_iff : ∀ p, state.emitted p = true ↔ p ∈ state.orderedPositions
  ordered_lt : ∀ p ∈ state.orderedPositions, p < atomicItems.length
  counts_eq : ∀ c, state.dependencyCounts c =
    (positionParents atomicItems c).countP fun q => q ∉ state.orderedPositions
  ready_lt : ∀ p ∈ state.ready, p < atomicItems.length
  ready_free : ∀ p ∈ state.ready, p ∉ state.orderedPositions → state.dependencyCounts p = 0
  complete : ∀ p < atomicItems.length, p ∉ state.orderedPositions →
    state.dependencyCounts p = 0 → p ∈ state.ready

/-- The work left: the ready list and the edges out of positions not emitted yet. -/
def pendingWork (state : OrderState) : ℕ :=
  state.ready.length + ∑ p ∈ Finset.range atomicItems.length,
    if p ∈ state.orderedPositions then 0 else ((dependencyGraph atomicItems).dependents p).length

/-- A position is ready after `done` when all its parents are. -/
abbrev PositionReady (done : List ℕ) (p : ℕ) : Prop :=
  Ready (fun c q => q ∈ positionParents atomicItems c) (List.range atomicItems.length) done p

abbrev PositionGreedy (done out : List ℕ) : Prop :=
  Greedy (fun c q => q ∈ positionParents atomicItems c) (positionLE atomicItems)
    (List.range atomicItems.length) done out

variable {atomicItems}

/-- Under the invariant, a position is ready exactly when it is in range, not emitted,
and its count is zero. -/
theorem LoopInvariant.ready_iff {state : OrderState} (inv : LoopInvariant atomicItems state)
    {p : ℕ} : PositionReady atomicItems state.orderedPositions p ↔
      p < atomicItems.length ∧ p ∉ state.orderedPositions ∧ state.dependencyCounts p = 0 := by
  rw [inv.counts_eq, List.countP_eq_zero]
  simp only [Ready, List.mem_range, decide_eq_true_eq, not_not]
  constructor
  · rintro ⟨inRange, absent, parents⟩
    exact ⟨inRange, absent, fun q member => parents q (lt_of_mem_positionParents member).1 member⟩
  · rintro ⟨inRange, absent, parents⟩
    exact ⟨inRange, absent, fun q _ member => parents q member⟩

theorem emitStep_of_nil {dependents : ℕ → List ℕ} {state : OrderState}
    (sorted : sortPositions atomicItems state.ready = []) :
    emitStep atomicItems dependents state = state := by
  unfold emitStep
  rw [sorted]

theorem emitStep_of_emitted {dependents : ℕ → List ℕ} {state : OrderState} {position : ℕ}
    {ready : List ℕ} (sorted : sortPositions atomicItems state.ready = position :: ready)
    (emitted : state.emitted position = true) :
    emitStep atomicItems dependents state = { state with ready := ready } := by
  unfold emitStep
  simp only [sorted, emitted, if_true]

theorem emitStep_of_fresh {dependents : ℕ → List ℕ} {state : OrderState} {position : ℕ}
    {ready : List ℕ} (sorted : sortPositions atomicItems state.ready = position :: ready)
    (fresh : state.emitted position = false) :
    emitStep atomicItems dependents state =
      let released := (dependents position).foldl releaseChild (state.dependencyCounts, [])
      { ready := ready ++ released.2
        emitted := Function.update state.emitted position true
        dependencyCounts := released.1
        orderedPositions := state.orderedPositions ++ [position] } := by
  unfold emitStep
  simp only [sorted, fresh, Bool.false_eq_true, if_false]

theorem mem_of_sortPositions_eq_cons {positions ready : List ℕ} {position : ℕ}
    (sorted : sortPositions atomicItems positions = position :: ready) :
    position ∈ positions ∧ ∀ p, p ∈ positions ↔ p = position ∨ p ∈ ready := by
  have member : ∀ p, p ∈ positions ↔ p ∈ position :: ready := fun p => by
    rw [← sorted, mem_sortPositions]
  exact ⟨(member position).2 (List.mem_cons_self ..), fun p => (member p).trans List.mem_cons⟩

theorem LoopInvariant.head_ready {state : OrderState} (inv : LoopInvariant atomicItems state)
    {position : ℕ} {ready : List ℕ}
    (sorted : sortPositions atomicItems state.ready = position :: ready)
    (fresh : state.emitted position = false) :
    PositionReady atomicItems state.orderedPositions position ∧
      ∀ y, PositionReady atomicItems state.orderedPositions y →
        positionLE atomicItems position y = true := by
  obtain ⟨popped, members⟩ := mem_of_sortPositions_eq_cons sorted
  have absent : position ∉ state.orderedPositions := fun emitted => by
    rw [← inv.emitted_iff, fresh] at emitted
    exact Bool.false_ne_true emitted
  refine ⟨inv.ready_iff.2 ⟨inv.ready_lt _ popped, absent, inv.ready_free _ popped absent⟩,
    fun y ready' => ?_⟩
  obtain ⟨inRange, notDone, free⟩ := inv.ready_iff.1 ready'
  rcases (members y).1 (inv.complete y inRange notDone free) with same | later
  · rw [same]
    exact infoLE_refl _
  · have ordered := @sortPositions_sorted atomicItems state.ready
    rw [sorted, List.pairwise_cons] at ordered
    exact ordered.1 y later

theorem countP_not_mem_append_singleton (parents done : List ℕ) {position : ℕ}
    (absent : position ∉ done) :
    (parents.countP fun q => q ∉ done ++ [position]) + parents.count position =
      parents.countP fun q => q ∉ done := by
  induction parents with
  | nil => simp
  | cons q rest ih =>
    simp only [List.countP_cons, List.count_cons, ← ih]
    by_cases same : q = position
    · subst same
      simp [absent]
      omega
    · by_cases emitted : q ∈ done
      · simp [emitted, same]
      · simp [emitted, same]
        omega

theorem LoopInvariant.pop {state : OrderState} (inv : LoopInvariant atomicItems state)
    {position : ℕ} {ready : List ℕ} (emitted : position ∈ state.orderedPositions)
    (members : ∀ p, p ∈ state.ready ↔ p = position ∨ p ∈ ready) :
    LoopInvariant atomicItems { state with ready := ready } where
  nodup := inv.nodup
  emitted_iff := inv.emitted_iff
  ordered_lt := inv.ordered_lt
  counts_eq := inv.counts_eq
  ready_lt p member := inv.ready_lt p ((members p).2 (.inr member))
  ready_free p member := inv.ready_free p ((members p).2 (.inr member))
  complete p inRange absent free := by
    rcases (members p).1 (inv.complete p inRange absent free) with same | later
    · exact absurd (same ▸ emitted) absent
    · exact later

/-- Releasing the children of `position`: a count drops by the listings of `position`
among the parents, and a child is pushed exactly when its count reaches zero. -/
theorem releaseDependents_spec (counts : ℕ → ℕ) (position : ℕ) {released : (ℕ → ℕ) × List ℕ}
    (releasedEq : released =
      ((dependencyGraph atomicItems).dependents position).foldl releaseChild (counts, [])) :
    (∀ c, released.1 c = counts c - (positionParents atomicItems c).count position) ∧
    (∀ c, c ∈ released.2 ↔ position ∈ positionParents atomicItems c ∧ released.1 c = 0) ∧
    released.2.length ≤ ((dependencyGraph atomicItems).dependents position).length := by
  obtain ⟨lowered, pushed, length⟩ := foldl_releaseChild
    ((dependencyGraph atomicItems).dependents position) (counts, [])
  simp only [List.not_mem_nil, false_or, count_dependencyGraph_dependents,
    mem_dependencyGraph_dependents, List.length_nil, zero_add] at lowered pushed length
  subst releasedEq
  exact ⟨lowered, fun c => by rw [pushed c, lowered c], length⟩

theorem LoopInvariant.emit {state : OrderState} (inv : LoopInvariant atomicItems state)
    {position : ℕ} {ready : List ℕ} (absent : position ∉ state.orderedPositions)
    (inRange : position < atomicItems.length)
    (members : ∀ p, p ∈ state.ready ↔ p = position ∨ p ∈ ready) {released : (ℕ → ℕ) × List ℕ}
    (counts : ∀ c, released.1 c =
      state.dependencyCounts c - (positionParents atomicItems c).count position)
    (pushed : ∀ c, c ∈ released.2 ↔ position ∈ positionParents atomicItems c ∧ released.1 c = 0) :
    LoopInvariant atomicItems
      { ready := ready ++ released.2
        emitted := Function.update state.emitted position true
        dependencyCounts := released.1
        orderedPositions := state.orderedPositions ++ [position] } := by
  have stillReady : ∀ p ∈ ready, p ∈ state.ready := fun p member => (members p).2 (.inr member)
  constructor <;> dsimp only
  · exact List.nodup_append.2 ⟨inv.nodup, List.nodup_singleton _, fun a member b isPosition =>
      fun same => absent (by rw [List.mem_singleton.1 isPosition] at same; exact same ▸ member)⟩
  · intro p
    by_cases same : p = position
    · subst same
      simp
    · simp [same, inv.emitted_iff]
  · intro p member
    rcases List.mem_append.1 member with before | isPosition
    · exact inv.ordered_lt p before
    · exact (List.mem_singleton.1 isPosition) ▸ inRange
  · intro c
    have removed := countP_not_mem_append_singleton (positionParents atomicItems c)
      state.orderedPositions absent
    rw [counts c, inv.counts_eq c]
    omega
  · intro p member
    rcases List.mem_append.1 member with waiting | released
    · exact inv.ready_lt p (stillReady p waiting)
    · exact (lt_of_mem_positionParents ((pushed p).1 released).1).2
  · intro p member notEmitted
    have notBefore : p ∉ state.orderedPositions := fun before =>
      notEmitted (List.mem_append_left _ before)
    rcases List.mem_append.1 member with waiting | released
    · rw [counts p, inv.ready_free p (stillReady p waiting) notBefore, Nat.zero_sub]
    · exact ((pushed p).1 released).2
  · intro p pInRange notEmitted free
    have notBefore : p ∉ state.orderedPositions := fun before =>
      notEmitted (List.mem_append_left _ before)
    have other : p ≠ position := fun same =>
      notEmitted (List.mem_append_right _ (List.mem_singleton.2 same))
    have dropped := counts p
    by_cases wasFree : state.dependencyCounts p = 0
    · -- free before: it was already waiting
      rcases (members p).1 (inv.complete p pInRange notBefore wasFree) with same | later
      · exact absurd same other
      · exact List.mem_append_left _ later
    · -- freed now: `position` was among its parents, and it is pushed
      have listed : 0 < (positionParents atomicItems p).count position := by omega
      exact List.mem_append_right _ ((pushed p).2 ⟨List.count_pos_iff.1 listed, free⟩)

theorem LoopInvariant.step {state : OrderState} (inv : LoopInvariant atomicItems state) :
    LoopInvariant atomicItems (emitStep atomicItems (dependencyGraph atomicItems).dependents state) := by
  cases sorted : sortPositions atomicItems state.ready with
  | nil =>
    rw [emitStep_of_nil sorted]
    exact inv
  | cons position ready =>
    obtain ⟨popped, members⟩ := mem_of_sortPositions_eq_cons sorted
    cases fresh : state.emitted position
    · rw [emitStep_of_fresh sorted fresh]
      have absent : position ∉ state.orderedPositions := fun emitted => by
        rw [← inv.emitted_iff, fresh] at emitted
        exact Bool.false_ne_true emitted
      obtain ⟨counts, pushed, -⟩ := releaseDependents_spec state.dependencyCounts position rfl
      exact inv.emit absent (inv.ready_lt _ popped) members counts pushed
    · rw [emitStep_of_emitted sorted fresh]
      exact inv.pop ((inv.emitted_iff position).1 fresh) members

theorem sum_pending_emit {n : ℕ} (weight : ℕ → ℕ) {done : List ℕ} {position : ℕ}
    (absent : position ∉ done) (inRange : position < n) :
    (∑ p ∈ Finset.range n, if p ∈ done ++ [position] then 0 else weight p) + weight position =
      ∑ p ∈ Finset.range n, if p ∈ done then 0 else weight p := by
  set pending : ℕ → ℕ := fun p => if p ∈ done then 0 else weight p
  have member : position ∈ Finset.range n := Finset.mem_range.2 inRange
  have emitted : (fun p => if p ∈ done ++ [position] then 0 else weight p) =
      Function.update pending position 0 := by
    funext p
    by_cases same : p = position
    · subst same
      simp
    · simp [pending, same]
  have without := Finset.sum_update_of_mem member pending 0
  have with' := Finset.sum_update_of_mem member pending (pending position)
  rw [Function.update_eq_self] at with'
  have weighed : pending position = weight position := by simp [pending, absent]
  rw [emitted, without, with', weighed]
  omega

theorem pendingWork_emitStep_lt {state : OrderState} (inv : LoopInvariant atomicItems state)
    (nonempty : state.ready ≠ []) :
    pendingWork atomicItems (emitStep atomicItems (dependencyGraph atomicItems).dependents state) <
      pendingWork atomicItems state := by
  have popped := (@sortPositions_perm atomicItems state.ready).length_eq
  cases sorted : sortPositions atomicItems state.ready with
  | nil =>
    rw [sorted] at popped
    exact absurd (List.eq_nil_of_length_eq_zero popped.symm) nonempty
  | cons position ready =>
    rw [sorted, List.length_cons] at popped
    obtain ⟨member, _⟩ := mem_of_sortPositions_eq_cons sorted
    cases fresh : state.emitted position
    · rw [emitStep_of_fresh sorted fresh]
      have absent : position ∉ state.orderedPositions := fun emitted => by
        rw [← inv.emitted_iff, fresh] at emitted
        exact Bool.false_ne_true emitted
      obtain ⟨-, -, pushedLength⟩ :=
        @releaseDependents_spec atomicItems state.dependencyCounts position _ rfl
      have edges := sum_pending_emit (fun p => ((dependencyGraph atomicItems).dependents p).length)
        absent (inv.ready_lt _ member)
      simp only [pendingWork, List.length_append]
      omega
    · rw [emitStep_of_emitted sorted fresh]
      simp only [pendingWork]
      omega

theorem LoopInvariant.emitStep_ordered {state : OrderState} (inv : LoopInvariant atomicItems state) :
    (emitStep atomicItems (dependencyGraph atomicItems).dependents state).orderedPositions =
        state.orderedPositions ∨
      ∃ position, (emitStep atomicItems (dependencyGraph atomicItems).dependents state).orderedPositions =
          state.orderedPositions ++ [position] ∧
        PositionReady atomicItems state.orderedPositions position ∧
        ∀ y, PositionReady atomicItems state.orderedPositions y → positionLE atomicItems position y = true := by
  cases sorted : sortPositions atomicItems state.ready with
  | nil =>
    rw [emitStep_of_nil sorted]
    exact .inl rfl
  | cons position ready =>
    cases fresh : state.emitted position
    · rw [emitStep_of_fresh sorted fresh]
      exact .inr ⟨position, rfl, inv.head_ready sorted fresh⟩
    · rw [emitStep_of_emitted sorted fresh]
      exact .inl rfl

theorem LoopInvariant.mem_of_full {state : OrderState} (inv : LoopInvariant atomicItems state)
    (full : atomicItems.length ≤ state.orderedPositions.length) {p : ℕ}
    (inRange : p < atomicItems.length) : p ∈ state.orderedPositions := by
  have sub := List.subperm_of_subset inv.nodup fun q member =>
    List.mem_range.2 (inv.ordered_lt q member)
  have perm := sub.perm_of_length_le (by rw [List.length_range]; exact full)
  exact perm.mem_iff.2 (List.mem_range.2 inRange)

/-- When the ready list runs dry, nothing is ready, and the positions not emitted
follow sorted. -/
theorem LoopInvariant.orderedPositionsOf_greedy {state : OrderState}
    (inv : LoopInvariant atomicItems state) (empty : state.ready = []) :
    ∃ out, orderedPositionsOf atomicItems state = state.orderedPositions ++ out ∧
      PositionGreedy atomicItems state.orderedPositions out := by
  have blocked : ∀ y, ¬ PositionReady atomicItems state.orderedPositions y := fun y ready' => by
    obtain ⟨inRange, absent, free⟩ := inv.ready_iff.1 ready'
    have waiting := inv.complete y inRange absent free
    rw [empty] at waiting
    exact List.not_mem_nil waiting
  unfold orderedPositionsOf
  split_ifs with short
  · refine ⟨_, rfl, .stuck blocked (fun x => ?_) ?_ (sortPositions_sorted _)⟩
    · simp [mem_sortPositions, ← inv.emitted_iff]
    · exact (sortPositions_perm _).nodup_iff.2 (List.nodup_range.filter _)
  · -- all `n` positions are emitted, so none is left
    refine ⟨[], (List.append_nil _).symm, .stuck blocked (fun x => ?_) List.nodup_nil .nil⟩
    simp only [List.not_mem_nil, false_iff, not_and, not_not, List.mem_range]
    exact fun inRange => inv.mem_of_full (Nat.le_of_not_lt short) inRange

/-- With fuel for the pending work, the loop ends in the greedy order. The induction
is on the fuel; each pass keeps the invariant and lowers the pending work. -/
theorem emitLoop_greedy (fuel : ℕ) (state : OrderState) (inv : LoopInvariant atomicItems state)
    (enough : pendingWork atomicItems state ≤ fuel) :
    ∃ out, orderedPositionsOf atomicItems
        (emitLoop atomicItems (dependencyGraph atomicItems).dependents fuel state) =
          state.orderedPositions ++ out ∧
      PositionGreedy atomicItems state.orderedPositions out := by
  induction fuel generalizing state with
  | zero =>
    have empty : state.ready = [] := List.eq_nil_of_length_eq_zero (by
      unfold pendingWork at enough
      omega)
    exact inv.orderedPositionsOf_greedy empty
  | succ fuel ih =>
    by_cases empty : state.ready = []
    · rw [emitLoop, if_pos empty]
      exact inv.orderedPositionsOf_greedy empty
    · rw [emitLoop, if_neg empty]
      have lower := pendingWork_emitStep_lt inv empty
      obtain ⟨out, ordered, greedy⟩ := ih _ inv.step (by omega)
      rcases inv.emitStep_ordered with same | ⟨position, grown, ready, least⟩
      · rw [same] at ordered greedy
        exact ⟨out, ordered, greedy⟩
      · rw [grown] at ordered greedy
        exact ⟨position :: out, by rw [ordered, List.append_assoc, List.singleton_append],
          .next position ready least greedy⟩

theorem initialOrderState_invariant :
    LoopInvariant atomicItems (initialOrderState atomicItems (dependencyGraph atomicItems)) where
  nodup := List.nodup_nil
  emitted_iff _ := by simp [initialOrderState]
  ordered_lt _ member := absurd member List.not_mem_nil
  counts_eq c := by simp [initialOrderState, dependencyGraph_dependencyCounts]
  ready_lt p member := by
    simp only [initialOrderState, List.mem_filter, List.mem_range] at member
    exact member.1
  ready_free p member _ := by
    simp only [initialOrderState, List.mem_filter, decide_eq_true_eq] at member
    exact member.2
  complete p inRange _ free := by
    simp only [initialOrderState, List.mem_filter, List.mem_range, decide_eq_true_eq]
    exact ⟨inRange, free⟩

theorem sum_range_eq_sum_map (n : ℕ) (weight : ℕ → ℕ) :
    ∑ p ∈ Finset.range n, weight p = ((List.range n).map weight).sum := by
  induction n with
  | zero => simp
  | succ n ih => simp [Finset.sum_range_succ, List.range_succ, ih]

theorem pendingWork_initialOrderState_le :
    pendingWork atomicItems (initialOrderState atomicItems (dependencyGraph atomicItems)) ≤
      emitFuel atomicItems (dependencyGraph atomicItems) := by
  have readyLength : ((List.range atomicItems.length).filter fun position =>
      (dependencyGraph atomicItems).dependencyCounts position = 0).length ≤ atomicItems.length :=
    (List.length_filter_le _ _).trans (List.length_range ..).le
  simp only [pendingWork, emitFuel, initialOrderState, List.not_mem_nil, if_false,
    sum_range_eq_sum_map]
  omega

theorem orderAtomicCandidateIndices_greedy (many : 1 < atomicItems.length) :
    ∃ positions, orderAtomicCandidateIndices atomicItems =
        positions.filterMap (fun position => atomicItems[position]?.map (·.index)) ∧
      PositionGreedy atomicItems [] positions := by
  obtain ⟨positions, ordered, greedy⟩ := emitLoop_greedy _ _ initialOrderState_invariant
    pendingWork_initialOrderState_le
  refine ⟨positions, ?_, greedy⟩
  unfold orderAtomicCandidateIndices
  rw [if_neg (Nat.not_le_of_lt many)]
  dsimp only
  rw [ordered]
  rfl

end Loop

end Cryptixd.Mining
