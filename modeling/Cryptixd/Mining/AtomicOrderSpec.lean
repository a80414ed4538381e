import Mathlib
import Cryptixd.Mining.AtomicOrderLoop

/-!
# The CAT template order over candidates

`orderAtomicCandidateTransactions` splits the candidates into the CAT ones, as
items carrying their index, and the indices of the others; orders the items by
`orderAtomicCandidateIndices`; and lays out the candidates at the CAT indices
followed by the others. From the greedy order of `AtomicOrderLoop`:

* the result is a permutation of the candidates (`orderAtomicCandidates_perm`);
* when at least two candidates are CAT, the CAT candidates come first, in the greedy
  order of their order information (`orderAtomicCandidates_of_many`);
* without cycles among the CAT candidates, every one comes after those it depends on
  (`orderAtomicCandidates_parents_before`);
* with distinct transaction ids, the order of the CAT candidates does not depend on
  the order they arrive in (`orderAtomicCandidates_filter_perm`).

With a single CAT candidate the function returns before ordering anything, so that
candidate keeps its place among the others (`orderAtomicCandidates_of_countP_le_one`).
-/

set_option autoImplicit false

namespace Cryptixd.Mining

open Cryptixd.Atomic GreedyOrder

/-! ## Lists read by index -/

section Lists

variable {β γ : Type*}

theorem filterMap_eq_map_of {g : β → Option γ} (f : β → γ) :
    ∀ {l : List β}, (∀ x ∈ l, g x = some (f x)) → l.filterMap g = l.map f
  | [], _ => rfl
  | x :: rest, agree => by
    rw [List.filterMap_cons, agree x List.mem_cons_self, List.map_cons,
      filterMap_eq_map_of f fun y member => agree y (List.mem_cons_of_mem x member)]

theorem filterMap_getElem?_range (l : List β) (f : β → γ) :
    (List.range l.length).filterMap (fun i => l[i]?.map f) = l.map f := by
  rw [List.range_eq_range', ← List.zipIdx_map_snd 0 l, List.filterMap_map]
  conv_rhs => rw [← List.zipIdx_map_fst 0 l, List.map_map]
  exact filterMap_eq_map_of _ fun entry member => by
    simp [List.mem_zipIdx_iff_getElem?.1 member]

theorem getElem?_filterMap_of_isSome {g : β → Option γ} :
    ∀ {l : List β}, (∀ x ∈ l, (g x).isSome) → ∀ i : ℕ, (l.filterMap g)[i]? = l[i]?.bind g
  | [], _, i => by simp
  | x :: rest, succeeds, i => by
    obtain ⟨y, found⟩ := Option.isSome_iff_exists.1 (succeeds x List.mem_cons_self)
    rw [List.filterMap_cons_some found]
    cases i with
    | zero => simp [found]
    | succ i =>
      simpa using @getElem?_filterMap_of_isSome g rest
        (fun z member => succeeds z (List.mem_cons_of_mem x member)) i

theorem eq_of_map_eq_of_injOn {f : β → γ} {s : β → Prop}
    (inj : ∀ x, s x → ∀ y, s y → f x = f y → x = y) :
    ∀ {l₁ l₂ : List β}, (∀ x ∈ l₁, s x) → (∀ x ∈ l₂, s x) → l₁.map f = l₂.map f → l₁ = l₂
  | [], [], _, _, _ => rfl
  | [], _ :: _, _, _, same => by simp at same
  | _ :: _, [], _, _, same => by simp at same
  | x :: xs, y :: ys, inFirst, inSecond, same => by
    simp only [List.map_cons, List.cons.injEq] at same
    rw [inj x (inFirst x List.mem_cons_self) y (inSecond y List.mem_cons_self) same.1,
      eq_of_map_eq_of_injOn inj (fun z member => inFirst z (List.mem_cons_of_mem x member))
        (fun z member => inSecond z (List.mem_cons_of_mem y member)) same.2]

end Lists

/-! ## Classifying the candidates -/

section Classify

variable {α : Type} (infoOf : α → Option TemplateAtomicOrderInfo)

/-- The items the classification loop collects: the CAT candidates with their index. -/
def atomicItemsOf (candidateTxs : List α) : List TemplateAtomicItem :=
  candidateTxs.zipIdx.filterMap fun entry => (infoOf entry.1).map fun info => ⟨entry.2, info⟩

def nonAtomicIndicesOf (candidateTxs : List α) : List ℕ :=
  candidateTxs.zipIdx.filterMap fun entry => if (infoOf entry.1).isSome then none else some entry.2

/-- One candidate depends on another when both are CAT and their order information
does. -/
def CandidateDependsOn (child parent : α) : Prop :=
  match infoOf child, infoOf parent with
  | some childInfo, some parentInfo => AtomicDependsOn childInfo parentInfo
  | _, _ => False

instance : DecidableRel (CandidateDependsOn infoOf) := fun child parent => by
  unfold CandidateDependsOn
  split <;> infer_instance

variable {infoOf}

theorem foldl_classifyCandidate (entries : List (α × ℕ)) (acc : List TemplateAtomicItem × List ℕ) :
    entries.foldl (classifyCandidate infoOf) acc =
      (acc.1 ++ entries.filterMap (fun entry => (infoOf entry.1).map fun info => ⟨entry.2, info⟩),
        acc.2 ++ entries.filterMap fun entry =>
          if (infoOf entry.1).isSome then none else some entry.2) := by
  induction entries generalizing acc with
  | nil => simp
  | cons entry rest ih =>
    rw [List.foldl_cons, ih]
    unfold classifyCandidate
    cases known : infoOf entry.1 <;> simp [known]

theorem classified_eq (candidateTxs : List α) :
    candidateTxs.zipIdx.foldl (classifyCandidate infoOf) ([], []) =
      (atomicItemsOf infoOf candidateTxs, nonAtomicIndicesOf infoOf candidateTxs) := by
  rw [foldl_classifyCandidate]
  rfl

theorem mem_atomicItemsOf {candidateTxs : List α} {item : TemplateAtomicItem} :
    item ∈ atomicItemsOf infoOf candidateTxs ↔
      ∃ candidate, candidateTxs[item.index]? = some candidate ∧ infoOf candidate = some item.info := by
  obtain ⟨index, info⟩ := item
  simp only [atomicItemsOf, List.mem_filterMap, Option.map_eq_some_iff, Prod.exists,
    List.mem_zipIdx_iff_getElem?, TemplateAtomicItem.mk.injEq]
  constructor
  · rintro ⟨candidate, _, found, _, known, rfl, rfl⟩
    exact ⟨candidate, found, known⟩
  · rintro ⟨candidate, found, known⟩
    exact ⟨candidate, index, found, info, known, rfl, rfl⟩

theorem mem_nonAtomicIndicesOf {candidateTxs : List α} {index : ℕ} :
    index ∈ nonAtomicIndicesOf infoOf candidateTxs ↔
      ∃ candidate, candidateTxs[index]? = some candidate ∧ infoOf candidate = none := by
  simp only [nonAtomicIndicesOf, List.mem_filterMap, Prod.exists, List.mem_zipIdx_iff_getElem?,
    Option.ite_none_left_eq_some, Option.some.injEq, Option.not_isSome_iff_eq_none]
  constructor
  · rintro ⟨candidate, _, found, unknown, rfl⟩
    exact ⟨candidate, found, unknown⟩
  · rintro ⟨candidate, found, unknown⟩
    exact ⟨candidate, index, found, unknown, rfl⟩

theorem atomicItemsOf_map_info (candidateTxs : List α) :
    (atomicItemsOf infoOf candidateTxs).map (·.info) = candidateTxs.filterMap infoOf := by
  unfold atomicItemsOf
  rw [List.map_filterMap]
  conv_rhs => rw [← List.zipIdx_map_fst 0 candidateTxs, List.filterMap_map]
  congr 1
  funext entry
  simp [Function.comp_def]

theorem length_atomicItemsOf (candidateTxs : List α) :
    (atomicItemsOf infoOf candidateTxs).length = candidateTxs.countP fun c => (infoOf c).isSome := by
  rw [← List.length_map (fun item : TemplateAtomicItem => item.info), atomicItemsOf_map_info,
    List.length_filterMap_eq_countP]

theorem indices_perm (candidateTxs : List α) :
    ((atomicItemsOf infoOf candidateTxs).map (·.index) ++ nonAtomicIndicesOf infoOf candidateTxs).Perm
      (List.range candidateTxs.length) := by
  have atomic : (atomicItemsOf infoOf candidateTxs).map (·.index) =
      (candidateTxs.zipIdx.filter fun entry => (infoOf entry.1).isSome).map Prod.snd := by
    unfold atomicItemsOf
    induction candidateTxs.zipIdx with
    | nil => rfl
    | cons entry rest ih => cases known : infoOf entry.1 <;> simp [known, ih]
  have others : nonAtomicIndicesOf infoOf candidateTxs =
      (candidateTxs.zipIdx.filter fun entry => !(infoOf entry.1).isSome).map Prod.snd := by
    unfold nonAtomicIndicesOf
    induction candidateTxs.zipIdx with
    | nil => rfl
    | cons entry rest ih => cases known : infoOf entry.1 <;> simp [known, ih]
  rw [atomic, others, ← List.map_append, List.range_eq_range', ← List.zipIdx_map_snd 0]
  exact (List.filter_append_perm _ _).map _

end Classify

/-! ## Laying out the candidates -/

theorem orderAtomicCandidateIndices_perm (atomicItems : List TemplateAtomicItem) :
    (orderAtomicCandidateIndices atomicItems).Perm (atomicItems.map (·.index)) := by
  by_cases many : 1 < atomicItems.length
  · obtain ⟨positions, ordered, greedy⟩ := orderAtomicCandidateIndices_greedy many
    rw [ordered, ← filterMap_getElem?_range]
    exact (greedy.perm List.nodup_range).filterMap _
  · unfold orderAtomicCandidateIndices
    rw [if_pos (Nat.le_of_not_lt many)]

theorem eq_of_mem_of_length_le_one {β : Type*} {l : List β} (short : l.length ≤ 1) {a b : β}
    (first : a ∈ l) (second : b ∈ l) : a = b := by
  match l, short with
  | [], _ => exact absurd first List.not_mem_nil
  | [x], _ => rw [List.mem_singleton.1 first, List.mem_singleton.1 second]

theorem eq_of_perm_of_length_le_one {β : Type*} {l₁ l₂ : List β} (perm : l₁.Perm l₂)
    (short : l₂.length ≤ 1) : l₁ = l₂ := by
  match l₂, short with
  | [], _ => exact perm.eq_nil
  | [_], _ => exact List.perm_singleton.1 perm

section Result

variable {α : Type} {infoOf : α → Option TemplateAtomicOrderInfo} {candidateTxs : List α}

variable (infoOf) in
def candidateAt (candidateTxs : List α) (position : ℕ) : Option α :=
  (atomicItemsOf infoOf candidateTxs)[position]?.bind fun item => candidateTxs[item.index]?

theorem candidateAt_spec {position : ℕ}
    (inRange : position < (atomicItemsOf infoOf candidateTxs).length) :
    ∃ candidate, candidateAt infoOf candidateTxs position = some candidate ∧
      candidate ∈ candidateTxs ∧
      infoOf candidate = some (infoAt (atomicItemsOf infoOf candidateTxs) position) := by
  have item := List.getElem_mem inRange
  obtain ⟨candidate, found, known⟩ := mem_atomicItemsOf.1 item
  refine ⟨candidate, ?_, List.mem_of_getElem? found, ?_⟩
  · simp [candidateAt, List.getElem?_eq_getElem inRange, found]
  · simp [infoAt, List.getElem?_eq_getElem inRange, known]

theorem candidateDependsOn_iff {child parent : α} {childInfo parentInfo : TemplateAtomicOrderInfo}
    (childKnown : infoOf child = some childInfo) (parentKnown : infoOf parent = some parentInfo) :
    CandidateDependsOn infoOf child parent ↔ AtomicDependsOn childInfo parentInfo := by
  unfold CandidateDependsOn
  rw [childKnown, parentKnown]

theorem length_atomicItemsOf_le (candidateTxs : List α) :
    (atomicItemsOf infoOf candidateTxs).length ≤ candidateTxs.length := by
  rw [length_atomicItemsOf]
  exact List.countP_le_length

/-- With at most one CAT candidate the function returns before ordering anything, so the
candidates are left as they are. -/
theorem orderAtomicCandidates_of_countP_le_one
    (few : candidateTxs.countP (fun c => (infoOf c).isSome) ≤ 1) :
    orderAtomicCandidates infoOf candidateTxs = candidateTxs := by
  rw [← length_atomicItemsOf] at few
  unfold orderAtomicCandidates
  simp only [classified_eq]
  split_ifs <;> rfl

theorem orderAtomicCandidates_of_many_eq (many : 1 < (atomicItemsOf infoOf candidateTxs).length) :
    orderAtomicCandidates infoOf candidateTxs =
      (orderAtomicCandidateIndices (atomicItemsOf infoOf candidateTxs) ++
        nonAtomicIndicesOf infoOf candidateTxs).filterMap fun index => candidateTxs[index]? := by
  have long := lt_of_lt_of_le many (length_atomicItemsOf_le candidateTxs)
  have perm := ((orderAtomicCandidateIndices_perm _).append_right _).trans
    (@indices_perm _ infoOf candidateTxs)
  unfold orderAtomicCandidates
  simp only [classified_eq]
  rw [if_neg (Nat.not_le_of_lt long), if_neg (Nat.not_le_of_lt many), if_neg (by
    rw [perm.length_eq, List.length_range]
    exact not_not.2 rfl)]

theorem orderAtomicCandidates_perm (candidateTxs : List α) :
    (orderAtomicCandidates infoOf candidateTxs).Perm candidateTxs := by
  by_cases many : 1 < (atomicItemsOf infoOf candidateTxs).length
  · rw [orderAtomicCandidates_of_many_eq many]
    have perm := ((orderAtomicCandidateIndices_perm _).append_right _).trans
      (@indices_perm _ infoOf candidateTxs)
    have whole : (List.range candidateTxs.length).filterMap (fun index => candidateTxs[index]?) =
        candidateTxs := by
      simpa using filterMap_getElem?_range candidateTxs id
    refine (perm.filterMap _).trans ?_
    rw [whole]
  · rw [length_atomicItemsOf] at many
    rw [orderAtomicCandidates_of_countP_le_one (Nat.le_of_not_lt many)]

/-- With at least two CAT candidates, the result is the CAT candidates at the positions of
a greedy order, then the others in their order. -/
theorem orderAtomicCandidates_of_many (many : 1 < (atomicItemsOf infoOf candidateTxs).length) :
    ∃ positions, PositionGreedy (atomicItemsOf infoOf candidateTxs) [] positions ∧
      orderAtomicCandidates infoOf candidateTxs =
        positions.filterMap (candidateAt infoOf candidateTxs) ++
          (nonAtomicIndicesOf infoOf candidateTxs).filterMap fun index => candidateTxs[index]? := by
  obtain ⟨positions, ordered, greedy⟩ := orderAtomicCandidateIndices_greedy many
  refine ⟨positions, greedy, ?_⟩
  rw [orderAtomicCandidates_of_many_eq many, ordered, List.filterMap_append,
    List.filterMap_filterMap]
  simp only [Option.bind_map]
  rfl

theorem mem_filterMap_candidateAt {positions : List ℕ}
    (inRange : ∀ p ∈ positions, p < (atomicItemsOf infoOf candidateTxs).length) {candidate : α}
    (member : candidate ∈ positions.filterMap (candidateAt infoOf candidateTxs)) :
    candidate ∈ candidateTxs ∧ (infoOf candidate).isSome := by
  obtain ⟨p, pIn, found⟩ := List.mem_filterMap.1 member
  obtain ⟨held, atP, heldIn, known⟩ := candidateAt_spec (inRange p pIn)
  rw [atP, Option.some.injEq] at found
  subst found
  exact ⟨heldIn, by simp [known]⟩

theorem infoOf_of_mem_nonAtomic {candidate : α}
    (member : candidate ∈ (nonAtomicIndicesOf infoOf candidateTxs).filterMap
      fun index => candidateTxs[index]?) : infoOf candidate = none := by
  obtain ⟨index, indexIn, found⟩ := List.mem_filterMap.1 member
  obtain ⟨held, atIndex, unknown⟩ := mem_nonAtomicIndicesOf.1 indexIn
  rw [atIndex, Option.some.injEq] at found
  subst found
  exact unknown

theorem PositionGreedy.lt {atomicItems : List TemplateAtomicItem} {positions : List ℕ}
    (greedy : PositionGreedy atomicItems [] positions) :
    ∀ p ∈ positions, p < atomicItems.length := fun p member =>
  List.mem_range.1 ((greedy.mem_iff p).1 member).1

theorem orderAtomicCandidates_partition
    (notOne : candidateTxs.countP (fun c => (infoOf c).isSome) ≠ 1) :
    ∃ cats others, orderAtomicCandidates infoOf candidateTxs = cats ++ others ∧
      (∀ c ∈ cats, (infoOf c).isSome) ∧ ∀ c ∈ others, infoOf c = none := by
  by_cases many : 1 < (atomicItemsOf infoOf candidateTxs).length
  · obtain ⟨positions, greedy, ordered⟩ := orderAtomicCandidates_of_many many
    exact ⟨_, _, ordered, fun c member => (mem_filterMap_candidateAt greedy.lt member).2,
      fun c member => infoOf_of_mem_nonAtomic member⟩
  · -- no CAT candidate at all: every candidate is among the others
    rw [length_atomicItemsOf] at many
    have none : candidateTxs.countP (fun c => (infoOf c).isSome) = 0 := by omega
    rw [List.countP_eq_zero] at none
    refine ⟨[], candidateTxs, ?_, by simp, fun c member => by simpa using none c member⟩
    rw [orderAtomicCandidates_of_countP_le_one (by omega), List.nil_append]

theorem acyclic_positions (acyclic : Acyclic (CandidateDependsOn infoOf) candidateTxs) :
    Acyclic (fun c q => q ∈ positionParents (atomicItemsOf infoOf candidateTxs) c)
      (List.range (atomicItemsOf infoOf candidateTxs).length) := by
  have lift : ∀ a b, Relation.TransGen (fun a b => a ∈ List.range (atomicItemsOf infoOf candidateTxs).length ∧
      b ∈ List.range (atomicItemsOf infoOf candidateTxs).length ∧
      b ∈ positionParents (atomicItemsOf infoOf candidateTxs) a) a b →
      ∃ held, candidateAt infoOf candidateTxs a = some held ∧ ∀ held', candidateAt infoOf candidateTxs b = some held' →
        Relation.TransGen (fun a b => a ∈ candidateTxs ∧ b ∈ candidateTxs ∧ CandidateDependsOn infoOf a b)
          held held' := by
    intro a b chain
    induction chain with
    | single step =>
      obtain ⟨aIn, bIn, parent⟩ := step
      obtain ⟨held, atA, heldIn, knownA⟩ := candidateAt_spec (List.mem_range.1 aIn)
      obtain ⟨held', atB, heldIn', knownB⟩ := candidateAt_spec (List.mem_range.1 bIn)
      refine ⟨held, atA, fun other atB' => ?_⟩
      rw [atB, Option.some.injEq] at atB'
      subst atB'
      exact .single ⟨heldIn, heldIn', (candidateDependsOn_iff knownA knownB).2
        (mem_dependencyParents.1 parent).2⟩
    | tail _ step ih =>
      obtain ⟨held, atA, chain⟩ := ih
      obtain ⟨bIn, cIn, parent⟩ := step
      obtain ⟨middle, atB, middleIn, knownB⟩ := candidateAt_spec (List.mem_range.1 bIn)
      obtain ⟨last, atC, lastIn, knownC⟩ := candidateAt_spec (List.mem_range.1 cIn)
      refine ⟨held, atA, fun other atC' => ?_⟩
      rw [atC, Option.some.injEq] at atC'
      subst atC'
      exact (chain middle atB).tail ⟨middleIn, lastIn, (candidateDependsOn_iff knownB knownC).2
        (mem_dependencyParents.1 parent).2⟩
  intro x cycle
  obtain ⟨held, atX, chain⟩ := lift x x cycle
  exact acyclic held (chain held atX)

theorem getElem?_cats_of_isSome {cats others : List α}
    (othersUnknown : ∀ c ∈ others, infoOf c = none) {k : ℕ} {candidate : α}
    (found : (cats ++ others)[k]? = some candidate) (known : (infoOf candidate).isSome) :
    cats[k]? = some candidate := by
  by_cases before : k < cats.length
  · rwa [List.getElem?_append_left before] at found
  · rw [List.getElem?_append_right (Nat.le_of_not_lt before)] at found
    simp [othersUnknown candidate (List.mem_of_getElem? found)] at known

theorem position_of_getElem? {positions : List ℕ}
    (greedy : PositionGreedy (atomicItemsOf infoOf candidateTxs) [] positions) {k : ℕ} {candidate : α}
    (found : (positions.filterMap (candidateAt infoOf candidateTxs))[k]? = some candidate) :
    ∃ p, positions[k]? = some p ∧
      infoOf candidate = some (infoAt (atomicItemsOf infoOf candidateTxs) p) := by
  have succeeds : ∀ p ∈ positions, (candidateAt infoOf candidateTxs p).isSome := fun p member => by
    obtain ⟨held, atP, -, -⟩ := candidateAt_spec (greedy.lt p member)
    simp [atP]
  rw [getElem?_filterMap_of_isSome succeeds, Option.bind_eq_some_iff] at found
  obtain ⟨p, atK, atP⟩ := found
  obtain ⟨held, atP', -, known⟩ := candidateAt_spec (greedy.lt p (List.mem_of_getElem? atK))
  rw [atP', Option.some.injEq] at atP
  exact ⟨p, atK, atP ▸ known⟩

theorem isSome_of_candidateDependsOn {child parent : α}
    (depends : CandidateDependsOn infoOf child parent) :
    (infoOf child).isSome ∧ (infoOf parent).isSome := by
  unfold CandidateDependsOn at depends
  split at depends
  · rename_i childKnown parentKnown
    simp [childKnown, parentKnown]
  · exact depends.elim

theorem orderAtomicCandidates_parents_before
    (acyclic : Acyclic (CandidateDependsOn infoOf) candidateTxs) {i j : ℕ} {child parent : α}
    (childAt : (orderAtomicCandidates infoOf candidateTxs)[i]? = some child)
    (parentAt : (orderAtomicCandidates infoOf candidateTxs)[j]? = some parent)
    (depends : CandidateDependsOn infoOf child parent) : j < i := by
  obtain ⟨childKnown, parentKnown⟩ := isSome_of_candidateDependsOn depends
  by_cases many : 1 < (atomicItemsOf infoOf candidateTxs).length
  · obtain ⟨positions, greedy, ordered⟩ := orderAtomicCandidates_of_many many
    rw [ordered] at childAt parentAt
    have othersUnknown : ∀ c ∈ (nonAtomicIndicesOf infoOf candidateTxs).filterMap
        (fun index => candidateTxs[index]?), infoOf c = none := fun _ member =>
      infoOf_of_mem_nonAtomic member
    obtain ⟨p, atI, childInfo⟩ := position_of_getElem? greedy
      (getElem?_cats_of_isSome othersUnknown childAt childKnown)
    obtain ⟨q, atJ, parentInfo⟩ := position_of_getElem? greedy
      (getElem?_cats_of_isSome othersUnknown parentAt parentKnown)
    have qIn := greedy.lt q (List.mem_of_getElem? atJ)
    have waits : q ∈ positionParents (atomicItemsOf infoOf candidateTxs) p :=
      mem_dependencyParents.2 ⟨qIn, (candidateDependsOn_iff childInfo parentInfo).1 depends⟩
    obtain ⟨bound, atI'⟩ := List.getElem?_eq_some_iff.1 atI
    rcases greedy.parents_before (acyclic_positions acyclic) i bound q (List.mem_range.2 qIn)
      (atI' ▸ waits) with done | ⟨j', before, atJ'⟩
    · exact absurd done List.not_mem_nil
    · -- positions are emitted once, so the parent's index is `j'`
      have same := (List.getElem?_inj (List.getElem?_eq_some_iff.1 atJ').1 greedy.nodup).1
        (atJ'.trans atJ.symm)
      exact same ▸ before
  · -- one CAT candidate at most: a dependency would be a cycle of length one
    rw [length_atomicItemsOf] at many
    rw [orderAtomicCandidates_of_countP_le_one (Nat.le_of_not_lt many)] at childAt parentAt
    obtain ⟨childInfo, childKnown'⟩ := Option.isSome_iff_exists.1 childKnown
    obtain ⟨parentInfo, parentKnown'⟩ := Option.isSome_iff_exists.1 parentKnown
    have childItem : (⟨i, childInfo⟩ : TemplateAtomicItem) ∈ atomicItemsOf infoOf candidateTxs :=
      mem_atomicItemsOf.2 ⟨child, childAt, childKnown'⟩
    have parentItem : (⟨j, parentInfo⟩ : TemplateAtomicItem) ∈ atomicItemsOf infoOf candidateTxs :=
      mem_atomicItemsOf.2 ⟨parent, parentAt, parentKnown'⟩
    have same := eq_of_mem_of_length_le_one
      (by rw [length_atomicItemsOf]; omega) childItem parentItem
    simp only [TemplateAtomicItem.mk.injEq] at same
    rw [same.1, parentAt, Option.some.injEq] at childAt
    subst childAt
    exact absurd (.single ⟨List.mem_of_getElem? parentAt, List.mem_of_getElem? parentAt, depends⟩)
      (acyclic parent)

theorem infoAt_eq_getElem {atomicItems : List TemplateAtomicItem} {p : ℕ}
    (inRange : p < atomicItems.length) : infoAt atomicItems p = atomicItems[p].info := by
  simp [infoAt, List.getElem?_eq_getElem inRange]

theorem range_map_infoAt (atomicItems : List TemplateAtomicItem) :
    (List.range atomicItems.length).map (infoAt atomicItems) = atomicItems.map (·.info) := by
  rw [← filterMap_getElem?_range atomicItems (·.info)]
  refine (filterMap_eq_map_of _ fun p member => ?_).symm
  rw [List.mem_range] at member
  simp [infoAt_eq_getElem member, List.getElem?_eq_getElem member]

/-- With distinct transaction ids, the greedy order over positions is the greedy order of
the order information of the CAT candidates. -/
theorem PositionGreedy.infos
    (distinct : ((candidateTxs.filterMap infoOf).map (·.priority.txID)).Nodup) {positions : List ℕ}
    (greedy : PositionGreedy (atomicItemsOf infoOf candidateTxs) [] positions) :
    Greedy AtomicDependsOn infoLE (candidateTxs.filterMap infoOf) []
      (positions.map (infoAt (atomicItemsOf infoOf candidateTxs))) := by
  set atomicItems := atomicItemsOf infoOf candidateTxs with itemsEq
  have itemsDistinct : (atomicItems.map fun item => item.info.priority.txID).Nodup := by
    rw [← atomicItemsOf_map_info, List.map_map] at distinct
    exact distinct
  have inj : ∀ x ∈ List.range atomicItems.length, ∀ y ∈ List.range atomicItems.length,
      infoAt atomicItems x = infoAt atomicItems y → x = y := by
    intro x xIn y yIn same
    rw [List.mem_range] at xIn yIn
    rw [infoAt_eq_getElem xIn, infoAt_eq_getElem yIn] at same
    apply (List.getElem?_inj (by simpa using xIn) itemsDistinct).1
    simp [List.getElem?_eq_getElem xIn, List.getElem?_eq_getElem yIn, same]
  have deps : ∀ x ∈ List.range atomicItems.length, ∀ y ∈ List.range atomicItems.length,
      y ∈ positionParents atomicItems x ↔
        AtomicDependsOn (infoAt atomicItems x) (infoAt atomicItems y) := fun x _ y yIn => by
    rw [positionParents, mem_dependencyParents]
    simp [List.mem_range.1 yIn]
  have mapped : Greedy AtomicDependsOn infoLE
      ((List.range atomicItems.length).map (infoAt atomicItems)) ([].map (infoAt atomicItems))
      (positions.map (infoAt atomicItems)) :=
    greedy.map (infoAt atomicItems) inj deps (fun _ _ _ _ => rfl)
      (fun _ member => absurd member List.not_mem_nil)
  rwa [range_map_infoAt, itemsEq, atomicItemsOf_map_info, List.map_nil] at mapped

theorem map_infoOf_filterMap_candidateAt {positions : List ℕ}
    (greedy : PositionGreedy (atomicItemsOf infoOf candidateTxs) [] positions) :
    (positions.filterMap (candidateAt infoOf candidateTxs)).map infoOf =
      (positions.map (infoAt (atomicItemsOf infoOf candidateTxs))).map some := by
  rw [List.map_filterMap, List.map_map]
  exact filterMap_eq_map_of _ fun p member => by
    obtain ⟨held, atP, -, known⟩ := candidateAt_spec (greedy.lt p member)
    simp [atP, known]

/-- With at least two CAT candidates, the CAT candidates of the result are those laid
out at the positions of the greedy order. -/
theorem filter_orderAtomicCandidates_of_many
    (many : 1 < (atomicItemsOf infoOf candidateTxs).length) :
    ∃ positions, PositionGreedy (atomicItemsOf infoOf candidateTxs) [] positions ∧
      (orderAtomicCandidates infoOf candidateTxs).filter (fun c => (infoOf c).isSome) =
        positions.filterMap (candidateAt infoOf candidateTxs) := by
  obtain ⟨positions, greedy, ordered⟩ := orderAtomicCandidates_of_many many
  refine ⟨positions, greedy, ?_⟩
  rw [ordered, List.filter_append,
    List.filter_eq_self.2 fun c member => (mem_filterMap_candidateAt greedy.lt member).2,
    List.filter_eq_nil_iff.2 fun c member => by simp [infoOf_of_mem_nonAtomic member],
    List.append_nil]

variable (infoOf) in
theorem filter_map_txID (candidateTxs : List α) :
    (candidateTxs.filter fun c => (infoOf c).isSome).map
        (fun c => (infoOf c).map (·.priority.txID)) =
      ((candidateTxs.filterMap infoOf).map (·.priority.txID)).map some := by
  induction candidateTxs with
  | nil => rfl
  | cons c rest ih => cases known : infoOf c <;> simp [known, ih]

theorem eq_of_infoOf_eq
    (distinct : ((candidateTxs.filterMap infoOf).map (·.priority.txID)).Nodup) {a b : α}
    (aIn : a ∈ candidateTxs) (bIn : b ∈ candidateTxs) (known : (infoOf a).isSome)
    (same : infoOf a = infoOf b) : a = b := by
  have nodup := distinct.map (Option.some_injective _)
  rw [← filter_map_txID] at nodup
  apply List.inj_on_of_nodup_map nodup (List.mem_filter.2 ⟨aIn, known⟩)
    (List.mem_filter.2 ⟨bIn, same ▸ known⟩)
  rw [same]

theorem orderAtomicCandidates_filter_perm {reordered : List α} (perm : reordered.Perm candidateTxs)
    (distinct : ((candidateTxs.filterMap infoOf).map (·.priority.txID)).Nodup) :
    (orderAtomicCandidates infoOf reordered).filter (fun c => (infoOf c).isSome) =
      (orderAtomicCandidates infoOf candidateTxs).filter (fun c => (infoOf c).isSome) := by
  have sameCount := perm.countP_eq fun c => (infoOf c).isSome
  by_cases many : 1 < candidateTxs.countP fun c => (infoOf c).isSome
  · have many' := many
    rw [← sameCount] at many'
    rw [← length_atomicItemsOf] at many many'
    have distinct' := ((perm.filterMap infoOf).map (·.priority.txID)).nodup_iff.2 distinct
    obtain ⟨positions, greedy, filtered⟩ := filter_orderAtomicCandidates_of_many many
    obtain ⟨positions', greedy', filtered'⟩ := filter_orderAtomicCandidates_of_many many'
    have antisymm : ∀ x ∈ candidateTxs.filterMap infoOf, ∀ y ∈ candidateTxs.filterMap infoOf,
        infoLE x y = true → infoLE y x = true → x = y := fun x xIn y yIn below above =>
      List.inj_on_of_nodup_map distinct xIn yIn
        (congrArg TemplateAtomicOrderPriority.txID (priority_eq_of_infoLE below above))
    have same := ((greedy'.infos distinct').congr fun x => (perm.filterMap infoOf).mem_iff).unique
      antisymm (greedy.infos distinct)
    rw [filtered, filtered']
    refine @eq_of_map_eq_of_injOn _ _ infoOf (fun c => c ∈ candidateTxs ∧ (infoOf c).isSome)
      (fun a aIn b bIn same => eq_of_infoOf_eq distinct aIn.1 bIn.1 aIn.2 same) _ _
      (fun c member => ?_) (fun c member => mem_filterMap_candidateAt greedy.lt member) ?_
    · obtain ⟨inReordered, known⟩ := mem_filterMap_candidateAt greedy'.lt member
      exact ⟨perm.mem_iff.1 inReordered, known⟩
    · rw [map_infoOf_filterMap_candidateAt greedy', map_infoOf_filterMap_candidateAt greedy, same]
  · -- at most one CAT candidate: nothing moves, and the CAT candidates are the same list
    rw [orderAtomicCandidates_of_countP_le_one (by omega),
      orderAtomicCandidates_of_countP_le_one (Nat.le_of_not_lt many)]
    exact eq_of_perm_of_length_le_one (perm.filter _)
      (by rw [← List.countP_eq_length_filter]; omega)

end Result

/-! ## The template order -/

theorem orderAtomicCandidateTransactions_respects_dependencies
    (blake2b256 : List UInt8 → DomainHash) (candidateTxs : List CandidateTx) :
    (orderAtomicCandidateTransactions blake2b256 candidateTxs).Perm candidateTxs ∧
    (candidateTxs.countP (fun c => (templateAtomicOrderInfoForCandidate blake2b256 c).isSome) ≠ 1 →
      ∃ cats others, orderAtomicCandidateTransactions blake2b256 candidateTxs = cats ++ others ∧
        (∀ c ∈ cats, (templateAtomicOrderInfoForCandidate blake2b256 c).isSome) ∧
        ∀ c ∈ others, templateAtomicOrderInfoForCandidate blake2b256 c = none) ∧
    (Acyclic (CandidateDependsOn (templateAtomicOrderInfoForCandidate blake2b256)) candidateTxs →
      ∀ (i j : ℕ) child parent,
        (orderAtomicCandidateTransactions blake2b256 candidateTxs)[i]? = some child →
        (orderAtomicCandidateTransactions blake2b256 candidateTxs)[j]? = some parent →
        CandidateDependsOn (templateAtomicOrderInfoForCandidate blake2b256) child parent → j < i) ∧
    (((candidateTxs.filterMap (templateAtomicOrderInfoForCandidate blake2b256)).map
        (·.priority.txID)).Nodup →
      ∀ reordered, reordered.Perm candidateTxs →
        (orderAtomicCandidateTransactions blake2b256 reordered).filter
            (fun c => (templateAtomicOrderInfoForCandidate blake2b256 c).isSome) =
          (orderAtomicCandidateTransactions blake2b256 candidateTxs).filter
            (fun c => (templateAtomicOrderInfoForCandidate blake2b256 c).isSome)) :=
  ⟨orderAtomicCandidates_perm candidateTxs, orderAtomicCandidates_partition,
    fun acyclic _ _ _ _ childAt parentAt depends =>
      orderAtomicCandidates_parents_before acyclic childAt parentAt depends,
    fun distinct _ perm => orderAtomicCandidates_filter_perm perm distinct⟩

/-- A hash that sends everything to zero; the order does not read owner ids. -/
def zeroBlake (_ : List UInt8) : DomainHash := zeroHash

/-- A burn of one unit of the asset `7…7` at nonce `nonce`, authorised by the first
input, a pay-to-pubkey output of key `9…9`; its id is `nonce…nonce`. -/
def burnCandidate (nonce : UInt8) : CandidateTx where
  domainTransaction := some
    { inputs := [⟨⟨zeroHash, 0⟩,
        some ⟨100, ⟨(32 : UInt8) :: List.replicate 32 9 ++ [172], 0⟩, 0, false⟩⟩]
      outputs := []
      subnetworkID := subnetworkIDPayload
      payload := [67, 65, 84, 1, 3, 0, 0, 0, nonce, 0, 0, 0, 0, 0, 0, 0] ++
        List.replicate 32 7 ++ (1 :: List.replicate 15 0)
      id := Vector.replicate 32 nonce
      inputs_fit := by decide
      outputs_fit := by decide }

def plainCandidate : CandidateTx where
  domainTransaction := some
    { inputs := []
      outputs := []
      subnetworkID := Vector.replicate 20 0
      payload := []
      id := zeroHash
      inputs_fit := zero_lt_sliceBound
      outputs_fit := zero_lt_sliceBound }

/-- The burn at nonce 2 arrives before the burn at nonce 1 it depends on: the conditions
hold, and the order puts the nonce 1 burn first. -/
theorem orderAtomicCandidateTransactions_respects_dependencies_twoBurns :
    [burnCandidate 2, burnCandidate 1].countP
        (fun c => (templateAtomicOrderInfoForCandidate zeroBlake c).isSome) ≠ 1 ∧
      Acyclic (CandidateDependsOn (templateAtomicOrderInfoForCandidate zeroBlake))
        [burnCandidate 2, burnCandidate 1] ∧
      ((([burnCandidate 2, burnCandidate 1]).filterMap
        (templateAtomicOrderInfoForCandidate zeroBlake)).map (·.priority.txID)).Nodup ∧
      (∀ (i j : ℕ) child parent,
        (orderAtomicCandidateTransactions zeroBlake [burnCandidate 2, burnCandidate 1])[i]? =
          some child →
        (orderAtomicCandidateTransactions zeroBlake [burnCandidate 2, burnCandidate 1])[j]? =
          some parent →
        CandidateDependsOn (templateAtomicOrderInfoForCandidate zeroBlake) child parent → j < i) ∧
      (orderAtomicCandidateTransactions zeroBlake [burnCandidate 2, burnCandidate 1]).map
        (·.domainTransaction.map (·.id)) =
          [some (Vector.replicate 32 1), some (Vector.replicate 32 2)] := by
  have notOne : [burnCandidate 2, burnCandidate 1].countP
      (fun c => (templateAtomicOrderInfoForCandidate zeroBlake c).isSome) ≠ 1 := by
    decide +kernel
  have acyclic : Acyclic (CandidateDependsOn (templateAtomicOrderInfoForCandidate zeroBlake))
      [burnCandidate 2, burnCandidate 1] :=
    acyclic_of_rank
      (fun c => ((templateAtomicOrderInfoForCandidate zeroBlake c).map (·.nonce.toNat)).getD 0)
      (by decide +kernel)
  have distinct : (([burnCandidate 2, burnCandidate 1].filterMap
      (templateAtomicOrderInfoForCandidate zeroBlake)).map (·.priority.txID)).Nodup := by
    decide +kernel
  exact ⟨notOne, acyclic, distinct,
    (orderAtomicCandidateTransactions_respects_dependencies zeroBlake
      [burnCandidate 2, burnCandidate 1]).2.2.1 acyclic, by decide +kernel⟩

/-- With a single CAT candidate behind a native one, the order returns early and the CAT
candidate stays behind: the CAT candidates do not always come first. -/
theorem orderAtomicCandidateTransactions_single_cat_stays_behind :
    orderAtomicCandidateTransactions zeroBlake [plainCandidate, burnCandidate 1] =
        [plainCandidate, burnCandidate 1] ∧
      templateAtomicOrderInfoForCandidate zeroBlake plainCandidate = none ∧
      (templateAtomicOrderInfoForCandidate zeroBlake (burnCandidate 1)).isSome ∧
      ¬ ∃ cats others,
        orderAtomicCandidateTransactions zeroBlake [plainCandidate, burnCandidate 1] =
          cats ++ others ∧
        (∀ c ∈ cats, (templateAtomicOrderInfoForCandidate zeroBlake c).isSome) ∧
        ∀ c ∈ others, templateAtomicOrderInfoForCandidate zeroBlake c = none := by
  have unchanged : orderAtomicCandidateTransactions zeroBlake [plainCandidate, burnCandidate 1] =
      [plainCandidate, burnCandidate 1] :=
    orderAtomicCandidates_of_countP_le_one (by decide +kernel)
  have plainUnknown : templateAtomicOrderInfoForCandidate zeroBlake plainCandidate = none := by
    decide +kernel
  have burnKnown : (templateAtomicOrderInfoForCandidate zeroBlake (burnCandidate 1)).isSome := by
    decide +kernel
  refine ⟨unchanged, plainUnknown, burnKnown, ?_⟩
  rintro ⟨cats, others, split, catsKnown, othersUnknown⟩
  rw [unchanged] at split
  cases cats with
  | nil =>
    rw [List.nil_append] at split
    have burnUnknown := othersUnknown (burnCandidate 1)
      (split ▸ List.mem_cons_of_mem _ (List.mem_singleton_self _))
    rw [burnUnknown] at burnKnown
    exact absurd burnKnown Bool.false_ne_true
  | cons first rest =>
    simp only [List.cons_append, List.cons.injEq] at split
    have plainKnown := catsKnown plainCandidate (by simp [split.1])
    rw [plainUnknown] at plainKnown
    exact absurd plainKnown Bool.false_ne_true

end Cryptixd.Mining
