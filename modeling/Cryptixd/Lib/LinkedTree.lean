import Mathlib

/-!
# Trees stored as children lists and parent pointers

A `LinkedTree` is a forest over any type of nodes. Each node has a list of
children and at most one parent. The two agree, no child is listed twice, and a
height falls along every child edge, so the forest is finite below each node.
`Descends tree ancestor node` says that `node` lies in the subtree of `ancestor`.

Along parent pointers the ancestors of a node form a chain
(`descends_total`), and a strict ancestor of a child is an ancestor of its parent
(`descends_child_iff`). The recursive subtree size, one plus the sizes of the
children, counts the nodes of the subtree (`length_subtreeNodes`).

A traversal keeps a list of nodes to visit. `Below nodes node` and `Above nodes node`
say that `node` lies under or over one of them, and an `Antichain` is a list of
which no node lies under another; the last section says how these change when a
node is replaced by its children or by its parent.
-/

set_option autoImplicit false

/-- A forest given by children lists and parent pointers that agree. -/
structure LinkedTree (Node : Type*) where
  children : Node → List Node
  parent : Node → Option Node
  height : Node → ℕ
  children_nodup : ∀ node, (children node).Nodup
  parent_eq_some_iff : ∀ {node child}, parent child = some node ↔ child ∈ children node
  height_lt : ∀ {node child}, child ∈ children node → height child < height node

namespace LinkedTree

variable {Node : Type*} (tree : LinkedTree Node)

/-- `node` lies in the subtree of `ancestor`. -/
def Descends (ancestor node : Node) : Prop :=
  Relation.ReflTransGen (fun parent child => child ∈ tree.children parent) ancestor node

/-- The size of the subtree of `node`: one plus the sizes of its children's. -/
def subtreeSize (node : Node) : ℕ :=
  ((tree.children node).map fun child => subtreeSize child).sum + 1
termination_by tree.height node
decreasing_by exact tree.height_lt ‹_›

def subtreeNodes (node : Node) : List Node :=
  node :: (tree.children node).flatMap fun child => subtreeNodes child
termination_by tree.height node
decreasing_by exact tree.height_lt ‹_›

variable {tree}

namespace Descends

theorem refl (node : Node) : tree.Descends node node := Relation.ReflTransGen.refl

theorem child {parent child : Node} (member : child ∈ tree.children parent) :
    tree.Descends parent child :=
  Relation.ReflTransGen.single member

theorem trans {a b c : Node} (ab : tree.Descends a b) (bc : tree.Descends b c) :
    tree.Descends a c :=
  Relation.ReflTransGen.trans ab bc

theorem height_le {ancestor node : Node} (descends : tree.Descends ancestor node) :
    tree.height node ≤ tree.height ancestor := by
  induction descends with
  | refl => exact le_refl _
  | tail _ step ih => exact (tree.height_lt step).le.trans ih

theorem height_lt {ancestor node : Node} (descends : tree.Descends ancestor node)
    (differ : ancestor ≠ node) : tree.height node < tree.height ancestor := by
  rcases Relation.ReflTransGen.cases_tail descends with same | ⟨parent, above, step⟩
  · exact absurd same.symm differ
  · exact (tree.height_lt step).trans_le (Descends.height_le above)

theorem antisymm {a b : Node} (ab : tree.Descends a b) (ba : tree.Descends b a) : a = b := by
  by_contra differ
  exact absurd (ab.height_lt differ) (not_lt.mpr ba.height_le)

end Descends

theorem parent_unique {node node' child : Node} (member : child ∈ tree.children node)
    (member' : child ∈ tree.children node') : node = node' := by
  have first := tree.parent_eq_some_iff.mpr member
  rw [tree.parent_eq_some_iff.mpr member'] at first
  exact (Option.some.inj first).symm

theorem descends_child_iff {parent child ancestor : Node} (member : child ∈ tree.children parent) :
    tree.Descends ancestor child ↔ ancestor = child ∨ tree.Descends ancestor parent := by
  constructor
  · intro descends
    rcases Relation.ReflTransGen.cases_tail descends with same | ⟨above, toAbove, step⟩
    · exact .inl same.symm
    · exact .inr (tree.parent_unique step member ▸ toAbove)
  · rintro (same | above)
    · subst same
      exact Descends.refl ancestor
    · exact above.trans (Descends.child member)

theorem descends_total {a b node : Node} (aNode : tree.Descends a node)
    (bNode : tree.Descends b node) : tree.Descends a b ∨ tree.Descends b a := by
  have unique : Relator.RightUnique (fun child parent => child ∈ tree.children parent) :=
    fun _ _ _ first second => tree.parent_unique first second
  rcases Relation.ReflTransGen.total_of_right_unique unique (Relation.reflTransGen_swap.mpr aNode)
    (Relation.reflTransGen_swap.mpr bNode) with ab | ba
  · exact .inr (Relation.reflTransGen_swap.mp ab)
  · exact .inl (Relation.reflTransGen_swap.mp ba)

/-! ## Subtree sizes -/

theorem subtreeSize_eq (node : Node) :
    tree.subtreeSize node = ((tree.children node).map fun child => tree.subtreeSize child).sum + 1 := by
  rw [subtreeSize]

theorem subtreeNodes_eq (node : Node) :
    tree.subtreeNodes node = node :: (tree.children node).flatMap fun child => tree.subtreeNodes child := by
  rw [subtreeNodes]

theorem length_subtreeNodes (node : Node) : (tree.subtreeNodes node).length = tree.subtreeSize node := by
  induction node using (measure tree.height).wf.induction with
  | h node ih =>
    rw [subtreeNodes_eq, subtreeSize_eq, List.length_cons, List.length_flatMap]
    congr 2
    apply List.map_congr_left
    intro child member
    exact ih child (tree.height_lt member)

section Frontier

variable (tree)

/-- `node` lies in the subtree of a node of `tops`. -/
def Below (tops : List Node) (node : Node) : Prop := ∃ top ∈ tops, tree.Descends top node

/-- `node` is an ancestor of a node of `bottoms`. -/
def Above (bottoms : List Node) (node : Node) : Prop := ∃ bottom ∈ bottoms, tree.Descends node bottom

def Antichain (nodes : List Node) : Prop :=
  nodes.Pairwise fun a b => ¬tree.Descends a b ∧ ¬tree.Descends b a

variable {tree}

@[simp] theorem below_nil (node : Node) : ¬tree.Below [] node := by simp [Below]

@[simp] theorem above_nil (node : Node) : ¬tree.Above [] node := by simp [Above]

@[simp] theorem below_cons {top node : Node} {tops : List Node} :
    tree.Below (top :: tops) node ↔ tree.Descends top node ∨ tree.Below tops node := by
  simp [Below]

@[simp] theorem above_cons {bottom node : Node} {bottoms : List Node} :
    tree.Above (bottom :: bottoms) node ↔ tree.Descends node bottom ∨ tree.Above bottoms node := by
  simp [Above]

@[simp] theorem below_append {tops tops' : List Node} {node : Node} :
    tree.Below (tops ++ tops') node ↔ tree.Below tops node ∨ tree.Below tops' node := by
  simp [Below, or_and_right, exists_or]

@[simp] theorem above_append {bottoms bottoms' : List Node} {node : Node} :
    tree.Above (bottoms ++ bottoms') node ↔ tree.Above bottoms node ∨ tree.Above bottoms' node := by
  simp [Above, or_and_right, exists_or]

theorem not_descends_of_mem_children {node child : Node} (member : child ∈ tree.children node) :
    ¬tree.Descends child node :=
  fun up => absurd (tree.height_lt member) (not_lt.mpr up.height_le)

theorem eq_of_descends_siblings {parent a b : Node} (aMember : a ∈ tree.children parent)
    (bMember : b ∈ tree.children parent) (descends : tree.Descends a b) : a = b := by
  rcases (descends_child_iff bMember).mp descends with same | up
  · exact same
  · exact absurd up (not_descends_of_mem_children aMember)

theorem exists_parent_of_descends {ancestor node : Node} (descends : tree.Descends ancestor node)
    (differ : node ≠ ancestor) :
    ∃ parent, tree.parent node = some parent ∧ tree.Descends ancestor parent := by
  rcases Relation.ReflTransGen.cases_tail descends with same | ⟨parent, toParent, member⟩
  · exact absurd same differ
  · exact ⟨parent, tree.parent_eq_some_iff.mpr member, toParent⟩

theorem below_children {node u : Node} :
    tree.Below (tree.children node) u ↔ tree.Descends node u ∧ u ≠ node := by
  constructor
  · rintro ⟨child, member, below⟩
    refine ⟨(Descends.child member).trans below, ?_⟩
    rintro rfl
    exact not_descends_of_mem_children member below
  · rintro ⟨descends, differ⟩
    rcases Relation.ReflTransGen.cases_head descends with same | ⟨child, member, below⟩
    · exact absurd same.symm differ
    · exact ⟨child, member, below⟩

theorem above_children {node u : Node} (nonempty : tree.children node ≠ []) :
    tree.Above (tree.children node) u ↔ tree.Descends u node ∨ u ∈ tree.children node := by
  constructor
  · rintro ⟨child, member, above⟩
    rcases (descends_child_iff member).mp above with same | up
    · exact .inr (same ▸ member)
    · exact .inl up
  · rintro (up | member)
    · obtain ⟨child, member⟩ := List.exists_mem_of_ne_nil _ nonempty
      exact ⟨child, member, up.trans (Descends.child member)⟩
    · exact ⟨u, member, Descends.refl u⟩

theorem above_parent {node u : Node} :
    tree.Above (tree.parent node).toList u ↔ tree.Descends u node ∧ u ≠ node := by
  constructor
  · rintro ⟨parent, member, up⟩
    have child : node ∈ tree.children parent :=
      tree.parent_eq_some_iff.mp (Option.mem_toList.mp member)
    refine ⟨up.trans (Descends.child child), ?_⟩
    rintro rfl
    exact not_descends_of_mem_children child up
  · rintro ⟨up, differ⟩
    rcases Relation.ReflTransGen.cases_tail up with same | ⟨parent, toParent, member⟩
    · exact absurd same.symm differ
    · exact ⟨parent, Option.mem_toList.mpr (tree.parent_eq_some_iff.mpr member), toParent⟩

theorem above_of_child {parent child : Node} {tops : List Node}
    (member : child ∈ tree.children parent) (notBelow : ¬tree.Below tops parent)
    (touched : tree.Below tops child ∨ tree.Above tops child) : tree.Above tops parent := by
  rcases touched with ⟨top, topMember, down⟩ | ⟨bottom, bottomMember, up⟩
  · rcases (descends_child_iff member).mp down with same | up
    · exact ⟨top, topMember, by rw [same]; exact Descends.child member⟩
    · exact absurd ⟨top, topMember, up⟩ notBelow
  · exact ⟨bottom, bottomMember, (Descends.child member).trans up⟩

theorem exists_child_above {node : Node} {tops : List Node} (notBelow : ¬tree.Below tops node)
    (above : tree.Above tops node) : ∃ child ∈ tree.children node, tree.Above tops child := by
  obtain ⟨bottom, member, down⟩ := above
  have differ : bottom ≠ node := by
    rintro rfl
    exact notBelow ⟨bottom, member, Descends.refl bottom⟩
  obtain ⟨child, childMember, below⟩ := below_children.mpr ⟨down, differ⟩
  exact ⟨child, childMember, bottom, member, below⟩

/-- A node that lies neither under nor over `tops` after its parent is added to
them: the node itself, or one that lay neither under `tops` nor over the node. -/
theorem outside_parent_iff {node x : Node} {tops : List Node} (notBelow : ¬tree.Below tops node)
    (notAbove : ¬tree.Above tops node) :
    (¬tree.Below tops x ∧ ¬tree.Above ((tree.parent node).toList ++ tops) x) ↔
      (¬tree.Below tops x ∧ ¬tree.Above (node :: tops) x) ∨ x = node := by
  rw [above_append, above_parent, above_cons]
  by_cases same : x = node
  · rw [same]
    simp [notBelow, notAbove]
  · simp [same]

theorem antichain_children (node : Node) : tree.Antichain (tree.children node) :=
  (tree.children_nodup node).imp_of_mem fun aMember bMember differ =>
    ⟨fun down => differ (eq_of_descends_siblings aMember bMember down),
      fun up => differ (eq_of_descends_siblings bMember aMember up).symm⟩

namespace Antichain

variable {top node : Node} {tops : List Node}

theorem not_below (anti : tree.Antichain (top :: tops)) (descends : tree.Descends top node) :
    ¬tree.Below tops node := by
  rintro ⟨other, member, below⟩
  obtain ⟨apart, apart'⟩ := List.rel_of_pairwise_cons anti member
  rcases descends_total descends below with up | down
  · exact apart up
  · exact apart' down

theorem not_above (anti : tree.Antichain (top :: tops)) (descends : tree.Descends top node) :
    ¬tree.Above tops node := by
  rintro ⟨other, member, above⟩
  exact (List.rel_of_pairwise_cons anti member).1 (descends.trans above)

theorem append_children (anti : tree.Antichain (top :: tops)) :
    tree.Antichain (tops ++ tree.children top) := by
  rw [Antichain, List.pairwise_append]
  refine ⟨anti.of_cons, antichain_children top, ?_⟩
  intro other member child childMember
  obtain ⟨apart, apart'⟩ := List.rel_of_pairwise_cons anti member
  constructor
  · intro down
    rcases (descends_child_iff childMember).mp down with same | up
    · subst same
      exact apart (Descends.child childMember)
    · exact apart' up
  · intro up
    exact apart ((Descends.child childMember).trans up)

theorem below_append_children_iff (anti : tree.Antichain (top :: tops)) :
    tree.Below (tops ++ tree.children top) node ↔ tree.Below (top :: tops) node ∧ node ≠ top := by
  have notBelowTail : ¬tree.Below tops top := anti.not_below (Descends.refl top)
  rw [below_append, below_children, below_cons]
  constructor
  · rintro (below | ⟨down, differ⟩)
    · exact ⟨.inr below, fun same => notBelowTail (same ▸ below)⟩
    · exact ⟨.inl down, differ⟩
  · rintro ⟨down | below, differ⟩
    · exact .inr ⟨down, differ⟩
    · exact .inl below

/-- Replacing the head of an antichain by its children leaves the nodes that lie
neither under nor over it as they were. -/
theorem outside_append_children_iff (anti : tree.Antichain (top :: tops))
    (nonempty : tree.children top ≠ []) :
    (¬tree.Below (tops ++ tree.children top) node ∧ ¬tree.Above (tops ++ tree.children top) node) ↔
      (¬tree.Below (top :: tops) node ∧ ¬tree.Above (top :: tops) node) := by
  have above_iff : ¬tree.Below (tops ++ tree.children top) node →
      (tree.Above (tops ++ tree.children top) node ↔ tree.Above (top :: tops) node) := by
    intro notBelow
    rw [above_append, above_children nonempty, above_cons]
    constructor
    · rintro (above | up | member)
      · exact .inr above
      · exact .inl up
      · exact absurd (below_append.mpr (.inr ⟨node, member, Descends.refl node⟩)) notBelow
    · rintro (up | above)
      · exact .inr (.inl up)
      · exact .inl above
  constructor
  · rintro ⟨notBelow, notAbove⟩
    have differ : node ≠ top := by
      rintro rfl
      exact notAbove ((above_iff notBelow).mpr (above_cons.mpr (.inl (Descends.refl node))))
    exact ⟨fun below => notBelow ((anti.below_append_children_iff).mpr ⟨below, differ⟩),
      fun above => notAbove ((above_iff notBelow).mpr above)⟩
  · rintro ⟨notBelow, notAbove⟩
    have notBelow' : ¬tree.Below (tops ++ tree.children top) node :=
      fun below => notBelow ((anti.below_append_children_iff).mp below).1
    exact ⟨notBelow', fun above => notAbove ((above_iff notBelow').mp above)⟩

/-- Taking the head off the tops of an antichain, but not off the bottoms: the
nodes strictly under the head join those that lie neither under nor over. -/
theorem outside_tail_iff (anti : tree.Antichain (top :: tops)) :
    (¬tree.Below tops node ∧ ¬tree.Above (top :: tops) node) ↔
      (¬tree.Below (top :: tops) node ∧ ¬tree.Above (top :: tops) node) ∨
        (tree.Descends top node ∧ node ≠ top) := by
  constructor
  · rintro ⟨notBelow, notAbove⟩
    by_cases down : tree.Descends top node
    · refine .inr ⟨down, ?_⟩
      rintro rfl
      exact notAbove (above_cons.mpr (.inl (Descends.refl node)))
    · exact .inl ⟨fun below => (below_cons.mp below).elim down notBelow, notAbove⟩
  · rintro (⟨notBelow, notAbove⟩ | ⟨down, differ⟩)
    · exact ⟨fun below => notBelow (below_cons.mpr (.inr below)), notAbove⟩
    · refine ⟨anti.not_below down, ?_⟩
      rw [above_cons]
      rintro (up | above)
      · exact differ (Descends.antisymm up down)
      · exact anti.not_above down above

end Antichain

end Frontier

end LinkedTree

