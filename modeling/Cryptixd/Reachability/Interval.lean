import Mathlib

/-!
# Splitting reachability intervals

`domain/consensus/processes/reachabilitymanager/interval.go`. A reachability
interval is inclusive at both ends, and its bounds and sizes are `uint64`s.
`intervalSplitExact` cuts an interval into consecutive parts of given sizes.
`intervalSplitWithExponentialBias` first gives each part a share of the spare
room and then cuts exactly. The shares come from floating-point fractions that
favour the largest size.

The fractions are `Float`s computed as the Go code computes them. Go turns a
rounded `float64` into a `uint64` with `uint64(x)`, and the result is
implementation-defined when `x` does not fit. The model therefore takes that
conversion as a parameter, `toUint64`. Nothing below depends on the conversion
or on the values of the fractions. The guarantee comes from two rules: each
bias is clamped to the budget that remains, and the last part takes all of it
(`sum_biasesFrom`). So the biased sizes add up to the interval's size, the exact
split succeeds, and its parts tile the interval (`Tiles`,
`intervalSplitWithExponentialBias_tiles`). With no sizes at all there is no last
part, and the exact split fails unless the interval is empty.
-/

set_option autoImplicit false

namespace Cryptixd.Reachability

structure ReachabilityInterval where
  start : UInt64
  «end» : UInt64
  deriving DecidableEq, Repr

def newReachabilityInterval (start «end» : UInt64) : ReachabilityInterval := ⟨start, «end»⟩

/-- `intervalSize`: both ends count, modulo `2 ^ 64`. -/
def intervalSize (ri : ReachabilityInterval) : UInt64 := ri.«end» - ri.start + 1

def sizesSum (sizes : List UInt64) : UInt64 := sizes.foldl (· + ·) 0

def splitFrom (start : UInt64) : List UInt64 → List ReachabilityInterval
  | [] => []
  | size :: sizes =>
    newReachabilityInterval start (start + size - 1) :: splitFrom (start + size) sizes

def intervalSplitExact (ri : ReachabilityInterval) (sizes : List UInt64) :
    Except String (List ReachabilityInterval) :=
  if sizesSum sizes ≠ intervalSize ri then .error "sum of sizes must be equal to the interval's size"
  else .ok (splitFrom ri.start sizes)

def exponentialFractions (sizes : List UInt64) : List Float :=
  let maxSize := sizes.foldl (fun maxSize size => if size > maxSize then size else maxSize) 0
  let fractions := sizes.map fun size => 1 / Float.pow 2 (maxSize - size).toFloat
  let fractionsSum := fractions.foldl (· + ·) 0
  fractions.map (· / fractionsSum)

/-- The bias `intervalSplitWithExponentialBias` gives the `i`-th of `count` sizes:
all that remains for the last one, otherwise the rounded share of the total,
at most what remains. -/
def biasOf (toUint64 : Float → UInt64) (count : ℕ) (totalBias : UInt64) (i : ℕ)
    (fraction : Float) (remainingBias : UInt64) : UInt64 :=
  if i = count - 1 then remainingBias
  else
    let bias := toUint64 (Float.round (totalBias.toFloat * fraction))
    if bias > remainingBias then remainingBias else bias

/-- The loop of `intervalSplitWithExponentialBias` over the fractions, from index `i`
with `remainingBias` left, writing into `biasedSizes`. -/
def biasSizes (toUint64 : Float → UInt64) (sizes : List UInt64) (count : ℕ) (totalBias : UInt64) :
    ℕ → List Float → UInt64 → List UInt64 → List UInt64
  | _, [], _, biasedSizes => biasedSizes
  | i, fraction :: fractions, remainingBias, biasedSizes =>
    let bias := biasOf toUint64 count totalBias i fraction remainingBias
    biasSizes toUint64 sizes count totalBias (i + 1) fractions (remainingBias - bias)
      (biasedSizes.set i (sizes.getD i 0 + bias))

def intervalSplitWithExponentialBias (toUint64 : Float → UInt64) (ri : ReachabilityInterval)
    (sizes : List UInt64) : Except String (List ReachabilityInterval) :=
  let intervalSize := intervalSize ri
  let sizesSum := sizesSum sizes
  if sizesSum > intervalSize then
    .error "sum of sizes must be less than or equal to the interval's size"
  else if sizesSum = intervalSize then intervalSplitExact ri sizes
  else
    let totalBias := intervalSize - sizesSum
    let fractions := exponentialFractions sizes
    intervalSplitExact ri
      (biasSizes toUint64 sizes fractions.length totalBias 0 fractions totalBias
        (List.replicate sizes.length 0))

/-! ## Tilings -/

/-- `parts` cover `start` up to `stop`, one after the other, and the part of each
size holds at least that many values; bounds are taken modulo `2 ^ 64`. -/
inductive Tiles : UInt64 → List UInt64 → List ReachabilityInterval → UInt64 → Prop
  | nil (start : UInt64) : Tiles start [] [] (start - 1)
  | cons {start size : UInt64} {sizes : List UInt64} {part : ReachabilityInterval}
      {parts : List ReachabilityInterval} {stop : UInt64} :
      part.start = start → size ≤ intervalSize part → Tiles (part.«end» + 1) sizes parts stop →
      Tiles start (size :: sizes) (part :: parts) stop

namespace Tiles

variable {start stop : UInt64} {sizes : List UInt64} {parts : List ReachabilityInterval}

theorem mono {smaller : List UInt64} (below : List.Forall₂ (· ≤ ·) smaller sizes)
    (tiles : Tiles start sizes parts stop) : Tiles start smaller parts stop := by
  induction tiles generalizing smaller with
  | nil => rw [List.forall₂_nil_right_iff.mp below]; exact .nil _
  | cons first fits _ ih =>
    obtain ⟨size', sizes', le, rest, rfl⟩ := List.forall₂_cons_right_iff.mp below
    exact .cons first (UInt64.le_trans le fits) (ih rest)

theorem forall₂ (tiles : Tiles start sizes parts stop) :
    List.Forall₂ (fun size part => size ≤ intervalSize part) sizes parts := by
  induction tiles with
  | nil => exact .nil
  | cons _ fits _ ih => exact .cons fits ih

theorem start_of_head (tiles : Tiles start sizes parts stop) :
    ∀ part ∈ parts.head?, part.start = start := by
  cases tiles with
  | nil => simp
  | cons first _ _ => simpa using first

theorem isChain (tiles : Tiles start sizes parts stop) :
    parts.IsChain fun part next => next.start = part.«end» + 1 := by
  induction tiles with
  | nil => exact .nil
  | cons _ _ rest ih => exact ih.cons rest.start_of_head

theorem head_start (tiles : Tiles start sizes parts stop) (nonempty : sizes ≠ []) :
    parts.head?.map (·.start) = some start := by
  cases tiles with
  | nil => exact absurd rfl nonempty
  | cons first _ _ => simpa using first

theorem getLast_end (tiles : Tiles start sizes parts stop) (nonempty : sizes ≠ []) :
    parts.getLast?.map (·.«end») = some stop := by
  induction tiles with
  | nil => exact absurd rfl nonempty
  | @cons start size sizes part parts stop _ _ rest ih =>
    cases rest with
    | nil => simp
    | cons first fits more =>
      rw [List.getLast?_cons_cons]
      exact ih (List.cons_ne_nil _ _)

end Tiles

/-! ## The exact split -/

theorem foldl_add_eq (sizes : List UInt64) (acc : UInt64) :
    sizes.foldl (· + ·) acc = acc + sizes.foldl (· + ·) 0 := by
  induction sizes generalizing acc with
  | nil => simp
  | cons size sizes ih =>
    rw [List.foldl_cons, List.foldl_cons, ih, ih (0 + size)]
    grind

theorem sizesSum_cons (size : UInt64) (sizes : List UInt64) :
    sizesSum (size :: sizes) = size + sizesSum sizes := by
  rw [sizesSum, List.foldl_cons, foldl_add_eq, zero_add, sizesSum]

theorem toNat_sizesSum (sizes : List UInt64) :
    (sizesSum sizes).toNat = (sizes.map UInt64.toNat).sum % 2 ^ 64 := by
  induction sizes with
  | nil => rfl
  | cons size sizes ih =>
    rw [sizesSum_cons, UInt64.toNat_add, ih, List.map_cons, List.sum_cons, Nat.add_mod_mod]

theorem splitFrom_tiles (start : UInt64) (sizes : List UInt64) :
    Tiles start sizes (splitFrom start sizes) (start + sizesSum sizes - 1) := by
  induction sizes generalizing start with
  | nil => simpa [sizesSum, splitFrom] using Tiles.nil start
  | cons size sizes ih =>
    have next : start + size - 1 + 1 = start + size := by grind
    have stop : start + size + sizesSum sizes - 1 = start + sizesSum (size :: sizes) - 1 := by
      rw [sizesSum_cons]
      grind
    rw [splitFrom]
    apply Tiles.cons (show (newReachabilityInterval start (start + size - 1)).start = start from rfl)
    · simp only [intervalSize, newReachabilityInterval]
      exact UInt64.le_of_eq (by grind)
    · rw [newReachabilityInterval, next, ← stop]
      exact ih (start + size)

theorem intervalSplitExact_tiles (ri : ReachabilityInterval) {sizes : List UInt64}
    (sum : sizesSum sizes = intervalSize ri) :
    ∃ parts, intervalSplitExact ri sizes = .ok parts ∧ Tiles ri.start sizes parts ri.«end» := by
  have stop : ri.start + sizesSum sizes - 1 = ri.«end» := by
    rw [sum, intervalSize]
    grind
  refine ⟨splitFrom ri.start sizes, by rw [intervalSplitExact, if_neg (not_not.mpr sum)], ?_⟩
  rw [← stop]
  exact splitFrom_tiles ri.start sizes

/-! ## The biases -/

section Bias

variable (toUint64 : Float → UInt64) (count : ℕ) (totalBias : UInt64)

/-- The biases the loop of `intervalSplitWithExponentialBias` picks, in order. -/
def biasesFrom : ℕ → List Float → UInt64 → List UInt64
  | _, [], _ => []
  | i, fraction :: fractions, remainingBias =>
    let bias := biasOf toUint64 count totalBias i fraction remainingBias
    bias :: biasesFrom (i + 1) fractions (remainingBias - bias)

theorem biasOf_le (i : ℕ) (fraction : Float) (remainingBias : UInt64) :
    biasOf toUint64 count totalBias i fraction remainingBias ≤ remainingBias := by
  unfold biasOf
  dsimp only
  split_ifs with last clamped
  · exact UInt64.le_refl _
  · exact UInt64.le_refl _
  · exact UInt64.not_lt.mp clamped

theorem biasSizes_eq (sizes : List UInt64) (fractions : List Float) (i : ℕ)
    (remainingBias : UInt64) (done : List UInt64) (position : done.length = i)
    (aligned : (sizes.drop i).length = fractions.length) :
    biasSizes toUint64 sizes count totalBias i fractions remainingBias
        (done ++ List.replicate fractions.length 0) =
      done ++ List.zipWith (· + ·) (sizes.drop i)
        (biasesFrom toUint64 count totalBias i fractions remainingBias) := by
  induction fractions generalizing i remainingBias done with
  | nil => simp [biasSizes, biasesFrom]
  | cons fraction fractions ih =>
    have inside : i < sizes.length := by
      rw [List.length_drop, List.length_cons] at aligned
      omega
    have written : (done ++ List.replicate (fractions.length + 1) 0).set i
        (sizes.getD i 0 + biasOf toUint64 count totalBias i fraction remainingBias) =
          (done ++ [sizes[i] + biasOf toUint64 count totalBias i fraction remainingBias]) ++
            List.replicate fractions.length 0 := by
      rw [List.set_append_right _ _ position.le, position, Nat.sub_self, List.replicate_succ,
        List.set_cons_zero, List.getD_eq_getElem _ _ inside, List.append_assoc, List.singleton_append]
    have restAligned : (sizes.drop (i + 1)).length = fractions.length := by
      rw [List.length_drop] at aligned ⊢
      rw [List.length_cons] at aligned
      omega
    rw [biasSizes, List.length_cons, written,
      ih (i + 1) _ _ (by rw [List.length_append, position, List.length_singleton]) restAligned,
      List.drop_eq_getElem_cons inside, biasesFrom, List.zipWith_cons_cons, List.append_assoc,
      List.singleton_append]

theorem sum_biasesFrom (fraction : Float) (fractions : List Float) (i : ℕ) (remainingBias : UInt64)
    (aligned : i + (fraction :: fractions).length = count) :
    ((biasesFrom toUint64 count totalBias i (fraction :: fractions) remainingBias).map
      UInt64.toNat).sum = remainingBias.toNat := by
  induction fractions generalizing i fraction remainingBias with
  | nil =>
    have last : i = count - 1 := by
      rw [List.length_singleton] at aligned
      omega
    simp [biasesFrom, biasOf, last]
  | cons next fractions ih =>
    have notLast : i ≠ count - 1 := by
      rw [List.length_cons, List.length_cons] at aligned
      omega
    have le := biasOf_le toUint64 count totalBias i fraction remainingBias
    rw [biasesFrom, List.map_cons, List.sum_cons,
      ih next (i + 1) _ (by simp only [List.length_cons] at aligned ⊢; omega),
      UInt64.toNat_sub_of_le _ _ le]
    have := UInt64.le_iff_toNat_le.mp le
    omega

theorem length_biasesFrom (i : ℕ) (fractions : List Float) (remainingBias : UInt64) :
    (biasesFrom toUint64 count totalBias i fractions remainingBias).length = fractions.length := by
  induction fractions generalizing i remainingBias with
  | nil => rfl
  | cons fraction fractions ih => rw [biasesFrom, List.length_cons, ih, List.length_cons]

end Bias

theorem zipWith_add_of_sum_lt {sizes biases : List UInt64} (same : sizes.length = biases.length)
    (small : (sizes.map UInt64.toNat).sum + (biases.map UInt64.toNat).sum < 2 ^ 64) :
    List.Forall₂ (· ≤ ·) sizes (List.zipWith (· + ·) sizes biases) ∧
      ((List.zipWith (· + ·) sizes biases).map UInt64.toNat).sum =
        (sizes.map UInt64.toNat).sum + (biases.map UInt64.toNat).sum := by
  induction sizes generalizing biases with
  | nil =>
    cases biases with
    | nil => simp
    | cons bias biases => exact absurd same (by simp)
  | cons size sizes ih =>
    cases biases with
    | nil => exact absurd same (by simp)
    | cons bias biases =>
      simp only [List.map_cons, List.sum_cons] at small
      have pair : (size + bias).toNat = size.toNat + bias.toNat := by
        rw [UInt64.toNat_add, Nat.mod_eq_of_lt (by omega)]
      obtain ⟨grows, sum⟩ := ih (Nat.succ.inj same) (by omega)
      have grown : size ≤ size + bias := UInt64.le_iff_toNat_le.mpr (by omega)
      refine ⟨.cons grown grows, ?_⟩
      rw [List.zipWith_cons_cons, List.map_cons, List.sum_cons, List.map_cons, List.sum_cons,
        List.map_cons, List.sum_cons, sum, pair]
      omega

/-! ## The biased split -/

theorem length_exponentialFractions (sizes : List UInt64) :
    (exponentialFractions sizes).length = sizes.length := by
  simp [exponentialFractions]

/-- Spreading the room the sizes leave over them: each size grows, and together
they fill `total`, whatever the fractions and their conversion give. -/
theorem biasSizes_fill (toUint64 : Float → UInt64) {sizes : List UInt64} (nonempty : sizes ≠ [])
    (noOverflow : (sizes.map UInt64.toNat).sum < 2 ^ 64) {total : UInt64}
    (within : sizesSum sizes ≤ total) :
    List.Forall₂ (· ≤ ·) sizes
        (biasSizes toUint64 sizes (exponentialFractions sizes).length (total - sizesSum sizes) 0
          (exponentialFractions sizes) (total - sizesSum sizes) (List.replicate sizes.length 0)) ∧
      sizesSum (biasSizes toUint64 sizes (exponentialFractions sizes).length
        (total - sizesSum sizes) 0 (exponentialFractions sizes) (total - sizesSum sizes)
        (List.replicate sizes.length 0)) = total := by
  have sumNat : (sizesSum sizes).toNat = (sizes.map UInt64.toNat).sum := by
    rw [toNat_sizesSum, Nat.mod_eq_of_lt noOverflow]
  obtain ⟨fraction, fractions, split⟩ : ∃ fraction fractions,
      exponentialFractions sizes = fraction :: fractions := by
    apply List.exists_cons_of_ne_nil
    rw [← List.length_pos_iff, length_exponentialFractions]
    exact List.length_pos_iff.mpr nonempty
  have count := length_exponentialFractions sizes
  rw [split] at count ⊢
  set totalBias := total - sizesSum sizes
  set biases := biasesFrom toUint64 (fractions.length + 1) totalBias 0 (fraction :: fractions)
    totalBias
  -- the loop adds the biases to the sizes, and the biases use up the room
  have written := biasSizes_eq toUint64 (fractions.length + 1) totalBias sizes
    (fraction :: fractions) 0 totalBias [] rfl (by rw [List.drop_zero, ← count])
  rw [List.nil_append, List.nil_append, List.drop_zero, List.length_cons] at written
  have biasSum : (biases.map UInt64.toNat).sum = totalBias.toNat :=
    sum_biasesFrom toUint64 _ totalBias fraction fractions 0 totalBias (by simp)
  have totalNat : totalBias.toNat = total.toNat - (sizes.map UInt64.toNat).sum := by
    rw [UInt64.toNat_sub_of_le _ _ within, sumNat]
  have sameLength : sizes.length = biases.length := by
    rw [length_biasesFrom, ← count, List.length_cons]
  have totalFits := total.toNat_lt
  have withinNat := UInt64.le_iff_toNat_le.mp within
  obtain ⟨grows, biasedSum⟩ := zipWith_add_of_sum_lt sameLength (by omega)
  have filled : sizesSum (List.zipWith (· + ·) sizes biases) = total := by
    apply UInt64.toNat_inj.mp
    rw [toNat_sizesSum, biasedSum, biasSum, totalNat, Nat.mod_eq_of_lt (by omega)]
    omega
  rw [← count, List.length_cons, written]
  exact ⟨grows, filled⟩

theorem intervalSplitWithExponentialBias_tiles (toUint64 : Float → UInt64)
    (ri : ReachabilityInterval) {sizes : List UInt64} (nonempty : sizes ≠ [])
    (noOverflow : (sizes.map UInt64.toNat).sum < 2 ^ 64)
    (fits : (sizes.map UInt64.toNat).sum ≤ (intervalSize ri).toNat) :
    ∃ parts, intervalSplitWithExponentialBias toUint64 ri sizes = .ok parts ∧
      Tiles ri.start sizes parts ri.«end» := by
  have sumNat : (sizesSum sizes).toNat = (sizes.map UInt64.toNat).sum := by
    rw [toNat_sizesSum, Nat.mod_eq_of_lt noOverflow]
  have within : sizesSum sizes ≤ intervalSize ri := UInt64.le_iff_toNat_le.mpr (sumNat ▸ fits)
  unfold intervalSplitWithExponentialBias
  dsimp only
  rw [if_neg (UInt64.not_lt.mpr within)]
  split_ifs with exact
  · exact intervalSplitExact_tiles ri exact
  obtain ⟨grows, filled⟩ := biasSizes_fill toUint64 nonempty noOverflow within
  obtain ⟨parts, splits, tiles⟩ := intervalSplitExact_tiles ri filled
  exact ⟨parts, splits, tiles.mono grows⟩

theorem intervalSplitWithExponentialBias_exact_cover (toUint64 : Float → UInt64)
    (ri : ReachabilityInterval) (sizes : List UInt64) (nonempty : sizes ≠ [])
    (noOverflow : (sizes.map UInt64.toNat).sum < 2 ^ 64)
    (fits : (sizes.map UInt64.toNat).sum ≤ (intervalSize ri).toNat) :
    ∃ parts, intervalSplitWithExponentialBias toUint64 ri sizes = .ok parts ∧
      List.Forall₂ (fun size part => size ≤ intervalSize part) sizes parts ∧
      parts.head?.map (·.start) = some ri.start ∧
      parts.getLast?.map (·.«end») = some ri.«end» ∧
      parts.IsChain fun part next => next.start = part.«end» + 1 := by
  obtain ⟨parts, splits, tiles⟩ :=
    intervalSplitWithExponentialBias_tiles toUint64 ri nonempty noOverflow fits
  exact ⟨parts, splits, tiles.forall₂, tiles.head_start nonempty, tiles.getLast_end nonempty,
    tiles.isChain⟩

theorem intervalSplitWithExponentialBias_exact_cover_twoChildren :
    ([3, 2] : List UInt64) ≠ [] ∧ (([3, 2] : List UInt64).map UInt64.toNat).sum < 2 ^ 64 ∧
      (([3, 2] : List UInt64).map UInt64.toNat).sum ≤ (intervalSize ⟨0, 9⟩).toNat ∧
      ∃ parts, intervalSplitWithExponentialBias Float.toUInt64 ⟨0, 9⟩ [3, 2] = .ok parts ∧
        List.Forall₂ (fun size part => size ≤ intervalSize part) [3, 2] parts ∧
        parts.head?.map (·.start) = some 0 ∧ parts.getLast?.map (·.«end») = some 9 ∧
        parts.IsChain fun part next => next.start = part.«end» + 1 :=
  ⟨by decide, by decide, by decide,
    intervalSplitWithExponentialBias_exact_cover Float.toUInt64 ⟨0, 9⟩ [3, 2] (by decide)
      (by decide) (by decide)⟩

/-- With no sizes, a non-empty interval is not split: the biased sizes are
empty too and the exact split finds their sum short. -/
theorem intervalSplitWithExponentialBias_no_sizes :
    intervalSplitWithExponentialBias Float.toUInt64 ⟨0, 0⟩ [] =
      .error "sum of sizes must be equal to the interval's size" :=
  rfl

end Cryptixd.Reachability
