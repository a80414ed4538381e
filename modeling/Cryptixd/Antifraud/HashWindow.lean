import Mathlib
import Cryptixd.Lib.RecentWindow
import Cryptixd.Antifraud.Snapshot

/-!
# The window of recent anti-fraud root hashes

`advanceAntiFraudHashWindow` keeps the root hashes of the latest applied
snapshots, which a node sends in its version message. A window is read as its
non-zero prefix followed by zero hashes (`Represents`). One advance puts the new
hash first and keeps the earlier ones it does not repeat, up to the window
length (`advance_represents`); this is the window law of `RecentWindow`, so
after any sequence of root hashes from the all-zero window the window lists
the latest distinct non-zero hashes (`antiFraudHashWindow_recent`).
-/

set_option autoImplicit false

namespace Cryptixd.Antifraud

open Cryptixd.Atomic RecentWindow

/-- The latest distinct non-zero hashes of a sequence, as many as the window holds. -/
def recentRootHashes (hashes : List DomainHash) : List DomainHash :=
  (recentDistinct (hashes.filter (· ≠ zeroHash))).take antiFraudHashWindowLen

def Represents (window : Vector DomainHash 3) (hashes : List DomainHash) : Prop :=
  window.toList = hashes ++ List.replicate (antiFraudHashWindowLen - hashes.length) zeroHash

/-! ## The loop over the old window -/

theorem foldl_orderedStep_of_full {ordered : List DomainHash}
    (full : ordered.length = antiFraudHashWindowLen) (hashes : List DomainHash) :
    hashes.foldl orderedStep ordered = ordered := by
  induction hashes with
  | nil => rfl
  | cons hash rest ih => rw [List.foldl_cons, orderedStep, if_pos (.inl full), ih]

theorem foldl_orderedStep_zeros (ordered : List DomainHash) (count : ℕ) :
    (List.replicate count zeroHash).foldl orderedStep ordered = ordered := by
  induction count with
  | zero => rfl
  | succ count ih =>
    rw [List.replicate_succ, List.foldl_cons, orderedStep, if_pos (.inr (.inl rfl)), ih]

theorem foldl_orderedStep_distinct {hashes : List DomainHash} (nodup : hashes.Nodup)
    (nonzero : zeroHash ∉ hashes) {ordered : List DomainHash}
    (fits : ordered.length ≤ antiFraudHashWindowLen) :
    hashes.foldl orderedStep ordered =
      (ordered ++ hashes.filter (· ∉ ordered)).take antiFraudHashWindowLen := by
  induction hashes generalizing ordered with
  | nil => rw [List.foldl_nil, List.filter_nil, List.append_nil, List.take_of_length_le fits]
  | cons hash rest ih =>
    obtain ⟨fresh, restNodup⟩ := List.nodup_cons.mp nodup
    have restNonzero : zeroHash ∉ rest := fun held => nonzero (List.mem_cons_of_mem _ held)
    have hashNonzero : hash ≠ zeroHash := fun same => nonzero (same ▸ List.mem_cons_self)
    rw [List.foldl_cons]
    by_cases full : ordered.length = antiFraudHashWindowLen
    · rw [orderedStep, if_pos (.inl full), foldl_orderedStep_of_full full, List.take_left' full]
    by_cases listed : hash ∈ ordered
    · rw [orderedStep, if_pos (.inr (.inr listed)), ih restNodup restNonzero fits,
        List.filter_cons_of_neg (by simpa using listed)]
    have grown : (ordered ++ [hash]).length ≤ antiFraudHashWindowLen := by
      rw [List.length_append, List.length_singleton]
      omega
    have sameFilter : rest.filter (· ∉ ordered ++ [hash]) = rest.filter (· ∉ ordered) := by
      apply List.filter_congr
      intro other member
      have differ : other ≠ hash := fun same => fresh (same ▸ member)
      simp [differ]
    rw [orderedStep, if_neg (by simp [full, hashNonzero, listed]), ih restNodup restNonzero grown,
      sameFilter, List.filter_cons_of_pos (by simpa using listed), List.append_assoc,
      List.singleton_append]

/-! ## One advance -/

section Advance

variable {window : Vector DomainHash 3} {hashes : List DomainHash}

theorem foldl_orderedStep_represents (represents : Represents window hashes) (nodup : hashes.Nodup)
    (nonzero : zeroHash ∉ hashes) (newHash : DomainHash) :
    window.toList.foldl orderedStep [newHash] =
      newHash :: (hashes.filter (· ≠ newHash)).take (antiFraudHashWindowLen - 1) := by
  have start : [newHash].length ≤ antiFraudHashWindowLen := by simp [antiFraudHashWindowLen]
  have sameFilter : hashes.filter (· ∉ [newHash]) = hashes.filter (· ≠ newHash) :=
    List.filter_congr fun other _ => by simp
  rw [represents, List.foldl_append, foldl_orderedStep_distinct nodup nonzero start,
    foldl_orderedStep_zeros, List.singleton_append, sameFilter]
  rfl

theorem take_filter_of_head {first : DomainHash} {rest : List DomainHash}
    (nodup : (first :: rest).Nodup) (fits : (first :: rest).length ≤ antiFraudHashWindowLen) :
    first :: ((first :: rest).filter (· ≠ first)).take (antiFraudHashWindowLen - 1) =
      first :: rest := by
  have restFits : rest.length ≤ antiFraudHashWindowLen - 1 := by
    rw [List.length_cons] at fits
    omega
  have fresh : first ∉ rest := (List.nodup_cons.mp nodup).1
  rw [List.filter_cons_of_neg (by simp), List.filter_eq_self.mpr fun other member => by
    simpa using fun same : other = first => fresh (same ▸ member),
    List.take_of_length_le restFits]

/-- The windows `advanceAntiFraudHashWindow` builds: the new hash, then the
earlier ones it does not repeat, cut to the window length. -/
theorem advance_represents (represents : Represents window hashes) (nodup : hashes.Nodup)
    (nonzero : zeroHash ∉ hashes) (fits : hashes.length ≤ antiFraudHashWindowLen)
    {newHash : DomainHash} (newNonzero : newHash ≠ zeroHash) :
    Represents (advanceAntiFraudHashWindow window newHash)
      (newHash :: (hashes.filter (· ≠ newHash)).take (antiFraudHashWindowLen - 1)) := by
  rw [advanceAntiFraudHashWindow_eq]
  have head : window[0] = hashes.headD zeroHash := by
    have read := congrArg (·[0]?) represents
    simp only [Vector.getElem?_toList] at read
    cases hashes with
    | nil => simpa [antiFraudHashWindowLen] using read
    | cons first rest => simpa using read
  by_cases latest : window[0] = newHash
  · -- the early return: the new hash heads the window already
    rw [if_pos (.inr latest)]
    rw [head] at latest
    cases hashes with
    | nil => exact absurd latest.symm newNonzero
    | cons first rest =>
      rw [List.headD_cons] at latest
      subst latest
      rwa [take_filter_of_head nodup fits]
  rw [if_neg (by simp [newNonzero, latest]), Represents, Vector.toList_ofFn,
    foldl_orderedStep_represents represents nodup nonzero newHash]
  exact ofFn_getD (by simp [antiFraudHashWindowLen]) zeroHash

end Advance

/-! ## Runs from the all-zero window -/

theorem recentRootHashes_nodup (hashes : List DomainHash) : (recentRootHashes hashes).Nodup :=
  (nodup_recentDistinct _).sublist (List.take_sublist _ _)

theorem zeroHash_not_mem_recentRootHashes (hashes : List DomainHash) :
    zeroHash ∉ recentRootHashes hashes := by
  intro held
  have := List.mem_filter.mp (mem_recentDistinct.mp (List.mem_of_mem_take held))
  simp at this

theorem recentRootHashes_concat (hashes : List DomainHash) {newHash : DomainHash}
    (newNonzero : newHash ≠ zeroHash) :
    recentRootHashes (hashes ++ [newHash]) =
      newHash :: ((recentRootHashes hashes).filter (· ≠ newHash)).take (antiFraudHashWindowLen - 1) := by
  rw [recentRootHashes, List.filter_append, List.filter_cons_of_pos (by simpa using newNonzero),
    List.filter_nil, show antiFraudHashWindowLen = 2 + 1 from rfl, take_recentDistinct_concat]
  rfl

theorem recentRootHashes_concat_zero (hashes : List DomainHash) :
    recentRootHashes (hashes ++ [zeroHash]) = recentRootHashes hashes := by
  rw [recentRootHashes, List.filter_append, List.filter_cons_of_neg (by simp), List.filter_nil,
    List.append_nil]
  rfl

/-- From the all-zero window, the window after a sequence of root hashes holds
the latest distinct non-zero hashes, then zero hashes. -/
theorem foldl_advance_represents (hashes : List DomainHash) :
    Represents (hashes.foldl advanceAntiFraudHashWindow (Vector.replicate 3 zeroHash))
      (recentRootHashes hashes) := by
  induction hashes using List.reverseRecOn with
  | nil => rfl
  | append_singleton hashes newHash ih =>
    rw [List.foldl_append, List.foldl_cons, List.foldl_nil]
    by_cases zero : newHash = zeroHash
    · subst zero
      rw [recentRootHashes_concat_zero, advanceAntiFraudHashWindow_eq, if_pos (.inl rfl)]
      exact ih
    rw [recentRootHashes_concat hashes zero]
    exact advance_represents ih (recentRootHashes_nodup hashes)
      (zeroHash_not_mem_recentRootHashes hashes) (List.length_take_le _ _) zero

theorem antiFraudHashWindow_recent (hashes : List DomainHash) :
    (hashes.foldl advanceAntiFraudHashWindow (Vector.replicate 3 zeroHash)).toList =
        recentRootHashes hashes ++
          List.replicate (antiFraudHashWindowLen - (recentRootHashes hashes).length) zeroHash ∧
      (recentRootHashes hashes).Nodup ∧ zeroHash ∉ recentRootHashes hashes :=
  ⟨foldl_advance_represents hashes, recentRootHashes_nodup hashes,
    zeroHash_not_mem_recentRootHashes hashes⟩

end Cryptixd.Antifraud
