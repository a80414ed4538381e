import Mathlib
import Cryptixd.Utxo.DiffSpec
import Cryptixd.Lib.Trace

/-!
# Adding a transaction to a UTXO diff

`utxo/mutable_utxo_diff.go`: `AddTransaction` records a transaction in a diff,
spending each input with `removeEntry` and creating each output with
`addEntry`.  The two are mirror images (`recordEntry`): an entry the opposite
collection holds with the same DAA score cancels against it, and any other
entry goes into its own collection, which must not hold the outpoint already.

Each call touches one outpoint, so the diff is read one outpoint at a time
(`cellsAt`, `ConsistentAt`).  `addTransaction_applyDiff` shows that for a diff
consistent with a UTXO set, a transaction spending distinct present entries
and creating fresh outputs is accepted, and that the diff then applies to the
set as the transaction does: its spent outpoints emptied and its outputs
added.  A spend of an outpoint the diff has already removed, and an output the
diff already adds, are refused; a second spend of an output created within the
diff is not.
-/

set_option autoImplicit false

namespace Cryptixd.Utxo

open Cryptixd.Atomic

def UTXOCollection.remove (collection : UTXOCollection) (outpoint : DomainOutpoint) :
    UTXOCollection :=
  collection.erase outpoint

/-- The body `addEntry` and `removeEntry` share, on the collection the entry
goes to and the opposite one: an entry the opposite collection holds with the
same DAA score cancels against it; otherwise the entry is recorded, unless its
own collection holds the outpoint already. -/
def recordEntry (own opposite : UTXOCollection) (outpoint : DomainOutpoint) (utxoEntry : UTXOEntry)
    (twice : String) : Except String (UTXOCollection × UTXOCollection) :=
  if opposite.containsWithDAAScore outpoint utxoEntry.blockDAAScore then
    .ok (own, opposite.remove outpoint)
  else if own.contains outpoint then .error twice
  else .ok (own.add outpoint utxoEntry, opposite)

namespace MutableUTXODiff

def addEntry (mud : MutableUTXODiff) (outpoint : DomainOutpoint) (utxoEntry : UTXOEntry) :
    Except String MutableUTXODiff := do
  let (toAdd, toRemove) ← recordEntry mud.toAdd mud.toRemove outpoint utxoEntry
    ("AddEntry: Cannot add outpoint " ++ outpoint.toText ++ " twice")
  return ⟨toAdd, toRemove⟩

def removeEntry (mud : MutableUTXODiff) (outpoint : DomainOutpoint) (utxoEntry : UTXOEntry) :
    Except String MutableUTXODiff := do
  let (toRemove, toAdd) ← recordEntry mud.toRemove mud.toAdd outpoint utxoEntry
    ("removeEntry: Cannot remove outpoint " ++ outpoint.toText ++ " twice")
  return ⟨toAdd, toRemove⟩

end MutableUTXODiff

def newUTXOEntry (amount : UInt64) (scriptPublicKey : ScriptPublicKey) (isCoinbase : Bool)
    (blockDAAScore : UInt64) : UTXOEntry :=
  ⟨amount, scriptPublicKey, blockDAAScore, isCoinbase⟩

def nilEntryPanic : String := "runtime error: invalid memory address or nil pointer dereference"

def spendInput (mud : MutableUTXODiff) (input : DomainTransactionInput) :
    Except String MutableUTXODiff :=
  match input.utxoEntry with
  | some utxoEntry => mud.removeEntry input.previousOutpoint utxoEntry
  | none => throw nilEntryPanic

/-- The outpoints and entries the loop over the outputs of `AddTransaction`
adds, the index of an output taken as a `uint32`. -/
def outputEntries (transaction : DomainTransaction) (blockDAAScore : UInt64) :
    List (DomainOutpoint × UTXOEntry) :=
  transaction.outputs.zipIdx.map fun (output, i) =>
    (⟨transaction.id, UInt32.ofNat i⟩,
      newUTXOEntry output.value output.scriptPublicKey (isCoinBase transaction) blockDAAScore)

def MutableUTXODiff.addTransaction (mud : MutableUTXODiff) (transaction : DomainTransaction)
    (blockDAAScore : UInt64) : Except String MutableUTXODiff := do
  let mud ← transaction.inputs.foldlM spendInput mud
  (outputEntries transaction blockDAAScore).foldlM
    (fun mud created => mud.addEntry created.1 created.2) mud

/-! ## One call, one outpoint -/

section Record

variable {own opposite : UTXOCollection} {outpoint : DomainOutpoint} {utxoEntry : UTXOEntry}
  {twice : String}

theorem recordEntry_eq_ok {result : UTXOCollection × UTXOCollection}
    (recorded : recordEntry own opposite outpoint utxoEntry twice = .ok result) :
    (scoreOf (opposite.lookup outpoint) = some utxoEntry.blockDAAScore ∧
        result = (own, opposite.erase outpoint)) ∨
      (scoreOf (opposite.lookup outpoint) ≠ some utxoEntry.blockDAAScore ∧
        own.lookup outpoint = none ∧ result = (own.insert outpoint utxoEntry, opposite)) := by
  unfold recordEntry at recorded
  by_cases cancels : opposite.containsWithDAAScore outpoint utxoEntry.blockDAAScore = true
  · rw [if_pos cancels] at recorded
    exact .inl ⟨(containsWithDAAScore_eq_true_iff _ _ _).mp cancels, (Except.ok.inj recorded).symm⟩
  · rw [if_neg cancels] at recorded
    by_cases held : own.contains outpoint = true
    · rw [if_pos held] at recorded
      cases recorded
    · rw [if_neg held] at recorded
      refine .inr ⟨(containsWithDAAScore_eq_false_iff _ _ _).mp (by simpa using cancels), ?_,
        (Except.ok.inj recorded).symm⟩
      simpa [UTXOCollection.contains] using held

theorem recordEntry_twice (kept : scoreOf (opposite.lookup outpoint) ≠ some utxoEntry.blockDAAScore)
    (held : (own.lookup outpoint).isSome) :
    recordEntry own opposite outpoint utxoEntry twice = .error twice := by
  have cancels : opposite.containsWithDAAScore outpoint utxoEntry.blockDAAScore = false :=
    (containsWithDAAScore_eq_false_iff _ _ _).mpr kept
  rw [recordEntry, if_neg (by simp [cancels])]
  exact if_pos held

end Record

namespace MutableUTXODiff

variable {mud next : MutableUTXODiff} {outpoint : DomainOutpoint} {utxoEntry : UTXOEntry}

theorem addEntry_eq_ok (added : mud.addEntry outpoint utxoEntry = .ok next) :
    (scoreOf (mud.toRemove.lookup outpoint) = some utxoEntry.blockDAAScore ∧
        next = ⟨mud.toAdd, mud.toRemove.erase outpoint⟩) ∨
      (scoreOf (mud.toRemove.lookup outpoint) ≠ some utxoEntry.blockDAAScore ∧
        mud.toAdd.lookup outpoint = none ∧ next = ⟨mud.toAdd.insert outpoint utxoEntry, mud.toRemove⟩) := by
  obtain ⟨result, recorded, built⟩ := Except.bind_eq_ok.1 added
  cases built
  rcases recordEntry_eq_ok recorded with ⟨cancels, rfl⟩ | ⟨kept, fresh, rfl⟩
  · exact .inl ⟨cancels, rfl⟩
  · exact .inr ⟨kept, fresh, rfl⟩

theorem removeEntry_eq_ok (removed : mud.removeEntry outpoint utxoEntry = .ok next) :
    (scoreOf (mud.toAdd.lookup outpoint) = some utxoEntry.blockDAAScore ∧
        next = ⟨mud.toAdd.erase outpoint, mud.toRemove⟩) ∨
      (scoreOf (mud.toAdd.lookup outpoint) ≠ some utxoEntry.blockDAAScore ∧
        mud.toRemove.lookup outpoint = none ∧ next = ⟨mud.toAdd, mud.toRemove.insert outpoint utxoEntry⟩) := by
  obtain ⟨result, recorded, built⟩ := Except.bind_eq_ok.1 removed
  cases built
  rcases recordEntry_eq_ok recorded with ⟨cancels, rfl⟩ | ⟨kept, fresh, rfl⟩
  · exact .inl ⟨cancels, rfl⟩
  · exact .inr ⟨kept, fresh, rfl⟩

end MutableUTXODiff

/-! ## The diff at one outpoint -/

/-- What a diff holds at one outpoint: the entry it adds and the entry it removes. -/
def cellsAt (diff : MutableUTXODiff) (outpoint : DomainOutpoint) : Option UTXOEntry × Option UTXOEntry :=
  (diff.toAdd.lookup outpoint, diff.toRemove.lookup outpoint)

def ConsistentAt (base : UTXOCollection) (diff : MutableUTXODiff) (outpoint : DomainOutpoint) : Prop :=
  (∀ utxoEntry, diff.toRemove.lookup outpoint = some utxoEntry →
    ∃ baseEntry, base.lookup outpoint = some baseEntry ∧
      baseEntry.blockDAAScore = utxoEntry.blockDAAScore) ∧
  (∀ utxoEntry, diff.toAdd.lookup outpoint = some utxoEntry →
    ∀ baseEntry, base.lookup outpoint = some baseEntry →
      diff.toRemove.containsWithDAAScore outpoint baseEntry.blockDAAScore = true)

theorem consistentWith_iff_consistentAt (base : UTXOCollection) (diff : MutableUTXODiff) :
    ConsistentWith base.toSet diff ↔ ∀ outpoint, ConsistentAt base diff outpoint :=
  ⟨fun consistent outpoint => ⟨consistent.1 outpoint, consistent.2 outpoint⟩,
    fun consistent => ⟨fun outpoint => (consistent outpoint).1, fun outpoint => (consistent outpoint).2⟩⟩

section Cells

variable {base : UTXOCollection} {mud next : MutableUTXODiff} {outpoint : DomainOutpoint}
  {utxoEntry : UTXOEntry}

theorem mem_applyDiff_congr (same : cellsAt next outpoint = cellsAt mud outpoint) (x : UTXOEntry) :
    (outpoint, x) ∈ applyDiff base.toSet next ↔ (outpoint, x) ∈ applyDiff base.toSet mud := by
  simp only [cellsAt, Prod.mk.injEq] at same
  rw [mem_applyDiff, mem_applyDiff, same.1, same.2]

theorem ConsistentAt.congr (same : cellsAt next outpoint = cellsAt mud outpoint)
    (consistent : ConsistentAt base mud outpoint) : ConsistentAt base next outpoint := by
  simp only [cellsAt, Prod.mk.injEq] at same
  unfold ConsistentAt UTXOCollection.containsWithDAAScore
  rw [same.1, same.2]
  exact consistent

theorem cellsAt_addEntry (added : mud.addEntry outpoint utxoEntry = .ok next) {other : DomainOutpoint}
    (apart : other ≠ outpoint) : cellsAt next other = cellsAt mud other := by
  rcases MutableUTXODiff.addEntry_eq_ok added with ⟨-, rfl⟩ | ⟨-, -, rfl⟩
  · simp [cellsAt, AList.lookup_erase_ne apart]
  · simp [cellsAt, AList.lookup_insert_ne apart]

theorem cellsAt_removeEntry (removed : mud.removeEntry outpoint utxoEntry = .ok next)
    {other : DomainOutpoint} (apart : other ≠ outpoint) : cellsAt next other = cellsAt mud other := by
  rcases MutableUTXODiff.removeEntry_eq_ok removed with ⟨-, rfl⟩ | ⟨-, -, rfl⟩
  · simp [cellsAt, AList.lookup_erase_ne apart]
  · simp [cellsAt, AList.lookup_insert_ne apart]

theorem removeEntry_present (consistent : ConsistentAt base mud outpoint) {held : UTXOEntry}
    (member : (outpoint, held) ∈ applyDiff base.toSet mud)
    (score : held.blockDAAScore = utxoEntry.blockDAAScore) :
    ∃ next, mud.removeEntry outpoint utxoEntry = .ok next ∧ ConsistentAt base next outpoint ∧
      ∀ x, (outpoint, x) ∉ applyDiff base.toSet next := by
  obtain ⟨removesBase, addsOverBase⟩ := consistent
  rw [mem_applyDiff, mem_toSet] at member
  by_cases cancels : scoreOf (mud.toAdd.lookup outpoint) = some utxoEntry.blockDAAScore
  · -- the spent entry was added by the diff, and the addition is dropped
    obtain ⟨added, found, -⟩ := (scoreOf_eq_some_iff _ _).mp cancels
    refine ⟨⟨mud.toAdd.erase outpoint, mud.toRemove⟩, ?_, ⟨removesBase, fun x gone => by simp at gone⟩,
      fun x spent => ?_⟩
    · rw [MutableUTXODiff.removeEntry, recordEntry,
        if_pos ((containsWithDAAScore_eq_true_iff _ _ _).mpr cancels)]
      rfl
    · rw [mem_applyDiff, mem_toSet] at spent
      simp only [AList.lookup_erase, reduceCtorEq, or_false] at spent
      exact spent.2 ((containsWithDAAScore_eq_true_iff _ _ _).mp (addsOverBase added found x spent.1))
  · -- the spent entry is the base's, which the diff neither removes nor replaces
    obtain ⟨inBase, notRemoved⟩ : base.lookup outpoint = some held ∧
        scoreOf (mud.toRemove.lookup outpoint) ≠ some held.blockDAAScore := by
      rcases member with kept | added
      · exact kept
      · exact absurd (by rw [added, scoreOf_some, score]) cancels
    have unremoved : mud.toRemove.lookup outpoint = none := by
      cases found : mud.toRemove.lookup outpoint with
      | none => rfl
      | some removedEntry =>
        obtain ⟨baseEntry, again, same⟩ := removesBase removedEntry found
        rw [inBase, Option.some.injEq] at again
        subst again
        exact absurd (by rw [found, scoreOf_some, same]) notRemoved
    have unadded : mud.toAdd.lookup outpoint = none := by
      cases found : mud.toAdd.lookup outpoint with
      | none => rfl
      | some added =>
        exact absurd ((containsWithDAAScore_eq_true_iff _ _ _).mp (addsOverBase added found held inBase))
          notRemoved
    refine ⟨⟨mud.toAdd, mud.toRemove.insert outpoint utxoEntry⟩, ?_,
      ⟨fun x found => ?_, fun x found => ?_⟩, fun x spent => ?_⟩
    · rw [MutableUTXODiff.removeEntry, recordEntry,
        if_neg (by rw [containsWithDAAScore_eq_true_iff]; exact cancels),
        if_neg (by simp [UTXOCollection.contains, unremoved])]
      rfl
    · rw [AList.lookup_insert, Option.some.injEq] at found
      subst found
      exact ⟨held, inBase, score⟩
    · simp [unadded] at found
    · rw [mem_applyDiff, mem_toSet] at spent
      simp only [AList.lookup_insert, scoreOf_some, unadded, reduceCtorEq, or_false] at spent
      rw [inBase, Option.some.injEq] at spent
      obtain ⟨rfl, notSpent⟩ := spent
      exact notSpent (by rw [score])

theorem addEntry_fresh (consistent : ConsistentAt base mud outpoint)
    (fresh : ∀ x, (outpoint, x) ∉ applyDiff base.toSet mud)
    (reborn : ∀ baseEntry, base.lookup outpoint = some baseEntry →
      baseEntry.blockDAAScore = utxoEntry.blockDAAScore → baseEntry = utxoEntry) :
    ∃ next, mud.addEntry outpoint utxoEntry = .ok next ∧ ConsistentAt base next outpoint ∧
      ∀ x, (outpoint, x) ∈ applyDiff base.toSet next ↔ x = utxoEntry := by
  obtain ⟨removesBase, -⟩ := consistent
  have unadded : mud.toAdd.lookup outpoint = none := by
    cases found : mud.toAdd.lookup outpoint with
    | none => rfl
    | some added => exact absurd ((mem_applyDiff _ _ _ _).mpr (.inr found)) (fresh added)
  have removed : ∀ baseEntry, base.lookup outpoint = some baseEntry →
      scoreOf (mud.toRemove.lookup outpoint) = some baseEntry.blockDAAScore := by
    intro baseEntry inBase
    by_contra notRemoved
    exact fresh baseEntry ((mem_applyDiff _ _ _ _).mpr (.inl ⟨inBase, notRemoved⟩))
  by_cases cancels : scoreOf (mud.toRemove.lookup outpoint) = some utxoEntry.blockDAAScore
  · -- the base's entry with this score was removed by the diff, and comes back
    obtain ⟨removedEntry, found, same⟩ := (scoreOf_eq_some_iff _ _).mp cancels
    obtain ⟨baseEntry, inBase, score⟩ := removesBase removedEntry found
    have back : baseEntry = utxoEntry := reborn baseEntry inBase (score.trans same)
    subst back
    refine ⟨⟨mud.toAdd, mud.toRemove.erase outpoint⟩, ?_,
      ⟨fun x gone => by simp at gone, fun x found => by simp [unadded] at found⟩, fun x => ?_⟩
    · rw [MutableUTXODiff.addEntry, recordEntry,
        if_pos ((containsWithDAAScore_eq_true_iff _ _ _).mpr cancels)]
      rfl
    · rw [mem_applyDiff, mem_toSet]
      simp [unadded, inBase, eq_comm]
  · -- the entry is recorded as added, the base's entry staying removed
    refine ⟨⟨mud.toAdd.insert outpoint utxoEntry, mud.toRemove⟩, ?_,
      ⟨removesBase, fun x _ baseEntry inBase => ?_⟩, fun x => ?_⟩
    · rw [MutableUTXODiff.addEntry, recordEntry,
        if_neg (by rw [containsWithDAAScore_eq_true_iff]; exact cancels),
        if_neg (by simp [UTXOCollection.contains, unadded])]
      rfl
    · exact (containsWithDAAScore_eq_true_iff _ _ _).mpr (removed baseEntry inBase)
    · rw [mem_applyDiff, mem_toSet, AList.lookup_insert, Option.some.injEq]
      constructor
      · rintro (⟨inBase, notRemoved⟩ | added)
        · exact absurd (removed x inBase) notRemoved
        · exact added.symm
      · rintro rfl
        exact .inr rfl

end Cells

/-! ## The two loops -/

/-- What the loop over the inputs keeps after the inputs `spent`, started from
`diff`: the diff stays consistent with the base, the outpoints spent so far
hold nothing, and every other outpoint reads as in `diff`. -/
structure SpendInvariant (base : UTXOCollection) (diff : MutableUTXODiff)
    (spent : List DomainTransactionInput) (current : MutableUTXODiff) : Prop where
  consistent : ConsistentWith base.toSet current
  emptied : ∀ input ∈ spent, ∀ x, (input.previousOutpoint, x) ∉ applyDiff base.toSet current
  untouched : ∀ outpoint, (∀ input ∈ spent, input.previousOutpoint ≠ outpoint) →
    cellsAt current outpoint = cellsAt diff outpoint

/-- What the loop over the outputs keeps after the entries `created`, started
from `spentDiff`: the diff stays consistent with the base, each outpoint
created so far holds its new entry alone, and every other outpoint reads as in
`spentDiff`. -/
structure CreateInvariant (base : UTXOCollection) (spentDiff : MutableUTXODiff)
    (created : List (DomainOutpoint × UTXOEntry)) (current : MutableUTXODiff) : Prop where
  consistent : ConsistentWith base.toSet current
  holds : ∀ output ∈ created, ∀ x, (output.1, x) ∈ applyDiff base.toSet current ↔ x = output.2
  untouched : ∀ outpoint, (∀ output ∈ created, output.1 ≠ outpoint) →
    cellsAt current outpoint = cellsAt spentDiff outpoint

section Loops

variable {base : UTXOCollection} {diff current : MutableUTXODiff}

theorem consistentWith_of_frame {next : MutableUTXODiff} {outpoint : DomainOutpoint}
    (consistent : ConsistentWith base.toSet current) (here : ConsistentAt base next outpoint)
    (frame : ∀ other, other ≠ outpoint → cellsAt next other = cellsAt current other) :
    ConsistentWith base.toSet next := by
  rw [consistentWith_iff_consistentAt] at consistent ⊢
  intro other
  by_cases same : other = outpoint
  · exact same ▸ here
  · exact (consistent other).congr (frame other same)

theorem spendInput_step {spent : List DomainTransactionInput} {input : DomainTransactionInput}
    (invariant : SpendInvariant base diff spent current)
    (fresh : ∀ earlier ∈ spent, earlier.previousOutpoint ≠ input.previousOutpoint)
    (present : ∃ spentEntry, input.utxoEntry = some spentEntry ∧ ∃ held,
      (input.previousOutpoint, held) ∈ applyDiff base.toSet diff ∧
        held.blockDAAScore = spentEntry.blockDAAScore) :
    ∃ next, spendInput current input = .ok next ∧ SpendInvariant base diff (spent ++ [input]) next := by
  obtain ⟨spentEntry, populated, held, member, score⟩ := present
  have same := invariant.untouched _ fresh
  obtain ⟨next, removed, consistentHere, emptiedHere⟩ :=
    removeEntry_present ((consistentWith_iff_consistentAt _ _).mp invariant.consistent _)
      ((mem_applyDiff_congr same held).mpr member) score
  have frame := fun other (apart : other ≠ input.previousOutpoint) => cellsAt_removeEntry removed apart
  refine ⟨next, by rw [spendInput, populated]; exact removed,
    ⟨consistentWith_of_frame invariant.consistent consistentHere frame, ?_, ?_⟩⟩
  · intro earlier member x
    rcases List.mem_append.mp member with before | now
    · rw [mem_applyDiff_congr (frame _ (fresh earlier before))]
      exact invariant.emptied earlier before x
    · rw [List.mem_singleton.mp now]
      exact emptiedHere x
  · intro outpoint untouched
    have apart : outpoint ≠ input.previousOutpoint := fun same => untouched input (by simp) same.symm
    rw [frame outpoint apart]
    exact invariant.untouched outpoint fun earlier member => untouched earlier (List.mem_append_left _ member)

theorem spendInputs_ok (consistent : ConsistentWith base.toSet diff) (inputs : List DomainTransactionInput)
    (distinct : (inputs.map (·.previousOutpoint)).Nodup)
    (present : ∀ input ∈ inputs, ∃ spentEntry, input.utxoEntry = some spentEntry ∧ ∃ held,
      (input.previousOutpoint, held) ∈ applyDiff base.toSet diff ∧
        held.blockDAAScore = spentEntry.blockDAAScore) :
    ∃ spentDiff, inputs.foldlM spendInput diff = .ok spentDiff ∧
      SpendInvariant base diff inputs spentDiff := by
  refine Transition.foldlM_ok_of_prefix spendInput inputs ?_ inputs [] diff rfl
    ⟨consistent, fun _ absent => absurd absent List.not_mem_nil, fun _ _ => rfl⟩
  intro spent input rest current split invariant
  have fresh : ∀ earlier ∈ spent, earlier.previousOutpoint ≠ input.previousOutpoint := by
    rw [← split, List.map_append, List.map_cons, List.nodup_append] at distinct
    exact fun earlier member => distinct.2.2 _ (List.mem_map_of_mem member) _ List.mem_cons_self
  exact spendInput_step invariant fresh (present input (by rw [← split]; simp))

theorem createOutput_step {spentDiff : MutableUTXODiff} {created : List (DomainOutpoint × UTXOEntry)}
    {output : DomainOutpoint × UTXOEntry} (invariant : CreateInvariant base spentDiff created current)
    (fresh : ∀ earlier ∈ created, earlier.1 ≠ output.1)
    (absent : ∀ x, (output.1, x) ∉ applyDiff base.toSet spentDiff)
    (reborn : ∀ baseEntry, base.lookup output.1 = some baseEntry →
      baseEntry.blockDAAScore = output.2.blockDAAScore → baseEntry = output.2) :
    ∃ next, current.addEntry output.1 output.2 = .ok next ∧
      CreateInvariant base spentDiff (created ++ [output]) next := by
  have same := invariant.untouched _ fresh
  obtain ⟨next, added, consistentHere, holdsHere⟩ :=
    addEntry_fresh ((consistentWith_iff_consistentAt _ _).mp invariant.consistent _)
      (fun x => by rw [mem_applyDiff_congr same]; exact absent x) reborn
  have frame := fun other (apart : other ≠ output.1) => cellsAt_addEntry added apart
  refine ⟨next, added, ⟨consistentWith_of_frame invariant.consistent consistentHere frame, ?_, ?_⟩⟩
  · intro earlier member x
    rcases List.mem_append.mp member with before | now
    · rw [mem_applyDiff_congr (frame _ (fresh earlier before))]
      exact invariant.holds earlier before x
    · rw [List.mem_singleton.mp now]
      exact holdsHere x
  · intro outpoint untouched
    have apart : outpoint ≠ output.1 := fun same => untouched output (by simp) same.symm
    rw [frame outpoint apart]
    exact invariant.untouched outpoint fun earlier member => untouched earlier (List.mem_append_left _ member)

theorem createOutputs_ok {spentDiff : MutableUTXODiff} (consistent : ConsistentWith base.toSet spentDiff)
    (outputs : List (DomainOutpoint × UTXOEntry)) (distinct : (outputs.map Prod.fst).Nodup)
    (absent : ∀ output ∈ outputs, ∀ x, (output.1, x) ∉ applyDiff base.toSet spentDiff)
    (reborn : ∀ output ∈ outputs, ∀ baseEntry, base.lookup output.1 = some baseEntry →
      baseEntry.blockDAAScore = output.2.blockDAAScore → baseEntry = output.2) :
    ∃ final, outputs.foldlM (fun mud created => mud.addEntry created.1 created.2) spentDiff = .ok final ∧
      CreateInvariant base spentDiff outputs final := by
  refine Transition.foldlM_ok_of_prefix _ outputs ?_ outputs [] spentDiff rfl
    ⟨consistent, fun _ none => absurd none List.not_mem_nil, fun _ _ => rfl⟩
  intro created output rest current split invariant
  have member : output ∈ outputs := by rw [← split]; simp
  have fresh : ∀ earlier ∈ created, earlier.1 ≠ output.1 := by
    rw [← split, List.map_append, List.map_cons, List.nodup_append] at distinct
    exact fun earlier before => distinct.2.2 _ (List.mem_map_of_mem before) _ List.mem_cons_self
  exact createOutput_step invariant fresh (absent output member) (reborn output member)

end Loops

/-! ## The transaction -/

section Transaction

variable (transaction : DomainTransaction) (blockDAAScore : UInt64)

theorem outputEntries_blockDAAScore {created : DomainOutpoint × UTXOEntry}
    (member : created ∈ outputEntries transaction blockDAAScore) :
    created.2.blockDAAScore = blockDAAScore := by
  obtain ⟨⟨output, i⟩, -, rfl⟩ := List.mem_map.mp member
  rfl

theorem outputEntries_nodup (fewOutputs : transaction.outputs.length ≤ 2 ^ 32) :
    ((outputEntries transaction blockDAAScore).map Prod.fst).Nodup := by
  have indices : (outputEntries transaction blockDAAScore).map Prod.fst =
      (List.range' 0 transaction.outputs.length).map
        fun i => (⟨transaction.id, UInt32.ofNat i⟩ : DomainOutpoint) := by
    rw [← List.zipIdx_map_snd, List.map_map, outputEntries, List.map_map]
    rfl
  rw [indices]
  refine List.Nodup.map_on (fun i inRange j inRange' same => ?_) (List.nodup_range' 1)
  have index := congrArg (fun outpoint : DomainOutpoint => outpoint.index.toNat) same
  simp only [UInt32.toNat_ofNat', List.mem_range'_1] at index inRange inRange'
  rwa [Nat.mod_eq_of_lt (by omega), Nat.mod_eq_of_lt (by omega)] at index

theorem addTransaction_accepts {base : UTXOCollection} {diff : MutableUTXODiff}
    (consistent : ConsistentWith base.toSet diff)
    (present : ∀ input ∈ transaction.inputs, ∃ spentEntry, input.utxoEntry = some spentEntry ∧
      ∃ held, (input.previousOutpoint, held) ∈ applyDiff base.toSet diff ∧
        held.blockDAAScore = spentEntry.blockDAAScore)
    (distinct : (transaction.inputs.map (·.previousOutpoint)).Nodup)
    (absent : ∀ created ∈ outputEntries transaction blockDAAScore, ∀ x,
      (created.1, x) ∉ applyDiff base.toSet diff)
    (fewOutputs : transaction.outputs.length ≤ 2 ^ 32)
    (reborn : ∀ created ∈ outputEntries transaction blockDAAScore, ∀ baseEntry,
      base.lookup created.1 = some baseEntry → baseEntry.blockDAAScore = blockDAAScore →
        baseEntry = created.2) :
    ∃ next, diff.addTransaction transaction blockDAAScore = .ok next ∧
      ConsistentWith base.toSet next ∧
      applyDiff base.toSet next =
        {pair | pair ∈ applyDiff base.toSet diff ∧
          ∀ input ∈ transaction.inputs, input.previousOutpoint ≠ pair.1} ∪
        {pair | pair ∈ outputEntries transaction blockDAAScore} := by
  obtain ⟨spentDiff, spentOk, spending⟩ :=
    spendInputs_ok consistent transaction.inputs distinct present
  have apart : ∀ created ∈ outputEntries transaction blockDAAScore,
      ∀ input ∈ transaction.inputs, input.previousOutpoint ≠ created.1 := by
    intro created member input spends same
    obtain ⟨_, _, held, heldMember, _⟩ := present input spends
    exact absent created member held (same ▸ heldMember)
  have absentAfter : ∀ created ∈ outputEntries transaction blockDAAScore, ∀ x,
      (created.1, x) ∉ applyDiff base.toSet spentDiff := by
    intro created member x
    rw [mem_applyDiff_congr (spending.untouched _ (apart created member))]
    exact absent created member x
  have distinctOutputs := outputEntries_nodup transaction blockDAAScore fewOutputs
  obtain ⟨final, createOk, creating⟩ :=
    createOutputs_ok spending.consistent _ distinctOutputs absentAfter
      fun created member baseEntry found score => reborn created member baseEntry found
        (score.trans (outputEntries_blockDAAScore transaction blockDAAScore member))
  refine ⟨final, Except.bind_eq_ok.2 ⟨spentDiff, spentOk, createOk⟩, creating.consistent,
    Set.ext fun ⟨outpoint, x⟩ => ?_⟩
  simp only [Set.mem_union, Set.mem_ofPred_eq]
  by_cases isCreated : ∃ created ∈ outputEntries transaction blockDAAScore, created.1 = outpoint
  · -- an output's outpoint holds the output's entry alone
    obtain ⟨⟨outpoint, utxoEntry⟩, member, rfl⟩ := isCreated
    rw [creating.holds _ member x]
    constructor
    · rintro rfl
      exact .inr member
    · rintro (⟨held, -⟩ | listed)
      · exact absurd held (absent _ member x)
      · exact (Prod.ext_iff.mp (List.inj_on_of_nodup_map distinctOutputs listed member rfl)).2
  · push Not at isCreated
    have notListed : (outpoint, x) ∉ outputEntries transaction blockDAAScore :=
      fun listed => isCreated _ listed rfl
    rw [mem_applyDiff_congr (creating.untouched outpoint isCreated)]
    simp only [notListed, or_false]
    by_cases isSpent : ∃ input ∈ transaction.inputs, input.previousOutpoint = outpoint
    · -- a spent outpoint holds nothing
      obtain ⟨input, member, rfl⟩ := isSpent
      exact iff_of_false (spending.emptied input member x) fun ⟨_, unspent⟩ => unspent input member rfl
    · -- any other outpoint reads as before
      push Not at isSpent
      rw [mem_applyDiff_congr (spending.untouched outpoint isSpent)]
      exact ⟨fun held => ⟨held, isSpent⟩, And.left⟩

theorem addTransaction_spends_removed {diff : MutableUTXODiff} {input : DomainTransactionInput}
    (member : input ∈ transaction.inputs)
    (removed : (diff.toRemove.lookup input.previousOutpoint).isSome)
    (notAdded : diff.toAdd.lookup input.previousOutpoint = none) :
    ∃ message, diff.addTransaction transaction blockDAAScore = .error message := by
  -- the first input spending that outpoint meets the diff as it was there
  obtain ⟨first, found⟩ : ∃ first, transaction.inputs.find?
      (·.previousOutpoint == input.previousOutpoint) = some first :=
    Option.isSome_iff_exists.mp (List.find?_isSome.mpr ⟨input, member, beq_self_eq_true _⟩)
  obtain ⟨same, before, after, split, earlier⟩ := List.find?_eq_some_iff_append.mp found
  obtain ⟨message, failed⟩ : ∃ message, transaction.inputs.foldlM spendInput diff = .error message := by
    rw [split]
    refine @Transition.foldlM_error_of_invariant _ _ _
      (fun current => cellsAt current input.previousOutpoint = cellsAt diff input.previousOutpoint)
      spendInput first after ?_ before diff ?_ rfl
    · intro current atStart
      simp only [cellsAt, Prod.mk.injEq] at atStart
      cases entry : first.utxoEntry with
      | none => exact ⟨nilEntryPanic, by rw [spendInput, entry]; rfl⟩
      | some utxoEntry =>
        refine ⟨"removeEntry: Cannot remove outpoint " ++ input.previousOutpoint.toText ++ " twice", ?_⟩
        rw [spendInput, entry]
        dsimp only
        rw [MutableUTXODiff.removeEntry, beq_iff_eq.mp same,
          recordEntry_twice (by rw [atStart.1, notAdded]; simp) (by rw [atStart.2]; exact removed)]
        rfl
    · intro current other next before' atStart stepped
      have apart : input.previousOutpoint ≠ other.previousOutpoint := by
        have differs := earlier other before'
        rw [Bool.not_eq_true', beq_eq_false_iff_ne] at differs
        exact differs.symm
      cases entry : other.utxoEntry with
      | none =>
        rw [spendInput, entry] at stepped
        cases stepped
      | some utxoEntry =>
        rw [spendInput, entry] at stepped
        rw [cellsAt_removeEntry stepped apart]
        exact atStart
  exact ⟨message, by rw [MutableUTXODiff.addTransaction, failed]; rfl⟩

theorem addTransaction_adds_added {diff : MutableUTXODiff} {created : DomainOutpoint × UTXOEntry}
    (member : created ∈ outputEntries transaction blockDAAScore)
    (unspent : ∀ input ∈ transaction.inputs, input.previousOutpoint ≠ created.1)
    (added : (diff.toAdd.lookup created.1).isSome)
    (notRemoved : scoreOf (diff.toRemove.lookup created.1) ≠ some blockDAAScore) :
    ∃ message, diff.addTransaction transaction blockDAAScore = .error message := by
  cases spent : transaction.inputs.foldlM spendInput diff with
  | error message => exact ⟨message, by rw [MutableUTXODiff.addTransaction, spent]; rfl⟩
  | ok spentDiff =>
    have atSpent : cellsAt spentDiff created.1 = cellsAt diff created.1 := by
      refine @Transition.foldlM_invariant_of_mem _ _ _
        (fun current => cellsAt current created.1 = cellsAt diff created.1)
        spendInput transaction.inputs diff spentDiff ?_ rfl spent
      intro current input next spends atStart stepped
      cases entry : input.utxoEntry with
      | none =>
        rw [spendInput, entry] at stepped
        cases stepped
      | some utxoEntry =>
        rw [spendInput, entry] at stepped
        rw [cellsAt_removeEntry stepped (Ne.symm (unspent input spends))]
        exact atStart
    obtain ⟨first, found⟩ : ∃ first, (outputEntries transaction blockDAAScore).find?
        (·.1 == created.1) = some first :=
      Option.isSome_iff_exists.mp (List.find?_isSome.mpr ⟨created, member, beq_self_eq_true _⟩)
    have firstScore := outputEntries_blockDAAScore transaction blockDAAScore (List.mem_of_find?_eq_some found)
    obtain ⟨same, before, after, split, earlier⟩ := List.find?_eq_some_iff_append.mp found
    obtain ⟨message, failed⟩ : ∃ message, (outputEntries transaction blockDAAScore).foldlM
        (fun mud created => mud.addEntry created.1 created.2) spentDiff = .error message := by
      rw [split]
      refine @Transition.foldlM_error_of_invariant _ _ _
        (fun current => cellsAt current created.1 = cellsAt diff created.1)
        _ first after ?_ before spentDiff ?_ atSpent
      · intro current atStart
        simp only [cellsAt, Prod.mk.injEq] at atStart
        refine ⟨"AddEntry: Cannot add outpoint " ++ created.1.toText ++ " twice", ?_⟩
        rw [MutableUTXODiff.addEntry, beq_iff_eq.mp same,
          recordEntry_twice (by rw [atStart.2, firstScore]; exact notRemoved) (by rw [atStart.1]; exact added)]
        rfl
      · intro current other next before' atStart stepped
        have apart : created.1 ≠ other.1 := by
          have differs := earlier other before'
          rw [Bool.not_eq_true', beq_eq_false_iff_ne] at differs
          exact differs.symm
        rw [cellsAt_addEntry stepped apart]
        exact atStart
    exact ⟨message, by rw [MutableUTXODiff.addTransaction, spent]; exact failed⟩

end Transaction

/-! ## Adding a transaction is applying it -/

theorem addTransaction_applyDiff :
    (∀ (base : UTXOCollection) (diff : MutableUTXODiff) (transaction : DomainTransaction)
        (blockDAAScore : UInt64), ConsistentWith base.toSet diff →
      (∀ input ∈ transaction.inputs, ∃ spentEntry, input.utxoEntry = some spentEntry ∧
        ∃ held, (input.previousOutpoint, held) ∈ applyDiff base.toSet diff ∧
          held.blockDAAScore = spentEntry.blockDAAScore) →
      (transaction.inputs.map (·.previousOutpoint)).Nodup →
      (∀ created ∈ outputEntries transaction blockDAAScore, ∀ x,
        (created.1, x) ∉ applyDiff base.toSet diff) →
      transaction.outputs.length ≤ 2 ^ 32 →
      (∀ created ∈ outputEntries transaction blockDAAScore, ∀ baseEntry,
        base.lookup created.1 = some baseEntry → baseEntry.blockDAAScore = blockDAAScore →
          baseEntry = created.2) →
      ∃ next, diff.addTransaction transaction blockDAAScore = .ok next ∧
        ConsistentWith base.toSet next ∧
        applyDiff base.toSet next =
          {pair | pair ∈ applyDiff base.toSet diff ∧
            ∀ input ∈ transaction.inputs, input.previousOutpoint ≠ pair.1} ∪
          {pair | pair ∈ outputEntries transaction blockDAAScore}) ∧
    (∀ (diff : MutableUTXODiff) (transaction : DomainTransaction) (blockDAAScore : UInt64),
      ∀ input ∈ transaction.inputs, (diff.toRemove.lookup input.previousOutpoint).isSome →
        diff.toAdd.lookup input.previousOutpoint = none →
        ∃ message, diff.addTransaction transaction blockDAAScore = .error message) ∧
    (∀ (diff : MutableUTXODiff) (transaction : DomainTransaction) (blockDAAScore : UInt64),
      ∀ created ∈ outputEntries transaction blockDAAScore,
        (∀ input ∈ transaction.inputs, input.previousOutpoint ≠ created.1) →
        (diff.toAdd.lookup created.1).isSome →
        scoreOf (diff.toRemove.lookup created.1) ≠ some blockDAAScore →
        ∃ message, diff.addTransaction transaction blockDAAScore = .error message) :=
  ⟨fun _ _ transaction blockDAAScore consistent present distinct absent fewOutputs reborn =>
      addTransaction_accepts transaction blockDAAScore consistent present distinct absent fewOutputs
        reborn,
    fun _ transaction blockDAAScore _ member removed notAdded =>
      addTransaction_spends_removed transaction blockDAAScore member removed notAdded,
    fun _ transaction blockDAAScore _ member unspent added notRemoved =>
      addTransaction_adds_added transaction blockDAAScore member unspent added notRemoved⟩

def transactionID1 : DomainHash := Vector.replicate 32 1

def spendOnce (utxoEntry : UTXOEntry) : DomainTransaction where
  inputs := [⟨outpoint0, some utxoEntry⟩]
  outputs := [⟨5, ⟨[], 0⟩⟩]
  subnetworkID := Vector.replicate 20 0
  payload := []
  id := transactionID1
  inputs_fit := by simp
  outputs_fit := by simp

/-- A diff whose transaction created `outpoint0` is extended by one spending it. -/
theorem addTransaction_applyDiff_spendCreated :
    ∃ next, (⟨singleEntry (entryWith 1 1), ∅⟩ : MutableUTXODiff).addTransaction
        (spendOnce (entryWith 1 1)) 2 = .ok next ∧
      ConsistentWith (∅ : UTXOCollection).toSet next ∧
      applyDiff (∅ : UTXOCollection).toSet next =
        {pair | pair ∈ applyDiff (∅ : UTXOCollection).toSet ⟨singleEntry (entryWith 1 1), ∅⟩ ∧
          ∀ input ∈ (spendOnce (entryWith 1 1)).inputs, input.previousOutpoint ≠ pair.1} ∪
        {pair | pair ∈ outputEntries (spendOnce (entryWith 1 1)) 2} := by
  have outputs : outputEntries (spendOnce (entryWith 1 1)) 2 =
      [(⟨transactionID1, 0⟩, newUTXOEntry 5 ⟨[], 0⟩ false 2)] := rfl
  have elsewhere : (⟨transactionID1, 0⟩ : DomainOutpoint) ≠ outpoint0 := by decide
  refine addTransaction_applyDiff.1 ∅ ⟨singleEntry (entryWith 1 1), ∅⟩ (spendOnce (entryWith 1 1)) 2
    ⟨fun _ _ removed => by simp at removed, fun _ _ _ _ inBase => by simp [mem_toSet] at inBase⟩
    (fun input member => ?_) (List.nodup_singleton _) (fun created member x => ?_) (by simp [spendOnce])
    (fun created _ baseEntry inBase => by simp at inBase)
  · rw [show input = ⟨outpoint0, some (entryWith 1 1)⟩ from List.mem_singleton.mp member]
    exact ⟨_, rfl, _, (mem_applyDiff _ _ _ _).mpr (.inr (by rw [lookup_singleEntry, if_pos rfl])), rfl⟩
  · rw [outputs, List.mem_singleton] at member
    subst member
    rw [mem_applyDiff, mem_toSet, lookup_singleEntry, if_neg elsewhere]
    simp

def spendTwice (utxoEntry : UTXOEntry) : DomainTransaction where
  inputs := [⟨outpoint0, some utxoEntry⟩, ⟨outpoint0, some utxoEntry⟩]
  outputs := []
  subnetworkID := Vector.replicate 20 0
  payload := []
  id := zeroHash
  inputs_fit := by simp
  outputs_fit := by simp

def createOnce : DomainTransaction where
  inputs := []
  outputs := [⟨5, ⟨[], 0⟩⟩]
  subnetworkID := Vector.replicate 20 0
  payload := []
  id := transactionID1
  inputs_fit := by simp
  outputs_fit := by simp

/-- The collection holding, at the output of `createOnce`, an entry paying 1
with that output's DAA score. -/
def paidOnce : UTXOCollection := (∅ : UTXOCollection).add ⟨transactionID1, 0⟩ (entryWith 1 2)

/-- Where adding a transaction is not applying it: a second spend of an entry
the diff itself created is accepted; two spends of an entry of the base are
refused although the base holds it; and an output whose outpoint the diff
removed from the base with the same DAA score brings back the base's entry,
not the output's. -/
theorem addTransaction_double_spend :
    (∃ next, (⟨singleEntry (entryWith 1 1), ∅⟩ : MutableUTXODiff).addTransaction
        (spendTwice (entryWith 1 1)) 2 = .ok next) ∧
    (ConsistentWith (singleEntry (entryWith 1 1)).toSet newMutableUTXODiff ∧
      (outpoint0, entryWith 1 1) ∈ applyDiff (singleEntry (entryWith 1 1)).toSet newMutableUTXODiff ∧
      ∃ message, newMutableUTXODiff.addTransaction (spendTwice (entryWith 1 1)) 2 = .error message) ∧
    (ConsistentWith paidOnce.toSet ⟨∅, paidOnce⟩ ∧
      ∃ next, (⟨∅, paidOnce⟩ : MutableUTXODiff).addTransaction createOnce 2 = .ok next ∧
        (⟨transactionID1, 0⟩, newUTXOEntry 5 ⟨[], 0⟩ false 2) ∉ applyDiff paidOnce.toSet next) := by
  refine ⟨⟨_, rfl⟩, ⟨⟨fun _ _ removed => ?_, fun _ _ added => ?_⟩, ?_, _, rfl⟩,
    ⟨fun _ _ removed => ⟨_, removed, rfl⟩, fun _ _ added => ?_⟩, _, rfl, ?_⟩
  · simp [newMutableUTXODiff] at removed
  · simp [newMutableUTXODiff] at added
  · rw [mem_applyDiff, mem_toSet, lookup_singleEntry, if_pos rfl]
    simp [newMutableUTXODiff]
  · simp at added
  · rw [mem_applyDiff, mem_toSet]
    decide

end Cryptixd.Utxo
