import Mathlib

/-!
# Reading `EStateM` triples back as facts about runs

Code that mutates a shared structure through a pointer and may return an error
half way is modelled in `EStateM ε σ`: a failing run still carries the state it
reached, so a write made before the error is visible.  Specifications are
`Std.Do` triples, proved by `mvcgen`; this file turns a triple whose
precondition pins the starting state into what callers use: the postcondition
of a successful run, the exceptional postcondition of a failing one, and
failure atomicity, i.e. every failing run ends in the state it started from.
The same reading is given for a reader over `ExceptT ε (StateM σ)`, whose
errors end the run.
-/

set_option autoImplicit false

namespace EStateM

open Std.Do

section Triple
variable {ε σ α : Type}

def FailureAtomic (x : EStateM ε σ α) : Prop :=
  ∀ s e s', x.run s = .error e s' → s' = s

theorem run_of_triple (x : EStateM ε σ α) (P : σ → Prop) (Q : α → σ → Prop)
    (E : ε → σ → Prop)
    (triple : ⦃fun s => ⌜P s⌝⦄ x ⦃post⟨fun a s => ⌜Q a s⌝, fun e s => ⌜E e s⌝⟩⦄)
    (s : σ) (pre : P s) :
    match x.run s with
    | .ok a s' => Q a s'
    | .error e s' => E e s' := by
  have spec := triple s pre
  simp only [wp, PredTrans.apply, EStateM.run] at spec ⊢
  split at spec <;> rename_i result <;> rw [result] <;> simpa using spec

theorem ok_of_triple {x : EStateM ε σ α} {P : σ → Prop} {Q : α → σ → Prop}
    {E : ε → σ → Prop}
    (triple : ⦃fun s => ⌜P s⌝⦄ x ⦃post⟨fun a s => ⌜Q a s⌝, fun e s => ⌜E e s⌝⟩⦄)
    {s s' : σ} {a : α} (pre : P s) (run : x.run s = .ok a s') : Q a s' := by
  have result := run_of_triple x P Q E triple s pre
  rw [run] at result
  exact result

theorem error_of_triple {x : EStateM ε σ α} {P : σ → Prop} {Q : α → σ → Prop}
    {E : ε → σ → Prop}
    (triple : ⦃fun s => ⌜P s⌝⦄ x ⦃post⟨fun a s => ⌜Q a s⌝, fun e s => ⌜E e s⌝⟩⦄)
    {s s' : σ} {e : ε} (pre : P s) (run : x.run s = .error e s') : E e s' := by
  have result := run_of_triple x P Q E triple s pre
  rw [run] at result
  exact result

theorem failureAtomic_of_triple {x : EStateM ε σ α} {Q : σ → α → σ → Prop}
    (triple : ∀ s₀ : σ,
      ⦃fun s => ⌜s = s₀⌝⦄ x ⦃post⟨fun a s => ⌜Q s₀ a s⌝, fun _ s => ⌜s = s₀⌝⟩⦄) :
    FailureAtomic x := by
  intro s e s' run
  exact error_of_triple (triple s) rfl run

end Triple

end EStateM

namespace ExceptT

open Std.Do

variable {ε σ α : Type}

/-- A reader that threads a cursor and may fail, `ExceptT ε (StateM σ)`: a
triple that promises `Q` of every value holds of the value of a successful
run. -/
theorem ok_of_triple {x : ExceptT ε (StateM σ) α} {Q : α → Prop}
    (triple : ⦃⌜True⌝⦄ x ⦃post⟨fun a _ => ⌜Q a⌝, fun _ _ => ⌜True⌝⟩⦄) (s : σ) {a : α}
    (ok : (x.run.run' s).run = .ok a) : Q a := by
  have spec := triple s trivial
  simp only [wp, PredTrans.apply, PredTrans.pushExcept, PredTrans.pushArg, PredTrans.pure,
    StateT.run, ExceptT.run, Id.run, pure] at spec
  simp only [ExceptT.run, StateT.run', Id.run_map] at ok
  revert spec ok
  rcases x s with ⟨result, final⟩
  cases result with
  | error => simp [Id.run]
  | ok value =>
    intro shown holds
    simp only [Id.run, Except.ok.injEq] at shown
    exact shown ▸ holds

end ExceptT
