import Mathlib

/-!
# Traces of a labelled step relation

A system that moves from state to state by labelled steps (calls of an entry
point, accepted transactions) has as its runs the finite sequences of steps
that chain.  `Trace step start labels final` is such a run, built at its end,
so that an induction over it takes one more step at a time from the start.

Two rules are what the models use: an invariant that holds at the start and
is kept by every step holds at the end of every trace (`Trace.invariant`, and
`Trace.invariant_of_mem` when the steps need what their labels carry); and a
counter that every step of one kind raises by one and other steps leave alone
ends at its start plus the number of those steps (`Trace.count_ticks`), the
values those steps observe being the consecutive numbers from the start
(`Trace.ticks_observed`).

A concrete run is computed rather than built: a step function that can fail,
run along the labels by `runAll`, traces the relation it is sound for
(`Trace.of_runAll`), with what the run checks of its last state
(`Trace.exists_of_runAll`).  A fold is a run of its step function, so the same rule holds of it
(`foldl_invariant`), also of a fold that can fail (`foldlM_invariant`), whose
binds are taken apart by `Except.bind_eq_ok`.  That such a fold succeeds is
read from an invariant of the processed prefix (`foldlM_ok_of_prefix`), and
that it fails, from a failing step reached through steps that keep an
invariant (`foldlM_error_of_invariant`).

What a computation that can fail promises of both its outcomes is
`Except.Post P Q x`: its value satisfies `Q`, its error `P`.  The rules are
those of a Hoare logic for `Except`: the bind rule (`Post.bind`, and
`Post.bind_ok` when the rest needs the value's equation), the guard of a do
block (`Post.ite_throw`), consequence (`Post.imp`), and the loop rule of
`repeatM` (`repeatM_post`).
-/

set_option autoImplicit false

namespace Transition

variable {σ α : Type*} (step : σ → α → σ → Prop)

/-- The runs of `step` from `start`, built by adding one step at the end. -/
inductive Trace (start : σ) : List α → σ → Prop
  | nil : Trace start [] start
  | snoc {labels : List α} {mid final : σ} {label : α} :
      Trace start labels mid → step mid label final → Trace start (labels ++ [label]) final

variable {step}

theorem Trace.invariant {Inv : σ → Prop} {start : σ} (init : Inv start)
    (keep : ∀ s label s', Inv s → step s label s' → Inv s') {labels : List α} {final : σ}
    (trace : Trace step start labels final) : Inv final := by
  induction trace with
  | nil => exact init
  | snoc _ last ih => exact keep _ _ _ ih last

theorem Trace.invariant_of_mem {Inv : σ → Prop} {start : σ} (init : Inv start)
    {labels : List α} {final : σ}
    (keep : ∀ s label s', label ∈ labels → Inv s → step s label s' → Inv s')
    (trace : Trace step start labels final) : Inv final := by
  induction trace with
  | nil => exact init
  | snoc _ last ih =>
    exact keep _ _ _ (by simp) (ih fun s label s' taken => keep s label s' (by simp [taken])) last

theorem Trace.single {start final : σ} {label : α} (last : step start label final) :
    Trace step start [label] final := by
  simpa using Trace.snoc Trace.nil last

theorem Trace.cons {start mid final : σ} {label : α} {labels : List α} (first : step start label mid)
    (rest : Trace step mid labels final) : Trace step start (label :: labels) final := by
  induction rest with
  | nil => exact Trace.single first
  | snoc _ last ih => simpa using ih.snoc last

/-- The state a step function that can fail reaches along `labels`, if no
step fails. -/
def runAll (next : σ → α → Option σ) : σ → List α → Option σ
  | start, [] => some start
  | start, label :: labels => (next start label).bind fun mid => runAll next mid labels

theorem Trace.of_runAll {next : σ → α → Option σ}
    (sound : ∀ s label s', next s label = some s' → step s label s') :
    ∀ {start final : σ} {labels : List α}, runAll next start labels = some final →
      Trace step start labels final
  | _, _, [], ran => by
    cases ran
    exact Trace.nil
  | _, _, _ :: _, ran => by
    obtain ⟨mid, first, rest⟩ := Option.bind_eq_some_iff.mp ran
    exact Trace.cons (sound _ _ _ first) (Trace.of_runAll sound rest)

/-- A state the computed run reaches, with a property the computation checks of
it: how a concrete run and what holds at its end are both read off one
evaluation. -/
theorem Trace.exists_of_runAll {next : σ → α → Option σ}
    (sound : ∀ s label s', next s label = some s' → step s label s') {holds : σ → Bool}
    {start : σ} {labels : List α} (computed : (runAll next start labels).map holds = some true) :
    ∃ final, Trace step start labels final ∧ holds final = true := by
  obtain ⟨final, ran, held⟩ := Option.map_eq_some_iff.mp computed
  exact ⟨final, Trace.of_runAll sound ran, held⟩

theorem Trace.last {start final : σ} {labels : List α} {label : α}
    (trace : Trace step start (labels ++ [label]) final) :
    ∃ mid, Trace step start labels mid ∧ step mid label final := by
  generalize ended : labels ++ [label] = all at trace
  cases trace with
  | nil => simp at ended
  | @snoc before mid _ last' beforeTrace lastStep =>
    obtain ⟨rfl, sameLabel⟩ := List.append_inj' ended rfl
    cases sameLabel
    exact ⟨mid, beforeTrace, lastStep⟩

theorem Trace.prefix {start final : σ} {labels₁ : List α} :
    ∀ {labels₂ : List α}, Trace step start (labels₁ ++ labels₂) final →
      ∃ mid, Trace step start labels₁ mid := by
  intro labels₂
  induction labels₂ using List.reverseRecOn generalizing final with
  | nil => exact fun trace => ⟨final, by simpa using trace⟩
  | append_singleton labels₂ label ih =>
    intro trace
    rw [← List.append_assoc] at trace
    obtain ⟨mid, before, -⟩ := trace.last
    exact ih before

/-- Counting the steps of one kind: a counter that every step whose label
satisfies `p` raises by one and every other step leaves alone ends raised by
the number of those steps. -/
theorem Trace.count_ticks {g : σ → ℕ} {p : α → Prop} [DecidablePred p]
    (tick : ∀ s label s', step s label s' → p label → g s' = g s + 1)
    (idle : ∀ s label s', step s label s' → ¬p label → g s' = g s)
    {start : σ} {labels : List α} {final : σ} (trace : Trace step start labels final) :
    g final = g start + labels.countP p := by
  induction trace with
  | nil => simp
  | @snoc labels mid final label _ last ih =>
    by_cases ticks : p label
    · rw [tick mid label final last ticks, ih, List.countP_append]
      simp [ticks]
      omega
    · rw [idle mid label final last ticks, ih, List.countP_append]
      simp [ticks]

theorem Trace.ticks_observed {g : σ → ℕ} {p : α → Prop} [DecidablePred p] {obs : α → ℕ}
    (tick : ∀ s label s', step s label s' → p label → obs label = g s ∧ g s' = g s + 1)
    (idle : ∀ s label s', step s label s' → ¬p label → g s' = g s)
    {start : σ} {labels : List α} {final : σ} (trace : Trace step start labels final) :
    (labels.filter p).map obs = List.range' (g start) (labels.countP p) := by
  induction trace with
  | nil => simp
  | @snoc labels mid final label before last ih =>
    have counted : g mid = g start + labels.countP p :=
      Trace.count_ticks (fun s l s' st hp => (tick s l s' st hp).2) idle before
    by_cases ticks : p label
    · have countStep : (labels ++ [label]).countP p = labels.countP p + 1 := by
        simp [List.countP_append, ticks]
      rw [countStep, List.range'_concat, List.filter_append, List.map_append, ih]
      simp [ticks, (tick mid label final last ticks).1, counted]
    · have countStep : (labels ++ [label]).countP p = labels.countP p := by
        simp [List.countP_append, ticks]
      simp [countStep, List.filter_append, ih, ticks]

theorem foldl_invariant {β γ : Type*} {Inv : β → Prop} (f : β → γ → β)
    (keep : ∀ b c, Inv b → Inv (f b c)) : ∀ (l : List γ) (b : β), Inv b → Inv (l.foldl f b)
  | [], _, holds => holds
  | c :: l, b, holds => foldl_invariant f keep l (f b c) (keep b c holds)

theorem foldlM_invariant_of_mem {ε β γ : Type*} {Inv : β → Prop} (f : β → γ → Except ε β) :
    ∀ (l : List γ) (b b' : β), (∀ b c b', c ∈ l → Inv b → f b c = .ok b' → Inv b') → Inv b →
      l.foldlM f b = .ok b' → Inv b'
  | [], b, b', _, holds, done => by
    have same : b = b' := Except.ok.inj done
    exact same ▸ holds
  | c :: l, b, b', keep, holds, done => by
    rw [List.foldlM_cons] at done
    cases stepped : f b c with
    | error _ =>
      rw [stepped] at done
      cases done
    | ok mid =>
      rw [stepped] at done
      exact foldlM_invariant_of_mem f l mid b'
        (fun b d b' member => keep b d b' (List.mem_cons_of_mem c member))
        (keep b c mid List.mem_cons_self holds stepped) done

theorem foldlM_invariant {ε β γ : Type*} {Inv : β → Prop} (f : β → γ → Except ε β)
    (keep : ∀ b c b', Inv b → f b c = .ok b' → Inv b') (l : List γ) (b b' : β) (holds : Inv b)
    (done : l.foldlM f b = .ok b') : Inv b' :=
  foldlM_invariant_of_mem f l b b' (fun b c b' _ => keep b c b') holds done

/-- A fold that can fail succeeds when every step succeeds from the states an
invariant of the processed prefix describes, into a state it describes for
one more element. -/
theorem foldlM_ok_of_prefix {ε β γ : Type*} {Inv : List γ → β → Prop} (f : β → γ → Except ε β)
    (whole : List γ)
    (step : ∀ done c rest b, done ++ c :: rest = whole → Inv done b →
      ∃ b', f b c = .ok b' ∧ Inv (done ++ [c]) b') :
    ∀ (rest done : List γ) (b : β), done ++ rest = whole → Inv done b →
      ∃ b', rest.foldlM f b = .ok b' ∧ Inv whole b'
  | [], done, b, split, holds => ⟨b, rfl, by rwa [← split, List.append_nil]⟩
  | c :: rest, done, b, split, holds => by
    obtain ⟨mid, stepped, next⟩ := step done c rest b split holds
    rw [List.foldlM_cons, stepped]
    exact foldlM_ok_of_prefix f whole step rest (done ++ [c]) mid (by simpa using split) next

theorem foldlM_error_of_invariant {ε β γ : Type*} {Inv : β → Prop} (f : β → γ → Except ε β)
    (c : γ) (rest : List γ) (fails : ∀ b, Inv b → ∃ e, f b c = .error e) :
    ∀ (done : List γ) (b : β), (∀ b d b', d ∈ done → Inv b → f b d = .ok b' → Inv b') → Inv b →
      ∃ e, (done ++ c :: rest).foldlM f b = .error e
  | [], b, _, holds => by
    obtain ⟨e, failed⟩ := fails b holds
    exact ⟨e, by rw [List.nil_append, List.foldlM_cons, failed]; rfl⟩
  | d :: done, b, keep, holds => by
    rw [List.cons_append, List.foldlM_cons]
    cases stepped : f b d with
    | error e => exact ⟨e, rfl⟩
    | ok mid =>
      exact foldlM_error_of_invariant f c rest fails done mid
        (fun b d' b' member => keep b d' b' (List.mem_cons_of_mem d member))
        (keep b d mid List.mem_cons_self holds stepped)

/-- A loop that runs a body that can fail a fixed number of times, each pass on
what the one before returned. -/
def repeatM {ε σ : Type*} : ℕ → (σ → Except ε σ) → σ → Except ε σ
  | 0, _, s => .ok s
  | k + 1, body, s => body s >>= repeatM k body

end Transition

namespace Except

theorem ok_bind {ε α β : Type _} (a : α) (f : α → Except ε β) : (Except.ok a >>= f) = f a :=
  rfl

theorem bind_eq_ok {ε : Type*} {α β : Type _} {x : Except ε α} {f : α → Except ε β} {b : β} :
    (x >>= f) = .ok b ↔ ∃ a, x = .ok a ∧ f a = .ok b := by
  cases x with
  | error _ =>
    refine ⟨fun failed => ?_, fun ⟨_, failed, _⟩ => ?_⟩ <;> cases failed
  | ok a =>
    refine ⟨fun rest => ⟨a, rfl, rest⟩, fun ⟨_, first, rest⟩ => ?_⟩
    cases first
    exact rest

theorem ite_throw_eq_ok {ε : Type*} {β : Type _} {c : Prop} [Decidable c] {e : ε} {k : Unit → Except ε β}
    {b : β} (h : (if c then (throw e : Except ε Unit) >>= k else k ()) = .ok b) : ¬c ∧ k () = .ok b := by
  split at h
  · cases h
  · exact ⟨by assumption, h⟩

theorem map_eq_ok {ε : Type*} {α β : Type _} {f : α → β} {x : Except ε α} {b : β} :
    f <$> x = .ok b ↔ ∃ a, x = .ok a ∧ f a = b := by
  cases x <;> simp [Functor.map, Except.map]

end Except

namespace Except

/-- What a computation that can fail promises: its value satisfies `Q` and its
error `P`. -/
def Post {ε : Type*} {α : Type _} (P : ε → Prop) (Q : α → Prop) : Except ε α → Prop
  | .ok a => Q a
  | .error e => P e

section Post

variable {ε : Type*} {α β : Type _} {P : ε → Prop} {Q : α → Prop}

theorem post_bind {R : β → Prop} {x : Except ε α} {f : α → Except ε β} :
    Post P R (x >>= f) ↔ Post P (fun a => Post P R (f a)) x := by
  cases x <;> rfl

theorem post_map {R : β → Prop} {f : α → β} {x : Except ε α} :
    Post P R (x.map f) ↔ Post P (fun a => R (f a)) x := by
  cases x <;> rfl

theorem Post.imp {P' : ε → Prop} {Q' : α → Prop} {x : Except ε α} (h : Post P Q x) (hp : ∀ e, P e → P' e)
    (hq : ∀ a, Q a → Q' a) : Post P' Q' x := by
  cases x with
  | error e => exact hp e h
  | ok a => exact hq a h

theorem Post.of_ok {x : Except ε α} {a : α} (h : Post P Q x) (ran : x = .ok a) : Q a := by
  subst ran
  exact h

theorem Post.of_error {x : Except ε α} {e : ε} (h : Post P Q x) (failed : x = .error e) : P e := by
  subst failed
  exact h

theorem Post.and_ok {R : α → Prop} {x : Except ε α} (h : Post P Q x) (k : ∀ a, x = .ok a → R a) :
    Post P (fun a => Q a ∧ R a) x := by
  cases x with
  | error e => exact h
  | ok a => exact ⟨h, k a rfl⟩

theorem Post.bind {R : β → Prop} {x : Except ε α} {f : α → Except ε β} (first : Post P Q x)
    (rest : ∀ a, Q a → Post P R (f a)) : Post P R (x >>= f) :=
  post_bind.mpr (first.imp (fun _ h => h) rest)

theorem Post.bind_ok {R : β → Prop} {x : Except ε α} {f : α → Except ε β} (first : Post P Q x)
    (rest : ∀ a, x = .ok a → Q a → Post P R (f a)) : Post P R (x >>= f) := by
  cases x with
  | error e => exact first
  | ok a => exact rest a rfl first

theorem Post.ite_throw {c : Prop} [Decidable c] {e : ε} {k : Unit → Except ε α} (fails : P e)
    (rest : ¬c → Post P Q (k ())) : Post P Q (if c then (throw e : Except ε Unit) >>= k else k ()) := by
  split
  · exact fails
  · exact rest ‹_›

end Post

end Except

namespace Transition

theorem repeatM_post {ε σ : Type*} {P : ε → Prop} {Inv : σ → Prop} {body : σ → Except ε σ}
    (step : ∀ s, Inv s → Except.Post P Inv (body s)) :
    ∀ (k : ℕ) (s : σ), Inv s → Except.Post P Inv (repeatM k body s)
  | 0, _, h => h
  | k + 1, s, h => (step s h).bind fun s' h' => repeatM_post step k s' h'

end Transition

