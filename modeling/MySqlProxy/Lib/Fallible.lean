import Mathlib.Data.List.Basic
import Mathlib.Data.List.Induction

/-!
# Fallible runs — driving a step function that may fail over a list of inputs

A byte-driven parser that throws, a handler loop that an exception leaves and an event system
some of whose events are not enabled are the same thing: a step `σ → α → Except ε σ` folded over
a list of inputs, the first error ending the fold. This module owns the rules such folds obey:

* **composition** — `run_append`, `run_append_ok`, `run_snoc_ok`: a run over `xs ++ ys` is a run
  over `xs` followed by a run over `ys`;
* **failure** — `run_error_iff`: a run fails exactly when some step fails after a successful
  prefix; `FailsAt` names the place, and `run_ok_iff`: a run goes through when there is none;
* **projection** — `run_project`: a component whose change never depends on the rest is a plain
  `foldl`;
* **invariants** — `run_invariant` and, when only the runs all of whose steps satisfy a side
  condition keep the invariant, `EveryStep` with `run_invariant_of_everyStep`.
-/

namespace Fallible

universe u

variable {ε σ τ α β : Type*}

/-- Drive `step` over `inputs` from `state`, stopping at the first error. -/
def run (step : σ → α → Except ε σ) (state : σ) (inputs : List α) : Except ε σ :=
  inputs.foldlM step state

/-! ## Composition -/

@[simp] theorem run_nil (step : σ → α → Except ε σ) (s : σ) : run step s [] = .ok s := rfl

theorem run_cons (step : σ → α → Except ε σ) (s : σ) (a : α) (as : List α) :
    run step s (a :: as) = step s a >>= fun t => run step t as := rfl

@[simp] theorem run_singleton (step : σ → α → Except ε σ) (s : σ) (a : α) :
    run step s [a] = step s a := by
  rw [run_cons]
  cases step s a <;> rfl

/-- A run over a concatenation is the run over the first list continued over the second. -/
theorem run_append (step : σ → α → Except ε σ) (s : σ) (xs ys : List α) :
    run step s (xs ++ ys) = run step s xs >>= fun t => run step t ys := by
  simp [run, List.foldlM_append]

theorem run_cons_of_ok {step : σ → α → Except ε σ} {s t : σ} {a : α} (as : List α)
    (h : step s a = .ok t) : run step s (a :: as) = run step t as := by
  rw [run_cons, h]
  rfl

theorem run_append_of_ok {step : σ → α → Except ε σ} {s t : σ} {xs : List α} (ys : List α)
    (h : run step s xs = .ok t) : run step s (xs ++ ys) = run step t ys := by
  rw [run_append, h]
  rfl

theorem run_append_of_error {step : σ → α → Except ε σ} {s : σ} {e : ε} {xs : List α}
    (ys : List α) (h : run step s xs = .error e) : run step s (xs ++ ys) = .error e := by
  rw [run_append, h]
  rfl

theorem run_append_ok {step : σ → α → Except ε σ} {s u : σ} {xs ys : List α} :
    run step s (xs ++ ys) = .ok u ↔ ∃ t, run step s xs = .ok t ∧ run step t ys = .ok u := by
  rw [run_append]
  cases h : run step s xs with
  | error e => simp [bind, Except.bind]
  | ok t => simp [bind, Except.bind]

theorem run_cons_ok {step : σ → α → Except ε σ} {s u : σ} {a : α} {as : List α} :
    run step s (a :: as) = .ok u ↔ ∃ t, step s a = .ok t ∧ run step t as = .ok u := by
  rw [show a :: as = [a] ++ as from rfl, run_append_ok, run_singleton]

theorem run_snoc_ok {step : σ → α → Except ε σ} {s u : σ} {a : α} {as : List α} :
    run step s (as ++ [a]) = .ok u ↔ ∃ t, run step s as = .ok t ∧ step t a = .ok u := by
  simp only [run_append_ok, run_singleton]

theorem run_prefix_ok {step : σ → α → Except ε σ} {s u : σ} {xs ys : List α}
    (h : run step s (xs ++ ys) = .ok u) : ∃ t, run step s xs = .ok t :=
  let ⟨t, ht, _⟩ := run_append_ok.mp h
  ⟨t, ht⟩

/-! ## Failure -/

/-- **Where a run fails.** A run ends in the error `e` exactly when some step yields `e` in the
state a successful prefix reached. -/
theorem run_error_iff {step : σ → α → Except ε σ} {s : σ} {e : ε} {xs : List α} :
    run step s xs = .error e ↔
      ∃ pre a post t, xs = pre ++ a :: post ∧ run step s pre = .ok t ∧ step t a = .error e := by
  constructor
  · intro h
    induction xs generalizing s with
    | nil => simp at h
    | cons a as ih =>
      cases hstep : step s a with
      | error e' =>
        -- the run stops here, so its error is this step's
        have heq : e' = e := by
          rw [run_cons, hstep] at h
          simpa [bind, Except.bind] using h
        exact ⟨[], a, as, s, rfl, rfl, by rw [hstep, heq]⟩
      | ok t =>
        -- the failing step lies in the run of the tail
        rw [run_cons_of_ok as hstep] at h
        obtain ⟨pre, b, post, u, rfl, hpre, hb⟩ := ih h
        exact ⟨a :: pre, b, post, u, rfl, by rw [run_cons_of_ok pre hstep, hpre], hb⟩
  · rintro ⟨pre, a, post, t, rfl, hpre, ha⟩
    rw [run_append_of_ok _ hpre, run_cons, ha]
    rfl

/-- The inputs `pre` are run through, and then the step for `a` fails. -/
def FailsAt (step : σ → α → Except ε σ) (s : σ) (pre : List α) (a : α) : Prop :=
  ∃ t e, run step s pre = .ok t ∧ step t a = .error e

/-- A run goes through exactly when it fails nowhere. -/
theorem run_ok_iff {step : σ → α → Except ε σ} {s : σ} {xs : List α} :
    (∃ t, run step s xs = .ok t) ↔
      ∀ pre a post, xs = pre ++ a :: post → ¬ FailsAt step s pre a := by
  cases hrun : run step s xs with
  | ok t =>
    refine ⟨fun _ pre a post hxs hfails => ?_, fun _ => ⟨t, rfl⟩⟩
    obtain ⟨u, e, hpre, ha⟩ := hfails
    have herror := run_error_iff.mpr ⟨pre, a, post, u, hxs, hpre, ha⟩
    rw [hrun] at herror
    exact absurd herror (by simp)
  | error e =>
    obtain ⟨pre, a, post, t, hxs, hpre, ha⟩ := run_error_iff.mp hrun
    refine ⟨fun ⟨_, hok⟩ => absurd hok (by simp), fun hall => ?_⟩
    exact absurd ⟨t, e, hpre, ha⟩ (hall pre a post hxs)

/-- A run fails at an input exactly when it fails nowhere before and, having got there, fails. -/
theorem failsAt_iff {step : σ → α → Except ε σ} {s : σ} {pre : List α} {a : α} {p : Prop}
    (h : ∀ t, run step s pre = .ok t → ((∃ e, step t a = .error e) ↔ p)) :
    FailsAt step s pre a ↔
      (∀ pre' b post, pre = pre' ++ b :: post → ¬ FailsAt step s pre' b) ∧ p := by
  rw [← run_ok_iff]
  constructor
  · rintro ⟨t, e, hpre, ha⟩
    exact ⟨⟨t, hpre⟩, (h t hpre).mp ⟨e, ha⟩⟩
  · rintro ⟨⟨t, hpre⟩, hp⟩
    obtain ⟨e, ha⟩ := (h t hpre).mpr hp
    exact ⟨t, e, hpre, ha⟩

theorem bind_ok_iff {σ τ : Type u} {x : Except ε σ} {f : σ → Except ε τ} {b : τ} :
    x >>= f = .ok b ↔ ∃ a, x = .ok a ∧ f a = .ok b := by
  cases x <;> simp [bind, Except.bind]

theorem bind_error_iff {σ τ : Type u} {x : Except ε σ} {f : σ → Except ε τ} {e : ε} :
    x >>= f = .error e ↔ x = .error e ∨ ∃ a, x = .ok a ∧ f a = .error e := by
  cases x <;> simp [bind, Except.bind]

theorem map_error_iff {f : σ → τ} {x : Except ε σ} :
    (∃ e, x.map f = .error e) ↔ ∃ e, x = .error e := by
  cases x <;> simp [Except.map]

theorem map_eq_error_iff {f : σ → τ} {x : Except ε σ} {e : ε} :
    x.map f = .error e ↔ x = .error e := by
  cases x <;> simp [Except.map]

theorem map_ok_iff {f : σ → τ} {x : Except ε σ} {b : τ} :
    x.map f = .ok b ↔ ∃ a, x = .ok a ∧ f a = b := by
  cases x <;> simp [Except.map]

/-- Two computations with the same mapped result fail with the same error, or neither fails. -/
theorem map_eq_map_cases {f : σ → α} {g : τ → α} {x : Except ε σ} {y : Except ε τ}
    (h : x.map f = y.map g) :
    (∃ e, x = .error e ∧ y = .error e) ∨ ∃ a b, x = .ok a ∧ y = .ok b ∧ f a = g b := by
  cases y with
  | ok b =>
    obtain ⟨a, ha, hab⟩ := map_ok_iff.mp h
    exact Or.inr ⟨a, b, ha, rfl, hab⟩
  | error e =>
    cases x with
    | ok a => exact absurd h (by simp [Except.map])
    | error e' =>
      have heq : e' = e := Except.error.inj h
      exact Or.inl ⟨e, by rw [heq], rfl⟩

/-! ## Projection -/

/-- A component `φ` that every successful step changes by `next`, whatever else the state holds,
is changed by a run as the plain fold of `next`. -/
theorem run_project {step : σ → α → Except ε σ} (φ : σ → τ) (next : τ → α → τ)
    (hstep : ∀ s a t, step s a = .ok t → φ t = next (φ s) a) {s t : σ} {xs : List α}
    (h : run step s xs = .ok t) : φ t = xs.foldl next (φ s) := by
  induction xs generalizing s with
  | nil => simp_all
  | cons a as ih =>
    obtain ⟨u, hu, hrest⟩ := run_cons_ok.mp h
    rw [List.foldl_cons, ← hstep s a u hu]
    exact ih hrest

/-! ## Invariants -/

/-- A property kept by every successful step is kept by every successful run. -/
theorem run_invariant {step : σ → α → Except ε σ} {Inv : σ → Prop}
    (hstep : ∀ s a t, Inv s → step s a = .ok t → Inv t) {s t : σ} {xs : List α} (hs : Inv s)
    (h : run step s xs = .ok t) : Inv t := by
  induction xs generalizing s with
  | nil => simp_all
  | cons a as ih =>
    obtain ⟨u, hu, hrest⟩ := run_cons_ok.mp h
    exact ih (hstep s a u hs hu) hrest

/-- Every step of the run of `xs` from `s` satisfies `Good`, a property of the state the step
starts in and of its input. -/
def EveryStep (step : σ → α → Except ε σ) (Good : σ → α → Prop) (s : σ) (xs : List α) : Prop :=
  ∀ pre a post t, xs = pre ++ a :: post → run step s pre = .ok t → Good t a

theorem EveryStep.of_append {step : σ → α → Except ε σ} {Good : σ → α → Prop} {s : σ}
    {xs ys : List α} (h : EveryStep step Good s (xs ++ ys)) : EveryStep step Good s xs := by
  intro pre a post t hxs hpre
  exact h pre a (post ++ ys) t (by rw [hxs]; simp) hpre

/-- **The conditional invariant rule.** A property kept by the steps that satisfy `Good` holds at
the end of every run all of whose steps satisfy it. Induction on the inputs from the right, so
that the last step starts in the state the shorter run reached. -/
theorem run_invariant_of_everyStep {step : σ → α → Except ε σ} {Good : σ → α → Prop}
    {Inv : σ → Prop} (hstep : ∀ s a t, Inv s → Good s a → step s a = .ok t → Inv t) {s t : σ}
    {xs : List α} (hs : Inv s) (hgood : EveryStep step Good s xs) (h : run step s xs = .ok t) :
    Inv t := by
  induction xs using List.reverseRecOn generalizing t with
  | nil => simp_all
  | append_singleton as a ih =>
    obtain ⟨u, hu, hlast⟩ := run_snoc_ok.mp h
    exact hstep u a t (ih hgood.of_append hu) (hgood as a [] u rfl hu) hlast

end Fallible
