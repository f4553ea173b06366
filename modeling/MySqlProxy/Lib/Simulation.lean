import MySqlProxy.Lib.Fallible

/-!
# Traces and forward simulation

A run of one machine seen from another. `trace` collects what the steps of a run mean for the other
machine, any number of inputs for each step; when every step is matched by the run of the other
machine over what it means (`Simulates`), so is every run by the run over its trace
(`Simulates.run`). `run_translate` is the case of a function between the states.

The measure rule is about machines that can only run down: when every step lowers a measure by
exactly one, a run is as long as the measure it has used up (`run_countdown`).
-/

namespace Fallible

variable {ε ε' σ τ α β : Type*}

/-- **The run rule.** A property of the inputs so far and of the state they lead to holds along a
run when every step keeps it. Induction on the inputs from the right. -/
theorem run_induction {step : σ → α → Except ε σ} {P : List α → σ → Prop} {s t : σ} {xs : List α}
    (hs : P [] s) (hstep : ∀ xs a t u, run step s xs = .ok t → P xs t → step t a = .ok u →
      P (xs ++ [a]) u) (h : run step s xs = .ok t) : P xs t := by
  induction xs using List.reverseRecOn generalizing t with
  | nil =>
    cases h
    exact hs
  | append_singleton xs a ih =>
    obtain ⟨u, hbefore, hlast⟩ := run_snoc_ok.mp h
    exact hstep xs a u t hbefore (ih hbefore) hlast

/-! ## Traces -/

/-- What the steps of a run mean, in order, up to the first step that fails. -/
def trace (step : σ → α → Except ε σ) (meaning : σ → α → List β) : σ → List α → List β
  | _, [] => []
  | s, a :: as =>
    match step s a with
    | .ok t => meaning s a ++ trace step meaning t as
    | .error _ => []

section Trace

variable {step : σ → α → Except ε σ} {meaning : σ → α → List β}

theorem trace_cons_of_ok {s t : σ} {a : α} (as : List α) (h : step s a = .ok t) :
    trace step meaning s (a :: as) = meaning s a ++ trace step meaning t as := by
  rw [trace, h]

theorem trace_append_of_ok {s t : σ} {xs : List α} (ys : List α) (h : run step s xs = .ok t) :
    trace step meaning s (xs ++ ys) = trace step meaning s xs ++ trace step meaning t ys := by
  induction xs generalizing s with
  | nil =>
    cases h
    rfl
  | cons a as ih =>
    obtain ⟨u, hstep, hrest⟩ := run_cons_ok.mp h
    rw [List.cons_append, trace_cons_of_ok _ hstep, trace_cons_of_ok _ hstep, ih hrest,
      List.append_assoc]

theorem trace_snoc_of_ok {s t u : σ} {xs : List α} {a : α} (h : run step s xs = .ok t)
    (ha : step t a = .ok u) :
    trace step meaning s (xs ++ [a]) = trace step meaning s xs ++ meaning t a := by
  rw [trace_append_of_ok _ h, trace_cons_of_ok _ ha]
  exact congrArg _ (List.append_nil _)

/-- What a run means is what one of its steps means. Induction on the inputs from the right. -/
theorem exists_of_mem_trace {s t : σ} {xs : List α} {b : β} (h : run step s xs = .ok t)
    (hb : b ∈ trace step meaning s xs) :
    ∃ pre a post u, xs = pre ++ a :: post ∧ run step s pre = .ok u ∧ b ∈ meaning u a := by
  induction xs using List.reverseRecOn generalizing t with
  | nil => cases hb
  | append_singleton xs a ih =>
    obtain ⟨u, hbefore, hlast⟩ := run_snoc_ok.mp h
    rw [trace_snoc_of_ok hbefore hlast] at hb
    rcases List.mem_append.mp hb with hearly | hlate
    · obtain ⟨pre, a', post, v, rfl, hpre, hmeant⟩ := ih hbefore hearly
      exact ⟨pre, a', post ++ [a], v, by simp, hpre, hmeant⟩
    · exact ⟨xs, a, [], u, rfl, hbefore, hlate⟩

end Trace

/-! ## Forward simulation -/

/-- Every step between related states is matched by the other machine's run over its meaning. -/
def Simulates (step : σ → α → Except ε σ) (step' : τ → β → Except ε' τ)
    (meaning : σ → α → List β) (R : σ → τ → Prop) : Prop :=
  ∀ s a s' t, R s t → step s a = .ok s' → ∃ t', run step' t (meaning s a) = .ok t' ∧ R s' t'

/-- **Forward simulation.** Induction on the inputs. -/
theorem Simulates.run {step : σ → α → Except ε σ} {step' : τ → β → Except ε' τ}
    {meaning : σ → α → List β} {R : σ → τ → Prop} (h : Simulates step step' meaning R)
    {s s' : σ} {t : τ} {xs : List α} (hR : R s t) (hrun : Fallible.run step s xs = .ok s') :
    ∃ t', Fallible.run step' t (trace step meaning s xs) = .ok t' ∧ R s' t' := by
  induction xs generalizing s t with
  | nil =>
    cases hrun
    exact ⟨t, rfl, hR⟩
  | cons a as ih =>
    obtain ⟨u, hstep, hrest⟩ := run_cons_ok.mp hrun
    obtain ⟨v, hmeaning, hv⟩ := h s a u t hR hstep
    obtain ⟨t', htail, ht'⟩ := ih hv hrest
    refine ⟨t', ?_, ht'⟩
    rw [trace_cons_of_ok _ hstep, run_append_of_ok _ hmeaning]
    exact htail

/-- A machine whose steps are steps of another one, state and input translated, has runs that are
runs of the other one. Induction on the inputs. -/
theorem run_translate {step : σ → α → Except ε σ} {step' : τ → β → Except ε' τ} {φ : σ → τ}
    {f : α → β} (h : ∀ s a t, step s a = .ok t → step' (φ s) (f a) = .ok (φ t)) {s t : σ}
    {xs : List α} (hrun : run step s xs = .ok t) : run step' (φ s) (xs.map f) = .ok (φ t) := by
  induction xs generalizing s with
  | nil =>
    cases hrun
    rfl
  | cons a as ih =>
    obtain ⟨u, hstep, hrest⟩ := run_cons_ok.mp hrun
    rw [List.map_cons, run_cons_of_ok _ (h s a u hstep)]
    exact ih hrest

/-! ## Running down -/

/-- A run whose every step keeps an invariant and lowers the measure by one is as long as the
measure it uses up. Induction on the inputs. -/
theorem run_countdown {step : σ → α → Except ε σ} {Inv : σ → Prop} {measure : σ → Nat}
    (hstep : ∀ s a t, Inv s → step s a = .ok t → Inv t ∧ measure t + 1 = measure s) {s t : σ}
    {xs : List α} (hs : Inv s) (h : run step s xs = .ok t) :
    Inv t ∧ measure t + xs.length = measure s := by
  induction xs generalizing s with
  | nil =>
    cases h
    exact ⟨hs, rfl⟩
  | cons a as ih =>
    obtain ⟨u, hu, hrest⟩ := run_cons_ok.mp h
    obtain ⟨hinv, hmeasure⟩ := hstep s a u hs hu
    obtain ⟨ht, hlength⟩ := ih hinv hrest
    refine ⟨ht, ?_⟩
    rw [List.length_cons]
    omega

end Fallible
