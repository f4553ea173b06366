import MySqlProxy.Lib.Fallible
import Mathlib.Logic.Function.Basic

/-!
# Independent writers of one log

A family of components that share nothing but a log they append to. Each is a machine that is
handed the log at every step and hands it back longer (`OnlyAppends`); `turn` lets one component,
chosen by the input, take a step with the log that all share.

Whatever the order of the turns, each component is what its own inputs make of it when it runs
alone, and the shared log is an interleaving of the logs the components would have written alone
(`run_turn`): with every entry marked by its writer, the entries of one writer are its own log.
-/

namespace SharedLog

variable {ι σ α β ρ ε : Type*} [DecidableEq ι]

/-! ## What belongs to one component -/

/-- The entries marked with `i`. -/
def own (i : ι) (xs : List (ι × β)) : List β :=
  xs.filterMap fun x => if x.1 = i then some x.2 else none

@[simp] theorem own_nil (i : ι) : own i ([] : List (ι × β)) = [] := rfl

@[simp] theorem own_append (i : ι) (xs ys : List (ι × β)) :
    own i (xs ++ ys) = own i xs ++ own i ys := List.filterMap_append ..

theorem own_singleton_self (i : ι) (b : β) : own i [(i, b)] = [b] := by simp [own]

theorem own_singleton_of_ne {i j : ι} (h : j ≠ i) (b : β) : own i [(j, b)] = [] := by
  simp [own, h]

theorem own_mark_self (i : ι) (bs : List β) : own i (bs.map fun b => (i, b)) = bs := by
  simp [own, List.filterMap_map]

theorem own_mark_of_ne {i j : ι} (h : j ≠ i) (bs : List β) :
    own i (bs.map fun b => (j, b)) = [] := by
  simp [own, List.filterMap_map, h]

omit [DecidableEq ι] in
theorem map_snd_mark (i : ι) (bs : List β) : (bs.map fun b => (i, b)).map Prod.snd = bs := by
  rw [List.map_map]
  exact List.map_id' bs

/-! ## Turns -/

/-- A step that hands its log back with entries appended that do not depend on it. -/
def OnlyAppends (step : σ × List ρ → α → Except ε (σ × List ρ)) : Prop :=
  ∀ s log a, step (s, log) a = (step (s, []) a).map fun t => (t.1, log ++ t.2)

/-- One component takes a step with the shared log. -/
def turn (step : σ × List ρ → α → Except ε (σ × List ρ)) (p : (ι → σ) × List ρ) (x : ι × α) :
    Except ε ((ι → σ) × List ρ) :=
  (step (p.1 x.1, p.2) x.2).map fun t => (Function.update p.1 x.1 t.1, t.2)

variable {step : σ × List ρ → α → Except ε (σ × List ρ)}

/-- A turn is a step of its component alone, the entries appended to the shared log. -/
theorem turn_ok (h : OnlyAppends step) {p q : (ι → σ) × List ρ} {x : ι × α}
    (hturn : turn step p x = .ok q) :
    ∃ s entries, step (p.1 x.1, []) x.2 = .ok (s, entries) ∧
      q = (Function.update p.1 x.1 s, p.2 ++ entries) := by
  obtain ⟨t, hstep, rfl⟩ := Fallible.map_ok_iff.mp hturn
  rw [h] at hstep
  obtain ⟨⟨s, entries⟩, halone, rfl⟩ := Fallible.map_ok_iff.mp hstep
  exact ⟨s, entries, halone, rfl⟩

/-- **Independent writers.** Induction on the turns from the right: the last turn belongs to one
component and leaves the others alone. -/
theorem run_turn (h : OnlyAppends step) {p q : (ι → σ) × List ρ} {xs : List (ι × α)}
    (hrun : Fallible.run (turn step) p xs = .ok q) :
    ∃ marked : List (ι × ρ), q.2 = p.2 ++ marked.map Prod.snd ∧
      ∀ i, Fallible.run step (p.1 i, []) (own i xs) = .ok (q.1 i, own i marked) := by
  induction xs using List.reverseRecOn generalizing q with
  | nil =>
    cases hrun
    exact ⟨[], (List.append_nil _).symm, fun i => rfl⟩
  | append_singleton xs x ih =>
    obtain ⟨r, hbefore, hlast⟩ := Fallible.run_snoc_ok.mp hrun
    obtain ⟨marked, hlog, halone⟩ := ih hbefore
    obtain ⟨s, entries, hstep, rfl⟩ := turn_ok h hlast
    refine ⟨marked ++ entries.map fun e => (x.1, e), ?_, fun i => ?_⟩
    · rw [List.map_append, map_snd_mark, ← List.append_assoc, ← hlog]
    · show Fallible.run step (p.1 i, []) (own i (xs ++ [(x.1, x.2)]))
        = .ok (Function.update r.1 x.1 s i, own i (marked ++ entries.map fun e => (x.1, e)))
      by_cases hi : x.1 = i
      · subst hi
        rw [own_append, own_append, own_mark_self, own_singleton_self, Function.update_self]
        refine Fallible.run_snoc_ok.mpr ⟨_, halone x.1, ?_⟩
        rw [h, hstep]
        rfl
      · rw [own_append, own_append, own_mark_of_ne hi, own_singleton_of_ne hi, List.append_nil,
          List.append_nil, Function.update_of_ne (Ne.symm hi)]
        exact halone i

end SharedLog
