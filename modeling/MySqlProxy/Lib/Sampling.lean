import MySqlProxy.Lib.Fallible
import Mathlib.Data.List.Sublists

/-!
# Sampling a run at the ends of chunks

A machine fed byte by byte can be looked at after every input or only now and then, at the end of
each chunk its input happens to arrive in. `sample` collects what an observation `obs` shows at
the chunk ends. The samples of a chunked run are a sublist of those of the run looked at after
every input (`sample_singletons_compare`), and the two are the same exactly when nothing shows
inside a chunk (`sample_eq_singletons_iff`). Two runs that show the same after every prefix of
their inputs are sampled alike at chunks of the same lengths (`ShowsAlike.sample_eq`) and fail at
the same chunk (`ShowsAlike.sampleFailsAt`).
-/

namespace Fallible

universe u

variable {ε α : Type*} {σ ρ : Type u}

/-- Run the chunks one after the other and collect what `obs` shows after each. -/
def sample (step : σ → α → Except ε σ) (obs : σ → Option ρ) :
    σ → List (List α) → Except ε (σ × List ρ)
  | s, [] => .ok (s, [])
  | s, chunk :: chunks => do
    let t ← run step s chunk
    let (u, seen) ← sample step obs t chunks
    .ok (u, (obs t).toList ++ seen)

/-- The chunks that deliver every input by itself. -/
def singletons (xs : List α) : List (List α) := xs.map fun a => [a]

@[simp] theorem singletons_nil : singletons ([] : List α) = [] := rfl

@[simp] theorem singletons_append (xs ys : List α) :
    singletons (xs ++ ys) = singletons xs ++ singletons ys := by simp [singletons]

@[simp] theorem flatten_singletons (xs : List α) : (singletons xs).flatten = xs := by
  induction xs with
  | nil => rfl
  | cons a as ih => simpa [singletons] using ih

variable {step : σ → α → Except ε σ} {obs : σ → Option ρ}

@[simp] theorem sample_nil (s : σ) : sample step obs s [] = .ok (s, []) := rfl

theorem sample_cons_ok {s u : σ} {chunk : List α} {chunks : List (List α)} {seen : List ρ} :
    sample step obs s (chunk :: chunks) = .ok (u, seen) ↔
      ∃ t rest, run step s chunk = .ok t ∧ sample step obs t chunks = .ok (u, rest) ∧
        seen = (obs t).toList ++ rest := by
  rw [sample]
  cases hrun : run step s chunk with
  | error e => simp [bind, Except.bind]
  | ok t =>
    cases hrest : sample step obs t chunks with
    | error e => simp [bind, Except.bind, hrest]
    | ok p => simp [bind, Except.bind, hrest, Prod.ext_iff, eq_comm, and_assoc]

theorem sample_append_ok {s u : σ} {cs ds : List (List α)} {seen : List ρ} :
    sample step obs s (cs ++ ds) = .ok (u, seen) ↔
      ∃ t seen₁ seen₂, sample step obs s cs = .ok (t, seen₁) ∧
        sample step obs t ds = .ok (u, seen₂) ∧ seen = seen₁ ++ seen₂ := by
  induction cs generalizing s seen with
  | nil => simp
  | cons c cs ih =>
    rw [List.cons_append, sample_cons_ok]
    constructor
    · rintro ⟨t, rest, hrun, hrest, rfl⟩
      obtain ⟨v, seen₁, seen₂, h₁, h₂, rfl⟩ := ih.mp hrest
      exact ⟨v, (obs t).toList ++ seen₁, seen₂, sample_cons_ok.mpr ⟨t, seen₁, hrun, h₁, rfl⟩, h₂,
        by simp⟩
    · rintro ⟨v, seen₁, seen₂, h₁, h₂, rfl⟩
      obtain ⟨t, rest, hrun, hrest, rfl⟩ := sample_cons_ok.mp h₁
      exact ⟨t, rest ++ seen₂, hrun, ih.mpr ⟨v, rest, seen₂, hrest, h₂, rfl⟩, by simp⟩

theorem run_of_sample {s t : σ} {chunks : List (List α)} {seen : List ρ}
    (h : sample step obs s chunks = .ok (t, seen)) : run step s chunks.flatten = .ok t := by
  induction chunks generalizing s seen with
  | nil => simp_all
  | cons c cs ih =>
    obtain ⟨u, rest, hrun, hrest, -⟩ := sample_cons_ok.mp h
    rw [List.flatten_cons, run_append_of_ok _ hrun]
    exact ih hrest

/-- A run that succeeds can be sampled at any chunking. -/
theorem exists_sample_of_run (obs : σ → Option ρ) {s t : σ} {chunks : List (List α)}
    (h : run step s chunks.flatten = .ok t) : ∃ seen, sample step obs s chunks = .ok (t, seen) := by
  induction chunks generalizing s with
  | nil => exact ⟨[], by simpa using h⟩
  | cons c cs ih =>
    obtain ⟨u, hrun, hrest⟩ := run_append_ok.mp h
    obtain ⟨seen, hseen⟩ := ih hrest
    exact ⟨_, sample_cons_ok.mpr ⟨u, seen, hrun, hseen, rfl⟩⟩

/-- Nothing is shown when nothing shows at the end of any chunk. Induction on the chunks from the
right. -/
theorem sample_eq_nil {s t : σ} {chunks : List (List α)} {seen : List ρ}
    (hnone : ∀ front back u, chunks = front ++ back → front ≠ [] →
      run step s front.flatten = .ok u → obs u = none)
    (h : sample step obs s chunks = .ok (t, seen)) : seen = [] := by
  induction chunks using List.reverseRecOn generalizing t seen with
  | nil => simp_all
  | append_singleton front chunk ih =>
    have hlast := hnone (front ++ [chunk]) [] t (List.append_nil _).symm (by simp) (run_of_sample h)
    obtain ⟨u, seen₁, seen₂, hfront, hchunk, rfl⟩ := sample_append_ok.mp h
    obtain ⟨v, rest, hrun, hnil, rfl⟩ := sample_cons_ok.mp hchunk
    obtain ⟨rfl, rfl⟩ : v = t ∧ rest = [] := by simpa [Prod.ext_iff, eq_comm] using hnil
    rw [hlast, ih (fun cs ds u heq => hnone cs (ds ++ [chunk]) u (by simp [heq])) hfront]
    rfl

/-! ## Silence inside a chunk -/

/-- Nothing shows after a non-empty proper prefix of `chunk`. -/
def Silent (step : σ → α → Except ε σ) (obs : σ → Option ρ) (s : σ) (chunk : List α) : Prop :=
  ∀ pre post t, chunk = pre ++ post → pre ≠ [] → post ≠ [] → run step s pre = .ok t → obs t = none

/-- Looking after every input shows nothing exactly when nothing shows after any non-empty
prefix. Induction on the inputs from the right. -/
theorem sample_singletons_eq_nil_iff {s t : σ} {xs : List α} {seen : List ρ}
    (h : sample step obs s (singletons xs) = .ok (t, seen)) :
    seen = [] ↔
      ∀ pre post u, xs = pre ++ post → pre ≠ [] → run step s pre = .ok u → obs u = none := by
  induction xs using List.reverseRecOn generalizing t seen with
  | nil =>
    simp only [singletons_nil, sample_nil, Except.ok.injEq, Prod.mk.injEq] at h
    refine ⟨fun _ pre post u heq hne => ?_, fun _ => h.2.symm⟩
    exact absurd (List.append_eq_nil_iff.mp heq.symm).1 hne
  | append_singleton as a ih =>
    rw [singletons_append] at h
    obtain ⟨v, seen₁, seen₂, h₁, h₂, rfl⟩ := sample_append_ok.mp h
    obtain ⟨w, rest, hlast, hnil, rfl⟩ := sample_cons_ok.mp h₂
    obtain ⟨rfl, rfl⟩ : w = t ∧ rest = [] := by simpa [Prod.ext_iff, eq_comm] using hnil
    have hv : run step s as = .ok v := by simpa using run_of_sample h₁
    have hw : run step s (as ++ [a]) = .ok w := by rw [run_append_of_ok _ hv, hlast]
    rw [List.append_nil, List.append_eq_nil_iff, ih h₁]
    constructor
    · rintro ⟨hearly, hobs⟩ pre post u heq hne hrun
      rcases List.eq_nil_or_concat post with rfl | ⟨post', b, rfl⟩
      · -- the prefix is the whole list
        rw [List.append_nil] at heq
        rw [← heq, hw] at hrun
        cases hrun
        simpa using hobs
      · rw [List.concat_eq_append, ← List.append_assoc] at heq
        exact hearly pre post' u (List.append_inj_left' heq rfl) hne hrun
    · intro hall
      -- a prefix of the shorter list is a prefix of the longer one
      refine ⟨fun pre post u heq hne hrun => ?_, ?_⟩
      · exact hall pre (post ++ [a]) u (by rw [heq]; simp) hne hrun
      · simpa using hall (as ++ [a]) [] w (by simp) (by simp) hw

/-- Looking into a chunk after every input shows something early and then what shows at its end;
nothing shows early exactly when the chunk is silent. -/
theorem sample_singletons_chunk {s t : σ} {chunk : List α} {seen : List ρ} (hne : chunk ≠ [])
    (h : sample step obs s (singletons chunk) = .ok (t, seen)) :
    ∃ early, seen = early ++ (obs t).toList ∧ (early = [] ↔ Silent step obs s chunk) := by
  obtain ⟨as, a, rfl⟩ := (List.eq_nil_or_concat chunk).resolve_left hne
  rw [List.concat_eq_append] at *
  rw [singletons_append] at h
  obtain ⟨v, early, seen₂, h₁, h₂, rfl⟩ := sample_append_ok.mp h
  obtain ⟨w, rest, hlast, hnil, rfl⟩ := sample_cons_ok.mp h₂
  obtain ⟨rfl, rfl⟩ : w = t ∧ rest = [] := by simpa [Prod.ext_iff, eq_comm] using hnil
  refine ⟨early, by simp, ?_⟩
  rw [sample_singletons_eq_nil_iff h₁]
  constructor
  · intro hall pre post u heq hpre hpost hrun
    obtain ⟨post', b, rfl⟩ := (List.eq_nil_or_concat post).resolve_left hpost
    rw [List.concat_eq_append, ← List.append_assoc] at heq
    exact hall pre post' u (List.append_inj_left' heq rfl) hpre hrun
  · intro hsilent pre post u heq hpre hrun
    exact hsilent pre (post ++ [a]) u (by rw [heq]; simp) hpre (by simp) hrun

/-- Every chunk of the list is silent in the state the chunks before it lead to. -/
def EverySilent (step : σ → α → Except ε σ) (obs : σ → Option ρ) (s : σ)
    (chunks : List (List α)) : Prop :=
  ∀ pre chunk post t, chunks = pre ++ chunk :: post → run step s pre.flatten = .ok t →
    Silent step obs t chunk

theorem everySilent_cons {s t : σ} {chunk : List α} {chunks : List (List α)}
    (hrun : run step s chunk = .ok t) :
    EverySilent step obs s (chunk :: chunks) ↔
      Silent step obs s chunk ∧ EverySilent step obs t chunks := by
  constructor
  · intro h
    refine ⟨h [] chunk chunks s rfl rfl, fun pre c post u heq hpre => ?_⟩
    refine h (chunk :: pre) c post u (by rw [heq]; rfl) ?_
    rw [List.flatten_cons, run_append_of_ok _ hrun, hpre]
  · rintro ⟨hhead, htail⟩ pre c post u heq hpre
    cases pre with
    | nil =>
      -- the chunk asked for is the head
      obtain ⟨rfl, rfl⟩ := List.cons.inj heq
      cases hpre
      exact hhead
    | cons d pre =>
      obtain ⟨rfl, hrest⟩ := List.cons.inj heq
      rw [List.flatten_cons, run_append_of_ok _ hrun] at hpre
      exact htail pre c post u hrest hpre

/-- **Chunked and inputwise samples.** The samples at the chunk ends are a sublist of the samples
after every input, and they are all of them exactly when every chunk is silent. Induction on the
chunks: the head chunk contributes what shows early in it, and the tails are compared by
length. -/
theorem sample_singletons_compare {s t t' : σ} {chunks : List (List α)} {seen seen' : List ρ}
    (hne : ∀ chunk ∈ chunks, chunk ≠ []) (h : sample step obs s chunks = .ok (t, seen))
    (h' : sample step obs s (singletons chunks.flatten) = .ok (t', seen')) :
    seen.Sublist seen' ∧ (seen = seen' ↔ EverySilent step obs s chunks) := by
  induction chunks generalizing s seen seen' with
  | nil =>
    simp only [List.flatten_nil, singletons_nil, sample_nil, Except.ok.injEq,
      Prod.mk.injEq] at h h'
    rw [← h.2, ← h'.2]
    exact ⟨List.Sublist.refl _, fun _ pre c post u heq => absurd heq (by simp), fun _ => rfl⟩
  | cons c cs ih =>
    obtain ⟨u, rest, hrun, hrest, rfl⟩ := sample_cons_ok.mp h
    rw [List.flatten_cons, singletons_append] at h'
    obtain ⟨u', head', rest', hhead', hrest', rfl⟩ := sample_append_ok.mp h'
    -- both runs stand in the same state after the head chunk
    obtain rfl : u = u' := by
      have hu' := run_of_sample hhead'
      rw [flatten_singletons, hrun] at hu'
      exact Except.ok.inj hu'
    obtain ⟨early, rfl, hearly⟩ := sample_singletons_chunk (hne c (by simp)) hhead'
    obtain ⟨hsub, hiff⟩ := ih (fun d hd => hne d (by simp [hd])) hrest hrest'
    have hsub' : ((obs u).toList ++ rest).Sublist (early ++ (obs u).toList ++ rest') := by
      rw [List.append_assoc]
      exact ((List.Sublist.refl _).append hsub).trans (List.sublist_append_right _ _)
    refine ⟨hsub', ?_⟩
    rw [everySilent_cons hrun, ← hearly, ← hiff]
    constructor
    · intro heq
      -- the tail's samples are no more than the inputwise ones, so nothing is left to show early
      have hlen := congrArg List.length heq
      simp only [List.length_append] at hlen
      have hle := hsub.length_le
      have hearly0 : early = [] := List.length_eq_zero_iff.mp (by omega)
      exact ⟨hearly0, hsub.eq_of_length (by omega)⟩
    · rintro ⟨rfl, rfl⟩
      simp

theorem sample_eq_singletons_iff {s t t' : σ} {chunks : List (List α)} {seen seen' : List ρ}
    (hne : ∀ chunk ∈ chunks, chunk ≠ []) (h : sample step obs s chunks = .ok (t, seen))
    (h' : sample step obs s (singletons chunks.flatten) = .ok (t', seen')) :
    seen = seen' ↔ EverySilent step obs s chunks :=
  (sample_singletons_compare hne h h').2

/-! ## Where a sampled run fails -/

/-- The first `n` chunks show `seen`, and the chunk after them fails with `e`. -/
def SampleFailsAt (step : σ → α → Except ε σ) (obs : σ → Option ρ) (s : σ)
    (chunks : List (List α)) (n : ℕ) (e : ε) (seen : List ρ) : Prop :=
  ∃ pre chunk post t, chunks = pre ++ chunk :: post ∧ pre.length = n ∧
    sample step obs s pre = .ok (t, seen) ∧ run step t chunk = .error e

/-- Two runs that show the same after every prefix of their inputs. -/
def ShowsAlike (step : σ → α → Except ε σ) (obs : σ → Option ρ) (s s' : σ) (xs xs' : List α) :
    Prop :=
  ∀ n, (run step s (xs.take n)).map obs = (run step s' (xs'.take n)).map obs

variable {s s' : σ}

theorem ShowsAlike.symm {xs xs' : List α} (h : ShowsAlike step obs s s' xs xs') :
    ShowsAlike step obs s' s xs' xs := fun n => (h n).symm

/-- Prefixes of one length that go through leave runs that show the same. -/
theorem ShowsAlike.of_append {t t' : σ} {xs xs' ys ys' : List α}
    (h : ShowsAlike step obs s s' (xs ++ ys) (xs' ++ ys')) (hlen : xs.length = xs'.length)
    (hxs : run step s xs = .ok t) (hxs' : run step s' xs' = .ok t') :
    ShowsAlike step obs t t' ys ys' := by
  intro n
  have hn := h (xs.length + n)
  rw [List.take_length_add_append, hlen, List.take_length_add_append, run_append_of_ok _ hxs,
    run_append_of_ok _ hxs'] at hn
  exact hn

theorem ShowsAlike.left {xs xs' ys ys' : List α}
    (h : ShowsAlike step obs s s' (xs ++ ys) (xs' ++ ys')) (hlen : xs.length = xs'.length) :
    ShowsAlike step obs s s' xs xs' := by
  intro n
  by_cases hn : n ≤ xs.length
  · have hshow := h n
    rwa [List.take_append_of_le_length hn, List.take_append_of_le_length (hlen ▸ hn)] at hshow
  · have hshow := h xs.length
    rw [List.take_left, hlen, List.take_left] at hshow
    rwa [List.take_of_length_le (by omega), List.take_of_length_le (by omega)]

theorem ShowsAlike.of_length {xs xs' ys ys' : List α}
    (h : ShowsAlike step obs s s' (xs ++ ys) (xs' ++ ys')) (hlen : xs.length = xs'.length) :
    (run step s xs).map obs = (run step s' xs').map obs := by
  have hshow := h.left hlen xs.length
  rwa [List.take_length, hlen, List.take_length] at hshow

/-- Runs that show the same are sampled alike at chunks of the same lengths. Induction on the
chunks. -/
theorem ShowsAlike.sample_eq {chunks chunks' : List (List α)}
    (h : ShowsAlike step obs s s' chunks.flatten chunks'.flatten)
    (hlen : chunks.map List.length = chunks'.map List.length) :
    (sample step obs s chunks).map Prod.snd = (sample step obs s' chunks').map Prod.snd := by
  induction chunks generalizing s s' chunks' with
  | nil =>
    obtain rfl : chunks' = [] := List.map_eq_nil_iff.mp hlen.symm
    rfl
  | cons c cs ih =>
    obtain ⟨c', cs', rfl, hc, hcs⟩ := List.map_eq_cons_iff.mp hlen.symm
    rw [List.flatten_cons, List.flatten_cons] at h
    rw [sample, sample]
    rcases map_eq_map_cases (h.of_length hc.symm) with
      ⟨e, hrun, hrun'⟩ | ⟨t, t', hrun, hrun', hobs⟩
    · rw [hrun, hrun']
      rfl
    · -- both chunks show the same, and so do the chunks after them
      rw [hrun, hrun']
      rcases map_eq_map_cases (ih (h.of_append hc.symm hrun hrun') hcs.symm) with
        ⟨e, hsample, hsample'⟩ | ⟨r, r', hsample, hsample', hseen⟩
      · simp [hsample, hsample', bind, Except.bind, Except.map]
      · simp [hsample, hsample', hobs, hseen, bind, Except.bind, Except.map]

/-- Runs that show the same fail at the same chunk, having shown the same. -/
theorem ShowsAlike.sampleFailsAt {chunks chunks' : List (List α)}
    (h : ShowsAlike step obs s s' chunks.flatten chunks'.flatten)
    (hlen : chunks.map List.length = chunks'.map List.length) {n : ℕ} {e : ε} {seen : List ρ}
    (hfails : SampleFailsAt step obs s chunks n e seen) :
    SampleFailsAt step obs s' chunks' n e seen := by
  obtain ⟨pre, chunk, post, t, rfl, hn, hsample, hchunk⟩ := hfails
  -- the other chunks are cut at the same places
  rw [List.map_append] at hlen
  obtain ⟨pre', rest', rfl, hpre, hrest⟩ := List.map_eq_append_iff.mp hlen.symm
  obtain ⟨chunk', post', rfl, hc, -⟩ := List.map_eq_cons_iff.mp hrest
  rw [List.flatten_append, List.flatten_append, List.flatten_cons, List.flatten_cons] at h
  have hflat : pre.flatten.length = pre'.flatten.length := by
    rw [List.length_flatten, List.length_flatten, hpre]
  have hseen := (h.left hflat).sample_eq hpre.symm
  rw [hsample] at hseen
  obtain ⟨⟨t', seen'⟩, hsample', rfl⟩ := map_ok_iff.mp hseen.symm
  have hafter := h.of_append hflat (run_of_sample hsample) (run_of_sample hsample')
  have hchunk' : run step t' chunk' = .error e := by
    rcases map_eq_map_cases (hafter.of_length hc.symm) with
      ⟨e', hrun, hrun'⟩ | ⟨u, u', hrun, -, -⟩
    · rw [hrun', Except.error.inj (hrun.symm.trans hchunk)]
    · exact absurd (hrun.symm.trans hchunk) (by simp)
  refine ⟨pre', chunk', post', t', rfl, ?_, hsample', hchunk'⟩
  rw [← hn, ← List.length_map List.length, hpre, List.length_map]

end Fallible
