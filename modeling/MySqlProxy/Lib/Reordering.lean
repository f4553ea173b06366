import MySqlProxy.Lib.Fallible

/-!
# Reordering the inputs of a run

Each input touches some components, and two inputs that touch none together are independent.
Swapping neighbours that are independent is one step of a `Reorder`; two lists of inputs are
reorders of each other when every component sees the same inputs in the same order
(`reorder_of_filter`).

When a machine handles independent inputs in either order with the same effect (`Commutes`), every
reorder of the inputs of a run is a run as well, with the same effect (`Commutes.run_reorder`).
-/

namespace Reordering

variable {ι α σ ε : Type*} (touches : ι → α → Bool)

/-- No component is touched by both. -/
def Independent (a b : α) : Prop := ∀ i, touches i a = true → touches i b = false

/-- Independent neighbours are swapped, any number of times. -/
inductive Reorder : List α → List α → Prop where
  | refl (xs : List α) : Reorder xs xs
  | swap (front back : List α) {a b : α} (h : Independent touches a b) :
      Reorder (front ++ a :: b :: back) (front ++ b :: a :: back)
  | trans {xs ys zs : List α} (h : Reorder xs ys) (h' : Reorder ys zs) : Reorder xs zs

variable {touches}

theorem Reorder.cons {xs ys : List α} (h : Reorder touches xs ys) (a : α) :
    Reorder touches (a :: xs) (a :: ys) := by
  induction h with
  | refl xs => exact .refl (a :: xs)
  | swap front back h => exact .swap (a :: front) back h
  | trans h h' ih ih' => exact ih.trans ih'

/-- An input is moved behind inputs that are independent of it. Induction on these. -/
theorem Reorder.move {a : α} {front : List α} (back : List α)
    (h : ∀ b ∈ front, Independent touches a b) :
    Reorder touches (a :: (front ++ back)) (front ++ a :: back) := by
  induction front with
  | nil => exact .refl (a :: back)
  | cons b front ih =>
    have hswap : Reorder touches (a :: b :: (front ++ back)) (b :: a :: (front ++ back)) :=
      .swap [] (front ++ back) (h b (List.mem_cons_self ..))
    exact hswap.trans ((ih fun c hc => h c (List.mem_cons_of_mem b hc)).cons b)

/-- The first input, found again in a list in which every component sees the same: what stands
before it is independent of it. -/
theorem exists_front {a : α} {xs ys : List α} (hcover : ∃ i, touches i a = true)
    (h : ∀ i, (a :: xs).filter (touches i) = ys.filter (touches i)) :
    ∃ front back, ys = front ++ a :: back ∧ ∀ b ∈ front, Independent touches a b := by
  obtain ⟨i, hi⟩ := hcover
  have hfirst : ys.filter (touches i) = a :: xs.filter (touches i) := by
    rw [← h i, List.filter_cons_of_pos hi]
  obtain ⟨front, back, rfl, hfront, -, -⟩ := List.filter_eq_cons_iff.mp hfirst
  have hnot : a ∉ front := fun hmem => hfront a hmem hi
  refine ⟨front, back, rfl, fun b hb j hj => ?_⟩
  by_contra htouch
  -- the component sees `a` first, and then it stands in the front
  have hmem : b ∈ front.filter (touches j) :=
    List.mem_filter.mpr ⟨hb, Bool.of_not_eq_false htouch⟩
  obtain ⟨c, rest, hrest⟩ := List.exists_cons_of_ne_nil (List.ne_nil_of_mem hmem)
  have hsees := h j
  rw [List.filter_cons_of_pos hj, List.filter_append, hrest, List.cons_append] at hsees
  have hc : c ∈ front.filter (touches j) := by
    rw [hrest]
    exact List.mem_cons_self ..
  rw [← (List.cons.inj hsees).1] at hc
  exact hnot (List.mem_of_mem_filter hc)

/-- **Projections determine the order.** Induction on the inputs: the first one is found behind
independent ones. -/
theorem reorder_of_filter (hcover : ∀ a, ∃ i, touches i a = true) {xs ys : List α}
    (h : ∀ i, xs.filter (touches i) = ys.filter (touches i)) : Reorder touches xs ys := by
  induction xs generalizing ys with
  | nil =>
    have hnil : ys = [] := by
      refine List.eq_nil_iff_forall_not_mem.mpr fun a ha => ?_
      obtain ⟨i, hi⟩ := hcover a
      have hmem : a ∈ ys.filter (touches i) := List.mem_filter.mpr ⟨ha, hi⟩
      rw [← h i] at hmem
      cases hmem
    rw [hnil]
    exact .refl []
  | cons a xs ih =>
    obtain ⟨front, back, rfl, hfront⟩ := exists_front (hcover a) h
    have hrest : ∀ i, xs.filter (touches i) = (front ++ back).filter (touches i) := by
      intro i
      have hsees := h i
      rw [List.filter_append] at hsees ⊢
      cases hi : touches i a with
      | false =>
        rw [List.filter_cons_of_neg (by rw [hi]; exact Bool.false_ne_true),
          List.filter_cons_of_neg (by rw [hi]; exact Bool.false_ne_true)] at hsees
        exact hsees
      | true =>
        have hnone : front.filter (touches i) = [] :=
          List.filter_eq_nil_iff.mpr fun b hb => by
            rw [hfront b hb i hi]
            exact Bool.false_ne_true
        rw [hnone, List.filter_cons_of_pos hi, List.filter_cons_of_pos hi] at hsees
        rw [hnone]
        exact (List.cons.inj hsees).2
    exact ((ih hrest).cons a).trans (Reorder.move back hfront)

/-! ## Machines -/

/-- Independent inputs commute, up to a relation of states that every step keeps. -/
structure Commutes (touches : ι → α → Bool) (step : σ → α → Except ε σ) (R : σ → σ → Prop) :
    Prop where
  refl : ∀ s, R s s
  trans : ∀ s t u, R s t → R t u → R s u
  congr : ∀ s t a s', R s t → step s a = .ok s' → ∃ t', step t a = .ok t' ∧ R s' t'
  swap : ∀ s a b u v, Independent touches a b → step s a = .ok u → step u b = .ok v →
    ∃ u' v', step s b = .ok u' ∧ step u' a = .ok v' ∧ R v v'

variable {step : σ → α → Except ε σ} {R : σ → σ → Prop}

theorem Commutes.run_congr (h : Commutes touches step R) {s t s' : σ} {xs : List α} (hR : R s t)
    (hrun : Fallible.run step s xs = .ok s') :
    ∃ t', Fallible.run step t xs = .ok t' ∧ R s' t' := by
  induction xs generalizing s t with
  | nil =>
    cases hrun
    exact ⟨t, rfl, hR⟩
  | cons a xs ih =>
    obtain ⟨u, hu, hrest⟩ := Fallible.run_cons_ok.mp hrun
    obtain ⟨v, hv, huv⟩ := h.congr s t a u hR hu
    obtain ⟨t', ht', hs't'⟩ := ih huv hrest
    exact ⟨t', Fallible.run_cons_ok.mpr ⟨v, hv, ht'⟩, hs't'⟩

/-- **Every reorder of a run is a run.** Induction on the swaps. -/
theorem Commutes.run_reorder (h : Commutes touches step R) {xs ys : List α}
    (hreorder : Reorder touches xs ys) {s t : σ} (hrun : Fallible.run step s xs = .ok t) :
    ∃ t', Fallible.run step s ys = .ok t' ∧ R t t' := by
  induction hreorder generalizing t with
  | refl xs => exact ⟨t, hrun, h.refl t⟩
  | swap front back hindependent =>
    obtain ⟨u, hfront, hrest⟩ := Fallible.run_append_ok.mp hrun
    obtain ⟨v, ha, hrest⟩ := Fallible.run_cons_ok.mp hrest
    obtain ⟨w, hb, hback⟩ := Fallible.run_cons_ok.mp hrest
    obtain ⟨v', w', hb', ha', hw⟩ := h.swap _ _ _ _ _ hindependent ha hb
    obtain ⟨t', ht', hR⟩ := h.run_congr hw hback
    refine ⟨t', ?_, hR⟩
    rw [Fallible.run_append_of_ok _ hfront]
    exact Fallible.run_cons_ok.mpr ⟨v', hb', Fallible.run_cons_ok.mpr ⟨w', ha', ht'⟩⟩
  | trans hfirst hsecond ih ih' =>
    obtain ⟨u, hu, htu⟩ := ih hrun
    obtain ⟨t', ht', hut'⟩ := ih' hu
    exact ⟨t', ht', h.trans t u t' htu hut'⟩

end Reordering
