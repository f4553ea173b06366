import Mathlib.Data.List.Basic
import Mathlib.Tactic.Common

/-!
# Lines with a raw last field

A text format that writes one line for each record: a head, optionally a separator and a body, and
a line end. Heads contain neither the line end nor the first symbol of the separator, so a line
says by itself where its head ends and whether it has a body. The body is written raw, whatever it
contains, and that is where the format is ambiguous.

* **`Forges`** — a body that ends with a line end followed by the line of a record, so that its
  own line can be read as two;
* **`eq_of_text_eq`** — texts of records without such a body determine the records;
* **`text_collision`** — every record with such a body has a text with another reading.

The two together say that `Forges` is what has to be excluded, and no less.
-/

namespace RawLines

variable {α R : Type*}

/-- How records of the type `R` are written in the alphabet `α`. The separator is `mark` followed by
`tail`; a record is its head and its body. -/
structure Format (α R : Type*) where
  newline : α
  mark : α
  tail : List α
  head : R → List α
  body : R → Option (List α)
  mark_ne_newline : mark ≠ newline
  newline_not_mem_tail : newline ∉ tail
  ext : ∀ r r', head r = head r' → body r = body r' → r = r'

namespace Format

variable (F : Format α R)

/-- A record whose head ends where its line says so. -/
structure Clean (r : R) : Prop where
  newline_not_mem : F.newline ∉ F.head r
  mark_not_mem : F.mark ∉ F.head r

/-- What follows the head of a line, up to its line end. -/
def bodyText (r : R) : List α :=
  match F.body r with
  | some body => F.mark :: F.tail ++ body
  | none => []

/-- The line of a record. -/
def line (r : R) : List α := F.head r ++ F.bodyText r ++ [F.newline]

/-- The text of some records. -/
def text (rs : List R) : List α := rs.flatMap F.line

/-- A body that with its own line end ends with the line of one of `records`, right behind a line
end of its own. -/
def Forges (records : R → Prop) (body : List α) : Prop :=
  ∃ front r, records r ∧ body ++ [F.newline] = front ++ F.newline :: F.line r

/-- A record whose body does not forge. -/
def Plain (records : R → Prop) (r : R) : Prop :=
  records r ∧ ∀ body, F.body r = some body → ¬ F.Forges records body

variable {F}

@[simp] theorem text_nil : F.text [] = [] := rfl

@[simp] theorem text_cons (r : R) (rs : List R) : F.text (r :: rs) = F.line r ++ F.text rs := rfl

theorem line_ne_nil (r : R) : F.line r ≠ [] := List.append_ne_nil_of_right_ne_nil _ (by simp)

theorem text_ne_nil {rs : List R} (h : rs ≠ []) : F.text rs ≠ [] := by
  obtain ⟨r, rs, rfl⟩ := List.exists_cons_of_ne_nil h
  rw [text_cons]
  exact List.append_ne_nil_of_left_ne_nil (line_ne_nil r) _

/-! ## Reading the first line -/

/-- Two lists read up to their first symbol of `p`. Induction on the first of them. -/
theorem append_cons_inj_of_stop {p : α → Prop} {xs ys us vs : List α} {a b : α}
    (hxs : ∀ x ∈ xs, ¬ p x) (hys : ∀ y ∈ ys, ¬ p y) (ha : p a) (hb : p b)
    (h : xs ++ a :: us = ys ++ b :: vs) : xs = ys ∧ a = b ∧ us = vs := by
  induction xs generalizing ys with
  | nil =>
    cases ys with
    | nil => exact ⟨rfl, List.cons.inj h⟩
    | cons y ys =>
      obtain ⟨rfl, -⟩ := List.cons.inj h
      exact absurd ha (hys a (by simp))
  | cons x xs ih =>
    cases ys with
    | nil =>
      obtain ⟨rfl, -⟩ := List.cons.inj h
      exact absurd hb (hxs x (by simp))
    | cons y ys =>
      obtain ⟨rfl, htail⟩ := List.cons.inj h
      obtain ⟨rfl, hrest⟩ := ih (fun z hz => hxs z (by simp [hz]))
        (fun z hz => hys z (by simp [hz])) htail
      exact ⟨rfl, hrest⟩

theorem line_append_cases (r : R) (xs : List α) :
    (F.body r = none ∧ F.line r ++ xs = F.head r ++ F.newline :: xs) ∨
      ∃ body, F.body r = some body ∧
        F.line r ++ xs = F.head r ++ F.mark :: (F.tail ++ (body ++ F.newline :: xs)) := by
  cases hbody : F.body r with
  | none => exact Or.inl ⟨rfl, by simp [line, bodyText, hbody]⟩
  | some body => exact Or.inr ⟨body, rfl, by simp [line, bodyText, hbody]⟩

theorem Clean.stops {r : R} (h : F.Clean r) :
    ∀ x ∈ F.head r, ¬ (x = F.newline ∨ x = F.mark) := by
  rintro x hx (rfl | rfl)
  · exact h.newline_not_mem hx
  · exact h.mark_not_mem hx

/-- **The first line.** Its head is read off in one way, and so is whether it has a body; the body
is not. -/
theorem line_append_inj {r r' : R} (h : F.Clean r) (h' : F.Clean r') {xs ys : List α}
    (heq : F.line r ++ xs = F.line r' ++ ys) :
    (r = r' ∧ xs = ys) ∨
      ∃ body body', F.head r = F.head r' ∧ F.body r = some body ∧ F.body r' = some body' ∧
        body ++ F.newline :: xs = body' ++ F.newline :: ys := by
  rcases line_append_cases r xs with ⟨hbody, hline⟩ | ⟨body, hbody, hline⟩ <;>
    rcases line_append_cases r' ys with ⟨hbody', hline'⟩ | ⟨body', hbody', hline'⟩ <;>
    rw [hline, hline'] at heq
  · -- two lines without a body
    obtain ⟨hhead, -, hrest⟩ := append_cons_inj_of_stop h.stops h'.stops (Or.inl rfl)
      (Or.inl rfl) heq
    exact Or.inl ⟨F.ext r r' hhead (hbody.trans hbody'.symm), hrest⟩
  · obtain ⟨-, hstop, -⟩ := append_cons_inj_of_stop h.stops h'.stops (Or.inl rfl) (Or.inr rfl) heq
    exact absurd hstop.symm F.mark_ne_newline
  · obtain ⟨-, hstop, -⟩ := append_cons_inj_of_stop h.stops h'.stops (Or.inr rfl) (Or.inl rfl) heq
    exact absurd hstop F.mark_ne_newline
  · -- two lines with a body: the separator is read, the bodies are not
    obtain ⟨hhead, -, hrest⟩ := append_cons_inj_of_stop h.stops h'.stops (Or.inr rfl)
      (Or.inr rfl) heq
    exact Or.inr ⟨body, body', hhead, hbody, hbody', List.append_cancel_left hrest⟩

/-! ## Where a line end may lie -/

/-- A line end inside a line, before its last symbol, lies in the body. -/
theorem body_of_line_eq {r : R} (h : F.Clean r) {xs ys : List α}
    (heq : F.line r = xs ++ F.newline :: (ys ++ [F.newline])) :
    ∃ front, F.body r = some (front ++ F.newline :: ys) := by
  have hinside : F.head r ++ F.bodyText r = xs ++ F.newline :: ys := by
    rw [line, ← List.cons_append, ← List.append_assoc] at heq
    exact List.append_inj_left' heq rfl
  cases hbody : F.body r with
  | none =>
    rw [bodyText, hbody, List.append_nil] at hinside
    exact absurd (by rw [hinside]; simp) h.newline_not_mem
  | some body =>
    have hnot : F.newline ∉ F.head r ++ F.mark :: F.tail := by
      simp [h.newline_not_mem, F.mark_ne_newline.symm, F.newline_not_mem_tail]
    rw [bodyText, hbody, ← List.append_assoc] at hinside
    rcases List.append_eq_append_iff.mp hinside with ⟨front, -, hfront⟩ | ⟨back, hback, hys⟩
    · exact ⟨front, by rw [hfront]⟩
    · -- the separator would reach over the line end, unless the body begins with it
      cases back with
      | nil => exact ⟨[], by rw [show body = F.newline :: ys from hys.symm]; rfl⟩
      | cons b back =>
        obtain ⟨rfl, -⟩ := List.cons.inj hys
        exact absurd (by rw [hback]; simp) hnot

/-- A whole line without its line end forges behind any line end. -/
theorem forges_of_line_eq {records : R → Prop} {r : R} (hr : records r) {xs : List α}
    (h : F.line r = xs ++ [F.newline]) (front : List α) :
    F.Forges records (front ++ F.newline :: xs) :=
  ⟨front, r, hr, by rw [List.append_assoc, List.cons_append, h]⟩

theorem last_of_line_eq {r : R} {xs : List α} {b : α} (h : F.line r = xs ++ [b]) :
    b = F.newline := by
  have hend : F.head r ++ F.bodyText r ++ [F.newline] = xs ++ [b] := h
  exact (List.singleton_inj.mp (List.append_inj_right' hend rfl)).symm

/-- A line and what follows it, cut at a line end: the cut is the end of the line, or it lies behind
the line, or it lies inside the line. -/
theorem line_cut_cases {r : R} {xs us vs : List α} (h : F.line r ++ us = xs ++ F.newline :: vs) :
    F.line r = xs ++ [F.newline] ∨
      (∃ ys, xs = F.line r ++ ys ∧ us = ys ++ F.newline :: vs) ∨
      ∃ ys, F.line r = xs ++ F.newline :: (ys ++ [F.newline]) ∧ vs = ys ++ F.newline :: us := by
  rw [List.append_cons] at h
  rcases List.append_eq_append_iff.mp h with ⟨ys, hxs, hus⟩ | ⟨ys, hline, hvs⟩
  · rcases List.eq_nil_or_concat ys with rfl | ⟨ys, b, rfl⟩
    · rw [List.append_nil] at hxs
      exact Or.inl hxs.symm
    · rw [List.concat_eq_append, ← List.append_assoc] at hxs
      obtain ⟨hfront, hb⟩ := List.append_inj' hxs rfl
      obtain rfl := List.singleton_inj.mp hb
      exact Or.inr (Or.inl ⟨ys, hfront, by rw [hus, List.concat_eq_append, ← List.append_cons]⟩)
  · rcases List.eq_nil_or_concat ys with rfl | ⟨ys, b, rfl⟩
    · rw [List.append_nil] at hline
      exact Or.inl hline
    · rw [List.concat_eq_append, ← List.append_assoc] at hline
      obtain rfl := last_of_line_eq hline
      refine Or.inr (Or.inr ⟨ys, ?_, by rw [hvs, List.concat_eq_append, ← List.append_cons]⟩)
      rw [hline, List.append_assoc, List.append_assoc]
      rfl

/-- **A text cut at a line end.** When a text is some symbols, a line end and a text, either the
symbols end with the line of a record, so that they forge behind any line end, or the cut goes
through a body that forges. Induction on the length: a cut through a body leaves a shorter text that
is cut at a line end. -/
theorem forges_of_text_eq {records : R → Prop} (hclean : ∀ r, records r → F.Clean r)
    {rs rs' : List R} (hrs : ∀ r ∈ rs, records r) (hrs' : ∀ r ∈ rs', records r) {xs : List α}
    (heq : F.text rs = xs ++ F.newline :: F.text rs') :
    (∀ front, F.Forges records (front ++ F.newline :: xs)) ∨
      ∃ r, (r ∈ rs ∨ r ∈ rs') ∧ ∃ body, F.body r = some body ∧ F.Forges records body := by
  induction hn : (F.text rs).length using Nat.strongRecOn generalizing rs rs' xs with
  | ind n ih =>
    subst hn
    cases rs with
    | nil => exact absurd heq (by simp)
    | cons r rs =>
      have hr : records r := hrs r (by simp)
      have hrest : ∀ r ∈ rs, records r := fun r' h' => hrs r' (by simp [h'])
      rcases line_cut_cases heq with hline | ⟨ys, rfl, hshort⟩ | ⟨ys, hline, hshort⟩
      · exact Or.inl (forges_of_line_eq hr hline)
      · -- behind the first line, the rest of the text is cut
        have hpos : 0 < (F.line r).length := List.length_pos_iff.mpr (line_ne_nil r)
        have hlt : (F.text rs).length < (F.text (r :: rs)).length := by
          rw [text_cons, List.length_append]
          omega
        rcases ih _ hlt hrest hrs' hshort rfl with hleft | ⟨r', hmem, hforges⟩
        · refine Or.inl fun front => ?_
          -- the first line ends with the line end that the rest forges behind
          have hsplit : front ++ F.newline :: (F.line r ++ ys)
              = (front ++ F.newline :: (F.head r ++ F.bodyText r)) ++ F.newline :: ys := by
            rw [line]
            simp
          rw [hsplit]
          exact hleft _
        · exact Or.inr ⟨r', hmem.imp_left (List.mem_cons_of_mem _), hforges⟩
      · -- inside the first line, the cut goes through its body, and the other text is cut
        obtain ⟨front, hbody⟩ := body_of_line_eq (hclean r hr) hline
        have hlt : (F.text rs').length < (F.text (r :: rs)).length := by
          rw [heq, List.length_append, List.length_cons]
          omega
        rcases ih _ hlt hrs' hrest hshort rfl with hleft | ⟨r', hmem, hforges⟩
        · exact Or.inr ⟨r, Or.inl (by simp), _, hbody, hleft front⟩
        · exact Or.inr ⟨r', hmem.symm.imp_left (List.mem_cons_of_mem _), hforges⟩

/-! ## What the text determines -/

/-- Two bodies that go on to one and the same text, the shorter one first, are the same. -/
theorem eq_nil_of_text_eq {records : R → Prop} (hclean : ∀ r, records r → F.Clean r)
    {rs rs' : List R} (hrs : ∀ r ∈ rs, F.Plain records r) (hrs' : ∀ r ∈ rs', F.Plain records r)
    {body zs : List α} (hbody : ¬ F.Forges records (body ++ zs))
    (heq : F.newline :: F.text rs = zs ++ F.newline :: F.text rs') : zs = [] := by
  cases zs with
  | nil => rfl
  | cons z zs =>
    obtain ⟨rfl, htext⟩ := List.cons.inj heq
    rcases forges_of_text_eq hclean (fun r hr => (hrs r hr).1) (fun r hr => (hrs' r hr).1) htext
      with hleft | ⟨r, hmem, body', hbody', hforges⟩
    · exact absurd (hleft body) hbody
    · have hplain : F.Plain records r := hmem.elim (hrs r) (hrs' r)
      exact absurd hforges (hplain.2 body' hbody')

/-- **Plain texts are read in one way.** Induction on the records, a line at a time. -/
theorem eq_of_text_eq {records : R → Prop} (hclean : ∀ r, records r → F.Clean r)
    {rs rs' : List R} (hrs : ∀ r ∈ rs, F.Plain records r) (hrs' : ∀ r ∈ rs', F.Plain records r)
    (heq : F.text rs = F.text rs') : rs = rs' := by
  induction rs generalizing rs' with
  | nil =>
    by_contra hne
    exact text_ne_nil (Ne.symm hne) heq.symm
  | cons r rs ih =>
    cases rs' with
    | nil => exact absurd heq (text_ne_nil (List.cons_ne_nil r rs))
    | cons r' rs' =>
      have hr := hrs r (by simp)
      have hr' := hrs' r' (by simp)
      have htail : ∀ s ∈ rs, F.Plain records s := fun s hs => hrs s (by simp [hs])
      have htail' : ∀ s ∈ rs', F.Plain records s := fun s hs => hrs' s (by simp [hs])
      rw [text_cons, text_cons] at heq
      rcases line_append_inj (hclean r hr.1) (hclean r' hr'.1) heq
        with ⟨rfl, hrest⟩ | ⟨body, body', hhead, hbody, hbody', hrest⟩
      · rw [ih htail htail' hrest]
      · -- the shorter body ends where the longer one does, or the longer one forges
        have hsame : body = body' := by
          rcases List.append_eq_append_iff.mp hrest with ⟨zs, rfl, hzs⟩ | ⟨zs, rfl, hzs⟩
          · rw [eq_nil_of_text_eq hclean htail htail' (hr'.2 _ hbody') hzs, List.append_nil]
          · rw [eq_nil_of_text_eq hclean htail' htail (hr.2 _ hbody) hzs, List.append_nil]
        subst hsame
        obtain ⟨-, htext⟩ := List.cons.inj (List.append_cancel_left hrest)
        rw [F.ext r r' hhead (hbody.trans hbody'.symm), ih htail htail' htext]

/-- **A forging body has another reading.** Behind any line with a body `x`, the line of `r` reads
as the rest of that body and the line of `forged`. -/
theorem text_collision {r forged before merged : R} {body front x : List α}
    (hbody : F.body r = some body)
    (hforges : body ++ [F.newline] = front ++ F.newline :: F.line forged)
    (hbefore : F.body before = some x) (hhead : F.head merged = F.head before)
    (hmerged : F.body merged
      = some (x ++ F.newline :: (F.head r ++ F.mark :: F.tail ++ front))) :
    F.text [before, r] = F.text [merged, forged] := by
  have hline : F.line r = F.head r ++ F.mark :: F.tail ++ front ++ F.newline :: F.line forged := by
    rw [line, bodyText, hbody, List.append_assoc, List.append_assoc, List.append_assoc,
      List.append_assoc, hforges]
  rw [text_cons, text_cons, text_cons, text_cons, hline, line, bodyText, hbefore]
  rw [show F.line merged = F.head merged ++ F.bodyText merged ++ [F.newline] from rfl, bodyText,
    hmerged, hhead]
  simp

end Format
end RawLines
