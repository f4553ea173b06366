import MySqlProxy.Lib.Fallible

/-!
# Strings with a capacity (`std::basic_string`)

A string keeps its characters in room for `capacity()` of them, and the operations that need more
room ask an allocator for it. The standard says what the operations promise and leaves the rest to
the library: how far a string grows when it has to, how small it gets when it may, and whether
there is memory. `Library` is that choice, with the promises as its laws, and everything here holds
for every library:

* **`grow`** — the capacity after `n` characters have been asked for: unchanged when they fit,
  otherwise at least `n`, unless `n` is over `max_size()` or the allocation fails;
* **`reserve`, `pushBack`** — the operations, each of which asks once (`reserve_ok_iff`,
  `pushBack_ok_iff`), and `pushAll`, characters one after the other;
* **`pushed_of_le`** — characters that fit, or fit but for one, are asked for at most once.
-/

/-- A string with room for `capacity` characters. -/
@[ext] structure BasicString (α : Type) where
  chars : List α
  capacity : Nat
  length_le : chars.length ≤ capacity
  deriving DecidableEq, Repr

namespace BasicString

/-- What an operation of a string throws. -/
inductive Failure where
  | lengthError (what : String)
  | badAlloc
  deriving DecidableEq, Repr

/-- A string library and the memory it has, on a machine of 64 bits. Whether an allocation succeeds
is taken to depend on the capacity the string has and on the one it asks for, not on what else the
program holds. A library that shrinks a string on a smaller `reserve`, as it may before C++20, is
not among them. -/
class Library where
  /-- `max_size()`. -/
  maxSize : Nat
  /-- What a `length_error` says. -/
  lengthErrorWhat : String
  /-- The capacity of a default-constructed string. -/
  initialCapacity : Nat
  /-- The new capacity of a string that is asked for `n` characters it has no room for. -/
  allocate (capacity n : Nat) : Option Nat
  /-- The capacity after `shrink_to_fit`, a request that is not binding. -/
  shrink (size capacity : Nat) : Nat
  maxSize_le : maxSize ≤ 0x7FFFFFFFFFFFFFFF
  initialCapacity_le : initialCapacity ≤ maxSize
  le_allocate : ∀ {capacity n capacity'}, n ≤ maxSize → allocate capacity n = some capacity' →
    n ≤ capacity'
  allocate_le : ∀ {capacity n capacity'}, n ≤ maxSize → allocate capacity n = some capacity' →
    capacity' ≤ maxSize
  le_shrink : ∀ {size capacity}, size ≤ capacity → size ≤ shrink size capacity
  shrink_le : ∀ {size capacity}, shrink size capacity ≤ capacity

/-- The capacity libstdc++ creates: twice the one there is, up to `max_size()`, or what is asked for
when that is more. -/
def createdCapacity (capacity n : Nat) : Nat :=
  if n < 2 * capacity then min (2 * capacity) 0x7FFFFFFFFFFFFFFE else n

theorem le_createdCapacity {capacity n : Nat} (hn : n ≤ 0x7FFFFFFFFFFFFFFE) :
    n ≤ createdCapacity capacity n := by
  unfold createdCapacity
  split <;> omega

theorem createdCapacity_le {capacity n : Nat} (hn : n ≤ 0x7FFFFFFFFFFFFFFE) :
    createdCapacity capacity n ≤ 0x7FFFFFFFFFFFFFFE := by
  unfold createdCapacity
  split <;> omega

/-- libstdc++ with memory for `memory` characters: 15 of them need no allocation. -/
@[reducible] def libstdcxx (memory : Nat) : Library where
  maxSize := 0x7FFFFFFFFFFFFFFE
  lengthErrorWhat := "basic_string::_M_create"
  initialCapacity := 15
  allocate capacity n :=
    if createdCapacity capacity n ≤ memory then some (createdCapacity capacity n) else none
  shrink size capacity := min capacity (max size 15)
  maxSize_le := by decide
  initialCapacity_le := by decide
  le_allocate hn h := by
    rw [← Option.some.inj (Option.ite_none_right_eq_some.mp h).2]
    exact le_createdCapacity hn
  allocate_le hn h := by
    rw [← Option.some.inj (Option.ite_none_right_eq_some.mp h).2]
    exact createdCapacity_le hn
  le_shrink hle := by omega
  shrink_le := by omega

namespace Libstdcxx

/-- The library of the examples: libstdc++, and memory for every string it allows. -/
scoped instance : Library := libstdcxx 0x7FFFFFFFFFFFFFFE

end Libstdcxx

variable {α : Type} [Library]

/-! ## Asking for room -/

/-- The capacity after `n` characters have been asked for. -/
def grow (capacity n : Nat) : Except Failure Nat :=
  if n ≤ capacity then .ok capacity
  else if Library.maxSize < n then .error (.lengthError Library.lengthErrorWhat)
  else
    match Library.allocate capacity n with
    | some capacity' => .ok capacity'
    | none => .error .badAlloc

theorem grow_of_le {capacity n : Nat} (h : n ≤ capacity) : grow capacity n = .ok capacity :=
  if_pos h

/-- The cases of a request that is granted. -/
theorem grow_ok {capacity n capacity' : Nat} (h : grow capacity n = .ok capacity') :
    (n ≤ capacity ∧ capacity' = capacity) ∨
      (capacity < n ∧ n ≤ Library.maxSize ∧ Library.allocate capacity n = some capacity') := by
  unfold grow at h
  split at h
  · exact Or.inl ⟨by assumption, (Except.ok.inj h).symm⟩
  · split at h
    · exact absurd h (by simp)
    · split at h
      · rename_i hfits hmax c halloc
        refine Or.inr ⟨by omega, by omega, ?_⟩
        rw [halloc, Except.ok.inj h]
      · exact absurd h (by simp)

/-- A request within `max_size()` is granted when the allocation succeeds. -/
theorem exists_grow {capacity n capacity' : Nat} (hn : n ≤ Library.maxSize)
    (halloc : Library.allocate capacity n = some capacity') :
    ∃ granted, grow capacity n = .ok granted := by
  by_cases hfits : n ≤ capacity
  · exact ⟨capacity, grow_of_le hfits⟩
  · refine ⟨capacity', ?_⟩
    rw [grow, if_neg hfits, if_neg (Nat.not_lt.mpr hn), halloc]

theorem le_of_grow {capacity n capacity' : Nat} (h : grow capacity n = .ok capacity') :
    n ≤ capacity' := by
  rcases grow_ok h with ⟨hle, rfl⟩ | ⟨-, hn, halloc⟩
  · exact hle
  · exact Library.le_allocate hn halloc

/-- Asking for room never loses room. -/
theorem capacity_le_of_grow {capacity n capacity' : Nat} (h : grow capacity n = .ok capacity') :
    capacity ≤ capacity' := by
  rcases grow_ok h with ⟨-, rfl⟩ | ⟨hlt, hn, halloc⟩
  · exact Nat.le_refl _
  · exact Nat.le_trans (Nat.le_of_lt hlt) (Library.le_allocate hn halloc)

theorem grow_le_maxSize {capacity n capacity' : Nat} (hcapacity : capacity ≤ Library.maxSize)
    (h : grow capacity n = .ok capacity') : capacity' ≤ Library.maxSize := by
  rcases grow_ok h with ⟨-, rfl⟩ | ⟨-, hn, halloc⟩
  · exact hcapacity
  · exact Library.allocate_le hn halloc

/-! ## The operations -/

/-- The same characters, with room for `n`. -/
def room (n : Nat) (string : BasicString α) :
    Except Failure { string' : BasicString α // string'.chars = string.chars ∧
      n ≤ string'.capacity } :=
  match h : grow string.capacity n with
  | .ok capacity' =>
    .ok ⟨⟨string.chars, capacity', Nat.le_trans string.length_le (capacity_le_of_grow h)⟩, rfl,
      le_of_grow h⟩
  | .error failure => .error failure

/-- `reserve(n)`. -/
def reserve (n : Nat) (string : BasicString α) : Except Failure (BasicString α) :=
  (string.room n).map Subtype.val

/-- `push_back(c)`. -/
def pushBack (c : α) (string : BasicString α) : Except Failure (BasicString α) :=
  (string.room (string.chars.length + 1)).map fun roomy =>
    ⟨roomy.1.chars ++ [c], roomy.1.capacity, by
      rw [roomy.2.1, List.length_append, List.length_singleton]
      exact roomy.2.2⟩

/-- `clear()`: the capacity stays. -/
def clear (string : BasicString α) : BasicString α := ⟨[], string.capacity, Nat.zero_le _⟩

/-- `shrink_to_fit()`. -/
def shrinkToFit (string : BasicString α) : BasicString α :=
  ⟨string.chars, Library.shrink string.chars.length string.capacity,
    Library.le_shrink string.length_le⟩

/-- A default-constructed string. -/
def empty : BasicString α := ⟨[], Library.initialCapacity, Nat.zero_le _⟩

theorem room_ok_iff {n : Nat} {string : BasicString α}
    {roomy : { string' : BasicString α // string'.chars = string.chars ∧ n ≤ string'.capacity }} :
    string.room n = .ok roomy ↔ grow string.capacity n = .ok roomy.1.capacity := by
  unfold room
  split
  · rename_i capacity' h
    constructor
    · intro heq
      rw [← Except.ok.inj heq]
      exact h
    · intro hgrow
      have hcapacity : capacity' = roomy.1.capacity := Except.ok.inj (h.symm.trans hgrow)
      exact congrArg Except.ok (Subtype.ext (BasicString.ext roomy.2.1.symm hcapacity))
  · rename_i failure h
    constructor
    · exact fun heq => absurd heq (by simp)
    · exact fun hgrow => absurd (h.symm.trans hgrow) (by simp)

theorem room_error_iff {n : Nat} {string : BasicString α} {failure : Failure} :
    string.room n = .error failure ↔ grow string.capacity n = .error failure := by
  unfold room
  split
  · rename_i capacity' h
    constructor
    · exact fun heq => absurd heq (by simp)
    · exact fun hgrow => absurd (h.symm.trans hgrow) (by simp)
  · rename_i failure' h
    constructor
    · intro heq
      rw [← Except.error.inj heq]
      exact h
    · exact fun hgrow => congrArg Except.error (Except.error.inj (h.symm.trans hgrow))

theorem reserve_ok_iff {n : Nat} {string string' : BasicString α} :
    string.reserve n = .ok string' ↔
      grow string.capacity n = .ok string'.capacity ∧ string'.chars = string.chars := by
  rw [reserve, Fallible.map_ok_iff]
  constructor
  · rintro ⟨roomy, hroom, rfl⟩
    exact ⟨room_ok_iff.mp hroom, roomy.2.1⟩
  · rintro ⟨hgrow, hchars⟩
    exact ⟨⟨string', hchars, le_of_grow hgrow⟩, room_ok_iff.mpr hgrow, rfl⟩

theorem reserve_error_iff {n : Nat} {string : BasicString α} {failure : Failure} :
    string.reserve n = .error failure ↔ grow string.capacity n = .error failure := by
  rw [← room_error_iff, reserve]
  cases string.room n <;> simp [Except.map]

theorem pushBack_ok_iff {c : α} {string string' : BasicString α} :
    string.pushBack c = .ok string' ↔
      grow string.capacity (string.chars.length + 1) = .ok string'.capacity ∧
        string'.chars = string.chars ++ [c] := by
  rw [pushBack, Fallible.map_ok_iff]
  constructor
  · rintro ⟨roomy, hroom, rfl⟩
    exact ⟨room_ok_iff.mp hroom, congrArg (· ++ [c]) roomy.2.1⟩
  · rintro ⟨hgrow, hchars⟩
    have hlength : string.chars.length ≤ string'.capacity :=
      Nat.le_of_succ_le (le_of_grow hgrow)
    refine ⟨⟨⟨string.chars, string'.capacity, hlength⟩, rfl, le_of_grow hgrow⟩,
      room_ok_iff.mpr hgrow, ?_⟩
    exact BasicString.ext hchars.symm rfl

theorem pushBack_error_iff {c : α} {string : BasicString α} {failure : Failure} :
    string.pushBack c = .error failure ↔
      grow string.capacity (string.chars.length + 1) = .error failure := by
  rw [← room_error_iff, pushBack]
  cases string.room (string.chars.length + 1) <;> simp [Except.map]

omit [Library] in
@[simp] theorem chars_clear (string : BasicString α) : string.clear.chars = [] := rfl

@[simp] theorem chars_shrinkToFit (string : BasicString α) :
    string.shrinkToFit.chars = string.chars := rfl

@[simp] theorem chars_empty : (empty : BasicString α).chars = [] := rfl

/-! ## Pushing characters one after the other -/

/-- Push characters one after the other. -/
def pushAll (chars : List α) (string : BasicString α) : Except Failure (BasicString α) :=
  Fallible.run (fun string c => string.pushBack c) string chars

/-- The capacity after `n` characters have been pushed behind `size` others. -/
def pushed (size capacity : Nat) : Nat → Except Failure Nat
  | 0 => .ok capacity
  | n + 1 => do
    let capacity ← grow capacity (size + 1)
    pushed (size + 1) capacity n

/-- What is pushed stands behind what was there, and the capacity is that of `pushed`. Induction on
the characters. -/
theorem pushAll_ok_iff {chars : List α} {string string' : BasicString α} :
    string.pushAll chars = .ok string' ↔
      pushed string.chars.length string.capacity chars.length = .ok string'.capacity ∧
        string'.chars = string.chars ++ chars := by
  induction chars generalizing string with
  | nil =>
    rw [pushAll, Fallible.run_nil, List.length_nil, pushed, List.append_nil, Except.ok.injEq,
      Except.ok.injEq]
    constructor
    · rintro rfl
      exact ⟨rfl, rfl⟩
    · exact fun h => BasicString.ext h.2.symm h.1
  | cons c chars ih =>
    rw [pushAll, Fallible.run_cons_ok, List.length_cons, pushed]
    constructor
    · rintro ⟨next, hnext, hrest⟩
      obtain ⟨hgrow, hchars⟩ := pushBack_ok_iff.mp hnext
      obtain ⟨hpushed, hall⟩ := ih.mp hrest
      rw [hchars, List.length_append, List.length_singleton] at hpushed
      rw [hgrow]
      exact ⟨hpushed, by rw [hall, hchars, List.append_assoc, List.singleton_append]⟩
    · rintro ⟨hpushed, hall⟩
      cases hgrow : grow string.capacity (string.chars.length + 1) with
      | error failure =>
        rw [hgrow] at hpushed
        exact absurd hpushed (by simp [bind, Except.bind])
      | ok capacity =>
        rw [hgrow] at hpushed
        let next : BasicString α := ⟨string.chars ++ [c], capacity, by
          rw [List.length_append, List.length_singleton]
          exact le_of_grow hgrow⟩
        refine ⟨next, pushBack_ok_iff.mpr ⟨hgrow, rfl⟩, ih.mpr ⟨?_, ?_⟩⟩
        · rw [show next.chars.length = string.chars.length + 1 from
            List.length_append.trans rfl]
          exact hpushed
        · rw [hall, List.append_assoc, List.singleton_append]

theorem le_of_pushed {size capacity n capacity' : Nat} (hsize : size ≤ capacity)
    (h : pushed size capacity n = .ok capacity') : size + n ≤ capacity' := by
  induction n generalizing size capacity with
  | zero =>
    rw [← Except.ok.inj h]
    exact hsize
  | succ n ih =>
    obtain ⟨next, hnext, hrest⟩ := Fallible.bind_ok_iff.mp h
    have hle := ih (le_of_grow hnext) hrest
    omega

theorem pushed_add (size capacity n k : Nat) :
    pushed size capacity (n + k)
      = pushed size capacity n >>= fun capacity => pushed (size + n) capacity k := by
  induction n generalizing size capacity with
  | zero =>
    rw [Nat.zero_add]
    rfl
  | succ n ih =>
    rw [show n + 1 + k = n + k + 1 from by omega, pushed, pushed]
    cases grow capacity (size + 1) with
    | error failure => rfl
    | ok room =>
      have hrest := ih (size + 1) room
      rw [show size + 1 + n = size + (n + 1) from by omega] at hrest
      exact hrest

theorem pushed_of_fits {size capacity n : Nat} (h : size + n ≤ capacity) :
    pushed size capacity n = .ok capacity := by
  induction n generalizing size with
  | zero => rfl
  | succ n ih =>
    rw [pushed, grow_of_le (by omega)]
    exact ih (by omega)

/-- When all characters but the last fit, only the last one asks for room. -/
theorem pushed_of_le {size capacity n : Nat} (hpos : 0 < n) (h : size + n ≤ capacity + 1) :
    pushed size capacity n = grow capacity (size + n) := by
  induction n generalizing size with
  | zero => exact absurd hpos (Nat.lt_irrefl 0)
  | succ n ih =>
    by_cases hn : n = 0
    · subst hn
      rw [pushed]
      cases grow capacity (size + 1) <;> rfl
    · rw [pushed, grow_of_le (by omega : size + 1 ≤ capacity)]
      rw [show size + (n + 1) = size + 1 + n from by omega]
      exact ih (by omega) (by omega)

end BasicString
