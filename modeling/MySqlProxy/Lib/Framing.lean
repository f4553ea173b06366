import Mathlib.Data.List.Basic
import Mathlib.Data.List.Induction
import Mathlib.Data.List.Flatten
import Mathlib.Tactic.Common

/-!
# Length-prefixed framing with continuation frames

A framing format of a byte stream: a *frame* is a three-byte little-endian length, one further
header byte and that many payload bytes; a *message* is a run of frames of the greatest length
`fullLength` closed by one shorter frame, which may be empty. The alphabet is any type whose
symbols carry a byte (`Octet`), so that the same grammar reads a raw byte stream and one whose
bytes are stamped with extra data.

* **`Frame`, `Message`** — the two levels of the grammar as structures that carry their own
  well-formedness, with `encode` and `payload`;
* **`messages_eq_of_encode_eq`** — the code is uniquely decodable;
* **`exists_isSplit`, `IsSplit.unique`** — every stream is in one way a list of messages, some full
  frames of an unfinished message and an unfinished frame (`IsSplit`);
* **`Message.ofPayload`** — the message a payload of any length is cut into.
-/

namespace Framing

/-- Symbols that carry a byte. -/
class Octet (α : Type*) where
  byte : α → UInt8

instance : Octet UInt8 := ⟨fun b => b⟩

instance {α β : Type*} [Octet α] : Octet (α × β) := ⟨fun x => Octet.byte x.1⟩

@[simp] theorem byte_self (b : UInt8) : Octet.byte b = b := rfl

@[simp] theorem byte_pair {α β : Type*} [Octet α] (x : α × β) : Octet.byte x = Octet.byte x.1 := rfl

/-! ## The length field -/

/-- The greatest length the field can hold; a frame of this length is continued. -/
def fullLength : Nat := 0xffffff

/-- The little-endian value of three bytes. -/
def le24 (b0 b1 b2 : UInt8) : Nat :=
  b0.toNat + 256 * b1.toNat + 65536 * b2.toNat

theorem le24_le_fullLength (b0 b1 b2 : UInt8) : le24 b0 b1 b2 ≤ fullLength := by
  have h0 := b0.toNat_lt
  have h1 := b1.toNat_lt
  have h2 := b2.toNat_lt
  simp only [le24, fullLength]
  omega

theorem fullLength_pos : 0 < fullLength := by decide

/-- The payload lengths of the frames a payload of `n` symbols is cut into: full ones, and a shorter
one that closes it. -/
def frameLengths (n : Nat) : List Nat :=
  List.replicate (n / fullLength) fullLength ++ [n % fullLength]

/-- Every length up to `fullLength` has its three bytes. -/
theorem le24_ofNat {n : Nat} (h : n ≤ fullLength) :
    le24 (UInt8.ofNat (n % 256)) (UInt8.ofNat (n / 256 % 256)) (UInt8.ofNat (n / 65536)) = n := by
  simp only [fullLength] at h
  simp only [le24, UInt8.toNat_ofNat']
  omega

/-- The little-endian value of any number of bytes. -/
def littleEndian (bytes : List UInt8) : Nat := bytes.foldr (fun b value => b.toNat + 256 * value) 0

theorem littleEndian_three (b0 b1 b2 : UInt8) : littleEndian [b0, b1, b2] = le24 b0 b1 b2 := by
  simp only [littleEndian, List.foldr_cons, List.foldr_nil, le24]
  omega

/-! ## Frames -/

/-- A frame over the alphabet `α`: four header symbols and the payload they announce. -/
@[ext] structure Frame (α : Type*) [Octet α] where
  len0 : α
  len1 : α
  len2 : α
  seq : α
  payload : List α
  length_eq : payload.length = le24 (Octet.byte len0) (Octet.byte len1) (Octet.byte len2)

variable {α : Type*} [Octet α]

namespace Frame

/-- The symbols of a frame on the wire. -/
def encode (f : Frame α) : List α := f.len0 :: f.len1 :: f.len2 :: f.seq :: f.payload

/-- A frame of the greatest length, which the next frame continues. -/
def IsFull (f : Frame α) : Prop := f.payload.length = fullLength

instance (f : Frame α) : Decidable f.IsFull := inferInstanceAs (Decidable (_ = _))

theorem length_le (f : Frame α) : f.payload.length ≤ fullLength := by
  rw [f.length_eq]
  exact le24_le_fullLength _ _ _

theorem not_isFull_of_lt {f : Frame α} (h : f.payload.length < fullLength) : ¬ f.IsFull :=
  Nat.ne_of_lt h

theorem encode_ne_nil (f : Frame α) : f.encode ≠ [] := by simp [encode]

/-- A frame is read off the front of a stream in one way. -/
theorem eq_of_encode_append_eq {f g : Frame α} {xs ys : List α}
    (h : f.encode ++ xs = g.encode ++ ys) : f = g ∧ xs = ys := by
  simp only [encode, List.cons_append, List.cons.injEq] at h
  obtain ⟨h0, h1, h2, h3, hrest⟩ := h
  have hlen : f.payload.length = g.payload.length := by
    rw [f.length_eq, g.length_eq, h0, h1, h2]
  obtain ⟨hpayload, hxs⟩ := List.append_inj hrest hlen
  exact ⟨Frame.ext h0 h1 h2 h3 hpayload, hxs⟩

/-- The frame of a payload that fits one frame, over plain bytes. -/
def ofPayload (seq : UInt8) (payload : List UInt8) (h : payload.length ≤ fullLength) :
    Frame UInt8 where
  len0 := UInt8.ofNat (payload.length % 256)
  len1 := UInt8.ofNat (payload.length / 256 % 256)
  len2 := UInt8.ofNat (payload.length / 65536)
  seq := seq
  payload := payload
  length_eq := (le24_ofNat h).symm

/-- The first `fullLength` bytes of a payload that has them make a full frame. -/
theorem isFull_ofPayload_take (seq : UInt8) {payload : List UInt8}
    (h : fullLength ≤ payload.length) :
    (ofPayload seq (payload.take fullLength) (List.length_take_le _ _)).IsFull :=
  List.length_take_of_le h

end Frame

/-! ## Messages -/

/-- A message: full frames closed by one shorter frame. -/
@[ext] structure Message (α : Type*) [Octet α] where
  full : List (Frame α)
  last : Frame α
  full_isFull : ∀ f ∈ full, f.IsFull
  last_not_isFull : ¬ last.IsFull

namespace Message

def frames (m : Message α) : List (Frame α) := m.full ++ [m.last]

/-- The symbols of a message on the wire. -/
def encode (m : Message α) : List α := m.frames.flatMap Frame.encode

/-- The payload of a message: the payloads of its frames in order. -/
def payload (m : Message α) : List α := m.frames.flatMap Frame.payload

/-- The frame a message begins with. -/
def first (m : Message α) : Frame α := m.full.headD m.last

theorem encode_eq (m : Message α) :
    m.encode = m.full.flatMap Frame.encode ++ m.last.encode := by
  simp [encode, frames]

theorem payload_eq (m : Message α) :
    m.payload = m.full.flatMap Frame.payload ++ m.last.payload := by
  simp [payload, frames]

theorem encode_ne_nil (m : Message α) : m.encode ≠ [] := by
  rw [encode_eq]
  exact List.append_ne_nil_of_right_ne_nil _ m.last.encode_ne_nil

/-- A message that begins with a full frame has a payload. -/
theorem payload_ne_nil_of_full {m : Message α} (h : m.full ≠ []) : m.payload ≠ [] := by
  obtain ⟨f, fs, hfull⟩ := List.exists_cons_of_ne_nil h
  have hlen : f.payload.length = fullLength := m.full_isFull f (by simp [hfull])
  have hne : f.payload ≠ [] := by
    intro hnil
    rw [hnil, List.length_nil] at hlen
    exact absurd hlen (Nat.ne_of_lt fullLength_pos)
  rw [payload_eq, hfull, List.flatMap_cons, List.append_assoc]
  exact List.append_ne_nil_of_left_ne_nil hne _

/-- A message is empty exactly when it is one empty frame. -/
theorem payload_eq_nil_iff {m : Message α} :
    m.payload = [] ↔ m.full = [] ∧ m.last.payload = [] := by
  constructor
  · intro h
    have hfull : m.full = [] := by
      by_contra hne
      exact payload_ne_nil_of_full hne h
    rw [payload_eq, hfull] at h
    exact ⟨hfull, by simpa using h⟩
  · rintro ⟨hfull, hlast⟩
    rw [payload_eq, hfull, hlast]
    rfl

/-- Full frames closed by one that is not full are read off the front of a stream in one way.
Induction on the full frames of the first list. -/
private theorem frames_eq_of_encode_append_eq {fs gs : List (Frame α)} {f g : Frame α}
    {xs ys : List α} (hfs : ∀ x ∈ fs, x.IsFull) (hgs : ∀ x ∈ gs, x.IsFull) (hf : ¬ f.IsFull)
    (hg : ¬ g.IsFull)
    (h : fs.flatMap Frame.encode ++ (f.encode ++ xs)
      = gs.flatMap Frame.encode ++ (g.encode ++ ys)) : fs = gs ∧ f = g ∧ xs = ys := by
  induction fs generalizing gs with
  | nil =>
    cases gs with
    | nil => exact ⟨rfl, Frame.eq_of_encode_append_eq (by simpa using h)⟩
    | cons g' gs =>
      -- the closing frame of the first list would be a full frame of the second
      rw [List.flatMap_nil, List.nil_append, List.flatMap_cons, List.append_assoc] at h
      obtain ⟨rfl, -⟩ := Frame.eq_of_encode_append_eq h
      exact absurd (hgs f (by simp)) hf
  | cons f' fs ih =>
    cases gs with
    | nil =>
      rw [List.flatMap_nil, List.nil_append, List.flatMap_cons, List.append_assoc] at h
      obtain ⟨rfl, -⟩ := Frame.eq_of_encode_append_eq h
      exact absurd (hfs f' (by simp)) hg
    | cons g' gs =>
      rw [List.flatMap_cons, List.flatMap_cons, List.append_assoc, List.append_assoc] at h
      obtain ⟨rfl, hrest⟩ := Frame.eq_of_encode_append_eq h
      obtain ⟨rfl, hlast⟩ := ih (fun x hx => hfs x (by simp [hx]))
        (fun x hx => hgs x (by simp [hx])) hrest
      exact ⟨rfl, hlast⟩

/-- A message is read off the front of a stream in one way. -/
theorem eq_of_encode_append_eq {m n : Message α} {xs ys : List α}
    (h : m.encode ++ xs = n.encode ++ ys) : m = n ∧ xs = ys := by
  rw [encode_eq, encode_eq, List.append_assoc, List.append_assoc] at h
  obtain ⟨hfull, hlast, hrest⟩ := frames_eq_of_encode_append_eq m.full_isFull n.full_isFull
    m.last_not_isFull n.last_not_isFull h
  exact ⟨Message.ext hfull hlast, hrest⟩

/-- **Unique decodability.** A stream is the encoding of at most one list of messages. Induction
on the first list. -/
theorem messages_eq_of_encode_eq {ms ns : List (Message α)}
    (h : ms.flatMap encode = ns.flatMap encode) : ms = ns := by
  induction ms generalizing ns with
  | nil =>
    cases ns with
    | nil => rfl
    | cons n ns => exact absurd h.symm (by simp [encode_ne_nil])
  | cons m ms ih =>
    cases ns with
    | nil => exact absurd h (by simp [encode_ne_nil])
    | cons n ns =>
      obtain ⟨rfl, hrest⟩ := eq_of_encode_append_eq (by simpa using h)
      rw [ih hrest]

/-- Messages at the front of a list of messages are its first ones. Induction on them. -/
theorem messages_of_append_eq {ms ns : List (Message α)} {xs : List α}
    (h : ms.flatMap encode ++ xs = ns.flatMap encode) :
    ∃ rest, ns = ms ++ rest ∧ xs = rest.flatMap encode := by
  induction ms generalizing ns with
  | nil => exact ⟨ns, rfl, h⟩
  | cons m ms ih =>
    cases ns with
    | nil => exact absurd h (by simp [encode_ne_nil])
    | cons n ns =>
      rw [List.flatMap_cons, List.flatMap_cons, List.append_assoc] at h
      obtain ⟨rfl, htail⟩ := eq_of_encode_append_eq h
      obtain ⟨rest, rfl, hxs⟩ := ih htail
      exact ⟨rest, rfl, hxs⟩

theorem exists_append_first (m : Message α) :
    ∃ xs ys, m.encode = m.first.encode ++ xs ∧ m.payload = m.first.payload ++ ys := by
  rw [encode_eq, payload_eq, first]
  cases m.full with
  | nil => exact ⟨[], [], by simp, by simp⟩
  | cons f fs => exact ⟨_, _, List.append_assoc .., List.append_assoc ..⟩

theorem frames_eq_cons (m : Message α) : m.frames = m.first :: m.frames.tail := by
  cases hfull : m.full with
  | nil => simp [frames, first, hfull]
  | cons f fs => simp [frames, first, hfull]

/-- A message is one frame, or a full frame followed by full frames and the last one. -/
theorem frames_cases (m : Message α) :
    (m.first = m.last ∧ m.frames.tail = [] ∧ m.payload = m.first.payload) ∨
      ∃ fs : List (Frame α), m.first.IsFull ∧ (∀ f ∈ fs, f.IsFull) ∧
        m.frames.tail = fs ++ [m.last] ∧
        m.payload = m.first.payload ++ (fs.flatMap Frame.payload ++ m.last.payload) := by
  cases hfull : m.full with
  | nil =>
    refine Or.inl ⟨?_, ?_, ?_⟩
    · simp [first, hfull]
    · simp [frames, hfull]
    · simp [payload_eq, first, hfull]
  | cons f fs =>
    refine Or.inr ⟨fs, ?_, fun g hg => m.full_isFull g (by simp [hfull, hg]), ?_, ?_⟩
    · rw [first, hfull]
      exact m.full_isFull f (by simp [hfull])
    · simp [frames, hfull]
    · simp [payload_eq, first, hfull]

/-- A message and its first frame begin with the same payload symbol. -/
theorem head?_payload (m : Message α) : m.payload.head? = m.first.payload.head? := by
  rcases m.frames_cases with ⟨-, -, hpayload⟩ | ⟨fs, hfull, -, -, hpayload⟩
  · rw [hpayload]
  · have hne : m.first.payload ≠ [] := by
      intro hnil
      exact absurd (hfull.symm.trans (by rw [hnil]; rfl)) (Nat.ne_of_gt fullLength_pos)
    rw [hpayload, List.head?_append_of_ne_nil _ hne]

/-- The payload lengths of the frames depend on the length of the payload only. -/
theorem lengths_frames (m : Message α) :
    m.frames.map (fun f => f.payload.length) = frameLengths m.payload.length := by
  have hlast : m.last.payload.length < fullLength :=
    Nat.lt_of_le_of_ne m.last.length_le m.last_not_isFull
  have hfull : m.full.map (fun f => f.payload.length)
      = List.replicate m.full.length fullLength :=
    List.map_eq_replicate_iff.mpr m.full_isFull
  have hlength : m.payload.length
      = m.last.payload.length + fullLength * m.full.length := by
    rw [payload_eq, List.length_append, List.length_flatMap, hfull,
      List.sum_replicate_nat, Nat.mul_comm, Nat.add_comm]
  rw [frames, List.map_append, hfull, hlength, frameLengths,
    Nat.add_mul_div_left _ _ fullLength_pos, Nat.add_mul_mod_self_left, Nat.div_eq_of_lt hlast,
    Nat.mod_eq_of_lt hlast, Nat.zero_add]
  rfl

/-- Lists of messages with one encoding end with the same message. -/
theorem last_eq_of_encode_eq {ms ns : List (Message α)} {m n : Message α}
    (h : (ms ++ [m]).flatMap encode = (ns ++ [n]).flatMap encode) : m = n := by
  have hlists := List.append_inj_right' (messages_eq_of_encode_eq h) rfl
  exact (List.cons.inj hlists).1

/-- No proper prefix of a message is a list of messages. -/
theorem eq_nil_of_messages_append_eq {ms : List (Message α)} {m n : Message α} {xs : List α}
    (h : (ms ++ [m]).flatMap encode ++ xs = n.encode) : xs = [] := by
  cases ms with
  | nil =>
    have h' : m.encode ++ xs = n.encode ++ [] := by simpa using h
    exact (eq_of_encode_append_eq h').2
  | cons m' ms =>
    have h' : m'.encode ++ ((ms ++ [m]).flatMap encode ++ xs) = n.encode ++ [] := by
      simpa using h
    -- the first message is the whole one already, and nothing is left for the last
    have hrest := (eq_of_encode_append_eq h').2
    rw [List.flatMap_append, List.flatMap_singleton] at hrest
    exact absurd (List.append_eq_nil_iff.mp (List.append_eq_nil_iff.mp hrest).1).2 m.encode_ne_nil

end Message

/-! ## Cutting a payload into a message

A payload of any length is cut into pieces of `fullLength` bytes and a shorter rest, the rest
being empty when the length is a multiple of `fullLength`. The sequence byte of the `i`-th frame
is `seq i`. -/

namespace Message

/-- The message of one frame. -/
def single (f : Frame α) (h : ¬ f.IsFull) : Message α where
  full := []
  last := f
  full_isFull := by simp
  last_not_isFull := h

/-- Put one more full frame in front of a message. -/
def cons (f : Frame α) (h : f.IsFull) (m : Message α) : Message α where
  full := f :: m.full
  last := m.last
  full_isFull := by
    intro g hg
    rcases List.mem_cons.mp hg with rfl | hg
    · exact h
    · exact m.full_isFull g hg
  last_not_isFull := m.last_not_isFull

theorem encode_single (f : Frame α) (h : ¬ f.IsFull) : (single f h).encode = f.encode := by
  simp [encode_eq, single]

theorem payload_single (f : Frame α) (h : ¬ f.IsFull) : (single f h).payload = f.payload := by
  simp [payload_eq, single]

theorem payload_cons (f : Frame α) (h : f.IsFull) (m : Message α) :
    (m.cons f h).payload = f.payload ++ m.payload := by
  simp [payload_eq, cons]

/-- The message a payload is cut into. -/
def ofPayload (seq : Nat → UInt8) (payload : List UInt8) : Message UInt8 :=
  if h : payload.length < fullLength then
    single (Frame.ofPayload (seq 0) payload (Nat.le_of_lt h)) (Frame.not_isFull_of_lt h)
  else
    (ofPayload (fun i => seq (i + 1)) (payload.drop fullLength)).cons
      (Frame.ofPayload (seq 0) (payload.take fullLength) (List.length_take_le _ _))
      (Frame.isFull_ofPayload_take (seq 0) (Nat.le_of_not_lt h))
  termination_by payload.length
  decreasing_by
    have hpos := fullLength_pos
    simp only [List.length_drop]
    omega

/-- A payload that fits one frame is one frame on the wire. -/
theorem encode_ofPayload_of_lt (seq : Nat → UInt8) {payload : List UInt8}
    (h : payload.length < fullLength) :
    (ofPayload seq payload).encode
      = (Frame.ofPayload (seq 0) payload (Nat.le_of_lt h)).encode := by
  rw [ofPayload, dif_pos h, encode_single]

/-- Cutting a payload loses nothing. Induction on the recursion of `ofPayload`. -/
theorem payload_ofPayload (seq : Nat → UInt8) (payload : List UInt8) :
    (ofPayload seq payload).payload = payload := by
  induction seq, payload using ofPayload.induct with
  | case1 seq payload h =>
    rw [ofPayload, dif_pos h, payload_single]
    rfl
  | case2 seq payload h ih =>
    rw [ofPayload, dif_neg h, payload_cons, ih]
    exact List.take_append_drop fullLength payload

theorem seq_first_ofPayload (seq : Nat → UInt8) (payload : List UInt8) :
    (ofPayload seq payload).first.seq = seq 0 := by
  rw [ofPayload]
  split <;> rfl

/-- The closing frame holds what the full frames leave over. -/
theorem length_last_ofPayload (seq : Nat → UInt8) (payload : List UInt8) :
    (ofPayload seq payload).last.payload.length = payload.length % fullLength := by
  induction seq, payload using ofPayload.induct with
  | case1 seq payload h =>
    rw [ofPayload, dif_pos h, Nat.mod_eq_of_lt h]
    rfl
  | case2 seq payload h ih =>
    rw [ofPayload, dif_neg h, Nat.mod_eq_sub_mod (Nat.le_of_not_lt h), ← List.length_drop, ← ih]
    rfl

end Message

/-! ## Changing the alphabet

A map between alphabets that keeps the byte of every symbol keeps frames and messages. -/

section Map

variable {β : Type*} [Octet β]

/-- Map the symbols of a frame. -/
def Frame.map (φ : α → β) (h : ∀ a, Octet.byte (φ a) = Octet.byte a) (f : Frame α) : Frame β where
  len0 := φ f.len0
  len1 := φ f.len1
  len2 := φ f.len2
  seq := φ f.seq
  payload := f.payload.map φ
  length_eq := by rw [List.length_map, f.length_eq, h, h, h]

variable {φ : α → β} {h : ∀ a, Octet.byte (φ a) = Octet.byte a}

@[simp] theorem Frame.encode_map (f : Frame α) : (f.map φ h).encode = f.encode.map φ := rfl

theorem Frame.isFull_map (f : Frame α) : (f.map φ h).IsFull ↔ f.IsFull := by
  simp [Frame.IsFull, Frame.map]

/-- Map the symbols of a message. -/
def Message.map (φ : α → β) (h : ∀ a, Octet.byte (φ a) = Octet.byte a) (m : Message α) :
    Message β where
  full := m.full.map (Frame.map φ h)
  last := m.last.map φ h
  full_isFull := by
    intro g hg
    obtain ⟨f, hf, rfl⟩ := List.mem_map.mp hg
    exact (Frame.isFull_map f).mpr (m.full_isFull f hf)
  last_not_isFull := fun hfull => m.last_not_isFull ((Frame.isFull_map m.last).mp hfull)

@[simp] theorem Message.encode_map (m : Message α) : (m.map φ h).encode = m.encode.map φ := by
  simp [Message.encode_eq, Message.map, List.flatMap_map, List.map_flatMap]

@[simp] theorem Message.payload_map (m : Message α) : (m.map φ h).payload = m.payload.map φ := by
  simp [Message.payload_eq, Message.map, Frame.map, List.flatMap_map, List.map_flatMap]

theorem Message.first_map (m : Message α) : (m.map φ h).first = m.first.map φ h := by
  cases hfull : m.full <;> simp [Message.first, Message.map, hfull]

end Map

/-! ## Splitting a stream

Every stream is uniquely a list of messages, then full frames of a message not yet closed, then a
frame not yet complete. The three parts grow symbol by symbol, so existence is an induction from
the right: the new symbol extends the header, extends the payload, or completes the frame. -/

/-- A proper prefix of a frame: part of the header, or the header and part of the payload. -/
inductive Incomplete : List α → Prop where
  | header {w : List α} (h : w.length < 4) : Incomplete w
  | payload (l0 l1 l2 s : α) {w : List α}
      (h : w.length < le24 (Octet.byte l0) (Octet.byte l1) (Octet.byte l2)) :
      Incomplete (l0 :: l1 :: l2 :: s :: w)

/-- `xs` is the messages `ms`, the full frames `fs` and the unfinished frame `rest`. -/
structure IsSplit (xs : List α) (ms : List (Message α)) (fs : List (Frame α))
    (rest : List α) : Prop where
  eq : xs = ms.flatMap Message.encode ++ (fs.flatMap Frame.encode ++ rest)
  full : ∀ f ∈ fs, f.IsFull
  incomplete : Incomplete rest

theorem isSplit_nil : IsSplit ([] : List α) [] [] [] :=
  ⟨rfl, by simp, .header (by simp)⟩

theorem isSplit_header (ms : List (Message α)) {l0 l1 l2 : α} (s : α)
    (h : 0 < le24 (Octet.byte l0) (Octet.byte l1) (Octet.byte l2)) :
    IsSplit (ms.flatMap Message.encode ++ [l0, l1, l2, s]) ms [] [l0, l1, l2, s] :=
  ⟨rfl, by simp, .payload l0 l1 l2 s (w := []) h⟩

/-- Completing the unfinished frame extends the unfinished message when the frame is full and
closes it when the frame is shorter. -/
theorem IsSplit.complete {xs : List α} {ms : List (Message α)} {fs : List (Frame α)}
    {rest : List α} (hsplit : IsSplit xs ms fs rest) {a : α} (f : Frame α)
    (hf : rest ++ [a] = f.encode) :
    ∃ ms' fs', IsSplit (xs ++ [a]) ms' fs' [] := by
  by_cases hfull : f.IsFull
  · -- the message stays open
    refine ⟨ms, fs ++ [f], ?_, ?_, .header (by simp)⟩
    · rw [hsplit.eq]
      simp [hf]
    · intro g hg
      rcases List.mem_append.mp hg with hg | hg
      · exact hsplit.full g hg
      · rw [List.mem_singleton.mp hg]
        exact hfull
  · -- the frame closes the message
    refine ⟨ms ++ [⟨fs, f, hsplit.full, hfull⟩], [], ?_, by simp, .header (by simp)⟩
    have heq := hsplit.eq
    simp [Message.encode_eq, heq, ← hf]

theorem IsSplit.snoc {xs : List α} {ms : List (Message α)} {fs : List (Frame α)}
    {rest : List α} (hsplit : IsSplit xs ms fs rest) (a : α) :
    ∃ ms' fs' rest', IsSplit (xs ++ [a]) ms' fs' rest' := by
  have hextend : Incomplete (rest ++ [a]) → ∃ ms' fs' rest', IsSplit (xs ++ [a]) ms' fs' rest' :=
    fun hinc => ⟨ms, fs, rest ++ [a], by rw [hsplit.eq]; simp, hsplit.full, hinc⟩
  have hcomplete : ∀ f : Frame α, rest ++ [a] = f.encode →
      ∃ ms' fs' rest', IsSplit (xs ++ [a]) ms' fs' rest' := fun f hf =>
    let ⟨ms', fs', h⟩ := hsplit.complete f hf
    ⟨ms', fs', [], h⟩
  cases hsplit.incomplete with
  | header hlt =>
    by_cases hlt' : rest.length < 3
    · exact hextend (.header (by simp; omega))
    · -- the fourth header symbol: an empty frame is complete with its header
      obtain ⟨l0, l1, l2, rfl⟩ : ∃ l0 l1 l2, rest = [l0, l1, l2] :=
        List.length_eq_three.mp (by omega)
      by_cases hzero : le24 (Octet.byte l0) (Octet.byte l1) (Octet.byte l2) = 0
      · exact hcomplete ⟨l0, l1, l2, a, [], by simp [hzero]⟩ rfl
      · exact hextend (.payload l0 l1 l2 a (w := []) (by simp; omega))
  | payload l0 l1 l2 s hlt =>
    rename_i w
    by_cases hlt' : w.length + 1 < le24 (Octet.byte l0) (Octet.byte l1) (Octet.byte l2)
    · exact hextend (.payload l0 l1 l2 s (w := w ++ [a]) (by simpa using hlt'))
    · exact hcomplete ⟨l0, l1, l2, s, w ++ [a], by simp; omega⟩ rfl

/-- **Every stream splits.** -/
theorem exists_isSplit (xs : List α) : ∃ ms fs rest, IsSplit xs ms fs rest := by
  induction xs using List.reverseRecOn with
  | nil => exact ⟨[], [], [], isSplit_nil⟩
  | append_singleton as a ih =>
    obtain ⟨ms, fs, rest, hsplit⟩ := ih
    exact hsplit.snoc a

/-! ### One way to split

No frame is an unfinished one and no message is full frames and an unfinished one, so the three
parts are read off the front of the stream in one way. -/

theorem not_incomplete_encode_append (f : Frame α) (xs : List α) :
    ¬ Incomplete (f.encode ++ xs) := by
  have hlen : (f.encode ++ xs).length = 4 + f.payload.length + xs.length := by
    simp [Frame.encode]
    omega
  intro hinc
  generalize hrest : f.encode ++ xs = rest at hinc
  cases hinc with
  | header hlt =>
    rw [hrest] at hlen
    omega
  | payload l0 l1 l2 s hlt =>
    -- the header announces more than is there
    rename_i w
    simp only [Frame.encode, List.cons_append, List.cons.injEq] at hrest
    obtain ⟨rfl, rfl, rfl, rfl, hw⟩ := hrest
    rw [← f.length_eq, ← hw, List.length_append] at hlt
    omega

/-- Full frames before an unfinished one are read off in one way. Induction on the first list. -/
theorem full_eq_of_append_eq {fs gs : List (Frame α)} {xs ys : List α} (hxs : Incomplete xs)
    (hys : Incomplete ys) (h : fs.flatMap Frame.encode ++ xs = gs.flatMap Frame.encode ++ ys) :
    fs = gs ∧ xs = ys := by
  induction fs generalizing gs with
  | nil =>
    cases gs with
    | nil => exact ⟨rfl, by simpa using h⟩
    | cons g gs =>
      rw [List.flatMap_nil, List.nil_append, List.flatMap_cons, List.append_assoc] at h
      rw [h] at hxs
      exact absurd hxs (not_incomplete_encode_append g _)
  | cons f fs ih =>
    cases gs with
    | nil =>
      rw [List.flatMap_nil, List.nil_append, List.flatMap_cons, List.append_assoc] at h
      rw [← h] at hys
      exact absurd hys (not_incomplete_encode_append f _)
    | cons g gs =>
      rw [List.flatMap_cons, List.flatMap_cons, List.append_assoc, List.append_assoc] at h
      obtain ⟨rfl, hrest⟩ := Frame.eq_of_encode_append_eq h
      obtain ⟨rfl, hxys⟩ := ih hrest
      exact ⟨rfl, hxys⟩

/-- Full frames and an unfinished one do not begin with a message. Induction on the frames. -/
theorem unfinished_ne_encode_append {fs : List (Frame α)} {rest : List α}
    (hfs : ∀ f ∈ fs, f.IsFull) (hrest : Incomplete rest) (m : Message α) (xs : List α) :
    fs.flatMap Frame.encode ++ rest ≠ m.encode ++ xs := by
  rw [m.encode_eq, List.append_assoc]
  generalize m.full = gs
  induction fs generalizing gs with
  | nil =>
    intro h
    cases gs with
    | nil =>
      rw [List.flatMap_nil, List.nil_append, List.nil_append] at h
      rw [h] at hrest
      exact not_incomplete_encode_append m.last xs hrest
    | cons g gs =>
      rw [List.flatMap_nil, List.nil_append, List.flatMap_cons, List.append_assoc] at h
      rw [h] at hrest
      exact not_incomplete_encode_append g _ hrest
  | cons f fs ih =>
    intro h
    rw [List.flatMap_cons, List.append_assoc] at h
    cases gs with
    | nil =>
      -- the closing frame of the message would be full
      rw [List.flatMap_nil, List.nil_append] at h
      obtain ⟨rfl, -⟩ := Frame.eq_of_encode_append_eq h
      exact m.last_not_isFull (hfs m.last (by simp))
    | cons g gs =>
      rw [List.flatMap_cons, List.append_assoc] at h
      exact ih (fun f' hf' => hfs f' (by simp [hf'])) gs (Frame.eq_of_encode_append_eq h).2

/-- The rest of a stream after its first message. -/
theorem IsSplit.of_cons {xs : List α} {m : Message α} {ms : List (Message α)}
    {fs : List (Frame α)} {rest : List α} (h : IsSplit xs (m :: ms) fs rest) :
    ∃ ys, xs = m.encode ++ ys ∧ IsSplit ys ms fs rest :=
  ⟨_, by rw [h.eq, List.flatMap_cons, List.append_assoc], rfl, h.full, h.incomplete⟩

/-- **A stream splits in one way.** Induction on the messages of the first splitting. -/
theorem IsSplit.unique {xs : List α} {ms ns : List (Message α)} {fs gs : List (Frame α)}
    {rest rest' : List α} (h : IsSplit xs ms fs rest) (h' : IsSplit xs ns gs rest') :
    ms = ns ∧ fs = gs ∧ rest = rest' := by
  induction ms generalizing xs ns with
  | nil =>
    cases ns with
    | nil =>
      have heq := h.eq.symm.trans h'.eq
      rw [List.flatMap_nil, List.nil_append, List.nil_append] at heq
      exact ⟨rfl, full_eq_of_append_eq h.incomplete h'.incomplete heq⟩
    | cons n ns =>
      obtain ⟨ys, rfl, -⟩ := h'.of_cons
      exact absurd h.eq.symm (unfinished_ne_encode_append h.full h.incomplete n ys)
  | cons m ms ih =>
    obtain ⟨ys, rfl, htail⟩ := h.of_cons
    cases ns with
    | nil => exact absurd h'.eq.symm (unfinished_ne_encode_append h'.full h'.incomplete m ys)
    | cons n ns =>
      obtain ⟨zs, heq, htail'⟩ := h'.of_cons
      obtain ⟨rfl, rfl⟩ := Message.eq_of_encode_append_eq heq
      obtain ⟨rfl, hunfinished⟩ := ih htail htail'
      exact ⟨rfl, hunfinished⟩

end Framing
