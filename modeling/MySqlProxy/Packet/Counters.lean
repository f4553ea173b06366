import MySqlProxy.Packet.FrameWalk

/-!
# The counters of the parser

What `m_payload_length`, `m_received_bytes` and the two flags hold in every state a stream leads
to, in terms of where the stream stands: its whole frames, grouped into logical packets, and the
frame being read (`Counts`, `counts_of_isSplit`). The end of a frame is found by comparing the
counter with the length for equality; the counter starts below the length and gets there one byte
at a time (`InPayload.advanceAll_open`, `InPayload.advance_close`).
-/

namespace Proxy

open Framing

/-! ## Inside the payload -/

namespace MySqlPacket

/-- Bytes that do not fill the payload leave the packet inside it. Induction on the bytes. -/
theorem InPayload.advanceAll_open {packet : MySqlPacket} {n k : Nat} {s : UInt8}
    (h : packet.InPayload n k s) (hn : n ≤ fullLength) {w : List UInt8} (hk : k + w.length < n) :
    (packet.advanceAll w).InPayload n (k + w.length) s := by
  induction w generalizing packet k with
  | nil => exact h
  | cons b w ih =>
    rw [List.length_cons] at hk
    obtain ⟨hin, -⟩ := h.advance_open hn b (show k + 1 < n by omega)
    rw [show k + (b :: w).length = k + 1 + w.length from by rw [List.length_cons]; omega]
    exact ih hin (by omega)

/-- The byte that fills the payload closes the frame. -/
theorem InPayload.advance_close {packet : MySqlPacket} {k : Nat} {s : UInt8}
    (h : packet.InPayload (k + 1) k s) (b : UInt8) :
    (packet.advance b).packetState = .PAYLOAD_LENGTH_0 ∧
      (packet.advance b).receivedBytes = packet.payloadLength := by
  have hnext : packet.receivedBytes + 1 = packet.payloadLength := by
    rw [h.received, h.length]
    exact (UInt64.ofNat_add k 1).symm
  simp [advance, h.state, hnext]

/-! ## Whole frames -/

section Walk

variable {α : Type} [Octet α]

/-- Whole frames, full or not, leave the length of the last one. Induction on the frames from the
right. -/
theorem advanceAll_frames {packet : MySqlPacket} (h : packet.packetState = .PAYLOAD_LENGTH_0)
    (fs : List (Frame α)) :
    (packet.advanceAll (bytesOf (fs.flatMap Frame.encode))).packetState = .PAYLOAD_LENGTH_0 ∧
      (packet.advanceAll (bytesOf (fs.flatMap Frame.encode))).payloadLength
        = match fs.getLast? with
          | some f => UInt64.ofNat f.payload.length
          | none => packet.payloadLength := by
  induction fs using List.reverseRecOn with
  | nil => exact ⟨h, rfl⟩
  | append_singleton fs f ih =>
    rw [List.flatMap_append, List.flatMap_singleton, bytesOf_append, advanceAll_append,
      advanceAll_frame ih.1, List.getLast?_concat]
    exact ⟨rfl, rfl⟩

/-! ## Where a stream stands -/

/-- The symbols read of the current frame: those of the unfinished one or, when that has not
begun, those of the last whole one. -/
def currentFrame (ms : List (Message α)) (fs : List (Frame α)) (rest : List α) : List α :=
  if rest.isEmpty then
    match (ms.flatMap Message.frames ++ fs).getLast? with
    | some f => f.encode
    | none => []
  else rest

theorem currentFrame_nil (ms : List (Message α)) (fs : List (Frame α)) :
    currentFrame ms fs [] = match (ms.flatMap Message.frames ++ fs).getLast? with
      | some f => f.encode
      | none => [] := rfl

/-- **The counters.** After the logical packets `ms`, the full frames `fs` of an unfinished one and
the unfinished frame `rest`. -/
structure Counts (packet : MySqlPacket) (ms : List (Message α)) (fs : List (Frame α))
    (rest : List α) : Prop where
  length : packet.payloadLength.toNat = littleEndian ((bytesOf (currentFrame ms fs rest)).take 3)
  length_le : packet.payloadLength.toNat ≤ fullLength
  state : packet.packetState = .PAYLOAD ↔ 4 ≤ rest.length
  payload : 4 ≤ rest.length → ∃ s, packet.InPayload packet.payloadLength.toNat (rest.length - 4) s ∧
    rest.length - 4 < packet.payloadLength.toNat
  firstPart : packet.payloadFirstPart = false ↔ fs ≠ []

/-- An unfinished header has been added up from the low byte on. -/
theorem payloadLength_partial_header {packet : MySqlPacket}
    (h : packet.packetState = .PAYLOAD_LENGTH_0) {w : List UInt8} (hne : w ≠ [])
    (hlt : w.length < 4) : (packet.advanceAll w).payloadLength.toNat = littleEndian w := by
  match w, hne, hlt with
  | [b0], _, _ => simp [advanceAll, advance, h, littleEndian]
  | [b0, b1], _, _ =>
    have htwo := payloadLength_eq_le24 b0 b1 0
    have hlength : (packet.advanceAll [b0, b1]).payloadLength = UInt64.ofNat (le24 b0 b1 0) := by
      rw [← htwo]
      simp [advanceAll, advance, h]
    rw [hlength, toNat_ofNat_of_le (le24_le_fullLength _ _ _)]
    simp [le24, littleEndian]
  | [b0, b1, b2], _, _ =>
    have hlength : (packet.advanceAll [b0, b1, b2]).payloadLength
        = UInt64.ofNat (le24 b0 b1 b2) := by
      rw [← payloadLength_eq_le24]
      simp [advanceAll, advance, h]
    rw [hlength, toNat_ofNat_of_le (le24_le_fullLength _ _ _), littleEndian_three]

/-- The length bytes of a whole frame. -/
theorem littleEndian_encode (f : Frame α) :
    littleEndian ((bytesOf f.encode).take 3) = f.payload.length := by
  rw [f.length_eq, ← littleEndian_three]
  rfl

theorem littleEndian_take_three_le (bytes : List UInt8) :
    littleEndian (bytes.take 3) ≤ fullLength := by
  match bytes with
  | [] => decide
  | [b0] =>
    have hle := le24_le_fullLength b0 0 0
    simpa [littleEndian, le24] using hle
  | [b0, b1] =>
    have hle := le24_le_fullLength b0 b1 0
    simpa [littleEndian, le24] using hle
  | b0 :: b1 :: b2 :: _ =>
    rw [show (b0 :: b1 :: b2 :: _).take 3 = [b0, b1, b2] from rfl, littleEndian_three]
    exact le24_le_fullLength _ _ _

/-- The fields the unfinished frame is read from. -/
theorem whole_frames_state {ms : List (Message α)} {fs : List (Frame α)}
    (hfull : ∀ f ∈ fs, f.IsFull) :
    ∃ base : MySqlPacket,
      base = advanceAll {} (bytesOf (ms.flatMap Message.encode ++ fs.flatMap Frame.encode)) ∧
      base.packetState = .PAYLOAD_LENGTH_0 ∧ base.payloadFirstPart = fs.isEmpty ∧
      base.payloadLength.toNat = littleEndian ((bytesOf (currentFrame ms fs [])).take 3) := by
  have hms := betweenPackets_messages betweenPackets_initial ms
  obtain ⟨hstate, hfirst, -⟩ := advanceAll_full hms.1 hfull
  have hframes : ms.flatMap Message.encode ++ fs.flatMap Frame.encode
      = (ms.flatMap Message.frames ++ fs).flatMap Frame.encode := by
    rw [List.flatMap_append, List.flatMap_assoc]
    rfl
  have hinitial : MySqlPacket.packetState {} = .PAYLOAD_LENGTH_0 := rfl
  obtain ⟨-, hlength⟩ := advanceAll_frames hinitial (ms.flatMap Message.frames ++ fs)
  rw [← advanceAll_append, ← bytesOf_append] at hstate hfirst
  refine ⟨_, rfl, hstate, by rw [hfirst, hms.2, Bool.true_and], ?_⟩
  rw [hframes, hlength, currentFrame_nil]
  cases (ms.flatMap Message.frames ++ fs).getLast? with
  | none => rfl
  | some f =>
    dsimp only
    rw [littleEndian_encode, toNat_ofNat_of_le f.length_le]

theorem currentFrame_of_ne_nil (ms : List (Message α)) (fs : List (Frame α)) {rest : List α}
    (hrest : rest ≠ []) : currentFrame ms fs rest = rest := by simp [currentFrame, hrest]

section Unfinished

variable {base : MySqlPacket} {ms : List (Message α)} {fs : List (Frame α)}

/-- The counters inside a header. -/
theorem counts_header (hstate : base.packetState = .PAYLOAD_LENGTH_0)
    (hopen : base.payloadFirstPart = false ↔ fs ≠ []) {rest : List α} (hrest : rest ≠ [])
    (hlt : rest.length < 4) : Counts (base.advanceAll (bytesOf rest)) ms fs rest := by
  have hlt' : (bytesOf rest).length < 4 := by rwa [length_bytesOf]
  obtain ⟨-, hnot, -, hsame⟩ := advanceAll_partial_header hstate (bytesOf_ne_nil hrest) hlt'
  have hvalue := payloadLength_partial_header hstate (bytesOf_ne_nil hrest) hlt'
  have htake : (bytesOf rest).take 3 = bytesOf rest := List.take_of_length_le (by omega)
  refine ⟨?_, ?_, ?_, fun hle => absurd hle (by omega), ?_⟩
  · rw [currentFrame_of_ne_nil ms fs hrest, htake, hvalue]
  · rw [hvalue, ← htake]
    exact littleEndian_take_three_le _
  · exact iff_of_false hnot (by omega)
  · rw [hsame, hopen]

/-- The counters inside a payload. -/
theorem counts_payload (hstate : base.packetState = .PAYLOAD_LENGTH_0)
    (hopen : base.payloadFirstPart = false ↔ fs ≠ []) (l0 l1 l2 s : α) {w : List α}
    (hlt : w.length < le24 (Octet.byte l0) (Octet.byte l1) (Octet.byte l2)) :
    Counts (base.advanceAll (bytesOf (l0 :: l1 :: l2 :: s :: w))) ms fs
      (l0 :: l1 :: l2 :: s :: w) := by
  have hbytes : bytesOf (l0 :: l1 :: l2 :: s :: w)
      = Octet.byte l0 :: Octet.byte l1 :: Octet.byte l2 :: Octet.byte s :: bytesOf w := rfl
  obtain ⟨hin, hsame⟩ := advanceAll_partial_payload hstate (Octet.byte l0) (Octet.byte l1)
    (Octet.byte l2) (Octet.byte s) (w := bytesOf w) (by rw [length_bytesOf]; exact hlt)
  rw [← hbytes, length_bytesOf] at hin
  rw [← hbytes] at hsame
  have hle := le24_le_fullLength (Octet.byte l0) (Octet.byte l1) (Octet.byte l2)
  have hvalue : (base.advanceAll (bytesOf (l0 :: l1 :: l2 :: s :: w))).payloadLength.toNat
      = le24 (Octet.byte l0) (Octet.byte l1) (Octet.byte l2) := by
    rw [hin.length, toNat_ofNat_of_le hle]
  refine ⟨?_, by rw [hvalue]; exact hle, iff_of_true hin.state (by simp), fun _ => ?_, ?_⟩
  · rw [currentFrame_of_ne_nil ms fs (List.cons_ne_nil _ _), hvalue, hbytes, ← littleEndian_three]
    rfl
  · rw [hvalue]
    exact ⟨_, hin, hlt⟩
  · rw [hsame, hopen]

end Unfinished

/-- **Where the stream stands, the counters say.** The cases are the ends of a split: after a whole
frame, in a header, in a payload. -/
theorem counts_of_isSplit {xs : List α} {ms : List (Message α)} {fs : List (Frame α)}
    {rest : List α} (hsplit : IsSplit xs ms fs rest) :
    Counts (advanceAll {} (bytesOf xs)) ms fs rest := by
  obtain ⟨base, hbase, hstate, hfirst, hlength⟩ := @whole_frames_state _ _ ms fs hsplit.full
  have hadvance : advanceAll {} (bytesOf xs) = base.advanceAll (bytesOf rest) := by
    rw [hsplit.eq, ← List.append_assoc, bytesOf_append, advanceAll_append, hbase]
  rw [hadvance]
  have hopen : base.payloadFirstPart = false ↔ fs ≠ [] := by simp [hfirst]
  by_cases hrest : rest = []
  · subst hrest
    rw [bytesOf_nil, advanceAll_nil]
    refine ⟨hlength, ?_, by simp [hstate], fun hle => absurd hle (by simp), hopen⟩
    rw [hlength]
    exact littleEndian_take_three_le _
  · cases hsplit.incomplete with
    | header hlt => exact counts_header hstate hopen hrest hlt
    | payload l0 l1 l2 s hlt => exact counts_payload hstate hopen l0 l1 l2 s hlt

end Walk

end MySqlPacket

/-! ## Every reachable state -/

namespace Packet

variable {σ : Type} [Overrides σ]

/-- The frame ends after exactly the bytes its length still announces: with fewer the packet stays
in `PAYLOAD`, and with the last of them the counter is equal to the length. -/
def EndsOnTime (packet : Packet σ) : Prop :=
  ∀ (ys : List StampedByte) (packet' : Packet σ), packet.feedAll ys = .ok packet' →
    (packet.receivedBytes.toNat + ys.length < packet.payloadLength.toNat →
      packet'.packetState = .PAYLOAD ∧
        packet'.receivedBytes.toNat = packet.receivedBytes.toNat + ys.length) ∧
    (packet.receivedBytes.toNat + ys.length = packet.payloadLength.toNat →
      packet'.packetState = .PAYLOAD_LENGTH_0 ∧ packet'.receivedBytes = packet.payloadLength)

theorem endsOnTime_of_inPayload {packet : Packet σ} {n k : Nat} {s : UInt8}
    (hin : packet.toMySqlPacket.InPayload n k s) (hn : n ≤ fullLength) (hk : k < n) :
    packet.EndsOnTime := by
  intro ys packet' hfeed
  have hbase := feedAll_base hfeed
  rw [hin.received, hin.length, toNat_ofNat_of_le hn, toNat_ofNat_of_le (by omega : k ≤ fullLength)]
  constructor
  · intro hlt
    have hopen := hin.advanceAll_open hn (w := ys.map Prod.fst) (by rwa [List.length_map])
    rw [← hbase, List.length_map] at hopen
    refine ⟨hopen.state, ?_⟩
    rw [hopen.received, toNat_ofNat_of_le (by omega)]
  · intro heq
    -- the last byte finds the counter one below the length
    rcases List.eq_nil_or_concat ys with rfl | ⟨ys, y, rfl⟩
    · rw [List.length_nil] at heq
      omega
    · rw [List.concat_eq_append] at *
      have hlast : n = k + ys.length + 1 := by
        rw [← heq, List.length_append, List.length_singleton]
        omega
      have hopen := hin.advanceAll_open hn (w := ys.map Prod.fst) (by rw [List.length_map]; omega)
      rw [List.length_map] at hopen
      have hlength := hopen.length
      rw [hlast] at hopen
      obtain ⟨hstate, hrecv⟩ := hopen.advance_close y.1
      rw [List.map_append, List.map_singleton, MySqlPacket.advanceAll_snoc] at hbase
      rw [hbase, ← hlength]
      exact ⟨hstate, hrecv⟩

/-- `std::string::max_size`: no string has a greater capacity. -/
def STRING_MAX_SIZE : Nat := 0x7FFFFFFFFFFFFFFF

/-- Neither `reserve` of `command_phase_parse` subtracts 1 from 0, at a payload length `n` and
whatever the capacity of the SQL string is. -/
def ReservesSafely (n : UInt64) : Prop :=
  (reserveLength n).toNat + 1 = n.toNat ∧
    ∀ capacity : UInt64, capacity.toNat ≤ STRING_MAX_SIZE →
      (reserveMoreLength capacity n).toNat + 1 = capacity.toNat + n.toNat

theorem reservesSafely_of_pos {n : UInt64} (hpos : 1 ≤ n.toNat) (hle : n.toNat ≤ fullLength) :
    ReservesSafely n := by
  have hone : (1 : UInt64).toNat = 1 := rfl
  simp only [fullLength] at hle
  unfold ReservesSafely reserveLength reserveMoreLength STRING_MAX_SIZE
  constructor
  · rw [UInt64.toNat_sub_of_le n 1 hpos, hone]
    omega
  · intro c hc
    have hsum : (c + n).toNat = c.toNat + n.toNat := by
      rw [UInt64.toNat_add]
      omega
    rw [UInt64.toNat_sub_of_le (c + n) 1 (by rw [UInt64.le_iff_toNat_le, hsum, hone]; omega),
      hsum, hone]
    omega

/-- **The counters are safe.** In every state a stream leads to without a throw, whichever
overrides the class has. -/
theorem collect_counters (derived : σ) (xs : List StampedByte) (packet : Packet σ)
    (hfeed : Packet.feedAll ⟨{}, derived⟩ xs = .ok packet) :
    ∃ ms fs rest, IsSplit xs ms fs rest ∧
      packet.payloadLength.toNat
        = littleEndian ((MySqlPacket.bytesOf (MySqlPacket.currentFrame ms fs rest)).take 3) ∧
      packet.payloadLength.toNat ≤ 0xffffff ∧
      (packet.packetState = .PAYLOAD ↔ 4 ≤ rest.length) ∧
      (packet.packetState = .PAYLOAD →
        packet.receivedBytes.toNat = rest.length - 4 ∧
        packet.receivedBytes < packet.payloadLength ∧ 1 ≤ packet.payloadLength ∧
        (packet.payloadNotEnded = true ↔ packet.payloadLength = MAX_PAYLOAD_LENGTH) ∧
        packet.EndsOnTime ∧ ReservesSafely packet.payloadLength) ∧
      (packet.payloadFirstPart = false ↔ fs ≠ []) := by
  obtain ⟨ms, fs, rest, hsplit⟩ := exists_isSplit xs
  have hbase := feedAll_base hfeed
  have hcounts := MySqlPacket.counts_of_isSplit hsplit
  rw [MySqlPacket.bytesOf_stamped, ← hbase] at hcounts
  refine ⟨ms, fs, rest, hsplit, hcounts.length, hcounts.length_le, hcounts.state, ?_,
    hcounts.firstPart⟩
  intro hstate
  obtain ⟨s, hin, hlt⟩ := hcounts.payload (hcounts.state.mp hstate)
  have hle := hcounts.length_le
  have hrecv : packet.receivedBytes.toNat = rest.length - 4 := by
    rw [hin.received, toNat_ofNat_of_le (by omega)]
  refine ⟨hrecv, ?_, ?_, ?_, endsOnTime_of_inPayload hin hle hlt,
    reservesSafely_of_pos (by omega) hle⟩
  · rw [UInt64.lt_iff_toNat_lt, hrecv]
    exact hlt
  · rw [UInt64.le_iff_toNat_le]
    show 1 ≤ packet.payloadLength.toNat
    omega
  · rw [hin.notEnded, decide_eq_true_iff, ← UInt64.toNat_inj]
    rfl

open scoped BasicString.Libstdcxx in
/-- After the header and the command byte of a query. -/
theorem collect_counters_query :
    ∃ packet : FromClientPacket,
      FromClientPacket.initial.feedAll
        [(3, .COMMAND_PHASE), (0, .COMMAND_PHASE), (0, .COMMAND_PHASE), (0, .COMMAND_PHASE),
          (0x03, .COMMAND_PHASE)] = .ok packet ∧
      packet.EndsOnTime ∧ ReservesSafely packet.payloadLength := by
  obtain ⟨ms, fs, rest, -, -, -, -, hpayload, -⟩ :=
    collect_counters FromClientFields.initial
      [(3, .COMMAND_PHASE), (0, .COMMAND_PHASE), (0, .COMMAND_PHASE), (0, .COMMAND_PHASE),
        (0x03, .COMMAND_PHASE)] _ rfl
  exact ⟨_, rfl, (hpayload rfl).2.2.2.2⟩

end Packet
end Proxy
