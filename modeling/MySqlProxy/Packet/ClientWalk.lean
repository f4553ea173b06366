import MySqlProxy.Packet.ClientFields

/-!
# The client walk — what `collect` does to the fields of `FromClientPacket`

Next to the framing walk, the payload bytes of a logical packet move the three derived fields: the
first payload byte of the first frame opens it, the first payload byte of a continuation frame asks
for more room, every payload byte but the command is collected while the receive mode is on, and
the byte that ends the payload closes it. Only a payload byte closes: the header of an empty closing
frame leaves the mode as it is.

* **`feedAll_frame_first`, `feedAll_frame_continued`** — one frame;
* **`feedAll_message`** — one logical packet is `afterMessage`, a throw included;
* **`feedAll_messages`** — a list of them is the fold of `afterMessage`;
* **`afterMessage_ok`** — what the fields hold after a packet that does not throw;
* **`feed_error_iff`** — which byte throws: one that is `RejectedAt`, the first payload byte of a
  logical packet, in the command phase, naming a valid command under a sequence id other than 0; or
  one that is `RefusedAt`, for which the SQL string does not get the room the byte asks for.
-/

namespace Proxy

open Framing BasicString

variable [Library]

/-! ## One byte -/

namespace FromClientFields

/-- What a payload byte does to the derived fields before the last one closes the packet. -/
def payloadByte (base : MySqlPacket) (x : StampedByte) (packet : FromClientFields) :
    Except Exception FromClientFields :=
  if base.receivedBytes = 0 then
    if base.payloadFirstPart then packet.openPacket base.payloadLength base.sequenceId x
    else packet.continuePacket base.payloadLength x.2 >>= fun packet => packet.collectData x.1
  else packet.collectData x.1

/-- The capacity of the SQL string after a payload byte that is not rejected. -/
def capacityAfter (base : MySqlPacket) (x : StampedByte) (packet : FromClientFields) :
    Except Failure Nat :=
  if base.receivedBytes = 0 then
    if base.payloadFirstPart then openCapacity packet.sqlString.capacity base.payloadLength x
    else
      continueCapacity packet.command packet.sqlString.capacity base.payloadLength x.2 >>=
        pushCapacity packet.sqlDataReceiving packet.sqlString.chars.length
  else
    pushCapacity packet.sqlDataReceiving packet.sqlString.chars.length packet.sqlString.capacity

/-- A byte of a continuation frame throws when the string is refused room: for the frame, or for
the byte. -/
theorem continued_error_iff {base : MySqlPacket} {x : StampedByte} {packet : FromClientFields}
    {e : Exception} :
    (packet.continuePacket base.payloadLength x.2 >>= fun packet => packet.collectData x.1)
        = .error e ↔
      ∃ failure, continueCapacity packet.command packet.sqlString.capacity base.payloadLength x.2
        >>= pushCapacity packet.sqlDataReceiving packet.sqlString.chars.length = .error failure ∧
          e = .ofString failure := by
  rw [Fallible.bind_error_iff]
  constructor
  · rintro (herror | ⟨next, hnext, herror⟩)
    · obtain ⟨failure, hfailure, rfl⟩ := continuePacket_error_iff.mp herror
      exact ⟨failure, Fallible.bind_error_iff.mpr (Or.inl hfailure), rfl⟩
    · obtain ⟨hcontents, hcapacity⟩ := continuePacket_ok_iff.mp hnext
      obtain ⟨failure, hfailure, rfl⟩ := collectData_error_iff.mp herror
      obtain ⟨-, hmode, hsql⟩ := Contents.mk.inj hcontents
      rw [hmode, hsql] at hfailure
      exact ⟨failure, Fallible.bind_error_iff.mpr (Or.inr ⟨_, hcapacity, hfailure⟩), rfl⟩
  · rintro ⟨failure, hfailure, rfl⟩
    rcases Fallible.bind_error_iff.mp hfailure with hfirst | ⟨capacity, hcapacity, hpush⟩
    · exact Or.inl (continuePacket_error_iff.mpr ⟨failure, hfirst, rfl⟩)
    · obtain ⟨next, hnext, hcontents, rfl⟩ := continuePacket_granted hcapacity
      obtain ⟨-, hmode, hsql⟩ := Contents.mk.inj hcontents
      refine Or.inr ⟨next, hnext, collectData_error_iff.mpr ⟨failure, ?_, rfl⟩⟩
      rw [hmode, hsql]
      exact hpush

end FromClientFields

namespace FromClientPacket

open FromClientFields

omit [Library] in
/-- The next byte is the first payload byte of a packet the parser rejects. -/
def Rejects (packet : FromClientPacket) (x : StampedByte) : Prop :=
  packet.packetState = .PAYLOAD ∧ packet.receivedBytes = 0 ∧ packet.payloadFirstPart = true ∧
    Rejected packet.sequenceId x

/-- The next byte is a payload byte that is not rejected, and the SQL string does not get the room
it asks for. -/
def Refuses (packet : FromClientPacket) (x : StampedByte) (failure : Failure) : Prop :=
  packet.packetState = .PAYLOAD ∧ ¬ packet.Rejects x ∧
    packet.derived.capacityAfter packet.toMySqlPacket x = .error failure

/-- A header byte only moves the base fields. -/
theorem feed_header {packet : FromClientPacket} (h : packet.packetState ≠ .PAYLOAD)
    (x : StampedByte) :
    packet.feed x = .ok ⟨packet.toMySqlPacket.advance x.1, packet.derived⟩ := by
  rw [Packet.feed, Packet.collect_header h]
  rfl

/-- The analysis of the first payload byte of a frame opens or continues the packet. -/
theorem analyse_eq (packet : FromClientPacket) (x : StampedByte) :
    (packet.pushPayload x.1).analyse x.1 x.2
      = (if packet.payloadFirstPart then
            packet.derived.openPacket packet.payloadLength packet.sequenceId x
          else packet.derived.continuePacket packet.payloadLength x.2).map fun derived =>
        ({ packet.pushPayload x.1 with derived := derived }, x.2) := by
  obtain ⟨b, st⟩ := x
  cases st with
  | CONNECTION_PHASE =>
    cases hfirst : packet.payloadFirstPart <;>
      simp [Packet.analyse, Overrides.connectionPhaseParse, openPacket, continuePacket, Rejected,
        Packet.pushPayload, Except.map]
  | COMMAND_PHASE =>
    have hparse : commandPhaseParse (packet.pushPayload b).toMySqlPacket b packet.derived
        = if packet.payloadFirstPart then
            packet.derived.openPacket packet.payloadLength packet.sequenceId (b, .COMMAND_PHASE)
          else packet.derived.continuePacket packet.payloadLength .COMMAND_PHASE := by
      cases hfirst : packet.payloadFirstPart with
      | true => exact @commandPhaseParse_first _ (packet.pushPayload b).toMySqlPacket hfirst b _
      | false =>
        exact @commandPhaseParse_continued _ (packet.pushPayload b).toMySqlPacket hfirst b _
    simp only [Packet.analyse, Overrides.commandPhaseParse]
    rw [show (packet.pushPayload b).derived = packet.derived from rfl, hparse]
    generalize (if packet.payloadFirstPart = true then _ else _ : Except Exception FromClientFields)
      = analysed
    cases analysed <;> rfl

/-- The command byte is not collected. -/
theorem collected_command {base : MySqlPacket} (hrecv : base.receivedBytes = 0)
    (hfirst : base.payloadFirstPart = true) (b : UInt8) (derived : FromClientFields) :
    Packet.collected base b derived
      = .ok (if base.ends then derived.dataIsReceived else derived) := by
  simp only [Packet.collected, hrecv, hfirst]
  rfl

/-- Every other payload byte is. -/
theorem collected_data {base : MySqlPacket}
    (hdata : base.receivedBytes ≠ 0 ∨ base.payloadFirstPart = false) (b : UInt8)
    (derived : FromClientFields) :
    Packet.collected base b derived = (derived.collectData b).map fun derived =>
      if base.ends then derived.dataIsReceived else derived := by
  have hkept : 0 < base.receivedBytes ∨ base.payloadFirstPart = false :=
    hdata.imp_left UInt64.pos_iff_ne_zero.mpr
  rw [Packet.collected, if_pos hkept]
  rfl

/-- **A payload byte.** -/
theorem feed_payload {packet : FromClientPacket} (h : packet.packetState = .PAYLOAD)
    (x : StampedByte) :
    packet.feed x = (packet.derived.payloadByte packet.toMySqlPacket x).map fun derived =>
      ⟨packet.toMySqlPacket.advance x.1,
        if packet.ends then derived.dataIsReceived else derived⟩ := by
  by_cases hrecv : packet.receivedBytes = 0
  · rw [Packet.feed, Packet.collect_first h hrecv, analyse_eq, payloadByte, if_pos hrecv]
    cases hfirst : packet.payloadFirstPart with
    | true =>
      simp only [if_true]
      cases packet.derived.openPacket packet.payloadLength packet.sequenceId x with
      | error e => rfl
      | ok opened =>
        simp only [Except.map, bind, Except.bind, collected_command hrecv hfirst]
    | false =>
      simp only [Bool.false_eq_true, if_false]
      cases packet.derived.continuePacket packet.payloadLength x.2 with
      | error e => rfl
      | ok continued =>
        simp only [Except.map, bind, Except.bind, collected_data (Or.inr hfirst)]
        cases continued.collectData x.1 <;> rfl
  · rw [Packet.feed, Packet.collect_inner h hrecv, payloadByte, if_neg hrecv,
      collected_data (Or.inl hrecv)]
    cases packet.derived.collectData x.1 <;> rfl

/-- **Which byte throws.** -/
theorem feed_error_iff {packet : FromClientPacket} {x : StampedByte} {e : Exception} :
    packet.feed x = .error e ↔
      (packet.Rejects x ∧ e = .runtimeError "BAD packet") ∨
        ∃ failure, packet.Refuses x failure ∧ e = .ofString failure := by
  by_cases hstate : packet.packetState = .PAYLOAD
  · rw [feed_payload hstate, Fallible.map_eq_error_iff]
    simp only [Rejects, Refuses, hstate, true_and]
    unfold payloadByte capacityAfter
    by_cases hrecv : packet.receivedBytes = 0
    · cases hfirst : packet.payloadFirstPart with
      | true =>
        simp only [hrecv, if_true, true_and]
        rw [openPacket_error_iff]
        simp only [and_assoc, exists_and_left]
      | false =>
        simp only [hrecv, if_true, Bool.false_eq_true, if_false, false_and, and_false, false_or,
          not_false_iff, true_and]
        exact continued_error_iff
    · simp only [hrecv, if_false, false_and, false_or, not_false_iff, true_and]
      exact collectData_error_iff
  · rw [feed_header hstate]
    simp [Rejects, Refuses, hstate]

/-! ## Feeding the bytes of a frame -/

/-- Up to four header bytes leave the derived fields alone. -/
theorem feedAll_header {packet : FromClientPacket} (h : packet.packetState = .PAYLOAD_LENGTH_0)
    {w : List StampedByte} (hle : w.length ≤ 4) :
    packet.feedAll w
      = .ok ⟨packet.toMySqlPacket.advanceAll (MySqlPacket.bytesOf w), packet.derived⟩ := by
  induction w using List.reverseRecOn with
  | nil => rfl
  | append_singleton w x ih =>
    have hlen : w.length + 1 ≤ 4 := by simpa using hle
    have hstate : (packet.toMySqlPacket.advanceAll (MySqlPacket.bytesOf w)).packetState
        ≠ .PAYLOAD := by
      by_cases hw : w = []
      · simp [hw, h]
      · exact (MySqlPacket.advanceAll_partial_header h (MySqlPacket.bytesOf_ne_nil hw)
          (by rw [MySqlPacket.length_bytesOf]; omega)).2.1
    rw [Packet.feedAll, Fallible.run_append_of_ok [x] (ih (by omega)), Fallible.run_singleton,
      feed_header hstate, MySqlPacket.bytesOf_append, MySqlPacket.advanceAll_append]
    rfl

open MySqlPacket

/-- Payload bytes that are not the first of their frame are collected, and the last of a frame that
is not full closes the data. Induction on the bytes; `k` counts those before. -/
theorem feedAll_data {packet : FromClientPacket} {n k : Nat} {s : UInt8}
    (h : packet.toMySqlPacket.InPayload n k s) (hn : n ≤ fullLength) (hpos : 0 < k) (hk : k < n)
    {w : List StampedByte} (hw : k + w.length ≤ n) :
    packet.feedAll w = (packet.derived.collectAll (bytesOf w)).map fun derived =>
      ⟨packet.toMySqlPacket.advanceAll (bytesOf w),
        if k + w.length = n ∧ n ≠ fullLength then derived.dataIsReceived else derived⟩ := by
  induction w generalizing packet k with
  | nil =>
    have hopen : ¬ (k = n ∧ n ≠ fullLength) := by omega
    simp [Packet.feedAll, collectAll, Except.map, hopen]
  | cons x w ih =>
    rw [List.length_cons] at hw
    have hrecv : packet.receivedBytes ≠ 0 :=
      (h.received_ne_zero_or hn hk (Or.inl hpos)).resolve_right id
    have hfeed := feed_payload h.state x
    rw [payloadByte, if_neg hrecv] at hfeed
    have hends := h.ends_iff hn hk
    have hbytes : bytesOf (x :: w) = x.1 :: bytesOf w := rfl
    rw [Packet.feedAll, Fallible.run_cons, hfeed, hbytes, collectAll, Fallible.run_cons]
    cases packet.derived.collectData x.1 with
    | error e => rfl
    | ok derived =>
      simp only [Except.map, bind, Except.bind]
      by_cases hlast : k + 1 = n
      · -- the last byte of the frame
        obtain rfl : w = [] := List.length_eq_zero_iff.mp (by omega)
        simp [hends, hlast, bytesOf, advanceAll]
      · -- the frame goes on
        have hopen : packet.ends = false := by
          rw [Bool.eq_false_iff, Ne, hends]
          exact fun hclose => hlast hclose.1
        obtain ⟨hin, -⟩ := h.advance_open hn x.1 (show k + 1 < n by omega)
        have hrest := @ih ⟨packet.toMySqlPacket.advance x.1, derived⟩ _ hin (Nat.succ_pos k)
          (by omega) (by omega)
        simp only [hopen, Bool.false_eq_true, if_false]
        rw [← Packet.feedAll, hrest]
        simp only [show k + 1 + w.length = k + (w.length + 1) from by omega, List.length_cons]
        rfl

/-- The payload of a frame that is not empty. -/
theorem feedAll_payload {packet : FromClientPacket} {n : Nat} {s : UInt8}
    (h : packet.toMySqlPacket.InPayload n 0 s) (hn : n ≤ fullLength) {x : StampedByte}
    {rest : List StampedByte} (hlen : rest.length + 1 = n) :
    packet.feedAll (x :: rest)
      = (packet.derived.payloadByte packet.toMySqlPacket x >>= fun derived =>
          derived.collectAll (bytesOf rest)).map fun derived =>
        ⟨packet.toMySqlPacket.advanceAll (bytesOf (x :: rest)),
          if n ≠ fullLength then derived.dataIsReceived else derived⟩ := by
  have hpos : 0 < n := by omega
  have hends := h.ends_iff hn hpos
  rw [Packet.feedAll, Fallible.run_cons, feed_payload h.state]
  cases packet.derived.payloadByte packet.toMySqlPacket x with
  | error e => rfl
  | ok derived =>
    simp only [Except.map, bind, Except.bind]
    by_cases hrest : rest = []
    · -- the first byte is also the last one
      subst hrest
      have hone : n = 1 := by simpa using hlen.symm
      simp [hends, hone, collectAll, bytesOf, advanceAll]
    · have hmore : 1 < n := by
        have := List.length_pos_iff.mpr hrest
        omega
      have hopen : packet.ends = false := by
        rw [Bool.eq_false_iff, Ne, hends]
        exact fun hclose => absurd hclose.1 (by omega)
      obtain ⟨hin, -⟩ := h.advance_open hn x.1 hmore
      have hdata := @feedAll_data _ ⟨packet.toMySqlPacket.advance x.1, derived⟩ _ _ _ hin hn
        (by decide) hmore rest (by omega)
      simp only [hopen, Bool.false_eq_true, if_false]
      rw [← Packet.feedAll, hdata]
      simp only [show 0 + 1 + rest.length = n from by omega, true_and]
      rfl

end FromClientPacket

/-! ## Feeding frames and logical packets -/

namespace FromClientFields

omit [Library] in
/-- The last byte of a frame closes the data, unless the frame is full or its last byte is a
header byte. -/
def closeFrame (f : Frame StampedByte) (packet : FromClientFields) : FromClientFields :=
  if f.payload = [] ∨ f.IsFull then packet else packet.dataIsReceived

/-- The first frame of a logical packet. -/
def beginFrame (packet : FromClientFields) (f : Frame StampedByte) :
    Except Exception FromClientFields :=
  match f.payload with
  | [] => .ok packet
  | x :: rest => do
    let packet ← packet.openPacket (UInt64.ofNat f.payload.length) f.seq.1 x
    let packet ← packet.collectAll (rest.map Prod.fst)
    .ok (packet.closeFrame f)

/-- A continuation frame. -/
def continueFrame (packet : FromClientFields) (f : Frame StampedByte) :
    Except Exception FromClientFields :=
  match f.payload with
  | [] => .ok packet
  | x :: rest => do
    let packet ← packet.continuePacket (UInt64.ofNat f.payload.length) x.2
    let packet ← packet.collectAll ((x :: rest).map Prod.fst)
    .ok (packet.closeFrame f)

/-- The derived fields after a logical packet. -/
def afterMessage (packet : FromClientFields) (m : Message StampedByte) :
    Except Exception FromClientFields := do
  let packet ← packet.beginFrame m.first
  Fallible.run continueFrame packet m.frames.tail

/-- An empty packet changes no field. -/
theorem afterMessage_empty {m : Message StampedByte} (h : m.payload = [])
    (packet : FromClientFields) : packet.afterMessage m = .ok packet := by
  obtain ⟨hfull, hlast⟩ := Message.payload_eq_nil_iff.mp h
  simp [afterMessage, Message.first, Message.frames, hfull, beginFrame, hlast, bind, Except.bind]

end FromClientFields

namespace FromClientPacket

open FromClientFields MySqlPacket

/-- The header of a frame that is not empty leads to its first payload byte. -/
theorem feedAll_frame_header {packet : FromClientPacket}
    (h : packet.packetState = .PAYLOAD_LENGTH_0) (f : Frame StampedByte) (hne : f.payload ≠ []) :
    ∃ base : MySqlPacket, packet.feedAll f.encode
        = Packet.feedAll (⟨base, packet.derived⟩ : FromClientPacket) f.payload ∧
      base.InPayload f.payload.length 0 f.seq.1 ∧
      base.payloadFirstPart = packet.payloadFirstPart ∧
      base.advanceAll (bytesOf f.payload)
        = packet.toMySqlPacket.advanceAll (bytesOf f.encode) := by
  have hpos : 0 < le24 f.len0.1 f.len1.1 f.len2.1 := by
    rw [show le24 f.len0.1 f.len1.1 f.len2.1 = f.payload.length from f.length_eq.symm]
    exact List.length_pos_iff.mpr hne
  have hencode : f.encode = [f.len0, f.len1, f.len2, f.seq] ++ f.payload := rfl
  obtain ⟨hin, hfirst⟩ := advanceAll_partial_payload h f.len0.1 f.len1.1 f.len2.1 f.seq.1
    (w := []) (by simpa using hpos)
  refine ⟨_, ?_, ?_, hfirst, ?_⟩
  · rw [hencode, Packet.feedAll, Fallible.run_append_of_ok _ (feedAll_header h (by simp))]
    rfl
  · rw [show f.payload.length = le24 f.len0.1 f.len1.1 f.len2.1 from f.length_eq]
    exact hin
  · rw [hencode, bytesOf_append, advanceAll_append]
    rfl

/-- An empty frame is all header. -/
theorem feedAll_frame_empty {packet : FromClientPacket}
    (h : packet.packetState = .PAYLOAD_LENGTH_0) {f : Frame StampedByte} (hempty : f.payload = []) :
    packet.feedAll f.encode
      = .ok ⟨packet.toMySqlPacket.advanceAll (bytesOf f.encode), packet.derived⟩ :=
  feedAll_header h (by simp [Frame.encode, hempty])

/-- A frame that is not empty: its first payload byte, the bytes after it, and the end of the
payload. -/
theorem feedAll_frame {packet : FromClientPacket} (h : packet.packetState = .PAYLOAD_LENGTH_0)
    {f : Frame StampedByte} {x : StampedByte} {rest : List StampedByte}
    (hpayload : f.payload = x :: rest) :
    packet.feedAll f.encode
      = ((if packet.payloadFirstPart then
            packet.derived.openPacket (UInt64.ofNat f.payload.length) f.seq.1 x
          else packet.derived.continuePacket (UInt64.ofNat f.payload.length) x.2 >>= fun packet =>
            packet.collectData x.1) >>= fun derived =>
          derived.collectAll (bytesOf rest)).map fun derived =>
        ⟨packet.toMySqlPacket.advanceAll (bytesOf f.encode), derived.closeFrame f⟩ := by
  have hne : f.payload ≠ [] := by simp [hpayload]
  obtain ⟨base, hfeed, hin, hbase, hadvance⟩ := feedAll_frame_header h f hne
  have hlen : rest.length + 1 = f.payload.length := by simp [hpayload]
  have hrecv : base.receivedBytes = 0 := hin.received
  have hbyte : packet.derived.payloadByte base x = if packet.payloadFirstPart then
        packet.derived.openPacket (UInt64.ofNat f.payload.length) f.seq.1 x
      else packet.derived.continuePacket (UInt64.ofNat f.payload.length) x.2 >>= fun packet =>
        packet.collectData x.1 := by
    rw [payloadByte, if_pos hrecv, hbase, hin.length, hin.sequence]
  have hclose : ∀ derived : FromClientFields, derived.closeFrame f
      = if f.payload.length ≠ fullLength then derived.dataIsReceived else derived := by
    intro derived
    simp only [closeFrame, hne, false_or, Frame.IsFull, ne_eq, ite_not]
  rw [hfeed, hpayload, feedAll_payload hin f.length_le hlen, ← hpayload, hadvance, ← hbyte]
  simp only [hclose]

/-- **The first frame of a packet.** -/
theorem feedAll_frame_first {packet : FromClientPacket} (h : packet.toMySqlPacket.BetweenPackets)
    (f : Frame StampedByte) :
    packet.feedAll f.encode = (packet.derived.beginFrame f).map fun derived =>
      ⟨packet.toMySqlPacket.advanceAll (bytesOf f.encode), derived⟩ := by
  cases hpayload : f.payload with
  | nil =>
    rw [feedAll_frame_empty h.1 hpayload, beginFrame, hpayload]
    rfl
  | cons x rest =>
    rw [feedAll_frame h.1 hpayload, h.2, if_pos rfl, beginFrame, hpayload]
    simp only
    cases packet.derived.openPacket (UInt64.ofNat (x :: rest).length) f.seq.1 x with
    | error e => rfl
    | ok opened =>
      simp only [bind, Except.bind, bytesOf_stamped]
      cases opened.collectAll (rest.map Prod.fst) <;> rfl

/-- **A continuation frame.** -/
theorem feedAll_frame_continued {packet : FromClientPacket}
    (h : packet.packetState = .PAYLOAD_LENGTH_0) (hfirst : packet.payloadFirstPart = false)
    (f : Frame StampedByte) :
    packet.feedAll f.encode = (packet.derived.continueFrame f).map fun derived =>
      ⟨packet.toMySqlPacket.advanceAll (bytesOf f.encode), derived⟩ := by
  cases hpayload : f.payload with
  | nil =>
    rw [feedAll_frame_empty h hpayload, continueFrame, hpayload]
    rfl
  | cons x rest =>
    rw [feedAll_frame h hpayload, hfirst, if_neg (by simp), continueFrame, hpayload]
    simp only
    cases packet.derived.continuePacket (UInt64.ofNat (x :: rest).length) x.2 with
    | error e => rfl
    | ok continued =>
      simp only [bind, Except.bind, List.map_cons, collectAll, Fallible.run_cons, bytesOf_stamped]
      cases continued.collectData x.1 with
      | error e => rfl
      | ok collected =>
        dsimp only
        cases Fallible.run (fun packet b => packet.collectData b) collected (rest.map Prod.fst) <;>
          rfl

/-- Continuation frames of a packet, of which only the last may not be full. Induction on the full
ones. -/
theorem feedAll_frames_continued {packet : FromClientPacket}
    (h : packet.packetState = .PAYLOAD_LENGTH_0) (hfirst : packet.payloadFirstPart = false)
    {fs : List (Frame StampedByte)} (hfull : ∀ f ∈ fs, f.IsFull) (last : Frame StampedByte) :
    packet.feedAll ((fs ++ [last]).flatMap Frame.encode)
      = (Fallible.run continueFrame packet.derived (fs ++ [last])).map fun derived =>
          ⟨packet.toMySqlPacket.advanceAll (bytesOf ((fs ++ [last]).flatMap Frame.encode)),
            derived⟩ := by
  induction fs generalizing packet with
  | nil =>
    rw [List.nil_append, List.flatMap_singleton, Fallible.run_singleton,
      feedAll_frame_continued h hfirst]
  | cons f fs ih =>
    have hone : ∀ g ∈ [f], g.IsFull := by simpa using hfull f (by simp)
    obtain ⟨hstate, hopen, -⟩ := advanceAll_full h hone
    rw [List.flatMap_singleton] at hstate hopen
    rw [List.cons_append, List.flatMap_cons, Packet.feedAll, Fallible.run_append, ← Packet.feedAll,
      feedAll_frame_continued h hfirst, Fallible.run_cons]
    cases packet.derived.continueFrame f with
    | error e => rfl
    | ok derived =>
      have hrest := @ih ⟨packet.toMySqlPacket.advanceAll (bytesOf f.encode), derived⟩ hstate
        (by rw [hopen, hfirst, Bool.false_and]) fun g hg => hfull g (by simp [hg])
      simp only [Except.map, bind, Except.bind]
      rw [← Packet.feedAll, hrest, bytesOf_append, advanceAll_append]
      rfl

/-- **One logical packet.** -/
theorem feedAll_message {packet : FromClientPacket} (h : packet.toMySqlPacket.BetweenPackets)
    (m : Message StampedByte) :
    packet.feedAll m.encode
      = (packet.derived.afterMessage m).map fun derived => ⟨closed m, derived⟩ := by
  rw [← advanceAll_message h.1 h.2 m, afterMessage]
  cases hfull : m.full with
  | nil =>
    have hencode : m.encode = m.last.encode := by simp [Message.encode_eq, hfull]
    have hfirst : m.first = m.last := by simp [Message.first, hfull]
    have htail : m.frames.tail = [] := by simp [Message.frames, hfull]
    rw [hencode, feedAll_frame_first h, hfirst, htail]
    cases packet.derived.beginFrame m.last <;> rfl
  | cons f fs =>
    have hf : f.IsFull := m.full_isFull f (by simp [hfull])
    have hfs : ∀ g ∈ fs, g.IsFull := fun g hg => m.full_isFull g (by simp [hfull, hg])
    have hencode : m.encode = f.encode ++ (fs ++ [m.last]).flatMap Frame.encode := by
      simp [Message.encode_eq, hfull]
    have hfirst : m.first = f := by simp [Message.first, hfull]
    have htail : m.frames.tail = fs ++ [m.last] := by simp [Message.frames, hfull]
    rw [hencode, Packet.feedAll, Fallible.run_append, ← Packet.feedAll, feedAll_frame_first h,
      hfirst, htail]
    cases packet.derived.beginFrame f with
    | error e => rfl
    | ok opened =>
      -- after the first frame the packet is open
      have hone : ∀ g ∈ [f], g.IsFull := by simpa using hf
      obtain ⟨hstate, hopen, -⟩ := advanceAll_full h.1 hone
      rw [List.flatMap_singleton] at hstate hopen
      have hrest := @feedAll_frames_continued _
        ⟨packet.toMySqlPacket.advanceAll (bytesOf f.encode), opened⟩ hstate
        (by simpa using hopen) fs hfs m.last
      simp only [Except.map, bind, Except.bind]
      rw [← Packet.feedAll, hrest, bytesOf_append, advanceAll_append]
      rfl

/-- **Logical packets, one after the other.** Induction on the packets. -/
theorem feedAll_messages {packet : FromClientPacket} (h : packet.toMySqlPacket.BetweenPackets)
    (ms : List (Message StampedByte)) :
    packet.feedAll (ms.flatMap Message.encode)
      = (Fallible.run afterMessage packet.derived ms).map fun derived =>
          ⟨packet.toMySqlPacket.advanceAll (bytesOf (ms.flatMap Message.encode)), derived⟩ := by
  induction ms generalizing packet with
  | nil => rfl
  | cons m ms ih =>
    rw [List.flatMap_cons, Packet.feedAll, Fallible.run_append, ← Packet.feedAll, feedAll_message h,
      Fallible.run_cons]
    cases packet.derived.afterMessage m with
    | error e => rfl
    | ok derived =>
      have hclosed : packet.toMySqlPacket.advanceAll (bytesOf m.encode) = closed m :=
        advanceAll_message h.1 h.2 m
      have hrest := @ih ⟨closed m, derived⟩ (betweenPackets_closed m)
      simp only [Except.map, bind, Except.bind]
      rw [← Packet.feedAll, hrest, bytesOf_append, advanceAll_append, hclosed]
      rfl

theorem feedAll_messages_ok {packet packet' : FromClientPacket}
    (h : packet.toMySqlPacket.BetweenPackets) {ms : List (Message StampedByte)}
    (hfeed : packet.feedAll (ms.flatMap Message.encode) = .ok packet') :
    Fallible.run afterMessage packet.derived ms = .ok packet'.derived ∧
      packet'.toMySqlPacket.BetweenPackets := by
  have hbase := betweenPackets_messages h ms
  rw [feedAll_messages h] at hfeed
  obtain ⟨derived, hrun, rfl⟩ := Fallible.map_ok_iff.mp hfeed
  exact ⟨hrun, hbase⟩

end FromClientPacket

/-! ## One packet, as contents and room -/

namespace FromClientFields

/-- The capacity after the first frame of a packet that is not rejected. -/
def beginCapacity (contents : Contents) (capacity : Nat) (f : Frame StampedByte) :
    Except Failure Nat :=
  match f.payload with
  | [] => .ok capacity
  | x :: rest => do
    let capacity ← openCapacity capacity (UInt64.ofNat f.payload.length) x
    pushAllCapacity (contents.opened x).sqlDataReceiving (contents.opened x).sql.length capacity
      rest.length

/-- The capacity after a continuation frame. -/
def continueFrameCapacity (contents : Contents) (capacity : Nat) (f : Frame StampedByte) :
    Except Failure Nat :=
  match f.payload with
  | [] => .ok capacity
  | x :: _ => do
    let capacity ←
      continueCapacity contents.command capacity (UInt64.ofNat f.payload.length) x.2
    pushAllCapacity contents.sqlDataReceiving contents.sql.length capacity f.payload.length

/-- The capacity after continuation frames. -/
def framesCapacity (contents : Contents) (capacity : Nat) :
    List (Frame StampedByte) → Except Failure Nat
  | [] => .ok capacity
  | f :: fs => do
    let capacity ← continueFrameCapacity contents capacity f
    framesCapacity (contents.continueFrame f) capacity fs

/-- The capacity after a logical packet that is not rejected. -/
def messageCapacity (contents : Contents) (capacity : Nat) (m : Message StampedByte) :
    Except Failure Nat := do
  let capacity ← beginCapacity contents capacity m.first
  framesCapacity (contents.beginFrame m.first) capacity m.frames.tail

omit [Library] in
theorem contents_closeFrame (f : Frame StampedByte) (packet : FromClientFields) :
    (packet.closeFrame f).contents = packet.contents.closeFrame f := by
  unfold closeFrame Contents.closeFrame
  split <;> rfl

omit [Library] in
theorem capacity_closeFrame (f : Frame StampedByte) (packet : FromClientFields) :
    (packet.closeFrame f).sqlString.capacity = packet.sqlString.capacity := by
  unfold closeFrame
  split <;> rfl

theorem beginFrame_granted {packet : FromClientFields} {f : Frame StampedByte} {capacity : Nat}
    (hrej : ∀ x, f.payload.head? = some x → ¬ Rejected f.seq.1 x)
    (h : beginCapacity packet.contents packet.sqlString.capacity f = .ok capacity) :
    ∃ begun, packet.beginFrame f = .ok begun ∧
      begun.contents = packet.contents.beginFrame f ∧ begun.sqlString.capacity = capacity := by
  unfold beginCapacity at h
  unfold beginFrame Contents.beginFrame
  cases hpayload : f.payload with
  | nil =>
    rw [hpayload] at h
    exact ⟨packet, rfl, rfl, Except.ok.inj h⟩
  | cons x rest =>
    rw [hpayload] at h hrej
    obtain ⟨room, hcapacity, hpush⟩ := Fallible.bind_ok_iff.mp h
    obtain ⟨opened, hopen, hopened, rfl⟩ := openPacket_granted (hrej x rfl) hcapacity
    rw [← pushAllCapacity_contents hopened, ← List.length_map (f := Prod.fst)] at hpush
    obtain ⟨collected, hcollect, hcollected, rfl⟩ := collectAll_granted hpush
    refine ⟨collected.closeFrame f, ?_, ?_, capacity_closeFrame f collected⟩
    · simp only [hopen, hcollect, bind, Except.bind]
    · rw [contents_closeFrame, hcollected, hopened]

/-- **The first frame, exactly.** -/
theorem beginFrame_ok_iff {packet packet' : FromClientFields} {f : Frame StampedByte} :
    packet.beginFrame f = .ok packet' ↔ (∀ x, f.payload.head? = some x → ¬ Rejected f.seq.1 x) ∧
      packet'.contents = packet.contents.beginFrame f ∧
        beginCapacity packet.contents packet.sqlString.capacity f
          = .ok packet'.sqlString.capacity := by
  constructor
  · intro h
    unfold beginFrame at h
    unfold Contents.beginFrame beginCapacity
    cases hpayload : f.payload with
    | nil =>
      rw [hpayload] at h
      rw [← Except.ok.inj h]
      exact ⟨by simp, rfl, rfl⟩
    | cons x rest =>
      rw [hpayload] at h
      obtain ⟨opened, hopen, hbytes⟩ := Fallible.bind_ok_iff.mp h
      obtain ⟨collected, hcollect, hclose⟩ := Fallible.bind_ok_iff.mp hbytes
      obtain ⟨hrej, hopened, hcapacity⟩ := openPacket_ok_iff.mp hopen
      obtain ⟨hcollected, hpush⟩ := collectAll_ok_iff.mp hcollect
      rw [pushAllCapacity_contents hopened, List.length_map] at hpush
      rw [← Except.ok.inj hclose, contents_closeFrame, capacity_closeFrame, hcollected, hopened]
      refine ⟨?_, rfl, Fallible.bind_ok_iff.mpr ⟨_, hcapacity, hpush⟩⟩
      rintro y ⟨⟩
      exact hrej
  · rintro ⟨hrej, hcontents, hcapacity⟩
    obtain ⟨begun, hbegin, hbegun, hroom⟩ := beginFrame_granted hrej hcapacity
    rw [hbegin, eq_of_contents (hbegun.trans hcontents.symm) hroom]

theorem continueFrame_granted {packet : FromClientFields} {f : Frame StampedByte} {capacity : Nat}
    (h : continueFrameCapacity packet.contents packet.sqlString.capacity f = .ok capacity) :
    ∃ next, packet.continueFrame f = .ok next ∧
      next.contents = packet.contents.continueFrame f ∧ next.sqlString.capacity = capacity := by
  unfold continueFrameCapacity at h
  unfold continueFrame Contents.continueFrame
  cases hpayload : f.payload with
  | nil =>
    rw [hpayload] at h
    refine ⟨packet, rfl, ?_, Except.ok.inj h⟩
    rw [List.map_nil, Contents.appendData_nil, Contents.closeFrame, if_pos (Or.inl hpayload)]
  | cons x rest =>
    rw [hpayload] at h
    obtain ⟨room, hcapacity, hpush⟩ := Fallible.bind_ok_iff.mp h
    obtain ⟨continued, hcontinue, hcontinued, rfl⟩ := continuePacket_granted hcapacity
    rw [← pushAllCapacity_contents hcontinued, ← List.length_map (f := Prod.fst)] at hpush
    obtain ⟨collected, hcollect, hcollected, rfl⟩ := collectAll_granted hpush
    refine ⟨collected.closeFrame f, ?_, ?_, capacity_closeFrame f collected⟩
    · simp only [hcontinue, hcollect, bind, Except.bind]
    · rw [contents_closeFrame, hcollected, hcontinued]

/-- **A continuation frame, exactly.** -/
theorem continueFrame_ok_iff {packet packet' : FromClientFields} {f : Frame StampedByte} :
    packet.continueFrame f = .ok packet' ↔ packet'.contents = packet.contents.continueFrame f ∧
      continueFrameCapacity packet.contents packet.sqlString.capacity f
        = .ok packet'.sqlString.capacity := by
  constructor
  · intro h
    unfold continueFrame at h
    unfold Contents.continueFrame continueFrameCapacity
    cases hpayload : f.payload with
    | nil =>
      rw [hpayload] at h
      rw [← Except.ok.inj h, List.map_nil, Contents.appendData_nil, Contents.closeFrame,
        if_pos (Or.inl hpayload)]
      exact ⟨rfl, rfl⟩
    | cons x rest =>
      rw [hpayload] at h
      obtain ⟨continued, hcontinue, hbytes⟩ := Fallible.bind_ok_iff.mp h
      obtain ⟨collected, hcollect, hclose⟩ := Fallible.bind_ok_iff.mp hbytes
      obtain ⟨hcontinued, hcapacity⟩ := continuePacket_ok_iff.mp hcontinue
      obtain ⟨hcollected, hpush⟩ := collectAll_ok_iff.mp hcollect
      rw [pushAllCapacity_contents hcontinued, List.length_map] at hpush
      rw [← Except.ok.inj hclose, contents_closeFrame, capacity_closeFrame, hcollected, hcontinued]
      exact ⟨rfl, Fallible.bind_ok_iff.mpr ⟨_, hcapacity, hpush⟩⟩
  · rintro ⟨hcontents, hcapacity⟩
    obtain ⟨next, hnext, hnextContents, hroom⟩ := continueFrame_granted hcapacity
    rw [hnext, eq_of_contents (hnextContents.trans hcontents.symm) hroom]

/-- Continuation frames. Induction on the frames. -/
theorem run_continueFrame_ok_iff {packet packet' : FromClientFields}
    {fs : List (Frame StampedByte)} :
    Fallible.run continueFrame packet fs = .ok packet' ↔
      packet'.contents = fs.foldl Contents.continueFrame packet.contents ∧
        framesCapacity packet.contents packet.sqlString.capacity fs
          = .ok packet'.sqlString.capacity := by
  induction fs generalizing packet with
  | nil =>
    rw [Fallible.run_nil, List.foldl_nil, framesCapacity]
    constructor
    · intro h
      rw [← Except.ok.inj h]
      exact ⟨rfl, rfl⟩
    · exact fun h => congrArg Except.ok (eq_of_contents h.1.symm (Except.ok.inj h.2))
  | cons f fs ih =>
    rw [Fallible.run_cons_ok, List.foldl_cons, framesCapacity, Fallible.bind_ok_iff]
    constructor
    · rintro ⟨next, hnext, hrest⟩
      obtain ⟨hcontents, hcapacity⟩ := continueFrame_ok_iff.mp hnext
      rw [← hcontents]
      obtain ⟨hall, hrestCapacity⟩ := ih.mp hrest
      exact ⟨hall, next.sqlString.capacity, hcapacity, hrestCapacity⟩
    · rintro ⟨hall, capacity, hcapacity, hrestCapacity⟩
      obtain ⟨next, hnext, hcontents, rfl⟩ := continueFrame_granted hcapacity
      rw [← hcontents] at hall hrestCapacity
      exact ⟨next, hnext, ih.mpr ⟨hall, hrestCapacity⟩⟩

/-- **One logical packet, exactly.** It goes through when it is not rejected and the string gets the
room; what the fields then hold does not depend on the room. -/
theorem afterMessage_ok_iff {packet packet' : FromClientFields} {m : Message StampedByte} :
    packet.afterMessage m = .ok packet' ↔
      (∀ x rest, m.payload = x :: rest → ¬ Rejected m.first.seq.1 x) ∧
        packet'.contents = packet.contents.afterMessage m ∧
          messageCapacity packet.contents packet.sqlString.capacity m
            = .ok packet'.sqlString.capacity := by
  have hhead : (∀ x rest, m.payload = x :: rest → ¬ Rejected m.first.seq.1 x) ↔
      ∀ x, m.first.payload.head? = some x → ¬ Rejected m.first.seq.1 x := by
    simp only [← m.head?_payload, List.head?_eq_some_iff, forall_exists_index]
  rw [hhead, afterMessage, Fallible.bind_ok_iff, messageCapacity, Fallible.bind_ok_iff]
  constructor
  · rintro ⟨begun, hbegin, hrest⟩
    obtain ⟨hrej, hbegun, hcapacity⟩ := beginFrame_ok_iff.mp hbegin
    obtain ⟨hall, hframes⟩ := run_continueFrame_ok_iff.mp hrest
    rw [hbegun] at hall hframes
    exact ⟨hrej, hall, _, hcapacity, hframes⟩
  · rintro ⟨hrej, hall, capacity, hcapacity, hframes⟩
    obtain ⟨begun, hbegin, hbegun, rfl⟩ := beginFrame_granted hrej hcapacity
    rw [← hbegun] at hframes
    refine ⟨begun, hbegin, run_continueFrame_ok_iff.mpr ⟨?_, hframes⟩⟩
    rw [hall, Contents.afterMessage, hbegun]

theorem run_continueFrame_granted {packet : FromClientFields} {fs : List (Frame StampedByte)}
    {capacity : Nat}
    (h : framesCapacity packet.contents packet.sqlString.capacity fs = .ok capacity) :
    ∃ packet', Fallible.run continueFrame packet fs = .ok packet' := by
  induction fs generalizing packet with
  | nil => exact ⟨packet, rfl⟩
  | cons f fs ih =>
    obtain ⟨room, hcapacity, hrest⟩ := Fallible.bind_ok_iff.mp h
    obtain ⟨next, hnext, hcontents, rfl⟩ := continueFrame_granted hcapacity
    rw [← hcontents] at hrest
    obtain ⟨packet', hrun⟩ := ih hrest
    exact ⟨packet', Fallible.run_cons_ok.mpr ⟨next, hnext, hrun⟩⟩

/-- A packet that is not rejected goes through when the string gets the room. -/
theorem afterMessage_granted {packet : FromClientFields} {m : Message StampedByte} {capacity : Nat}
    (hrej : ∀ x rest, m.payload = x :: rest → ¬ Rejected m.first.seq.1 x)
    (h : messageCapacity packet.contents packet.sqlString.capacity m = .ok capacity) :
    ∃ packet', packet.afterMessage m = .ok packet' := by
  have hhead : ∀ x, m.first.payload.head? = some x → ¬ Rejected m.first.seq.1 x := by
    intro x hx
    rw [← m.head?_payload] at hx
    obtain ⟨rest, hpayload⟩ := List.head?_eq_some_iff.mp hx
    exact hrej x rest hpayload
  obtain ⟨room, hcapacity, hframes⟩ := Fallible.bind_ok_iff.mp h
  obtain ⟨begun, hbegin, hbegun, rfl⟩ := beginFrame_granted hhead hcapacity
  rw [← hbegun] at hframes
  obtain ⟨packet', hrun⟩ := run_continueFrame_granted hframes
  exact ⟨packet', Fallible.bind_ok_iff.mpr ⟨begun, hbegin, hrun⟩⟩

/-- **One logical packet, read off.** Every packet that does not throw either is empty and changes
nothing, or opens, collects and closes. -/
theorem afterMessage_ok {packet packet' : FromClientFields} {m : Message StampedByte}
    (h : packet.afterMessage m = .ok packet') :
    (m.payload = [] ∧ packet'.contents = packet.contents) ∨ ∃ x rest, m.payload = x :: rest ∧
      ¬ Rejected m.first.seq.1 x ∧ packet'.contents
        = ((packet.contents.opened x).appendData (rest.map Prod.fst)).closePacket m := by
  obtain ⟨hrej, hcontents, -⟩ := afterMessage_ok_iff.mp h
  cases hpayload : m.payload with
  | nil =>
    rw [Contents.afterMessage_nil hpayload] at hcontents
    exact Or.inl ⟨rfl, hcontents⟩
  | cons x rest =>
    rw [Contents.afterMessage_cons hpayload] at hcontents
    exact Or.inr ⟨x, rest, rfl, hrej x rest hpayload, hcontents⟩

end FromClientFields

/-! ## Where a stream throws -/

namespace FromClientPacket

open FromClientFields

/-- In the stream `pre`, the next byte `x` is the command byte of a packet to be rejected. -/
def RejectedAt (pre : List StampedByte) (x : StampedByte) : Prop :=
  ∃ (ms : List (Message StampedByte)) (l0 l1 l2 s : StampedByte),
    pre = ms.flatMap Message.encode ++ [l0, l1, l2, s] ∧ 0 < le24 l0.1 l1.1 l2.1 ∧
      Rejected s.1 x

/-- After the stream `pre`, the SQL string of a fresh packet is refused the room the next byte `x`
asks for. -/
def RefusedAt (pre : List StampedByte) (x : StampedByte) : Prop :=
  ∃ (packet : FromClientPacket) (failure : Failure),
    initial.feedAll pre = .ok packet ∧ packet.Refuses x failure

/-- **Exactly the command bytes of bad packets are rejected.** -/
theorem rejects_iff_rejectedAt {packet packet' : FromClientPacket}
    (h : packet.toMySqlPacket.BetweenPackets) {pre : List StampedByte}
    (hpre : packet.feedAll pre = .ok packet') (x : StampedByte) :
    packet'.Rejects x ↔ RejectedAt pre x := by
  have hbase : packet'.toMySqlPacket
      = packet.toMySqlPacket.advanceAll (MySqlPacket.bytesOf pre) := Packet.feedAll_base hpre
  have hcommand := @MySqlPacket.atCommand_iff _ _ _ h pre
  rw [← hbase] at hcommand
  constructor
  · rintro ⟨hstate, hrecv, hfirst, hrej⟩
    obtain ⟨ms, l0, l1, l2, s, rfl, hpos⟩ := hcommand.mp ⟨hstate, hrecv, hfirst⟩
    rw [hbase, (MySqlPacket.inPayload_atCommand h ms s hpos).1.sequence] at hrej
    exact ⟨ms, l0, l1, l2, s, rfl, hpos, hrej⟩
  · rintro ⟨ms, l0, l1, l2, s, rfl, hpos, hrej⟩
    obtain ⟨hstate, hrecv, hfirst⟩ := hcommand.mpr ⟨ms, l0, l1, l2, s, rfl, hpos⟩
    refine ⟨hstate, hrecv, hfirst, ?_⟩
    rw [hbase, (MySqlPacket.inPayload_atCommand h ms s hpos).1.sequence]
    exact hrej

/-- A byte throws exactly when it is rejected or refused. -/
theorem feed_error_iff_rejectedAt {pre : List StampedByte} {packet : FromClientPacket}
    (hpre : initial.feedAll pre = .ok packet) (x : StampedByte) :
    (∃ e, packet.feed x = .error e) ↔ RejectedAt pre x ∨ RefusedAt pre x := by
  simp only [feed_error_iff, rejects_iff_rejectedAt MySqlPacket.betweenPackets_initial hpre]
  constructor
  · rintro ⟨e, ⟨hrej, -⟩ | ⟨failure, hrefused, -⟩⟩
    · exact Or.inl hrej
    · exact Or.inr ⟨packet, failure, hpre, hrefused⟩
  · rintro (hrej | ⟨packet', failure, hpre', hrefused⟩)
    · exact ⟨_, Or.inl ⟨hrej, rfl⟩⟩
    · obtain rfl : packet = packet' := Except.ok.inj (hpre.symm.trans hpre')
      exact ⟨_, Or.inr ⟨failure, hrefused, rfl⟩⟩

end FromClientPacket
end Proxy
