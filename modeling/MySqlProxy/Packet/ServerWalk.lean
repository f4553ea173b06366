import MySqlProxy.Packet.FrameWalk

/-!
# The server walk — what `collect` does to a `FromServerPacket` and to the connection state

`FromServerPacket` adds no fields and none of its overrides throws, so a server packet is its
framing walk and nothing else. What its bytes do change is the connection state they are handled
in: the first payload byte of a logical packet ends the connection phase when it makes the packet
an OK packet (`EndsPhase`).

* **`collectBytes_eq`** — server bytes are the framing walk next to the fold `phaseAfter` of the
  connection state;
* **`phaseAfter_eq_command_iff`** — the fold is in the command phase exactly when it began there or
  some byte ended the connection phase;
* **`endsPhase_iff`** — which byte of a stream does: a zero right after the header of the first
  frame of a logical packet, when the header announces more than three bytes.
-/

namespace Proxy

open Framing

namespace FromServerPacket

/-- The byte makes the packet it begins an OK packet. -/
def EndsPhase (base : MySqlPacket) (b : UInt8) : Prop :=
  (base.packetState = .PAYLOAD ∧ base.receivedBytes = 0 ∧ base.payloadFirstPart = true) ∧
    MySqlResponse.getResponse b base.payloadLength.toNat = .OK_PACKET

instance (base : MySqlPacket) (b : UInt8) : Decidable (EndsPhase base b) :=
  inferInstanceAs (Decidable (_ ∧ _))

/-- The connection state handed back with one byte. -/
def phaseStep (base : MySqlPacket) (b : UInt8) (st : MySqlConnectionState) :
    MySqlConnectionState :=
  if EndsPhase base b then .COMMAND_PHASE else st

/-- The connection state after a stream. -/
def phaseAfter (base : MySqlPacket) (st : MySqlConnectionState) :
    List UInt8 → MySqlConnectionState
  | [] => st
  | b :: bytes => phaseAfter (base.advance b) (phaseStep base b st) bytes

/-! ## One byte -/

theorem phaseStep_of_not_endsPhase {base : MySqlPacket} {b : UInt8} (h : ¬ EndsPhase base b)
    (st : MySqlConnectionState) : phaseStep base b st = st := if_neg h

theorem phaseStep_command (base : MySqlPacket) (b : UInt8) :
    phaseStep base b .COMMAND_PHASE = .COMMAND_PHASE := by
  unfold phaseStep
  split <;> rfl

theorem phaseStep_eq_command_iff (base : MySqlPacket) (b : UInt8) (st : MySqlConnectionState) :
    phaseStep base b st = .COMMAND_PHASE ↔ st = .COMMAND_PHASE ∨ EndsPhase base b := by
  unfold phaseStep
  split
  · simp_all
  · simp_all

/-- The analysis of the first payload byte of a frame hands back `phaseStep`. -/
theorem analyse_eq {packet : FromServerPacket} (h : packet.packetState = .PAYLOAD)
    (hrecv : packet.receivedBytes = 0) (b : UInt8) (st : MySqlConnectionState) :
    (packet.pushPayload b).analyse b st
      = .ok (packet.pushPayload b, phaseStep packet.toMySqlPacket b st) := by
  cases st with
  | COMMAND_PHASE =>
    rw [phaseStep_command]
    rfl
  | CONNECTION_PHASE =>
    unfold Packet.analyse phaseStep EndsPhase
    simp only [Overrides.connectionPhaseParse, Packet.pushPayload, h, hrecv, true_and]
    cases hfirst : packet.payloadFirstPart with
    | false => simp
    | true =>
      -- only an OK packet makes a difference
      cases MySqlResponse.getResponse b packet.payloadLength.toNat <;> simp

/-- **One byte from the server.** -/
theorem collect_eq (packet : FromServerPacket) (b : UInt8) (st : MySqlConnectionState) :
    packet.collect b st
      = .ok (⟨packet.toMySqlPacket.advance b, packet.derived⟩,
          phaseStep packet.toMySqlPacket b st) := by
  -- nothing is collected, and nothing is closed
  have hcollected : Packet.collected packet.toMySqlPacket b packet.derived
      = .ok packet.derived := by
    simp only [Packet.collected, Overrides.collectData, Overrides.dataIsReceived, ite_self]
    rfl
  by_cases hstate : packet.packetState = .PAYLOAD
  · by_cases hrecv : packet.receivedBytes = 0
    · rw [Packet.collect_first hstate hrecv, analyse_eq hstate hrecv]
      show (Packet.collected packet.toMySqlPacket b packet.derived).map _ = _
      rw [hcollected]
      rfl
    · rw [Packet.collect_inner hstate hrecv, hcollected,
        phaseStep_of_not_endsPhase (fun hends => hrecv hends.1.2.1)]
      rfl
  · rw [Packet.collect_header hstate, phaseStep_of_not_endsPhase (fun hends => hstate hends.1.1)]

/-- A server packet never throws. -/
theorem feedAll_eq (packet : FromServerPacket) (xs : List StampedByte) :
    packet.feedAll xs
      = .ok ⟨packet.toMySqlPacket.advanceAll (MySqlPacket.bytesOf xs), packet.derived⟩ := by
  induction xs generalizing packet with
  | nil => rfl
  | cons x xs ih =>
    have hfeed : packet.feed x
        = .ok ⟨packet.toMySqlPacket.advance x.1, packet.derived⟩ := by
      rw [Packet.feed, collect_eq]
      rfl
    rw [Packet.feedAll, Fallible.run_cons_of_ok xs hfeed]
    exact ih _

/-! ## A stream -/

/-- **Bytes from the server.** -/
theorem collectBytes_eq (packet : FromServerPacket) (bytes : List UInt8)
    (st : MySqlConnectionState) :
    packet.collectBytes bytes st
      = .ok (⟨packet.toMySqlPacket.advanceAll bytes, packet.derived⟩,
          phaseAfter packet.toMySqlPacket st bytes) := by
  induction bytes generalizing packet st with
  | nil => rfl
  | cons b bytes ih =>
    rw [Packet.collectBytes, Fallible.run_cons_of_ok bytes (collect_eq packet b st)]
    exact ih _ _

theorem phaseAfter_append (base : MySqlPacket) (st : MySqlConnectionState) (xs ys : List UInt8) :
    phaseAfter base st (xs ++ ys)
      = phaseAfter (base.advanceAll xs) (phaseAfter base st xs) ys := by
  induction xs generalizing base st with
  | nil => rfl
  | cons b xs ih => exact ih _ _

/-- **The fold of the connection state.** Induction on the stream: its first byte ends the
connection phase or some later one does. -/
theorem phaseAfter_eq_command_iff (base : MySqlPacket) (st : MySqlConnectionState)
    (bytes : List UInt8) :
    phaseAfter base st bytes = .COMMAND_PHASE ↔
      st = .COMMAND_PHASE ∨
        ∃ pre b post, bytes = pre ++ b :: post ∧ EndsPhase (base.advanceAll pre) b := by
  induction bytes generalizing base st with
  | nil => simp [phaseAfter]
  | cons c bytes ih =>
    rw [phaseAfter, ih, phaseStep_eq_command_iff, or_assoc]
    apply or_congr_right
    constructor
    · rintro (hends | ⟨pre, b, post, rfl, hends⟩)
      · exact ⟨[], c, bytes, rfl, hends⟩
      · exact ⟨c :: pre, b, post, rfl, hends⟩
    · rintro ⟨pre, b, post, heq, hends⟩
      cases pre with
      | nil =>
        obtain ⟨rfl, rfl⟩ := List.cons.inj heq
        exact Or.inl hends
      | cons c' pre =>
        obtain ⟨rfl, rfl⟩ := List.cons.inj heq
        exact Or.inr ⟨pre, b, post, rfl, hends⟩

theorem phaseAfter_command (base : MySqlPacket) (bytes : List UInt8) :
    phaseAfter base .COMMAND_PHASE bytes = .COMMAND_PHASE :=
  (phaseAfter_eq_command_iff base _ bytes).mpr (Or.inl rfl)

/-! ## Which byte ends the connection phase -/

/-- **The byte of the OK packet.** From between two logical packets: the zero after the header of
a first frame of more than three bytes. -/
theorem endsPhase_iff {base : MySqlPacket} (h : base.BetweenPackets) {pre : List UInt8}
    {b : UInt8} :
    EndsPhase (base.advanceAll pre) b ↔
      ∃ (ms : List (Message UInt8)) (l0 l1 l2 s : UInt8),
        pre = ms.flatMap Message.encode ++ [l0, l1, l2, s] ∧ b = 0x00 ∧ 3 < le24 l0 l1 l2 := by
  have hcommand := @MySqlPacket.atCommand_iff UInt8 _ base h pre
  rw [MySqlPacket.bytesOf_bytes] at hcommand
  -- the length read there is the one of the header
  have hlength : ∀ (ms : List (Message UInt8)) (l0 l1 l2 s : UInt8), 0 < le24 l0 l1 l2 →
      (base.advanceAll (ms.flatMap Message.encode ++ [l0, l1, l2, s])).payloadLength.toNat
        = le24 l0 l1 l2 := by
    intro ms l0 l1 l2 s hpos
    have hin := (MySqlPacket.inPayload_atCommand h ms s hpos).1
    rw [MySqlPacket.bytesOf_bytes] at hin
    rw [hin.length]
    exact toNat_ofNat_of_le (le24_le_fullLength _ _ _)
  unfold EndsPhase
  rw [hcommand, MySqlResponse.getResponse_eq_ok_iff]
  constructor
  · rintro ⟨⟨ms, l0, l1, l2, s, rfl, hpos⟩, hzero, hlt⟩
    rw [hlength ms l0 l1 l2 s hpos] at hlt
    exact ⟨ms, l0, l1, l2, s, rfl, hzero, hlt⟩
  · rintro ⟨ms, l0, l1, l2, s, rfl, hzero, hlt⟩
    have hpos : 0 < le24 l0 l1 l2 := by omega
    refine ⟨⟨ms, l0, l1, l2, s, rfl, hpos⟩, hzero, ?_⟩
    rw [hlength ms l0 l1 l2 s hpos]
    exact hlt

/-- A byte of a continuation frame does not end the connection phase. -/
theorem not_endsPhase_continued {base : MySqlPacket} (h : base.BetweenPackets) {pre : List UInt8}
    {ms : List (Message UInt8)} {fs : List (Frame UInt8)} {rest : List UInt8}
    (hsplit : IsSplit pre ms fs rest) (hfs : fs ≠ []) (b : UInt8) :
    ¬ EndsPhase (base.advanceAll pre) b := by
  rw [endsPhase_iff h]
  rintro ⟨ns, l0, l1, l2, s, rfl, -, hlt⟩
  -- after the header of a first frame there are no full frames
  have hpos : 0 < le24 l0 l1 l2 := by omega
  obtain ⟨-, rfl, -⟩ := hsplit.unique (isSplit_header ns s hpos)
  exact hfs rfl

end FromServerPacket
end Proxy
