import MySqlProxy.Packet.Extraction

/-!
# The receive mode over whole histories

The receive mode is switched on by the first payload byte of a command with an SQL field and
switched off by the last payload byte of any packet, so it outlives a packet whose closing frame is
empty, and only such a packet (`LeavesModeOn`, `receive_mode_iff`).
-/

namespace Proxy

open Framing FromClientFields BasicString

/-- A command with an SQL field whose closing frame is empty: nothing switches its mode off. -/
def LeavesModeOn (m : Message StampedByte) : Prop :=
  m.last.payload = [] ∧
    ∃ c rest, m.payload = (c, MySqlConnectionState.COMMAND_PHASE) :: rest ∧
      MySqlCommand.hasSqlField ⟨c⟩ = true

namespace Contents

/-- The fields between packets as they should be: the mode is off, and an SQL string belongs to a
command with an SQL field. -/
structure ModeClosed (contents : Contents) : Prop where
  off : contents.sqlDataReceiving = false
  sql : contents.sql ≠ [] → MySqlCommand.hasSqlField contents.command = true

theorem modeClosed_initial : ModeClosed {} := ⟨rfl, fun h => absurd rfl h⟩

/-- Every other packet keeps the mode closed. The cases are those of `afterMessage`. -/
theorem ModeClosed.afterMessage {contents : Contents} {m : Message StampedByte}
    (hclosed : contents.ModeClosed) (hm : ¬ LeavesModeOn m) :
    (contents.afterMessage m).ModeClosed := by
  cases hpayload : m.payload with
  | nil =>
    rw [afterMessage_nil hpayload]
    exact hclosed
  | cons x rest =>
    obtain ⟨b, st⟩ := x
    rw [afterMessage_cons hpayload]
    cases st with
    | CONNECTION_PHASE =>
      -- the mode is off, so the payload goes nowhere
      exact ⟨by simp [opened, closePacket_mode, hclosed.off],
        by simpa [opened, appendData, hclosed.off] using hclosed.sql⟩
    | COMMAND_PHASE =>
      cases hsql : MySqlCommand.hasSqlField ⟨b⟩ with
      | false =>
        exact ⟨by simp [opened, closePacket_mode, startCommand, hclosed.off, hsql],
          by simp [opened, appendData, startCommand, hclosed.off, hsql]⟩
      | true =>
        -- the command switches the mode on, so the closing frame has to switch it off
        have hlast : m.last.payload ≠ [] := fun hnil => hm ⟨hnil, b, rest, hpayload, hsql⟩
        exact ⟨by simp [closePacket_mode, hlast], by simp [opened, startCommand, hsql]⟩

/-- The mode is still on after a packet that leaves it on. -/
theorem mode_of_leavesModeOn {m : Message StampedByte} (hm : LeavesModeOn m)
    (contents : Contents) : (contents.afterMessage m).sqlDataReceiving = true := by
  obtain ⟨hlast, c, rest, hpayload, hsql⟩ := hm
  rw [afterMessage_cons hpayload, closePacket_mode, hlast]
  simp [opened, startCommand, hsql]

end Contents

section

variable [Library]

/-- The mode is closed after a history in which no packet leaves it on. -/
theorem FromClientFields.modeClosed_run {packet : FromClientFields}
    {ms : List (Message StampedByte)} (hms : ∀ m ∈ ms, ¬ LeavesModeOn m)
    (h : Fallible.run afterMessage initial ms = .ok packet) : packet.contents.ModeClosed := by
  have hgood : Fallible.EveryStep afterMessage (fun _ m => ¬ LeavesModeOn m) initial ms := by
    intro pre m post t heq _
    exact hms m (by simp [heq])
  have hstep : ∀ (packet : FromClientFields) (m : Message StampedByte) (packet' : FromClientFields),
      packet.contents.ModeClosed → ¬ LeavesModeOn m → packet.afterMessage m = .ok packet' →
        packet'.contents.ModeClosed := by
    intro packet m packet' hclosed hm hafter
    rw [(afterMessage_ok_iff.mp hafter).2.1]
    exact hclosed.afterMessage hm
  have hinitial : initial.contents.ModeClosed := Contents.modeClosed_initial
  exact Fallible.run_invariant_of_everyStep hstep hinitial hgood h

namespace FromClientPacket

/-- The receive mode does not outlive its packet: it is off between packets, and a received packet
with an SQL string has a command with an SQL field. -/
structure ModeEnds (packet : FromClientPacket) : Prop where
  off : packet.toMySqlPacket.BetweenPackets → packet.derived.sqlDataReceiving = false
  sql : packet.isReceived = true → packet.getSqlString ≠ [] →
    MySqlCommand.hasSqlField packet.derived.command = true

/-- **When the receive mode ends with its packet.** Along a stream collected without a throw, in
every state on the way, exactly when no completed packet leaves the mode on. -/
theorem receive_mode_iff (xs : List StampedByte) (packet : FromClientPacket)
    (hfeed : initial.feedAll xs = .ok packet) :
    (∀ pre post, xs = pre ++ post →
      ∀ reached, initial.feedAll pre = .ok reached → ModeEnds reached) ↔
    ∀ (ms : List (Message StampedByte)) (m : Message StampedByte) (post : List StampedByte),
      xs = (ms ++ [m]).flatMap Message.encode ++ post → ¬ LeavesModeOn m := by
  have hbetween : initial.toMySqlPacket.BetweenPackets := MySqlPacket.betweenPackets_initial
  constructor
  · rintro hends ms m post rfl hm
    -- right after such a packet the parser is between packets with the mode on
    obtain ⟨reached, hreached⟩ := Fallible.run_prefix_ok hfeed
    obtain ⟨hrun, hafter⟩ := feedAll_messages_ok hbetween hreached
    obtain ⟨derived, -, hlast⟩ := Fallible.run_snoc_ok.mp hrun
    have hoff := (hends _ post rfl reached hreached).off hafter
    have hon := Contents.mode_of_leavesModeOn hm derived.contents
    rw [← (afterMessage_ok_iff.mp hlast).2.1] at hon
    exact absurd (hon.symm.trans hoff) (by simp)
  · rintro hms pre post rfl reached hreached
    have hbase := Packet.feedAll_base hreached
    -- every state between packets comes after whole packets, none of which leaves the mode on
    have hclosed : reached.toMySqlPacket.BetweenPackets → reached.derived.contents.ModeClosed := by
      intro hafter
      rw [hbase] at hafter
      obtain ⟨ns, rfl⟩ := (MySqlPacket.betweenPackets_iff hbetween).mp hafter
      obtain ⟨hrun, -⟩ := feedAll_messages_ok hbetween hreached
      refine modeClosed_run (fun m hm => ?_) hrun
      obtain ⟨before, after, rfl⟩ := List.append_of_mem hm
      exact hms before m (after.flatMap Message.encode ++ post) (by simp)
    refine ⟨fun hafter => (hclosed hafter).off, fun hrecv => ?_⟩
    have hafter : reached.toMySqlPacket.BetweenPackets := by
      rw [MySqlPacket.isReceived, hbase] at hrecv
      by_cases hne : pre = []
      · subst hne
        exact absurd hrecv (by simp [initial])
      · obtain ⟨ns, n, rfl⟩ := (MySqlPacket.isReceived_iff hbetween hne).mp hrecv
        rw [hbase]
        exact MySqlPacket.betweenPackets_messages hbetween _
    exact (hclosed hafter).sql

end FromClientPacket

end

namespace FromClientPacket

open scoped BasicString.Libstdcxx in
/-- Along one short query the mode ends with its packet, if no packet in it leaves it on. -/
theorem receive_mode_iff_query :
    (∀ pre post, stamp .COMMAND_PHASE [3, 0, 0, 0, 0x03, 0x68, 0x69] = pre ++ post →
      ∀ reached, initial.feedAll pre = .ok reached → ModeEnds reached) ↔
    ∀ (ms : List (Message StampedByte)) (m : Message StampedByte) (post : List StampedByte),
      stamp .COMMAND_PHASE [3, 0, 0, 0, 0x03, 0x68, 0x69]
        = (ms ++ [m]).flatMap Message.encode ++ post → ¬ LeavesModeOn m :=
  receive_mode_iff _ _ rfl

/-- A query of exactly `fullLength` bytes: one full frame and an empty one. -/
def fullQuery : Message StampedByte :=
  commandMessage UInt8.ofNat 0x03 (List.replicate (fullLength - 1) 0x20)

/-- A `COM_CHANGE_USER` packet with four bytes of data. -/
def changeUser : Message StampedByte :=
  commandMessage UInt8.ofNat 0x11 [0x72, 0x6F, 0x6F, 0x74]

theorem leavesModeOn_fullQuery : LeavesModeOn fullQuery := by
  refine ⟨List.length_eq_zero_iff.mp ?_, 0x03, _, payload_commandMessage _ _ _, rfl⟩
  rw [fullQuery, commandMessage, length_last_stampMessage, Message.length_last_ofPayload,
    List.length_cons, List.length_replicate]
  exact Nat.mod_self fullLength

open scoped BasicString.Libstdcxx in
/-- The query goes through, and leaves the mode on. -/
theorem afterMessage_fullQuery :
    ∃ left : FromClientFields, FromClientFields.initial.afterMessage fullQuery = .ok left ∧
      left.sqlDataReceiving = true ∧ left.sqlString.capacity = fullLength - 1 := by
  have hcapacity : messageCapacity FromClientFields.initial.contents 15 fullQuery
      = .ok (fullLength - 1) := by
    have hrequests := @messageCapacity_sql _ FromClientFields.initial.contents 15
      Library.initialCapacity_le 0x03 rfl (List.replicate (fullLength - 1) 0x20) UInt8.ofNat
    rw [List.length_replicate] at hrequests
    exact hrequests.trans (by decide +kernel)
  have hrej : ∀ x rest, fullQuery.payload = x :: rest → ¬ Rejected fullQuery.first.seq.1 x := by
    intro x rest _ hbad
    exact hbad.2.2 (seq_commandMessage _ _ _)
  obtain ⟨left, hafter⟩ := afterMessage_granted hrej hcapacity
  obtain ⟨-, hcontents, hroom⟩ := afterMessage_ok_iff.mp hafter
  refine ⟨left, hafter, ?_, (Except.ok.inj (hcapacity.symm.trans hroom)).symm⟩
  have hmode := Contents.mode_of_leavesModeOn leavesModeOn_fullQuery
    FromClientFields.initial.contents
  rw [← hcontents] at hmode
  exact hmode

open scoped BasicString.Libstdcxx in
/-- The data of the next packet is taken for SQL. -/
theorem afterMessage_changeUser {left : FromClientFields} (hmode : left.sqlDataReceiving = true)
    (hcapacity : left.sqlString.capacity = fullLength - 1) :
    ∃ packet : FromClientFields, left.afterMessage changeUser = .ok packet ∧
      packet.command = .COM_CHANGE_USER ∧ packet.sqlString.chars = [0x72, 0x6F, 0x6F, 0x74] := by
  have hpayload : changeUser.payload
      = (0x11, .COMMAND_PHASE) :: stamp .COMMAND_PHASE [0x72, 0x6F, 0x6F, 0x74] :=
    payload_commandMessage _ _ _
  have hroom : messageCapacity left.contents left.sqlString.capacity changeUser = .ok 15 := by
    have hfirst : changeUser.frames = [changeUser.first] := by
      rw [changeUser, commandMessage, Message.ofPayload, dif_pos (by decide)]
      rfl
    have hbytes : changeUser.first.payload = changeUser.payload := by
      rw [Message.payload, hfirst, List.flatMap_singleton]
    have hon : (left.contents.startCommand 0x11).sqlDataReceiving = true := by
      simp [Contents.startCommand, FromClientFields.contents, hmode]
    rw [messageCapacity, hfirst, beginCapacity, hbytes, hpayload, hcapacity]
    simp only [Contents.opened, hon]
    rfl
  have hrej : ∀ x rest, changeUser.payload = x :: rest → ¬ Rejected changeUser.first.seq.1 x := by
    intro x rest _ hbad
    exact hbad.2.2 (seq_commandMessage _ _ _)
  obtain ⟨packet, hafter⟩ := afterMessage_granted hrej hroom
  have hcontents := (afterMessage_ok_iff.mp hafter).2.1
  rw [Contents.afterMessage_cons hpayload, map_fst_stamp] at hcontents
  refine ⟨packet, hafter, ?_, ?_⟩
  · have hcommand := congrArg Contents.command hcontents
    rw [Contents.closePacket_command] at hcommand
    exact hcommand
  · have hsql := congrArg Contents.sql hcontents
    rw [Contents.closePacket_sql] at hsql
    have hon : left.contents.sqlDataReceiving = true := hmode
    simp only [Contents.opened, Contents.startCommand, Contents.appendData, hon, Bool.true_or,
      if_true, List.nil_append] at hsql
    exact hsql

open scoped BasicString.Libstdcxx in
/-- The query leaves the mode on, and the data of the next packet is taken for SQL. -/
theorem receive_mode_leaks :
    (∃ packet : FromClientPacket, initial.feedAll fullQuery.encode = .ok packet ∧
      packet.toMySqlPacket.BetweenPackets ∧ packet.derived.sqlDataReceiving = true) ∧
    (∃ packet : FromClientPacket,
      initial.feedAll (fullQuery.encode ++ changeUser.encode) = .ok packet ∧
      packet.isReceived = true ∧ packet.derived.command = .COM_CHANGE_USER ∧
      MySqlCommand.hasSqlField packet.derived.command = false ∧
      packet.getSqlString = [0x72, 0x6F, 0x6F, 0x74]) := by
  obtain ⟨left, hquery, hmode, hcapacity⟩ := afterMessage_fullQuery
  obtain ⟨derived, huser, hcommand, hsql⟩ := afterMessage_changeUser hmode hcapacity
  have hfirst : initial.feedAll fullQuery.encode = .ok ⟨MySqlPacket.closed fullQuery, left⟩ := by
    rw [feedAll_message MySqlPacket.betweenPackets_initial]
    exact Fallible.map_ok_iff.mpr ⟨left, hquery, rfl⟩
  refine ⟨⟨_, hfirst, MySqlPacket.betweenPackets_closed _, hmode⟩,
    ⟨MySqlPacket.closed changeUser, derived⟩, ?_, rfl, hcommand, ?_, hsql⟩
  · rw [Packet.feedAll, Fallible.run_append_of_ok _ hfirst, ← Packet.feedAll,
      feedAll_message (MySqlPacket.betweenPackets_closed fullQuery)]
    exact Fallible.map_ok_iff.mpr ⟨derived, huser, rfl⟩
  · rw [show (⟨MySqlPacket.closed changeUser, derived⟩ : FromClientPacket).derived.command = _
      from hcommand]
    rfl

end FromClientPacket
end Proxy
