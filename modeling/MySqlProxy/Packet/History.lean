import MySqlProxy.Packet.ReceiveMode

/-!
# What a client packet remembers of its history

The logger reads three pieces of state that are written at different bytes: the command and the
SQL string at the first payload byte of a logical packet, the length at every frame header. As
functions of the logical packets seen so far they are `lastCommand`, the length of the last
closing frame, and — for a packet begun in the command phase — the payload after the command byte
whenever the receive mode is on (`receiveMode`).
-/

namespace Proxy

open Framing FromClientFields

/-! ## The history as folds -/

/-- The command after one more logical packet: only a packet begun in the command phase that has
a first payload byte names one. -/
def commandAfter (command : MySqlCommand.Command) (m : Message StampedByte) :
    MySqlCommand.Command :=
  match m.payload with
  | (c, .COMMAND_PHASE) :: _ => ⟨c⟩
  | _ => command

/-- The command the last logical packet with one has named. -/
def lastCommand (ms : List (Message StampedByte)) : MySqlCommand.Command :=
  ms.foldl commandAfter .UNKNOWN

/-- The receive mode while the packet `m` is read. -/
def modeDuring (mode : Bool) (m : Message StampedByte) : Bool :=
  match m.payload with
  | (c, .COMMAND_PHASE) :: _ => mode || MySqlCommand.hasSqlField ⟨c⟩
  | _ => mode

/-- The receive mode after one more logical packet: off, unless its closing frame is empty. -/
def modeAfter (mode : Bool) (m : Message StampedByte) : Bool :=
  modeDuring mode m && m.last.payload.isEmpty

/-- The receive mode between packets. -/
def receiveMode (ms : List (Message StampedByte)) : Bool := ms.foldl modeAfter false

theorem lastCommand_append (ms : List (Message StampedByte)) (m : Message StampedByte) :
    lastCommand (ms ++ [m]) = commandAfter (lastCommand ms) m := by
  simp [lastCommand, List.foldl_append]

/-- An empty packet, and one begun in the connection phase, names no command. -/
theorem commandAfter_eq_self {command : MySqlCommand.Command} {m : Message StampedByte}
    (h : ∀ c rest, m.payload ≠ (c, .COMMAND_PHASE) :: rest) : commandAfter command m = command := by
  unfold commandAfter
  split
  · rename_i c rest hpayload
    exact absurd hpayload (h c rest)
  · rfl

/-! ## One step -/

namespace Contents

theorem command_afterMessage (m : Message StampedByte) (contents : Contents) :
    (contents.afterMessage m).command = commandAfter contents.command m := by
  cases hpayload : m.payload with
  | nil => rw [afterMessage_nil hpayload, commandAfter_eq_self (by simp [hpayload])]
  | cons x rest =>
    obtain ⟨b, st⟩ := x
    rw [afterMessage_cons hpayload]
    cases st <;> simp [commandAfter, hpayload, opened, startCommand]

theorem mode_afterMessage (m : Message StampedByte) (contents : Contents) :
    (contents.afterMessage m).sqlDataReceiving = modeAfter contents.sqlDataReceiving m := by
  cases hpayload : m.payload with
  | nil =>
    -- an empty packet is one empty frame
    have hlast := (Message.payload_eq_nil_iff.mp hpayload).2
    rw [afterMessage_nil hpayload]
    simp [modeAfter, modeDuring, hpayload, hlast]
  | cons x rest =>
    obtain ⟨b, st⟩ := x
    rw [afterMessage_cons hpayload]
    cases st <;> simp [closePacket_mode, modeAfter, modeDuring, hpayload, opened, startCommand]

/-- The SQL string of a packet begun in the command phase. -/
theorem sql_afterMessage {m : Message StampedByte} {c : UInt8} {rest : List StampedByte}
    (hpayload : m.payload = (c, .COMMAND_PHASE) :: rest) (contents : Contents) :
    (contents.afterMessage m).sql
      = if modeDuring contents.sqlDataReceiving m then rest.map Prod.fst else [] := by
  rw [afterMessage_cons hpayload]
  simp [appendData, opened, startCommand, modeDuring, hpayload]

end Contents

variable [BasicString.Library]

namespace FromClientFields

theorem command_afterMessage {packet packet' : FromClientFields} {m : Message StampedByte}
    (h : packet.afterMessage m = .ok packet') :
    packet'.command = commandAfter packet.command m := by
  have hcommand := packet.contents.command_afterMessage m
  rw [← (afterMessage_ok_iff.mp h).2.1] at hcommand
  exact hcommand

theorem mode_afterMessage {packet packet' : FromClientFields} {m : Message StampedByte}
    (h : packet.afterMessage m = .ok packet') :
    packet'.sqlDataReceiving = modeAfter packet.sqlDataReceiving m := by
  have hmode := packet.contents.mode_afterMessage m
  rw [← (afterMessage_ok_iff.mp h).2.1] at hmode
  exact hmode

/-- The SQL string of a packet begun in the command phase. -/
theorem sqlString_afterMessage {packet packet' : FromClientFields} {m : Message StampedByte}
    {c : UInt8} {rest : List StampedByte} (hpayload : m.payload = (c, .COMMAND_PHASE) :: rest)
    (h : packet.afterMessage m = .ok packet') :
    packet'.sqlString.chars
      = if modeDuring packet.sqlDataReceiving m then rest.map Prod.fst else [] := by
  have hsql := packet.contents.sql_afterMessage hpayload
  rw [← (afterMessage_ok_iff.mp h).2.1] at hsql
  exact hsql

/-- A packet begun in the command phase that is not rejected, if its command is valid, has the
sequence id 0. -/
theorem seq_of_afterMessage {packet packet' : FromClientFields} {m : Message StampedByte}
    {c : UInt8} {rest : List StampedByte} (hpayload : m.payload = (c, .COMMAND_PHASE) :: rest)
    (hvalid : MySqlCommand.isValid ⟨c⟩ = true) (h : packet.afterMessage m = .ok packet') :
    m.first.seq.1 = 0 := by
  by_contra hseq
  exact (afterMessage_ok_iff.mp h).1 _ _ hpayload ⟨rfl, hvalid, hseq⟩

end FromClientFields

/-! ## Whole histories -/

namespace FromClientPacket

/-- **The state after a history of logical packets.** -/
structure Remembers (ms : List (Message StampedByte)) (packet : FromClientPacket) : Prop where
  command : packet.derived.command = lastCommand ms
  mode : packet.derived.sqlDataReceiving = receiveMode ms

theorem remembers_of_feedAll {ms : List (Message StampedByte)} {packet : FromClientPacket}
    (h : initial.feedAll (ms.flatMap Message.encode) = .ok packet) : Remembers ms packet := by
  obtain ⟨hrun, -⟩ := feedAll_messages_ok MySqlPacket.betweenPackets_initial h
  exact ⟨Fallible.run_project FromClientFields.command commandAfter
      (fun _ _ _ hstep => command_afterMessage hstep) hrun,
    Fallible.run_project FromClientFields.sqlDataReceiving modeAfter
      (fun _ _ _ hstep => mode_afterMessage hstep) hrun⟩

/-- The last logical packet of a history, with the state before it. -/
theorem feedAll_snoc_message {ms : List (Message StampedByte)} {m : Message StampedByte}
    {packet : FromClientPacket}
    (h : initial.feedAll ((ms ++ [m]).flatMap Message.encode) = .ok packet) :
    ∃ before : FromClientPacket, initial.feedAll (ms.flatMap Message.encode) = .ok before ∧
      Remembers ms before ∧ before.derived.afterMessage m = .ok packet.derived ∧
      packet.toMySqlPacket = MySqlPacket.closed m := by
  have hbase := Packet.feedAll_base h
  have hclosed : packet.toMySqlPacket = MySqlPacket.closed m := by
    rw [hbase]
    exact MySqlPacket.advanceAll_messages MySqlPacket.betweenPackets_initial ms m
  rw [List.flatMap_append, List.flatMap_singleton] at h
  -- the packets before the last lead to a state between packets, and the last one is `afterMessage`
  obtain ⟨before, hbefore, hlast⟩ := Fallible.run_append_ok.mp h
  have hbetween := (feedAll_messages_ok MySqlPacket.betweenPackets_initial hbefore).2
  refine ⟨before, hbefore, remembers_of_feedAll hbefore, ?_, hclosed⟩
  rw [← Packet.feedAll, feedAll_message hbetween] at hlast
  obtain ⟨derived, hafter, hpacket⟩ := Fallible.map_ok_iff.mp hlast
  rw [← hpacket]
  exact hafter

/-- The name a received packet would be logged under: the last command, at the length of the last
closing frame. -/
theorem getCommandString_of_feedAll {ms : List (Message StampedByte)} {m : Message StampedByte}
    {packet : FromClientPacket}
    (h : initial.feedAll ((ms ++ [m]).flatMap Message.encode) = .ok packet) :
    packet.getCommandString
      = MySqlCommand.name (lastCommand (ms ++ [m])) m.last.payload.length := by
  obtain ⟨before, -, hbefore, hafter, hclosed⟩ := feedAll_snoc_message h
  rw [getCommandString, command_afterMessage hafter, hbefore.command, lastCommand_append, hclosed,
    MySqlPacket.closed, toNat_ofNat_of_le m.last.length_le]

end FromClientPacket
end Proxy
