import MySqlProxy.Connection.Connection
import MySqlProxy.Packet.History
import MySqlProxy.Packet.ServerWalk

/-!
# Logging along the reads of a connection

`do_packet_logging` by its effects. A client read feeds its bytes, all stamped with the state of
the connection, to the client packet and appends the record that packet then shows
(`doPacketLogging_client_ok`); it throws exactly when the feeding does. A server read never
throws, leaves the client packet and the log alone and can only move the connection state forward
(`doPacketLogging_server`).

A run is a list of reads, client and server interleaved, from a constructed connection. What holds
after every one of them is `Tracked`: the client packet is the initial one fed with
`clientStream`, whose stamps change at most once, from the connection to the command phase.
-/

namespace Proxy

open Framing

variable [BasicString.Library]

/-! ## Collecting the bytes of one read -/

/-- A client packet hands the connection state back as it got it. -/
theorem FromClientPacket.collect_state {packet : FromClientPacket} {b : UInt8}
    {st : MySqlConnectionState} {r : FromClientPacket × MySqlConnectionState}
    (h : packet.collect b st = .ok r) : r.2 = st := by
  by_cases hstate : packet.packetState = .PAYLOAD
  · by_cases hrecv : packet.receivedBytes = 0
    · rw [Packet.collect_first hstate hrecv, FromClientPacket.analyse_eq packet (b, st)] at h
      obtain ⟨analysed, hanalysed, hrest⟩ := Fallible.bind_ok_iff.mp h
      obtain ⟨derived, -, rfl⟩ := Fallible.map_ok_iff.mp hanalysed
      obtain ⟨collected, -, rfl⟩ := Fallible.map_ok_iff.mp hrest
      rfl
    · rw [Packet.collect_inner hstate hrecv] at h
      obtain ⟨derived, -, rfl⟩ := Fallible.map_ok_iff.mp h
      rfl
  · rw [Packet.collect_header hstate, Except.ok.injEq] at h
    rw [← h]

/-- Collecting client bytes is feeding them, stamped with the one connection state. -/
theorem FromClientPacket.collectBytes_eq (packet : FromClientPacket) (bytes : List UInt8)
    (st : MySqlConnectionState) :
    packet.collectBytes bytes st
      = (packet.feedAll (stamp st bytes)).map fun packet' => (packet', st) := by
  induction bytes generalizing packet with
  | nil => rfl
  | cons b bytes ih =>
    simp only [Packet.collectBytes, Packet.feedAll, stamp, List.map_cons, Fallible.run_cons,
      Packet.feed]
    cases hcollect : packet.collect b st with
    | error e => rfl
    | ok r =>
      -- the state comes back unchanged, so the next byte has the same stamp
      have hst := FromClientPacket.collect_state hcollect
      obtain ⟨packet', st'⟩ := r
      obtain rfl : st' = st := hst
      exact ih packet'

/-! ## One read -/

namespace Connection

/-- **A client read.** -/
theorem doPacketLogging_client (buffer : List UInt8) (n : Nat) (connection : Connection)
    (logger : PacketLogger) :
    doPacketLogging buffer n true (connection, logger)
      = (connection.clientPacket.feedAll (stamp connection.connectionState (buffer.take n))).map
          fun packet : FromClientPacket =>
            ({ connection with
                clientPacket := packet
                clientStream := connection.clientStream
                  ++ stamp connection.connectionState (buffer.take n) },
              logger.write packet.logRecord.toList) := by
  simp only [doPacketLogging, if_true, FromClientPacket.collectBytes_eq]
  cases connection.clientPacket.feedAll (stamp connection.connectionState (buffer.take n)) with
  | error e => rfl
  | ok packet =>
    simp only [Except.map, bind, Except.bind, stamp]
    -- the read is logged when the packet is received after its last byte
    cases hrecv : packet.isReceived with
    | false => simp [FromClientPacket.logRecord_of_not_received hrecv]
    | true =>
      have hlog := PacketLogger.packetLogger_fromClient hrecv logger
      rw [← hlog]
      rfl

theorem doPacketLogging_client_ok {buffer : List UInt8} {n : Nat} {connection : Connection}
    {logger : PacketLogger} {s' : Connection × PacketLogger} :
    doPacketLogging buffer n true (connection, logger) = .ok s' ↔
      ∃ packet : FromClientPacket, connection.clientPacket.feedAll
          (stamp connection.connectionState (buffer.take n)) = .ok packet ∧
        s' = ({ connection with
                clientPacket := packet
                clientStream := connection.clientStream
                  ++ stamp connection.connectionState (buffer.take n) },
              logger.write packet.logRecord.toList) := by
  rw [doPacketLogging_client]
  cases connection.clientPacket.feedAll (stamp connection.connectionState (buffer.take n)) with
  | error e => simp [Except.map]
  | ok packet => simp [Except.map, eq_comm]

/-- What bytes from the server leave behind. -/
def afterServer (bytes : List UInt8) (connection : Connection) : Connection :=
  { connection with
    serverPacket := ⟨connection.serverPacket.toMySqlPacket.advanceAll bytes,
      connection.serverPacket.derived⟩
    connectionState := FromServerPacket.phaseAfter connection.serverPacket.toMySqlPacket
      connection.connectionState bytes }

/-- **A server read.** -/
theorem doPacketLogging_server_eq (buffer : List UInt8) (n : Nat) (connection : Connection)
    (logger : PacketLogger) :
    doPacketLogging buffer n false (connection, logger)
      = .ok (connection.afterServer (buffer.take n), logger) := by
  simp only [doPacketLogging, Bool.false_eq_true, if_false, FromServerPacket.collectBytes_eq, bind,
    Except.bind, PacketLogger.packetLogger_fromServer]
  split <;> rfl

theorem doPacketLogging_server (buffer : List UInt8) (n : Nat) (connection : Connection)
    (logger : PacketLogger) :
    ∃ packet st, doPacketLogging buffer n false (connection, logger)
        = .ok ({ connection with serverPacket := packet, connectionState := st }, logger) ∧
      (connection.connectionState = .COMMAND_PHASE → st = .COMMAND_PHASE) := by
  refine ⟨_, _, doPacketLogging_server_eq buffer n connection logger, fun hst => ?_⟩
  rw [hst]
  exact FromServerPacket.phaseAfter_command _ _

end Connection

/-! ## Runs of reads -/

/-- One read of either side, as `do_packet_logging` gets it. -/
structure LoggedRead where
  fromClientToServer : Bool
  bytes : List UInt8
  ne_nil : bytes ≠ []

/-- Log one read. -/
def logRead (s : Connection × PacketLogger) (read : LoggedRead) :
    Except Exception (Connection × PacketLogger) :=
  Connection.doPacketLogging read.bytes read.bytes.length read.fromClientToServer s

/-- The state before the first read. -/
def logStart : Connection × PacketLogger := (Connection.construct, {})

theorem logRead_client_ok {s s' : Connection × PacketLogger} {read : LoggedRead}
    (hdir : read.fromClientToServer = true) :
    logRead s read = .ok s' ↔
      ∃ packet : FromClientPacket,
        s.1.clientPacket.feedAll (stamp s.1.connectionState read.bytes) = .ok packet ∧
        s' = ({ s.1 with
                clientPacket := packet
                clientStream := s.1.clientStream ++ stamp s.1.connectionState read.bytes },
              s.2.write packet.logRecord.toList) := by
  obtain ⟨connection, logger⟩ := s
  rw [logRead, hdir, Connection.doPacketLogging_client_ok, List.take_length]

theorem logRead_server {s : Connection × PacketLogger} {read : LoggedRead}
    (hdir : read.fromClientToServer = false) :
    logRead s read = .ok (s.1.afterServer read.bytes, s.2) := by
  obtain ⟨connection, logger⟩ := s
  rw [logRead, hdir, Connection.doPacketLogging_server_eq, List.take_length]

theorem logRead_server_ok {s s' : Connection × PacketLogger} {read : LoggedRead}
    (hdir : read.fromClientToServer = false) (h : logRead s read = .ok s') :
    s'.1.clientPacket = s.1.clientPacket ∧ s'.1.clientStream = s.1.clientStream ∧ s'.2 = s.2 ∧
      (s.1.connectionState = .COMMAND_PHASE → s'.1.connectionState = .COMMAND_PHASE) := by
  rw [logRead_server hdir, Except.ok.injEq] at h
  subst h
  refine ⟨rfl, rfl, rfl, fun hst => ?_⟩
  dsimp only [Connection.afterServer]
  rw [hst]
  exact FromServerPacket.phaseAfter_command _ _

/-! ## What every run keeps -/

/-- A stream whose stamps change at most once, and are all of the connection phase while that is
the state. -/
def Settled (st : MySqlConnectionState) (xs : List StampedByte) : Prop :=
  ∃ auth commands, xs = stamp .CONNECTION_PHASE auth ++ stamp .COMMAND_PHASE commands ∧
    (st = .CONNECTION_PHASE → commands = [])

omit [BasicString.Library] in
theorem settled_nil (st : MySqlConnectionState) : Settled st [] := ⟨[], [], rfl, fun _ => rfl⟩

omit [BasicString.Library] in
theorem Settled.append {st : MySqlConnectionState} {xs : List StampedByte} (h : Settled st xs)
    (bytes : List UInt8) : Settled st (xs ++ stamp st bytes) := by
  obtain ⟨auth, commands, rfl, hst⟩ := h
  cases st with
  | CONNECTION_PHASE =>
    obtain rfl : commands = [] := hst rfl
    exact ⟨auth ++ bytes, [], by simp [stamp], fun _ => rfl⟩
  | COMMAND_PHASE => exact ⟨auth, commands ++ bytes, by simp [stamp], fun h => by cases h⟩

omit [BasicString.Library] in
theorem Settled.forward {st st' : MySqlConnectionState} {xs : List StampedByte}
    (h : Settled st xs) (hst : st = .COMMAND_PHASE → st' = .COMMAND_PHASE) : Settled st' xs := by
  obtain ⟨auth, commands, rfl, hconnection⟩ := h
  refine ⟨auth, commands, rfl, fun hst' => hconnection ?_⟩
  cases st with
  | CONNECTION_PHASE => rfl
  | COMMAND_PHASE => exact absurd (hst rfl) (by rw [hst']; decide)

/-- The client side of a connection is the initial packet fed with the client stream. -/
structure Tracked (connection : Connection) : Prop where
  fed : FromClientPacket.initial.feedAll connection.clientStream = .ok connection.clientPacket
  settled : Settled connection.connectionState connection.clientStream

theorem tracked_construct : Tracked Connection.construct := ⟨rfl, settled_nil _⟩

/-- Feeding on is feeding the initial packet with a longer stream. -/
theorem Tracked.feedAll_append {c : Connection} (h : Tracked c) (xs : List StampedByte) :
    FromClientPacket.initial.feedAll (c.clientStream ++ xs) = c.clientPacket.feedAll xs :=
  Fallible.run_append_of_ok xs h.fed

theorem Tracked.congr {c c' : Connection} (h : Tracked c)
    (hpacket : c'.clientPacket = c.clientPacket)
    (hstream : c'.clientStream = c.clientStream)
    (hst : c.connectionState = .COMMAND_PHASE → c'.connectionState = .COMMAND_PHASE) :
    Tracked c' := by
  refine ⟨?_, ?_⟩
  · rw [hpacket, hstream]
    exact h.fed
  · rw [hstream]
    exact h.settled.forward hst

theorem Tracked.client {c : Connection} (h : Tracked c) {bytes : List UInt8}
    {packet : FromClientPacket}
    (hfeed : c.clientPacket.feedAll (stamp c.connectionState bytes) = .ok packet) :
    Tracked { c with
      clientPacket := packet
      clientStream := c.clientStream ++ stamp c.connectionState bytes } := by
  refine ⟨?_, h.settled.append bytes⟩
  rw [Packet.feedAll, Fallible.run_append_of_ok _ h.fed]
  exact hfeed

theorem tracked_doPacketLogging {buffer : List UInt8} {n : Nat} {fromClientToServer : Bool}
    {s s' : Connection × PacketLogger} (h : Tracked s.1)
    (hlog : Connection.doPacketLogging buffer n fromClientToServer s = .ok s') : Tracked s'.1 := by
  obtain ⟨connection, logger⟩ := s
  cases fromClientToServer with
  | true =>
    obtain ⟨packet, hfeed, rfl⟩ := Connection.doPacketLogging_client_ok.mp hlog
    exact h.client hfeed
  | false =>
    obtain ⟨packet, st, hok, hst⟩ := Connection.doPacketLogging_server buffer n connection logger
    rw [hok, Except.ok.injEq] at hlog
    subst hlog
    exact h.congr rfl rfl hst

theorem tracked_logRead {s s' : Connection × PacketLogger} {read : LoggedRead} (h : Tracked s.1)
    (hread : logRead s read = .ok s') : Tracked s'.1 :=
  tracked_doPacketLogging h hread

/-- **Every run is tracked.** -/
theorem tracked_run {s : Connection × PacketLogger} {reads : List LoggedRead}
    (h : Fallible.run logRead logStart reads = .ok s) : Tracked s.1 :=
  Fallible.run_invariant (fun _ _ _ hs hstep => tracked_logRead hs hstep) tracked_construct h

/-- The server's OK packet that ends the connection phase. -/
def serverOk : LoggedRead where
  fromClientToServer := false
  bytes := [7, 0, 0, 2, 0, 0, 0, 2, 0, 0, 0]
  ne_nil := by simp

/-- A client read. -/
def clientRead (bytes : List UInt8) (h : bytes ≠ []) : LoggedRead where
  fromClientToServer := true
  bytes := bytes
  ne_nil := h

example : (Fallible.run logRead logStart [serverOk]).map (fun s => s.1.connectionState)
    = .ok .COMMAND_PHASE := rfl

end Proxy
