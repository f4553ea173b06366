import MySqlProxy.Connection.Forwarding
import MySqlProxy.Connection.Directions
import MySqlProxy.Lib.SharedLog
import MySqlProxy.Lib.Simulation

/-!
# What flows through a connection

A connection as its transfers see it. The outstanding operations and whether a socket is open
decide which transfers happen; what they do depends on the rest, the `traffic` (`transfer_congr`).
A transfer hands the log back with at most one record appended, whatever is in it
(`onlyAppends_carry`), so the transfers of all connections are `SharedLog.turn`s.

Two facts about the bytes follow for a whole run of transfers: the parser of the client side has
been fed with all that the client reads have delivered (`clientStream_run`), and each socket has
been written a prefix of every read of the other side, in order (`sent_run`).
-/

namespace Proxy

/-! ## Traffic -/

namespace Connection

/-- A connection without its operations, and with both sockets open. -/
def traffic (connection : Connection) : Connection :=
  { connection with
    clientSocket := { connection.clientSocket with isOpen := true }
    serverSocket := { connection.serverSocket with isOpen := true }
    operations := [] }

/-- What a function sees of the traffic it sees the same in connections with the same traffic. -/
theorem eq_of_traffic {β : Type} (f : Connection → β) (hf : ∀ c, f c.traffic = f c)
    {connection connection' : Connection} (h : connection.traffic = connection'.traffic) :
    f connection = f connection' := by
  rw [← hf connection, h, hf connection']

@[simp] theorem traffic_setOperations (connection : Connection) (operations : List Operation) :
    ({ connection with operations := operations } : Connection).traffic = connection.traffic := rfl

@[simp] theorem traffic_stop (connection : Connection) :
    connection.stop.traffic = connection.traffic := rfl

@[simp] theorem traffic_doReceive (connection : Connection) :
    connection.doReceive.traffic = connection.traffic := rfl

theorem traffic_start {openResult : OpenResult} {connection connection' : Connection}
    (h : connection.start openResult = .ok connection') :
    connection'.traffic = connection.traffic := by
  cases openResult with
  | opened =>
    cases h
    rfl
  | failed what => cases h

end Connection

section

variable [BasicString.Library]

/-- Packet logging looks at the bytes of the read only. -/
theorem Connection.doPacketLogging_take (buffer : List UInt8) (n : Nat) (dir : Bool)
    (s : Connection × PacketLogger) :
    doPacketLogging buffer n dir s
      = doPacketLogging (buffer.take n) (buffer.take n).length dir s := by
  unfold doPacketLogging
  rw [List.take_length]

/-- The read of a transfer, as it is logged. -/
def Transfer.logged (x : Transfer) : LoggedRead :=
  ⟨x.fromClientToServer, x.read.bytes, x.read.ne_nil⟩

/-- What a transfer leaves of a connection that has logged the read: a prefix of it is written, and
the next read is started. -/
def Connection.forward (dir : Bool) (bytes : List UInt8) (connection : Connection) : Connection :=
  { connection.setSendTo dir { connection.sendTo dir with
      sent := (connection.sendTo dir).sent ++ bytes } with
    operations := connection.operations ++ [.transfer dir none] }

/-- **A transfer, taken apart.** -/
theorem transfer_eq (s : Connection × PacketLogger) (x : Transfer) :
    transfer s x = (logRead (s.1.fill x.fromClientToServer x.read, s.2) x.logged).bind fun u =>
      match x.sendResult with
      | .written k => .ok (u.1.forward x.fromClientToServer (x.read.bytes.take k), u.2)
      | .failed what => .error (.systemError what) := by
  have hlog : Connection.doPacketLogging
      ((s.1.fill x.fromClientToServer x.read).readBuffer x.fromClientToServer).data
      x.read.bytes.length x.fromClientToServer (s.1.fill x.fromClientToServer x.read, s.2)
      = logRead (s.1.fill x.fromClientToServer x.read, s.2) x.logged := by
    rw [Connection.doPacketLogging_take, Connection.take_readBuffer_fill]
    rfl
  unfold transfer Connection.doTransfer
  dsimp only
  rw [hlog, Connection.take_readBuffer_fill]
  show Except.bind (logRead (s.1.fill x.fromClientToServer x.read, s.2) x.logged) _ = _
  apply congrArg
  funext u
  cases x.sendResult with
  | written k =>
    cases x.fromClientToServer <;> rfl
  | failed what => rfl

theorem transfer_eq_ok_iff {s s' : Connection × PacketLogger} {x : Transfer} :
    transfer s x = .ok s' ↔
      ∃ u k, logRead (s.1.fill x.fromClientToServer x.read, s.2) x.logged = .ok u ∧
        x.sendResult = .written k ∧
        s' = (u.1.forward x.fromClientToServer (x.read.bytes.take k), u.2) := by
  rw [transfer_eq]
  cases logRead (s.1.fill x.fromClientToServer x.read, s.2) x.logged with
  | error e => simp [Except.bind]
  | ok u =>
    cases x.sendResult with
    | written k => simp [Except.bind, eq_comm]
    | failed what => simp [Except.bind]

/-! ## What a read depends on -/

namespace Connection

/-- What packet logging reads and writes of a connection, the rest as constructed. -/
def parsers (connection : Connection) : Connection :=
  { construct with
    connectionState := connection.connectionState
    clientPacket := connection.clientPacket
    serverPacket := connection.serverPacket
    clientStream := connection.clientStream }

/-- Write what packet logging writes. -/
def setParsers (st : MySqlConnectionState) (client : FromClientPacket) (server : FromServerPacket)
    (stream : List StampedByte) (connection : Connection) : Connection :=
  { connection with
    connectionState := st
    clientPacket := client
    serverPacket := server
    clientStream := stream }

/-- A function on connections that lets what packet logging writes through. -/
def Transparent (f : Connection → Connection) : Prop :=
  ∀ (connection : Connection) (st : MySqlConnectionState) (client : FromClientPacket)
    (server : FromServerPacket) (stream : List StampedByte),
    f (connection.setParsers st client server stream)
      = (f connection).setParsers st client server stream

theorem transparent_parsers : Transparent parsers := fun _ _ _ _ _ => rfl

omit [BasicString.Library] in
theorem transparent_traffic : Transparent traffic := fun _ _ _ _ _ => rfl

end Connection

/-- Logging a read commutes with what is transparent to it. -/
theorem logRead_comm {f : Connection → Connection} (hf : Connection.Transparent f)
    (connection : Connection) (logger : PacketLogger) (read : LoggedRead) :
    logRead (f connection, logger) read
      = (logRead (connection, logger) read).map fun u => (f u.1, u.2) := by
  -- the fields read are handed through
  have hself : f connection = (f connection).setParsers connection.connectionState
      connection.clientPacket connection.serverPacket connection.clientStream := hf connection ..
  have hst : (f connection).connectionState = connection.connectionState := by
    rw [hself]
    rfl
  have hclient : (f connection).clientPacket = connection.clientPacket := by
    rw [hself]
    rfl
  have hserver : (f connection).serverPacket = connection.serverPacket := by
    rw [hself]
    rfl
  have hstream : (f connection).clientStream = connection.clientStream := by
    rw [hself]
    rfl
  cases hdir : read.fromClientToServer with
  | true =>
    rw [logRead, logRead, hdir, Connection.doPacketLogging_client,
      Connection.doPacketLogging_client, hclient, hst]
    cases connection.clientPacket.feedAll
        (stamp connection.connectionState (read.bytes.take read.bytes.length)) with
    | error e => rfl
    | ok packet =>
      show Except.ok ((f connection).setParsers connection.connectionState packet
          (f connection).serverPacket ((f connection).clientStream ++ _), _)
        = Except.ok (f (connection.setParsers connection.connectionState packet
          connection.serverPacket (connection.clientStream ++ _)), _)
      rw [hf, hserver, hstream]
  | false =>
    rw [logRead_server hdir, logRead_server hdir]
    show Except.ok ((f connection).setParsers
        (FromServerPacket.phaseAfter (f connection).serverPacket.toMySqlPacket
          (f connection).connectionState read.bytes) (f connection).clientPacket
        ⟨(f connection).serverPacket.toMySqlPacket.advanceAll read.bytes,
          (f connection).serverPacket.derived⟩ (f connection).clientStream, logger)
      = Except.ok (f (connection.setParsers _ connection.clientPacket _ connection.clientStream),
          logger)
    rw [hf, hclient, hst, hserver, hstream]

/-- The traffic, and the log. -/
def view (s : Connection × PacketLogger) : Connection × PacketLogger := (s.1.traffic, s.2)

theorem transfer_traffic (connection : Connection) (logger : PacketLogger) (x : Transfer) :
    (transfer (connection.traffic, logger) x).map view
      = (transfer (connection, logger) x).map view := by
  have hfill : connection.traffic.fill x.fromClientToServer x.read
      = (connection.fill x.fromClientToServer x.read).traffic := by
    cases x.fromClientToServer <;> rfl
  rw [transfer_eq, transfer_eq, hfill, logRead_comm Connection.transparent_traffic]
  cases logRead (connection.fill x.fromClientToServer x.read, logger) x.logged with
  | error e => rfl
  | ok u =>
    cases x.sendResult with
    | written k =>
      cases x.fromClientToServer <;> rfl
    | failed what => rfl

/-- **A transfer depends on the traffic.** -/
theorem transfer_congr {connection connection' : Connection} {logger : PacketLogger}
    {x : Transfer} {s : Connection × PacketLogger}
    (h : connection.traffic = connection'.traffic) (hok : transfer (connection, logger) x = .ok s) :
    ∃ s', transfer (connection', logger) x = .ok s' ∧ s'.1.traffic = s.1.traffic ∧ s'.2 = s.2 := by
  have hview : (transfer (connection', logger) x).map view = .ok (view s) := by
    rw [← transfer_traffic, ← h, transfer_traffic, hok]
    rfl
  obtain ⟨s', hs', hsame⟩ := Fallible.map_ok_iff.mp hview
  have htraffic : (view s').1 = (view s).1 := by rw [hsame]
  have hlog : (view s').2 = (view s).2 := by rw [hsame]
  exact ⟨s', hs', htraffic, hlog⟩

/-- To the parsers a transfer is the logging of its read. -/
theorem logRead_of_transfer {s t : Connection × PacketLogger} {x : Transfer}
    (h : transfer s x = .ok t) :
    logRead (s.1.parsers, s.2) x.logged = .ok (t.1.parsers, t.2) := by
  obtain ⟨u, k, hlog, -, rfl⟩ := transfer_eq_ok_iff.mp h
  have hfill : (s.1.fill x.fromClientToServer x.read).parsers = s.1.parsers := by
    cases x.fromClientToServer <;> rfl
  have hforward : (u.1.forward x.fromClientToServer (x.read.bytes.take k)).parsers
      = u.1.parsers := by
    cases x.fromClientToServer <;> rfl
  show logRead (s.1.parsers, s.2) x.logged = .ok ((u.1.forward _ _).parsers, u.2)
  rw [← hfill, logRead_comm Connection.transparent_parsers, hlog, hforward]
  rfl

/-- A run of transfers is a run of reads. -/
theorem run_logRead_of_transfer {s t : Connection × PacketLogger} {xs : List Transfer}
    (h : Fallible.run transfer s xs = .ok t) :
    Fallible.run logRead (s.1.parsers, s.2) (xs.map Transfer.logged) = .ok (t.1.parsers, t.2) :=
  @Fallible.run_translate _ _ _ _ _ _ transfer logRead (fun s => (s.1.parsers, s.2))
    Transfer.logged (fun _ _ _ hstep => logRead_of_transfer hstep) _ _ _ h

/-! ## Transfers write to a shared log -/

/-- A transfer as a step of a component that is handed the records of the log. -/
def carry (s : Connection × List LogRecord) (x : Transfer) :
    Except Exception (Connection × List LogRecord) :=
  (transfer (s.1, { pending := s.2 }) x).map fun t => (t.1, t.2.logFile)

/-- Logging a read writes what it would write to an empty log. -/
theorem logRead_append (connection : Connection) (logger : PacketLogger) (read : LoggedRead) :
    logRead (connection, logger) read
      = (logRead (connection, {}) read).map fun u => (u.1, logger.write u.2.logFile) := by
  cases hdir : read.fromClientToServer with
  | true =>
    rw [logRead, logRead, hdir, Connection.doPacketLogging_client,
      Connection.doPacketLogging_client]
    cases connection.clientPacket.feedAll
        (stamp connection.connectionState (read.bytes.take read.bytes.length)) with
    | error e => rfl
    | ok packet => rfl
  | false =>
    rw [logRead_server hdir, logRead_server hdir]
    simp [Except.map, PacketLogger.logFile]

/-- So does a transfer. -/
theorem transfer_append (connection : Connection) (logger : PacketLogger) (x : Transfer) :
    transfer (connection, logger) x
      = (transfer (connection, {}) x).map fun u => (u.1, logger.write u.2.logFile) := by
  rw [transfer_eq, transfer_eq, logRead_append]
  cases logRead (connection.fill x.fromClientToServer x.read, {}) x.logged with
  | error e => rfl
  | ok u =>
    cases x.sendResult with
    | written k => rfl
    | failed what => rfl

theorem onlyAppends_carry : SharedLog.OnlyAppends carry := by
  intro connection log x
  unfold carry
  rw [transfer_append]
  cases transfer (connection, {}) x <;> rfl

/-- A run of one component is a run of transfers. -/
theorem run_transfer_of_carry {connection connection' : Connection} {log : List LogRecord}
    {xs : List Transfer} (h : Fallible.run carry (connection, []) xs = .ok (connection', log)) :
    Fallible.run transfer (connection, {}) xs = .ok (connection', { pending := log }) := by
  have hrun := @Fallible.run_translate _ _ _ _ _ _ carry transfer
    (fun s => (s.1, ({ pending := s.2 } : PacketLogger))) id (fun s x t hstep => by
      obtain ⟨u, hu, rfl⟩ := Fallible.map_ok_iff.mp hstep
      rw [transfer_append] at hu
      obtain ⟨v, hv, rfl⟩ := Fallible.map_ok_iff.mp hu
      rw [transfer_append, id, hv]
      rfl) _ _ _ h
  rw [List.map_id] at hrun
  exact hrun

/-! ## The bytes of a run of transfers -/

/-- The number of bytes the socket has accepted. -/
def SendResult.count : SendResult → Nat
  | .written k => k
  | .failed _ => 0

/-- The bytes the transfers of one direction have written. -/
def written (dir : Bool) (xs : List Transfer) : List UInt8 :=
  (xs.filter fun x => x.fromClientToServer == dir).flatMap fun x =>
    x.read.bytes.take x.sendResult.count

omit [BasicString.Library] in
theorem written_snoc_self (xs : List Transfer) (x : Transfer) :
    written x.fromClientToServer (xs ++ [x])
      = written x.fromClientToServer xs ++ x.read.bytes.take x.sendResult.count := by
  simp [written]

omit [BasicString.Library] in
theorem written_snoc_of_ne {dir : Bool} (xs : List Transfer) {x : Transfer}
    (h : x.fromClientToServer ≠ dir) : written dir (xs ++ [x]) = written dir xs := by
  simp [written, h]

omit [BasicString.Library] in
/-- What has been written is what has been delivered, less the tails that were not accepted. -/
theorem written_sublist_delivered (dir : Bool) (xs : List Transfer) :
    (written dir xs).Sublist (delivered dir xs) := by
  unfold written delivered
  induction xs.filter fun x => x.fromClientToServer == dir with
  | nil => exact List.Sublist.refl _
  | cons x xs ih => exact (List.take_sublist ..).append ih

/-- A transfer of the client side feeds its bytes to the parser. -/
theorem clientStream_transfer {s s' : Connection × PacketLogger} {x : Transfer}
    (h : transfer s x = .ok s') :
    s'.1.clientStream.map Prod.fst
      = s.1.clientStream.map Prod.fst ++ delivered true [x] := by
  obtain ⟨u, k, hlog, -, rfl⟩ := transfer_eq_ok_iff.mp h
  have hforward : ∀ (dir : Bool) (bytes : List UInt8),
      (u.1.forward dir bytes).clientStream = u.1.clientStream := by
    intro dir bytes
    cases dir <;> rfl
  show (u.1.forward _ _).clientStream.map Prod.fst = _
  rw [hforward]
  cases hdir : x.fromClientToServer with
  | true =>
    obtain ⟨packet, -, rfl⟩ := (logRead_client_ok hdir).mp hlog
    simp only [List.map_append, stamp, List.map_map, hdir, delivered]
    simp [Transfer.logged, Connection.fill, hdir, Function.comp_def]
  | false =>
    obtain ⟨-, hstream, -, -⟩ := logRead_server_ok hdir hlog
    rw [hstream, hdir]
    simp [delivered, hdir, Connection.fill]

/-- **All that is delivered is parsed.** Induction on the transfers from the right. -/
theorem clientStream_run {s s' : Connection × PacketLogger} {xs : List Transfer}
    (h : Fallible.run transfer s xs = .ok s') :
    s'.1.clientStream.map Prod.fst = s.1.clientStream.map Prod.fst ++ delivered true xs := by
  induction xs using List.reverseRecOn generalizing s' with
  | nil =>
    cases h
    exact (List.append_nil _).symm
  | append_singleton xs x ih =>
    obtain ⟨t, ht, hlast⟩ := Fallible.run_snoc_ok.mp h
    have hsplit : delivered true (xs ++ [x]) = delivered true xs ++ delivered true [x] := by
      simp [delivered]
    rw [clientStream_transfer hlast, ih ht, hsplit, List.append_assoc]

/-- **What is written of it.** Induction on the transfers from the right. -/
theorem sent_run {s s' : Connection × PacketLogger} {xs : List Transfer}
    (h : Fallible.run transfer s xs = .ok s') (dir : Bool) :
    (s'.1.sendTo dir).sent = (s.1.sendTo dir).sent ++ written dir xs := by
  induction xs using List.reverseRecOn generalizing s' with
  | nil =>
    cases h
    exact (List.append_nil _).symm
  | append_singleton xs x ih =>
    obtain ⟨t, ht, hlast⟩ := Fallible.run_snoc_ok.mp h
    obtain ⟨k, hk, hself, hother⟩ := transfer_ok hlast
    by_cases hdir : x.fromClientToServer = dir
    · subst hdir
      rw [hself, ih ht, written_snoc_self, hk, List.append_assoc]
      rfl
    · have hnot : dir = !x.fromClientToServer := Bool.eq_not_of_ne (Ne.symm hdir)
      rw [written_snoc_of_ne xs hdir, ← ih ht, hnot]
      exact hother

end

end Proxy
