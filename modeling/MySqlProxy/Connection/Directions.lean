import MySqlProxy.Connection.Logging
import MySqlProxy.Lib.Sampling

/-!
# The two directions of a connection, taken apart

The two directions of a connection share one variable, the connection state: the server bytes
write it and the client bytes are stamped with it. So the server side of a run is a function of the
server bytes alone, and once the client reads are stamped with the states it prescribes
(`clientChunks`) the client side is a sampled run of `feed` (`run_reads`). A run of reads throws
where that sampled run fails (`throwsAtRead_iff`).
-/

namespace Proxy

open Framing

/-! ## The two directions of a list of reads -/

def clientReads (reads : List LoggedRead) : List LoggedRead :=
  reads.filter fun read => read.fromClientToServer

def serverReads (reads : List LoggedRead) : List LoggedRead :=
  reads.filter fun read => !read.fromClientToServer

/-- The bytes the server has sent. -/
def serverBytes (reads : List LoggedRead) : List UInt8 :=
  (serverReads reads).flatMap LoggedRead.bytes

/-- The chunks of stamped bytes the client reads feed to the client packet, from a server side
that stands at `base` in the state `st`. -/
def clientChunks (base : MySqlPacket) (st : MySqlConnectionState) :
    List LoggedRead → List (List StampedByte)
  | [] => []
  | read :: reads =>
    if read.fromClientToServer then stamp st read.bytes :: clientChunks base st reads
    else
      clientChunks (base.advanceAll read.bytes) (FromServerPacket.phaseAfter base st read.bytes)
        reads

/-- The chunks of reads that are all handled in one connection state. -/
def chunks (st : MySqlConnectionState) (reads : List LoggedRead) : List (List StampedByte) :=
  reads.map fun read => stamp st read.bytes

section Directions

variable {base : MySqlPacket} {st : MySqlConnectionState} {read : LoggedRead}
  (reads : List LoggedRead)

theorem clientReads_cons_client (h : read.fromClientToServer = true) :
    clientReads (read :: reads) = read :: clientReads reads := List.filter_cons_of_pos h

theorem clientReads_cons_server (h : read.fromClientToServer = false) :
    clientReads (read :: reads) = clientReads reads := List.filter_cons_of_neg (by simp [h])

theorem serverBytes_cons_client (h : read.fromClientToServer = true) :
    serverBytes (read :: reads) = serverBytes reads := by
  rw [serverBytes, serverReads, List.filter_cons_of_neg (by simp [h])]
  rfl

theorem serverBytes_cons_server (h : read.fromClientToServer = false) :
    serverBytes (read :: reads) = read.bytes ++ serverBytes reads := by
  rw [serverBytes, serverReads, List.filter_cons_of_pos (by simp [h])]
  rfl

theorem clientChunks_cons_client (h : read.fromClientToServer = true) :
    clientChunks base st (read :: reads) = stamp st read.bytes :: clientChunks base st reads := by
  rw [clientChunks, if_pos h]

theorem clientChunks_cons_server (h : read.fromClientToServer = false) :
    clientChunks base st (read :: reads)
      = clientChunks (base.advanceAll read.bytes)
          (FromServerPacket.phaseAfter base st read.bytes) reads := by
  rw [clientChunks, if_neg (by simp [h])]

/-- While the connection state stays what it is, the client reads are stamped with it. Induction on
the reads: a server read on the way cannot change the state and change it back. -/
theorem clientChunks_of_constant
    (h : FromServerPacket.phaseAfter base st (serverBytes reads) = st) :
    clientChunks base st reads = chunks st (clientReads reads) := by
  induction reads generalizing base with
  | nil => rfl
  | cons read reads ih =>
    cases hdir : read.fromClientToServer with
    | true =>
      rw [serverBytes_cons_client _ hdir] at h
      rw [clientChunks_cons_client _ hdir, ih h, clientReads_cons_client _ hdir]
      rfl
    | false =>
      rw [serverBytes_cons_server _ hdir, FromServerPacket.phaseAfter_append] at h
      have hread : FromServerPacket.phaseAfter base st read.bytes = st := by
        cases st with
        | COMMAND_PHASE => exact FromServerPacket.phaseAfter_command base read.bytes
        | CONNECTION_PHASE =>
          cases hst : FromServerPacket.phaseAfter base .CONNECTION_PHASE read.bytes with
          | CONNECTION_PHASE => rfl
          | COMMAND_PHASE =>
            rw [hst, FromServerPacket.phaseAfter_command] at h
            exact absurd h (by decide)
      rw [hread] at h
      rw [clientChunks_cons_server _ hdir, hread, ih h, clientReads_cons_server _ hdir]

end Directions

/-! ## A run of reads, taken apart -/

variable [BasicString.Library]

namespace Connection

omit [BasicString.Library] in
theorem afterServer_append (xs ys : List UInt8) (connection : Connection) :
    connection.afterServer (xs ++ ys) = (connection.afterServer xs).afterServer ys := by
  simp only [afterServer, MySqlPacket.advanceAll_append, FromServerPacket.phaseAfter_append]

end Connection

/-- The client reads of a run from `s`, as chunks. -/
def chunksFrom (s : Connection × PacketLogger) (reads : List LoggedRead) :
    List (List StampedByte) :=
  clientChunks s.1.serverPacket.toMySqlPacket s.1.connectionState reads

/-- The state after reads whose client side left `packet` and logged `seen`. -/
def afterReads (s : Connection × PacketLogger) (reads : List LoggedRead)
    (packet : FromClientPacket) (seen : List LogRecord) : Connection × PacketLogger :=
  ({ s.1.afterServer (serverBytes reads) with
      clientPacket := packet
      clientStream := s.1.clientStream ++ (chunksFrom s reads).flatten },
    s.2.write seen)

/-- **Reads, taken apart.** A run of reads is the server side, which never throws, next to the
sampled feeding of the client packet. Induction on the reads. -/
theorem run_reads {s t : Connection × PacketLogger} {reads : List LoggedRead} :
    Fallible.run logRead s reads = .ok t ↔
      ∃ packet seen, Fallible.sample Packet.feed FromClientPacket.logRecord s.1.clientPacket
          (chunksFrom s reads) = .ok (packet, seen) ∧
        t = afterReads s reads packet seen := by
  induction reads generalizing s with
  | nil =>
    have hnil : afterReads s [] s.1.clientPacket [] = s := by
      simp [afterReads, chunksFrom, clientChunks, serverBytes, serverReads, Connection.afterServer,
        FromServerPacket.phaseAfter]
    simp [chunksFrom, clientChunks, hnil, eq_comm]
  | cons read reads ih =>
    rw [Fallible.run_cons_ok]
    cases hdir : read.fromClientToServer with
    | false =>
      -- a server read moves the server side, and the client side is read on from there
      have hstart : chunksFrom s (read :: reads)
          = chunksFrom (s.1.afterServer read.bytes, s.2) reads :=
        clientChunks_cons_server reads hdir
      have hafter : ∀ packet seen, afterReads s (read :: reads) packet seen
          = afterReads (s.1.afterServer read.bytes, s.2) reads packet seen := by
        intro packet seen
        rw [afterReads, afterReads, hstart, serverBytes_cons_server reads hdir,
          Connection.afterServer_append]
        rfl
      rw [logRead_server hdir, hstart]
      simp only [Except.ok.injEq, hafter, exists_eq_left', ih]
      rfl
    | true =>
      have hchunks : chunksFrom s (read :: reads)
          = stamp s.1.connectionState read.bytes :: chunksFrom s reads :=
        clientChunks_cons_client reads hdir
      rw [hchunks]
      constructor
      · rintro ⟨u, hread, hrun⟩
        obtain ⟨packet, hfeed, rfl⟩ := (logRead_client_ok hdir).mp hread
        obtain ⟨packet', seen, hsample, rfl⟩ := ih.mp hrun
        refine ⟨packet', packet.logRecord.toList ++ seen,
          Fallible.sample_cons_ok.mpr ⟨packet, seen, hfeed, hsample, rfl⟩, ?_⟩
        simp only [afterReads, hchunks, serverBytes_cons_client reads hdir, List.flatten_cons,
          List.append_assoc, PacketLogger.write_write]
        rfl
      · rintro ⟨packet', seen, hsample, rfl⟩
        obtain ⟨packet, rest, hfeed, hsample', rfl⟩ := Fallible.sample_cons_ok.mp hsample
        refine ⟨_, (logRead_client_ok hdir).mpr ⟨packet, hfeed, rfl⟩, ?_⟩
        refine ih.mpr ⟨packet', rest, hsample', ?_⟩
        simp only [afterReads, hchunks, serverBytes_cons_client reads hdir, List.flatten_cons,
          List.append_assoc, PacketLogger.write_write]
        rfl

/-! ## Where a run of reads throws -/

omit [BasicString.Library] in
theorem clientChunks_append (base : MySqlPacket) (st : MySqlConnectionState)
    (xs ys : List LoggedRead) :
    clientChunks base st (xs ++ ys)
      = clientChunks base st xs ++ clientChunks (base.advanceAll (serverBytes xs))
          (FromServerPacket.phaseAfter base st (serverBytes xs)) ys := by
  induction xs generalizing base st with
  | nil => rfl
  | cons read xs ih =>
    rw [List.cons_append]
    cases hdir : read.fromClientToServer with
    | true =>
      rw [clientChunks_cons_client _ hdir, clientChunks_cons_client _ hdir,
        serverBytes_cons_client _ hdir, ih, List.cons_append]
    | false =>
      rw [clientChunks_cons_server _ hdir, clientChunks_cons_server _ hdir,
        serverBytes_cons_server _ hdir, ih, MySqlPacket.advanceAll_append,
        FromServerPacket.phaseAfter_append]

omit [BasicString.Library] in
theorem length_clientChunks (base : MySqlPacket) (st : MySqlConnectionState)
    (reads : List LoggedRead) :
    (clientChunks base st reads).length = (clientReads reads).length := by
  induction reads generalizing base st with
  | nil => rfl
  | cons read reads ih =>
    cases hdir : read.fromClientToServer with
    | true =>
      rw [clientChunks_cons_client _ hdir, clientReads_cons_client _ hdir, List.length_cons,
        List.length_cons, ih]
    | false =>
      rw [clientChunks_cons_server _ hdir, clientReads_cons_server _ hdir, ih]

omit [BasicString.Library] in
/-- A chunk is a client read, at the place in the reads where it is handled. -/
theorem exists_read_of_chunk {base : MySqlPacket} {st : MySqlConnectionState}
    {reads : List LoggedRead} {pre post : List (List StampedByte)} {chunk : List StampedByte}
    (h : clientChunks base st reads = pre ++ chunk :: post) :
    ∃ front read back, reads = front ++ read :: back ∧ read.fromClientToServer = true ∧
      clientChunks base st front = pre ∧
      chunk = stamp (FromServerPacket.phaseAfter base st (serverBytes front)) read.bytes := by
  induction reads generalizing base st pre with
  | nil => exact absurd h (by simp [clientChunks])
  | cons read reads ih =>
    cases hdir : read.fromClientToServer with
    | true =>
      rw [clientChunks_cons_client _ hdir] at h
      cases pre with
      | nil =>
        obtain ⟨rfl, -⟩ := List.cons.inj h
        exact ⟨[], read, reads, rfl, hdir, rfl, rfl⟩
      | cons c pre =>
        obtain ⟨rfl, hrest⟩ := List.cons.inj h
        obtain ⟨front, r, back, rfl, hr, rfl, rfl⟩ := ih hrest
        refine ⟨read :: front, r, back, rfl, hr, clientChunks_cons_client _ hdir, ?_⟩
        rw [serverBytes_cons_client _ hdir]
    | false =>
      rw [clientChunks_cons_server _ hdir] at h
      obtain ⟨front, r, back, rfl, hr, rfl, rfl⟩ := ih h
      refine ⟨read :: front, r, back, rfl, hr, clientChunks_cons_server _ hdir, ?_⟩
      rw [serverBytes_cons_server _ hdir, FromServerPacket.phaseAfter_append]

/-- The run throws `e` at the read after `n` client reads, with the records `log` written. -/
def ThrowsAtRead (reads : List LoggedRead) (n : Nat) (e : Exception) (log : List LogRecord) :
    Prop :=
  ∃ front read back s, reads = front ++ read :: back ∧ (clientReads front).length = n ∧
    Fallible.run logRead logStart front = .ok s ∧ logRead s read = .error e ∧ s.2.logFile = log

theorem logRead_client_error {s : Connection × PacketLogger} {read : LoggedRead} {e : Exception}
    (hdir : read.fromClientToServer = true) :
    logRead s read = .error e ↔
      s.1.clientPacket.feedAll (stamp s.1.connectionState read.bytes) = .error e := by
  obtain ⟨connection, logger⟩ := s
  rw [logRead, hdir, Connection.doPacketLogging_client, List.take_length]
  cases connection.clientPacket.feedAll (stamp connection.connectionState read.bytes) <;>
    simp [Except.map]

/-- **A run of reads throws where the feeding of its chunks fails.** -/
theorem throwsAtRead_iff {reads : List LoggedRead} {n : Nat} {e : Exception}
    {log : List LogRecord} :
    ThrowsAtRead reads n e log ↔
      Fallible.SampleFailsAt Packet.feed FromClientPacket.logRecord FromClientPacket.initial
        (chunksFrom logStart reads) n e log := by
  constructor
  · rintro ⟨front, read, back, s, rfl, rfl, hfront, hread, rfl⟩
    obtain ⟨packet, seen, hsample, rfl⟩ := run_reads.mp hfront
    cases hdir : read.fromClientToServer with
    | false =>
      rw [logRead_server hdir] at hread
      exact absurd hread (by simp)
    | true =>
      have hchunks := clientChunks_append {} .CONNECTION_PHASE front (read :: back)
      rw [clientChunks_cons_client _ hdir] at hchunks
      exact ⟨_, _, _, packet, hchunks, length_clientChunks _ _ front, hsample,
        (logRead_client_error hdir).mp hread⟩
  · rintro ⟨pre, chunk, post, packet, hchunks, rfl, hsample, hchunk⟩
    obtain ⟨front, read, back, rfl, hdir, rfl, rfl⟩ := exists_read_of_chunk hchunks
    exact ⟨front, read, back, afterReads logStart front packet log, rfl,
      (length_clientChunks _ _ front).symm, run_reads.mpr ⟨packet, log, hsample, rfl⟩,
      (logRead_client_error hdir).mpr hchunk, rfl⟩

end Proxy
