import MySqlProxy.Connection.Directions

/-!
# The log and the cutting into reads

Logging a client read looks at the client packet once, at its end, so a list of client reads is a
sampled run of `feed` (`run_clientReads`, over `Lib/Sampling.lean`). A cutting gives the same log
as feeding the stream byte by byte exactly when no packet that would be logged ends strictly
inside a read (`logging_ignores_cutting_iff`).
-/

namespace Proxy

open Framing FromClientFields

/-! ## Client reads as a sampled run -/

/-- All the bytes of a list of reads. -/
def readBytes (reads : List LoggedRead) : List UInt8 := reads.flatMap LoggedRead.bytes

/-- The client reads that deliver every byte by itself. -/
def byteReads (bytes : List UInt8) : List LoggedRead :=
  bytes.map fun b => { fromClientToServer := true, bytes := [b], ne_nil := by simp }

theorem stamp_append (st : MySqlConnectionState) (xs ys : List UInt8) :
    stamp st (xs ++ ys) = stamp st xs ++ stamp st ys := List.map_append

theorem flatten_chunks (st : MySqlConnectionState) (reads : List LoggedRead) :
    (chunks st reads).flatten = stamp st (readBytes reads) := by
  rw [readBytes, stamp, List.map_flatMap]
  rfl

theorem chunks_byteReads (st : MySqlConnectionState) (bytes : List UInt8) :
    chunks st (byteReads bytes) = Fallible.singletons (stamp st bytes) := by
  simp [chunks, byteReads, stamp, Fallible.singletons]

theorem readBytes_byteReads (bytes : List UInt8) : readBytes (byteReads bytes) = bytes := by
  simp [readBytes, byteReads, List.flatMap_map]

theorem chunks_ne_nil {st : MySqlConnectionState} {reads : List LoggedRead} :
    ∀ chunk ∈ chunks st reads, chunk ≠ [] := by
  intro chunk hchunk
  obtain ⟨read, -, rfl⟩ := List.mem_map.mp hchunk
  simpa [stamp] using read.ne_nil

/-- The state after client reads that left `packet` and logged `seen`. -/
def afterClientReads (s : Connection × PacketLogger) (bytes : List UInt8)
    (packet : FromClientPacket) (seen : List LogRecord) : Connection × PacketLogger :=
  ({ s.1 with
      clientPacket := packet
      clientStream := s.1.clientStream ++ stamp s.1.connectionState bytes },
    s.2.write seen)

section

variable [BasicString.Library]

/-- **Client reads sample the feeding.** -/
theorem run_clientReads {s t : Connection × PacketLogger} {reads : List LoggedRead}
    (hdir : ∀ read ∈ reads, read.fromClientToServer = true) :
    Fallible.run logRead s reads = .ok t ↔
      ∃ packet seen, Fallible.sample Packet.feed FromClientPacket.logRecord s.1.clientPacket
          (chunks s.1.connectionState reads) = .ok (packet, seen) ∧
        t = afterClientReads s (readBytes reads) packet seen := by
  have hclient : clientReads reads = reads := List.filter_eq_self.mpr hdir
  have hserver : serverBytes reads = [] := by
    rw [serverBytes, serverReads, List.filter_eq_nil_iff.mpr (by simpa using hdir)]
    rfl
  -- no server byte moves the connection state
  have hchunks : chunksFrom s reads = chunks s.1.connectionState reads := by
    rw [chunksFrom, clientChunks_of_constant _ (by rw [hserver]; rfl), hclient]
  have hafter : ∀ packet seen, afterReads s reads packet seen
      = afterClientReads s (readBytes reads) packet seen := by
    intro packet seen
    rw [afterReads, hserver, hchunks, flatten_chunks]
    rfl
  rw [run_reads, hchunks]
  simp only [hafter]

omit [BasicString.Library] in
theorem byteReads_fromClient (bytes : List UInt8) :
    ∀ read ∈ byteReads bytes, read.fromClientToServer = true := by
  intro read hread
  obtain ⟨b, -, rfl⟩ := List.mem_map.mp hread
  rfl

/-! ## When a tracked packet shows a record -/

/-- A logical packet that the logger would name. -/
def Named (ms : List (Message StampedByte)) (m : Message StampedByte) : Prop :=
  MySqlCommand.name (lastCommand (ms ++ [m])) m.last.payload.length ≠ ""

instance (ms : List (Message StampedByte)) (m : Message StampedByte) : Decidable (Named ms m) :=
  inferInstanceAs (Decidable (_ ≠ _))

/-- **Nothing shows** exactly when the stream does not end with a packet that has a name. -/
theorem logRecord_eq_none_iff {xs : List StampedByte} {packet : FromClientPacket}
    (h : FromClientPacket.initial.feedAll xs = .ok packet) :
    packet.logRecord = none ↔
      ∀ (ms : List (Message StampedByte)) (m : Message StampedByte),
        xs = (ms ++ [m]).flatMap Message.encode → ¬ Named ms m := by
  have hbetween : FromClientPacket.initial.toMySqlPacket.BetweenPackets :=
    MySqlPacket.betweenPackets_initial
  constructor
  · rintro hnone ms m rfl hnamed
    obtain ⟨before, -, -, -, hclosed⟩ := FromClientPacket.feedAll_snoc_message h
    have hrecv : packet.isReceived = true := by
      rw [MySqlPacket.isReceived, hclosed]
      rfl
    rw [Named, ← FromClientPacket.getCommandString_of_feedAll h] at hnamed
    simp [FromClientPacket.logRecord, hrecv, hnamed] at hnone
  · intro hall
    cases hrecv : packet.isReceived with
    | false => exact FromClientPacket.logRecord_of_not_received hrecv
    | true =>
      have hne : xs ≠ [] := by
        rintro rfl
        cases h
        exact absurd hrecv (by simp [FromClientPacket.initial, MySqlPacket.isReceived])
      rw [MySqlPacket.isReceived, Packet.feedAll_base h] at hrecv
      -- a received packet has just been completed, and the condition takes its name away
      obtain ⟨ms, m, rfl⟩ := (MySqlPacket.isReceived_iff hbetween hne).mp hrecv
      have hname := hall ms m rfl
      rw [Named, ← FromClientPacket.getCommandString_of_feedAll h, ne_eq, not_not] at hname
      simp [FromClientPacket.logRecord, hname]

/-! ## Cutting -/

/-- Logging the reads and logging their bytes one by one end with the same log. -/
def CutsAlike (s : Connection × PacketLogger) (reads : List LoggedRead) : Prop :=
  ∃ t u, Fallible.run logRead s reads = .ok t ∧
    Fallible.run logRead s (byteReads (readBytes reads)) = .ok u ∧ t.2.logFile = u.2.logFile

/-- A packet that the logger would name ends strictly inside one of the reads. -/
def HidesPacket (s : Connection × PacketLogger) (reads : List LoggedRead) : Prop :=
  ∃ front read back pre post, reads = front ++ read :: back ∧ read.bytes = pre ++ post ∧
    pre ≠ [] ∧ post ≠ [] ∧
    ∃ (ms : List (Message StampedByte)) (m : Message StampedByte),
      s.1.clientStream ++ stamp s.1.connectionState (readBytes front ++ pre)
        = (ms ++ [m]).flatMap Message.encode ∧ Named ms m

theorem cutsAlike_iff_everySilent {s t : Connection × PacketLogger} {reads : List LoggedRead}
    (hdir : ∀ read ∈ reads, read.fromClientToServer = true)
    (hok : Fallible.run logRead s reads = .ok t) :
    CutsAlike s reads ↔ Fallible.EverySilent Packet.feed FromClientPacket.logRecord
      s.1.clientPacket (chunks s.1.connectionState reads) := by
  obtain ⟨packet, seen, hsample, rfl⟩ := (run_clientReads hdir).mp hok
  -- feeding byte by byte runs through as well, and is sampled after every byte
  have hrun := Fallible.run_of_sample hsample
  rw [← Fallible.flatten_singletons (chunks s.1.connectionState reads).flatten] at hrun
  obtain ⟨seen', hseen'⟩ := Fallible.exists_sample_of_run FromClientPacket.logRecord hrun
  have hbytes : Fallible.run logRead s (byteReads (readBytes reads))
      = .ok (afterClientReads s (readBytes reads) packet seen') := by
    rw [run_clientReads (byteReads_fromClient _), chunks_byteReads, ← flatten_chunks,
      readBytes_byteReads]
    exact ⟨packet, seen', hseen', rfl⟩
  rw [← Fallible.sample_eq_singletons_iff chunks_ne_nil hsample hseen']
  constructor
  · rintro ⟨t, u, ht, hu, heq⟩
    rw [hok, Except.ok.injEq] at ht
    rw [hbytes, Except.ok.injEq] at hu
    rw [← ht, ← hu, afterClientReads, afterClientReads, PacketLogger.logFile_write,
      PacketLogger.logFile_write] at heq
    exact List.append_cancel_left heq
  · rintro rfl
    exact ⟨_, _, hok, hbytes, rfl⟩

/-- Where feeding stands inside a read: a prefix of the client stream. -/
theorem feedAll_inside {s : Connection × PacketLogger} (htracked : Tracked s.1)
    {front : List LoggedRead} {pre : List UInt8} {packet reached : FromClientPacket}
    (hfront : s.1.clientPacket.feedAll (chunks s.1.connectionState front).flatten = .ok packet)
    (hpre : packet.feedAll (stamp s.1.connectionState pre) = .ok reached) :
    FromClientPacket.initial.feedAll
      (s.1.clientStream ++ stamp s.1.connectionState (readBytes front ++ pre)) = .ok reached := by
  rw [htracked.feedAll_append, stamp_append, ← flatten_chunks, Packet.feedAll,
    Fallible.run_append_of_ok _ hfront]
  exact hpre

theorem everySilent_iff_not_hidesPacket {s t : Connection × PacketLogger} (htracked : Tracked s.1)
    {reads : List LoggedRead} (hdir : ∀ read ∈ reads, read.fromClientToServer = true)
    (hok : Fallible.run logRead s reads = .ok t) :
    Fallible.EverySilent Packet.feed FromClientPacket.logRecord s.1.clientPacket
      (chunks s.1.connectionState reads) ↔ ¬ HidesPacket s reads := by
  constructor
  · rintro hsilent ⟨front, read, back, pre, post, rfl, hbytes, hpre, hpost, ms, m, heq, hnamed⟩
    -- the reads run through, so the parser gets to the place inside the read
    obtain ⟨last, seen, hsample, -⟩ := (run_clientReads hdir).mp hok
    have hall := Fallible.run_of_sample hsample
    have hchunks : chunks s.1.connectionState (front ++ read :: back)
        = chunks s.1.connectionState front
          ++ stamp s.1.connectionState read.bytes :: chunks s.1.connectionState back := by
      simp [chunks]
    have hread : stamp s.1.connectionState read.bytes
        = stamp s.1.connectionState pre ++ stamp s.1.connectionState post := by
      rw [hbytes, stamp_append]
    rw [hchunks, List.flatten_append, List.flatten_cons, hread, List.append_assoc] at hall
    obtain ⟨packet, hfront, hrest⟩ := Fallible.run_append_ok.mp hall
    obtain ⟨reached, hreached⟩ := Fallible.run_prefix_ok hrest
    have hnone := hsilent _ _ _ packet hchunks hfront _ _ reached hread
      (by simpa [stamp] using hpre) (by simpa [stamp] using hpost) hreached
    exact (logRecord_eq_none_iff (feedAll_inside htracked hfront hreached)).mp hnone ms m heq hnamed
  · intro hhides front' chunk back' packet hchunks hfront pre' post' reached hchunk hpre hpost hrun
    -- a place inside a chunk is a place inside the read it was made of
    obtain ⟨front, rest, rfl, rfl, hrest⟩ := List.map_eq_append_iff.mp hchunks
    obtain ⟨read, back, rfl, rfl, -⟩ := List.map_eq_cons_iff.mp hrest
    obtain ⟨pre, post, hbytes, rfl, rfl⟩ := List.map_eq_append_iff.mp hchunk
    rw [logRecord_eq_none_iff (feedAll_inside htracked hfront hrun)]
    intro ms m heq hnamed
    exact hhides ⟨front, read, back, pre, post, rfl, hbytes, by simpa using hpre,
      by simpa using hpost, ms, m, heq, hnamed⟩

/-- **When the log does not depend on the cutting.** For client reads handled in the command phase
without a throw, after any number of them the log is the one of the stream fed byte by byte
exactly when no packet with a name ends strictly inside a read. -/
theorem logging_ignores_cutting_iff (before : List LoggedRead) (s : Connection × PacketLogger)
    (hreach : Fallible.run logRead logStart before = .ok s)
    (hphase : s.1.connectionState = .COMMAND_PHASE) (reads : List LoggedRead)
    (hdir : ∀ read ∈ reads, read.fromClientToServer = true) (t : Connection × PacketLogger)
    (hok : Fallible.run logRead s reads = .ok t) :
    (∀ front back, reads = front ++ back → CutsAlike s front) ↔
    ∀ front read back pre post, reads = front ++ read :: back → read.bytes = pre ++ post →
      pre ≠ [] → post ≠ [] → ∀ (ms : List (Message StampedByte)) (m : Message StampedByte),
        s.1.clientStream ++ stamp .COMMAND_PHASE (readBytes front ++ pre)
          = (ms ++ [m]).flatMap Message.encode →
        MySqlCommand.name (lastCommand (ms ++ [m])) m.last.payload.length = "" := by
  have htracked := tracked_run hreach
  constructor
  · intro halike front read back pre post heq hbytes hpre hpost ms m hxs
    have hsilent := (cutsAlike_iff_everySilent hdir hok).mp (halike reads [] (by simp))
    have hhides := (everySilent_iff_not_hidesPacket htracked hdir hok).mp hsilent
    by_contra hnamed
    exact hhides ⟨front, read, back, pre, post, heq, hbytes, hpre, hpost, ms, m,
      by rw [hphase]; exact hxs, hnamed⟩
  · rintro hcond front back rfl
    obtain ⟨u, hu⟩ := Fallible.run_prefix_ok hok
    have hdir' : ∀ read ∈ front, read.fromClientToServer = true :=
      fun read hread => hdir read (by simp [hread])
    rw [cutsAlike_iff_everySilent hdir' hu, everySilent_iff_not_hidesPacket htracked hdir' hu]
    rintro ⟨front', read, back', pre, post, rfl, hbytes, hpre, hpost, ms, m, hxs, hnamed⟩
    rw [hphase] at hxs
    exact hnamed (hcond front' read (back' ++ back) pre post (by simp) hbytes hpre hpost ms m hxs)

end

open scoped BasicString.Libstdcxx in
/-- The condition at one ping in the command phase. -/
theorem logging_ignores_cutting_iff_ping :
    ∃ s t, Fallible.run logRead logStart [serverOk] = .ok s ∧
      Fallible.run logRead s [clientRead [1, 0, 0, 0, 0x0E] (by simp)] = .ok t ∧
      ((∀ front back, [clientRead [1, 0, 0, 0, 0x0E] (by simp)] = front ++ back →
          CutsAlike s front) ↔
        ∀ front read back pre post,
          [clientRead [1, 0, 0, 0, 0x0E] (by simp)] = front ++ read :: back →
          read.bytes = pre ++ post → pre ≠ [] → post ≠ [] →
          ∀ (ms : List (Message StampedByte)) (m : Message StampedByte),
            s.1.clientStream ++ stamp .COMMAND_PHASE (readBytes front ++ pre)
              = (ms ++ [m]).flatMap Message.encode →
            MySqlCommand.name (lastCommand (ms ++ [m])) m.last.payload.length = "") :=
  ⟨_, _, rfl, rfl, logging_ignores_cutting_iff [serverOk] _ rfl rfl _ (by simp [clientRead]) _ rfl⟩

open scoped BasicString.Libstdcxx in
/-- Two pings in one read are logged as one. -/
theorem logging_loses_ping :
    ∃ s t u, Fallible.run logRead logStart [serverOk] = .ok s ∧
      s.1.connectionState = .COMMAND_PHASE ∧
      Fallible.run logRead s
        [clientRead [1, 0, 0, 0, 0x0E, 1, 0, 0, 0, 0x0E] (by simp)] = .ok t ∧
      Fallible.run logRead s (byteReads [1, 0, 0, 0, 0x0E, 1, 0, 0, 0, 0x0E]) = .ok u ∧
      t.2.logFile = [⟨"COM_PING", none⟩] ∧
      u.2.logFile = [⟨"COM_PING", none⟩, ⟨"COM_PING", none⟩] :=
  ⟨_, _, _, rfl, rfl, rfl, rfl, rfl, rfl⟩

end Proxy
