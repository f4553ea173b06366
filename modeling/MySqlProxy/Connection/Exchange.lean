import MySqlProxy.Connection.LogCuts

/-!
# Packets inside a running exchange

A logical packet of the client whose first frame has a sequence id other than 0 belongs to an
exchange that is already running: data for LOCAL INFILE, an authentication answer. In the command
phase the parser takes its first payload byte for a command all the same, and while the receive mode
is on it collects the rest as SQL. `exchange_packet_iff` says which of these packets pass without a
throw and without a record, over every cutting into reads.
-/

namespace Proxy

open Framing FromClientFields

section

variable [BasicString.Library]

/-- A list of reads that runs through ends with what the packet then shows. -/
theorem sample_last {packet last : FromClientPacket} {st : MySqlConnectionState}
    {reads : List LoggedRead} {seen : List LogRecord} (hne : reads ≠ [])
    (h : Fallible.sample Packet.feed FromClientPacket.logRecord packet (chunks st reads)
      = .ok (last, seen)) : ∃ early, seen = early ++ last.logRecord.toList := by
  obtain ⟨front, read, rfl⟩ := (List.eq_nil_or_concat reads).resolve_left hne
  rw [List.concat_eq_append, show chunks st (front ++ [read])
    = chunks st front ++ [stamp st read.bytes] from by simp [chunks]] at h
  obtain ⟨before, early, seen', -, hlast, rfl⟩ := Fallible.sample_append_ok.mp h
  obtain ⟨t, rest, -, hnil, rfl⟩ := Fallible.sample_cons_ok.mp hlast
  obtain ⟨rfl, rfl⟩ : t = last ∧ rest = [] := by simpa [Prod.ext_iff, eq_comm] using hnil
  exact ⟨early, by simp⟩

/-- The reads of one logical packet show at most what the packet shows at its end. -/
theorem sample_message_sublist {packet last : FromClientPacket}
    (hbetween : packet.toMySqlPacket.BetweenPackets) {st : MySqlConnectionState}
    {reads : List LoggedRead} {m : Message StampedByte}
    (hwire : stamp st (readBytes reads) = m.encode) {seen : List LogRecord}
    (h : Fallible.sample Packet.feed FromClientPacket.logRecord packet (chunks st reads)
      = .ok (last, seen)) : seen.Sublist last.logRecord.toList := by
  have hrun := Fallible.run_of_sample h
  rw [← Fallible.flatten_singletons (chunks st reads).flatten] at hrun
  obtain ⟨seen', hseen'⟩ := Fallible.exists_sample_of_run FromClientPacket.logRecord hrun
  have hsub := (Fallible.sample_singletons_compare chunks_ne_nil h hseen').1
  -- looked at after every byte, the packet shows nothing before its end
  have hne : (chunks st reads).flatten ≠ [] := by
    rw [flatten_chunks, hwire]
    exact m.encode_ne_nil
  obtain ⟨early, rfl, hearly⟩ := Fallible.sample_singletons_chunk hne hseen'
  have hsilent : Fallible.Silent Packet.feed FromClientPacket.logRecord packet
      (chunks st reads).flatten := by
    intro pre post reached heq hpre hpost hreached
    rw [flatten_chunks, hwire] at heq
    apply FromClientPacket.logRecord_of_not_received
    rw [MySqlPacket.isReceived, Packet.feedAll_base hreached]
    exact MySqlPacket.not_received_inside hbetween heq hpre hpost
  rw [hearly.mpr hsilent, List.nil_append] at hsub
  exact hsub

/-- One logical packet, cut in any way: it runs through when its bytes do, and logs nothing exactly
when nothing shows at its end. -/
theorem run_message_iff {s : Connection × PacketLogger}
    (hbetween : s.1.clientPacket.toMySqlPacket.BetweenPackets) {reads : List LoggedRead}
    (hdir : ∀ read ∈ reads, read.fromClientToServer = true) {m : Message StampedByte}
    (hwire : stamp s.1.connectionState (readBytes reads) = m.encode) :
    (∃ t, Fallible.run logRead s reads = .ok t ∧ t.2.logFile = s.2.logFile) ↔
      ∃ derived, s.1.clientPacket.derived.afterMessage m = .ok derived ∧
        FromClientPacket.logRecord ⟨MySqlPacket.closed m, derived⟩ = none := by
  have hfeed := FromClientPacket.feedAll_message hbetween m
  have hreads : reads ≠ [] := by
    rintro rfl
    exact m.encode_ne_nil hwire.symm
  rw [← hwire, ← flatten_chunks] at hfeed
  constructor
  · rintro ⟨t, hrun, hlog⟩
    -- the log has not grown, so nothing shows, at the end of the packet either
    obtain ⟨last, seen, hsample, rfl⟩ := (run_clientReads hdir).mp hrun
    have hseen : seen = [] := by simpa [afterClientReads] using hlog
    obtain ⟨early, hlast⟩ := sample_last hreads hsample
    have hnone : FromClientPacket.logRecord last = none := by
      rw [hseen] at hlast
      simpa using (List.append_eq_nil_iff.mp hlast.symm).2
    rw [Packet.feedAll, Fallible.run_of_sample hsample] at hfeed
    obtain ⟨derived, hafter, hclosed⟩ := Fallible.map_ok_iff.mp hfeed.symm
    exact ⟨derived, hafter, by rw [hclosed]; exact hnone⟩
  · rintro ⟨derived, hafter, hnone⟩
    -- the bytes run through, and the reads show at most what shows at the end
    rw [hafter] at hfeed
    obtain ⟨seen, hsample⟩ := Fallible.exists_sample_of_run FromClientPacket.logRecord hfeed
    have hsub := sample_message_sublist hbetween hwire hsample
    rw [hnone] at hsub
    refine ⟨_, (run_clientReads hdir).mpr ⟨_, seen, hsample, rfl⟩, ?_⟩
    simpa [afterClientReads] using hsub

omit [BasicString.Library] in
theorem logRecord_closed_eq_none_iff {m : Message StampedByte} {derived : FromClientFields} :
    FromClientPacket.logRecord ⟨MySqlPacket.closed m, derived⟩ = none ↔
      MySqlCommand.name derived.command m.last.payload.length = "" := by
  have hlength := toNat_ofNat_of_le m.last.length_le
  simp [FromClientPacket.logRecord, FromClientPacket.getCommandString, MySqlPacket.isReceived,
    MySqlPacket.closed, hlength]

/-- The SQL string has room for `n` bytes of a packet that is no command with an SQL field: it is
asked for some only if the receive mode has been left on. -/
def HasRoom (packet : FromClientFields) (n : Nat) : Prop :=
  packet.sqlDataReceiving = true →
    ∃ capacity, BasicString.pushed 0 (BasicString.Library.shrink 0 packet.sqlString.capacity) n
      = .ok capacity

/-- A packet that is no command with an SQL field. -/
theorem afterMessage_other_iff {packet : FromClientFields} {m : Message StampedByte} {c : UInt8}
    {rest : List StampedByte} (hpayload : m.payload = (c, .COMMAND_PHASE) :: rest)
    (hsql : MySqlCommand.hasSqlField ⟨c⟩ = false) :
    (∃ derived, packet.afterMessage m = .ok derived) ↔
      ¬ Rejected m.first.seq.1 (c, .COMMAND_PHASE) ∧ HasRoom packet rest.length := by
  have hcapacity : messageCapacity packet.contents packet.sqlString.capacity m
      = pushAllCapacity packet.sqlDataReceiving 0
          (BasicString.Library.shrink 0 packet.sqlString.capacity) rest.length :=
    messageCapacity_other hpayload hsql
  have hroom : HasRoom packet rest.length ↔
      ∃ capacity, messageCapacity packet.contents packet.sqlString.capacity m = .ok capacity := by
    rw [hcapacity, HasRoom]
    cases packet.sqlDataReceiving with
    | false => exact iff_of_true (fun h => absurd h (by simp)) ⟨_, rfl⟩
    | true => exact forall_prop_of_true rfl
  rw [hroom]
  constructor
  · rintro ⟨derived, hafter⟩
    obtain ⟨hrej, -, hgranted⟩ := afterMessage_ok_iff.mp hafter
    exact ⟨hrej _ _ hpayload, _, hgranted⟩
  · rintro ⟨hrej, capacity, hgranted⟩
    refine afterMessage_granted (fun x rest' hx => ?_) hgranted
    obtain ⟨rfl, -⟩ := List.cons.inj (hpayload.symm.trans hx)
    exact hrej

/-- **Packets inside a running exchange.** From any state between packets in the command phase, a
logical packet with a first sequence id other than 0, cut into reads in any way, is collected
without a throw and without a record exactly when it is empty and the last command has no name at
length 0, or it begins with a byte that is not a valid command and, if the receive mode has been
left on, there is room for its data. -/
theorem exchange_packet_iff (s : Connection × PacketLogger)
    (hphase : s.1.connectionState = .COMMAND_PHASE)
    (hbetween : s.1.clientPacket.toMySqlPacket.BetweenPackets) (m : Message UInt8)
    (hseq : m.first.seq ≠ 0) (reads : List LoggedRead)
    (hdir : ∀ read ∈ reads, read.fromClientToServer = true) (hwire : readBytes reads = m.encode) :
    (∃ t, Fallible.run logRead s reads = .ok t ∧ t.2.logFile = s.2.logFile) ↔
      (m.payload = [] ∧ MySqlCommand.name s.1.clientPacket.derived.command 0 = "") ∨
        ∃ c rest, m.payload = c :: rest ∧ MySqlCommand.isValid ⟨c⟩ = false ∧
          HasRoom s.1.clientPacket.derived rest.length := by
  have hstamped : stamp s.1.connectionState (readBytes reads)
      = (stampMessage .COMMAND_PHASE m).encode := by
    rw [hphase, hwire, encode_stampMessage]
  have hpayload := payload_stampMessage .COMMAND_PHASE m
  rw [run_message_iff hbetween hdir hstamped]
  simp only [logRecord_closed_eq_none_iff, length_last_stampMessage]
  cases hm : m.payload with
  | nil =>
    -- an empty packet changes no field, so the last command is looked up again
    have hlast : m.last.payload = [] := (Message.payload_eq_nil_iff.mp hm).2
    have hempty : (stampMessage .COMMAND_PHASE m).payload = [] := by
      rw [hpayload, hm]
      rfl
    rw [afterMessage_empty hempty]
    simp [hlast]
  | cons c rest =>
    rw [hm] at hpayload
    have hfirst : (stampMessage .COMMAND_PHASE m).first.seq.1 ≠ 0 := by
      rw [seq_first_stampMessage]
      exact hseq
    simp only [reduceCtorEq, false_and, false_or, List.cons.injEq]
    constructor
    · rintro ⟨derived, hafter, -⟩
      -- a valid command would have been rejected at the first payload byte
      have hvalid : MySqlCommand.isValid ⟨c⟩ = false := by
        rw [← Bool.not_eq_true]
        exact fun hvalid => (afterMessage_ok_iff.mp hafter).1 _ _ hpayload ⟨rfl, hvalid, hfirst⟩
      have hroom := ((afterMessage_other_iff hpayload
        (MySqlCommand.hasSqlField_of_not_isValid hvalid)).mp ⟨derived, hafter⟩).2
      rw [List.length_map] at hroom
      exact ⟨c, rest, ⟨rfl, rfl⟩, hvalid, hroom⟩
    · rintro ⟨c', rest', ⟨rfl, rfl⟩, hvalid, hroom⟩
      have hrej : ¬ Rejected (stampMessage .COMMAND_PHASE m).first.seq.1 (c, .COMMAND_PHASE) := by
        intro hbad
        rw [hbad.2.1] at hvalid
        exact absurd hvalid (by simp)
      obtain ⟨derived, hafter⟩ := (afterMessage_other_iff hpayload
        (MySqlCommand.hasSqlField_of_not_isValid hvalid)).mpr
          ⟨hrej, by rw [List.length_map]; exact hroom⟩
      -- the byte passes for an unknown command, which has no name
      have hcommand : derived.command = ⟨c⟩ := by
        rw [command_afterMessage hafter, commandAfter, hpayload]
        rfl
      exact ⟨derived, hafter, by
        rw [hcommand, MySqlCommand.name_eq_empty_of_not_isValid _ hvalid]⟩

end

/-- A frame of one payload byte. -/
def oneByteMessage (seq payload0 : UInt8) : Message UInt8 :=
  Message.single
    { len0 := 1, len1 := 0, len2 := 0, seq := seq, payload := [payload0], length_eq := rfl }
    (Frame.not_isFull_of_lt (show 1 < fullLength by decide))

open scoped BasicString.Libstdcxx in
/-- A data packet that begins with no command byte, cut into two reads. -/
theorem exchange_packet_iff_data :
    ∃ s, Fallible.run logRead logStart [serverOk] = .ok s ∧
      ((∃ t, Fallible.run logRead s
          [clientRead [1, 0, 0] (by simp), clientRead [3, 0x41] (by simp)] = .ok t ∧
          t.2.logFile = s.2.logFile) ↔
        ((oneByteMessage 3 0x41).payload = [] ∧
            MySqlCommand.name s.1.clientPacket.derived.command 0 = "") ∨
          ∃ c rest, (oneByteMessage 3 0x41).payload = c :: rest ∧
            MySqlCommand.isValid ⟨c⟩ = false ∧
              HasRoom s.1.clientPacket.derived rest.length) :=
  ⟨_, rfl, exchange_packet_iff _ rfl ⟨rfl, rfl⟩ (oneByteMessage 3 0x41) (by decide) _
    (by simp [clientRead]) rfl⟩

open scoped BasicString.Libstdcxx in
/-- A data packet whose first byte reads as `COM_QUERY` throws, and an empty packet after a ping
is logged as another ping. -/
theorem exchange_packet_fails :
    (∃ s, Fallible.run logRead logStart [serverOk] = .ok s ∧
      Fallible.run logRead s [clientRead (oneByteMessage 3 0x03).encode (by decide)]
        = .error (.runtimeError "BAD packet")) ∧
    (∃ s t, Fallible.run logRead logStart [serverOk, clientRead [1, 0, 0, 0, 0x0E] (by simp)]
        = .ok s ∧
      Fallible.run logRead s [clientRead [0, 0, 0, 4] (by simp)] = .ok t ∧
      t.2.logFile = s.2.logFile ++ [⟨"COM_PING", none⟩]) :=
  ⟨⟨_, rfl, rfl⟩, ⟨_, _, rfl, rfl, rfl⟩⟩

end Proxy
