import MySqlProxy.Packet.Requests

/-!
# Exact extraction of an SQL command

A command with an SQL field is extracted exactly, whatever came before, as long as the SQL string
gets all the room its frames ask for (`Granted`, `collect_extracts_sql_iff`). With libstdc++ the
capacity doubles with every frame, and at the latest the 41st full frame, which asks for more than
`max_size()`, throws a `length_error` (`collect_loses_long_query`).
-/

namespace Proxy

open Framing FromClientFields BasicString

namespace FromClientPacket

section

variable [Library]

/-- The command `c` with the SQL string `rest` is collected without a throw; the packet is received
after its last byte and after none before, and then holds the command and the SQL string, no more
and no less. -/
structure Extracts (packet : FromClientPacket) (c : UInt8) (rest : List UInt8)
    (seq : Nat → UInt8) : Prop where
  whole : ∃ packet' : FromClientPacket,
    packet.feedAll (stamp .COMMAND_PHASE (Message.ofPayload seq (c :: rest)).encode)
      = .ok packet' ∧
    packet'.isReceived = true ∧ packet'.derived.command = ⟨c⟩ ∧ packet'.getSqlString = rest
  inside : ∀ pre post,
    stamp .COMMAND_PHASE (Message.ofPayload seq (c :: rest)).encode = pre ++ post →
      pre ≠ [] → post ≠ [] →
        ∃ reached : FromClientPacket, packet.feedAll pre = .ok reached ∧
          reached.isReceived = false

/-- What is collected without a throw is extracted. -/
theorem extracts_of_feedAll {packet packet' : FromClientPacket}
    (hbetween : packet.toMySqlPacket.BetweenPackets) {c : UInt8}
    (hsql : MySqlCommand.hasSqlField ⟨c⟩ = true) {rest : List UInt8} {seq : Nat → UInt8}
    (hfeed : packet.feedAll (commandMessage seq c rest).encode = .ok packet') :
    packet.Extracts c rest seq := by
  have hmessage := feedAll_message hbetween (commandMessage seq c rest)
  rw [hfeed] at hmessage
  obtain ⟨derived, hafter, rfl⟩ := Fallible.map_ok_iff.mp hmessage.symm
  have hcontents := (afterMessage_ok_iff.mp hafter).2.1
  rw [Contents.afterMessage_cons (payload_commandMessage seq c rest), map_fst_stamp] at hcontents
  have hencode := encode_stampMessage .COMMAND_PHASE (Message.ofPayload seq (c :: rest))
  constructor
  · refine ⟨_, (congrArg packet.feedAll hencode).symm.trans hfeed, rfl, ?_, ?_⟩
    · have hcommand := congrArg Contents.command hcontents
      rw [Contents.closePacket_command, Contents.appendData_command] at hcommand
      exact hcommand
    · have hstring := congrArg Contents.sql hcontents
      rw [Contents.closePacket_sql] at hstring
      have hrest : derived.contents.sql = rest := by
        simpa [Contents.opened, Contents.startCommand, Contents.appendData, hsql] using hstring
      exact hrest
  · intro pre post heq hpre hpost
    have hsplit : (commandMessage seq c rest).encode = pre ++ post := hencode.trans heq
    rw [hsplit] at hfeed
    obtain ⟨reached, hreached⟩ := Fallible.run_prefix_ok hfeed
    refine ⟨reached, hreached, ?_⟩
    rw [MySqlPacket.isReceived, Packet.feedAll_base hreached]
    exact MySqlPacket.not_received_inside hbetween hsplit hpre hpost

theorem feedAll_initial_nil : initial.feedAll [] = .ok initial := rfl

/-- The frames of a command are collected without a throw exactly when the string gets the room. -/
theorem feedAll_command_ok_iff {pre : List StampedByte} {packet : FromClientPacket}
    (hpre : initial.feedAll pre = .ok packet) (hbetween : packet.toMySqlPacket.BetweenPackets)
    {c : UInt8} (hsql : MySqlCommand.hasSqlField ⟨c⟩ = true) (rest : List UInt8)
    {seq : Nat → UInt8} (hseq : seq 0 = 0) :
    (∃ packet', packet.feedAll (commandMessage seq c rest).encode = .ok packet') ↔
      Granted packet.derived.sqlString.capacity (rest.length + 1) := by
  have hcapacity : messageCapacity packet.derived.contents packet.derived.sqlString.capacity
      (commandMessage seq c rest)
        = sqlCapacity packet.derived.sqlString.capacity (frameLengths (rest.length + 1)) :=
    messageCapacity_sql (capacity_le_maxSize hpre) hsql rest seq
  rw [feedAll_message hbetween]
  constructor
  · rintro ⟨packet', hmap⟩
    obtain ⟨derived, hafter, -⟩ := Fallible.map_ok_iff.mp hmap
    exact ⟨derived.sqlString.capacity, hcapacity.symm.trans (afterMessage_ok_iff.mp hafter).2.2⟩
  · rintro ⟨capacity, hgranted⟩
    have hrej : ∀ x w, (commandMessage seq c rest).payload = x :: w →
        ¬ Rejected (commandMessage seq c rest).first.seq.1 x := by
      intro x w _ hbad
      exact hbad.2.2 ((seq_commandMessage seq c rest).trans hseq)
    obtain ⟨derived, hafter⟩ := afterMessage_granted hrej (hcapacity.trans hgranted)
    exact ⟨_, Fallible.map_ok_iff.mpr ⟨derived, hafter, rfl⟩⟩

/-- **Exact SQL extraction.** From any reachable state between two logical packets, a command with
an SQL field is extracted exactly when its string gets all the room its frames ask for. -/
theorem collect_extracts_sql_iff (pre : List StampedByte) (packet : FromClientPacket)
    (hpre : initial.feedAll pre = .ok packet) (hbetween : packet.toMySqlPacket.BetweenPackets)
    (c : UInt8) (hsql : MySqlCommand.hasSqlField ⟨c⟩ = true) (rest : List UInt8)
    (seq : Nat → UInt8) (hseq : seq 0 = 0) :
    packet.Extracts c rest seq ↔
      Granted packet.derived.sqlString.capacity (rest.length + 1) := by
  rw [← feedAll_command_ok_iff hpre hbetween hsql rest hseq]
  constructor
  · intro hextracts
    obtain ⟨packet', hfeed, -⟩ := hextracts.whole
    exact ⟨packet', (congrArg packet.feedAll (encode_stampMessage _ _)).trans hfeed⟩
  · rintro ⟨packet', hfeed⟩
    exact extracts_of_feedAll hbetween hsql hfeed

end

open scoped BasicString.Libstdcxx in
/-- A query on a fresh connection. -/
theorem collect_extracts_sql_iff_query :
    initial.Extracts 0x03 [0x68, 0x69] (fun _ => 0) :=
  (collect_extracts_sql_iff [] initial feedAll_initial_nil MySqlPacket.betweenPackets_initial 0x03
    rfl [0x68, 0x69] (fun _ => 0) rfl).mpr ⟨15, by decide⟩

/-- The data of a query of 41 full frames. -/
def longQuery : List UInt8 := List.replicate (41 * fullLength - 1) 0x20

open scoped BasicString.Libstdcxx in
/-- The capacity has doubled with every frame, and the last one asks for more than `max_size()`. -/
theorem feedAll_longQuery :
    ¬ ∃ packet,
      initial.feedAll (commandMessage UInt8.ofNat 0x03 longQuery).encode = .ok packet := by
  rw [feedAll_command_ok_iff feedAll_initial_nil MySqlPacket.betweenPackets_initial rfl longQuery
    rfl, longQuery, List.length_replicate]
  rintro ⟨capacity, hcapacity⟩
  have hrefused : sqlCapacity 15 (frameLengths (41 * fullLength - 1 + 1))
      = .error (.lengthError "basic_string::_M_create") := by decide +kernel
  exact absurd (hcapacity.symm.trans hrefused) (by simp)

open scoped BasicString.Libstdcxx in
/-- The query is not extracted. -/
theorem collect_loses_long_query : ¬ initial.Extracts 0x03 longQuery UInt8.ofNat := by
  intro hextracts
  obtain ⟨packet, hfeed, -⟩ := hextracts.whole
  rw [← encode_stampMessage] at hfeed
  exact feedAll_longQuery ⟨packet, hfeed⟩

end FromClientPacket
end Proxy
