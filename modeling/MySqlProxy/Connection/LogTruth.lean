import MySqlProxy.Connection.Logging

/-!
# What a record says

A record is truthful when it describes the logical packet the read has just completed
(`Truthful`). The logger takes the name from the last command, the length from the last frame
header and the SQL string from the receive mode, and each of them can be left over from earlier
bytes. `LogsTruly` says for a packet, given the packets before it, that none of them misleads;
`log_truthful_iff` is the exactness of that condition over every run.
-/

namespace Proxy

open Framing FromClientFields

/-! ## Truthful records -/

/-- The record of the command `c` with the payload bytes `rest` after it. -/
def truthfulRecord (c : UInt8) (rest : List UInt8) : LogRecord where
  commandString := MySqlCommand.name ⟨c⟩ (rest.length + 1)
  sqlString := if MySqlCommand.hasSqlField ⟨c⟩ = true ∧ rest ≠ [] then some rest else none

/-- The stream ends with a logical packet begun in the command phase, its first frame has the
sequence id 0, and the record is the one of this packet. -/
def Truthful (stream : List StampedByte) (record : LogRecord) : Prop :=
  ∃ (ms : List (Message StampedByte)) (m : Message StampedByte) (c : UInt8)
    (rest : List StampedByte),
    stream = (ms ++ [m]).flatMap Message.encode ∧ m.payload = (c, .COMMAND_PHASE) :: rest ∧
      m.first.seq.1 = 0 ∧ record = truthfulRecord c (rest.map Prod.fst)

/-- Nothing left over misleads the logger at the end of the packet `m`: an empty packet finds no
name to repeat, and a command is named by its whole length as by its last frame and collects data
only when it has an SQL field. -/
def LogsTruly (ms : List (Message StampedByte)) (m : Message StampedByte) : Prop :=
  match m.payload with
  | [] => MySqlCommand.name (lastCommand ms) 0 = ""
  | (_, .CONNECTION_PHASE) :: _ => True
  | (c, .COMMAND_PHASE) :: rest =>
    MySqlCommand.name ⟨c⟩ m.last.payload.length = "" ∨
      (MySqlCommand.name ⟨c⟩ m.last.payload.length = MySqlCommand.name ⟨c⟩ m.payload.length ∧
        (MySqlCommand.hasSqlField ⟨c⟩ = true ∨ rest = [] ∨ receiveMode ms = false))

/-! ## Packets of the connection phase -/

theorem mem_encode_of_mem_payload {m : Message StampedByte} {x : StampedByte}
    (h : x ∈ m.payload) : x ∈ m.encode := by
  rw [Message.payload, List.mem_flatMap] at h
  obtain ⟨f, hf, hx⟩ := h
  rw [Message.encode, List.mem_flatMap]
  exact ⟨f, hf, by simp [Frame.encode, hx]⟩

/-- Everything before a byte of the connection phase is of the connection phase. -/
theorem Settled.before_connection {st : MySqlConnectionState} {xs ys : List StampedByte}
    (h : Settled st (xs ++ ys)) {y : StampedByte} (hy : y ∈ ys) (hst : y.2 = .CONNECTION_PHASE) :
    ∀ x ∈ xs, x.2 = .CONNECTION_PHASE := by
  obtain ⟨auth, commands, heq, -⟩ := h
  rcases List.append_eq_append_iff.mp heq with ⟨zs, hauth, -⟩ | ⟨zs, -, hcommands⟩
  · intro x hx
    have hmem : x ∈ stamp .CONNECTION_PHASE auth := by
      rw [hauth]
      exact List.mem_append_left _ hx
    obtain ⟨b, -, rfl⟩ := List.mem_map.mp hmem
    rfl
  · -- the later part lies in the command phase
    have hmem : y ∈ stamp .COMMAND_PHASE commands := by
      rw [hcommands]
      exact List.mem_append_right _ hy
    obtain ⟨b, -, rfl⟩ := List.mem_map.mp hmem
    exact absurd hst (by simp)

/-- Packets of the connection phase name no command. Induction on the packets from the right. -/
theorem lastCommand_eq_unknown {ms : List (Message StampedByte)}
    (h : ∀ x ∈ ms.flatMap Message.encode, x.2 = .CONNECTION_PHASE) :
    lastCommand ms = .UNKNOWN := by
  induction ms using List.reverseRecOn with
  | nil => rfl
  | append_singleton ms m ih =>
    rw [lastCommand_append, commandAfter_eq_self]
    · exact ih fun x hx => h x (by rw [List.flatMap_append]; exact List.mem_append_left _ hx)
    · intro c rest hpayload
      have hmem : (c, MySqlConnectionState.COMMAND_PHASE) ∈ m.encode :=
        mem_encode_of_mem_payload (by simp [hpayload])
      have hphase := h (c, .COMMAND_PHASE) (by
        rw [List.flatMap_append, List.flatMap_singleton]
        exact List.mem_append_right _ hmem)
      exact absurd hphase (by simp)

/-! ## The record of a completed packet -/

section

variable [BasicString.Library]

section Record

variable {ms : List (Message StampedByte)} {m : Message StampedByte} {packet : FromClientPacket}

/-- Only a packet with a name shows a record. -/
theorem logRecord_some {record : LogRecord}
    (hfeed : FromClientPacket.initial.feedAll ((ms ++ [m]).flatMap Message.encode) = .ok packet) :
    packet.logRecord = some record ↔
      MySqlCommand.name (lastCommand (ms ++ [m])) m.last.payload.length ≠ "" ∧
        record = ⟨MySqlCommand.name (lastCommand (ms ++ [m])) m.last.payload.length,
          if packet.hasSqlString then some packet.getSqlString else none⟩ := by
  obtain ⟨-, -, -, -, hclosed⟩ := FromClientPacket.feedAll_snoc_message hfeed
  have hrecv : packet.isReceived = true := by
    rw [MySqlPacket.isReceived, hclosed]
    rfl
  rw [← FromClientPacket.getCommandString_of_feedAll hfeed]
  by_cases hname : packet.getCommandString = ""
  · simp [FromClientPacket.logRecord, hname]
  · rw [FromClientPacket.logRecord, if_pos ⟨hrecv, hname⟩, Option.some.injEq]
    constructor
    · exact fun h => ⟨hname, h.symm⟩
    · exact fun h => h.2.symm

theorem logRecord_connection {st : MySqlConnectionState} {b : UInt8} {rest : List StampedByte}
    (hfeed : FromClientPacket.initial.feedAll ((ms ++ [m]).flatMap Message.encode) = .ok packet)
    (hsettled : Settled st ((ms ++ [m]).flatMap Message.encode))
    (hpayload : m.payload = (b, .CONNECTION_PHASE) :: rest) (record : LogRecord) :
    packet.logRecord ≠ some record := by
  intro hrecord
  have hbefore : ∀ x ∈ ms.flatMap Message.encode, x.2 = .CONNECTION_PHASE := by
    rw [List.flatMap_append, List.flatMap_singleton] at hsettled
    exact hsettled.before_connection (y := (b, .CONNECTION_PHASE))
      (mem_encode_of_mem_payload (by simp [hpayload])) rfl
  have hname := ((logRecord_some hfeed).mp hrecord).1
  rw [lastCommand_append, commandAfter_eq_self (by simp [hpayload]),
    lastCommand_eq_unknown hbefore] at hname
  exact hname rfl

/-- A packet begun in the command phase is logged as its last frame and the receive mode have
it. -/
theorem logRecord_command {c : UInt8} {rest : List StampedByte} {record : LogRecord}
    (hfeed : FromClientPacket.initial.feedAll ((ms ++ [m]).flatMap Message.encode) = .ok packet)
    (hpayload : m.payload = (c, .COMMAND_PHASE) :: rest) :
    packet.logRecord = some record ↔
      MySqlCommand.name ⟨c⟩ m.last.payload.length ≠ "" ∧
        record = ⟨MySqlCommand.name ⟨c⟩ m.last.payload.length,
          if (receiveMode ms = true ∨ MySqlCommand.hasSqlField ⟨c⟩ = true) ∧ rest ≠ [] then
            some (rest.map Prod.fst) else none⟩ := by
  obtain ⟨before, -, hbefore, hafter, -⟩ := FromClientPacket.feedAll_snoc_message hfeed
  have hcommand : lastCommand (ms ++ [m]) = ⟨c⟩ := by
    rw [lastCommand_append]
    simp [commandAfter, hpayload]
  have hsql := sqlString_afterMessage hpayload hafter
  rw [hbefore.mode] at hsql
  have hstring : (if packet.hasSqlString then some packet.getSqlString else none)
      = if (receiveMode ms = true ∨ MySqlCommand.hasSqlField ⟨c⟩ = true) ∧ rest ≠ [] then
          some (rest.map Prod.fst) else none := by
    rw [FromClientPacket.hasSqlString, FromClientPacket.getSqlString, hsql]
    cases hmode : receiveMode ms <;> cases hfield : MySqlCommand.hasSqlField ⟨c⟩ <;>
      simp [modeDuring, hpayload, hfield]
  rw [logRecord_some hfeed, hcommand, hstring]

/-- An empty packet is truthful when it finds no name to repeat: no record is about an empty
packet. -/
theorem truthful_empty_iff
    (hfeed : FromClientPacket.initial.feedAll ((ms ++ [m]).flatMap Message.encode) = .ok packet)
    (hempty : m.payload = []) :
    (∀ record, packet.logRecord = some record →
      Truthful ((ms ++ [m]).flatMap Message.encode) record) ↔
      MySqlCommand.name (lastCommand ms) 0 = "" := by
  have hcommand : lastCommand (ms ++ [m]) = lastCommand ms := by
    rw [lastCommand_append, commandAfter_eq_self (by simp [hempty])]
  have hzero : m.last.payload.length = 0 := by
    rw [(Message.payload_eq_nil_iff.mp hempty).2]
    rfl
  constructor
  · intro htruth
    by_contra hname
    -- the name left over makes a record, and a truthful one needs a payload
    obtain ⟨ns, n, c, rest, heq, hpayload, -⟩ := htruth _ ((logRecord_some hfeed).mpr
      ⟨by rw [hcommand, hzero]; exact hname, rfl⟩)
    rw [← Message.last_eq_of_encode_eq heq, hempty] at hpayload
    exact absurd hpayload (by simp)
  · intro hname record hrecord
    have hlogged := ((logRecord_some hfeed).mp hrecord).1
    rw [hcommand, hzero] at hlogged
    exact absurd hname hlogged

/-- A packet begun in the command phase is truthful when it has no name, or the name of its whole
length and no data it should not have. -/
theorem truthful_command_iff {c : UInt8} {rest : List StampedByte}
    (hfeed : FromClientPacket.initial.feedAll ((ms ++ [m]).flatMap Message.encode) = .ok packet)
    (hpayload : m.payload = (c, .COMMAND_PHASE) :: rest) :
    (∀ record, packet.logRecord = some record →
      Truthful ((ms ++ [m]).flatMap Message.encode) record) ↔
      MySqlCommand.name ⟨c⟩ m.last.payload.length = "" ∨
        (MySqlCommand.name ⟨c⟩ m.last.payload.length = MySqlCommand.name ⟨c⟩ m.payload.length ∧
          (MySqlCommand.hasSqlField ⟨c⟩ = true ∨ rest = [] ∨ receiveMode ms = false)) := by
  have hlength : m.payload.length = (rest.map Prod.fst).length + 1 := by
    rw [hpayload, List.length_cons, List.length_map]
  constructor
  · intro htruth
    by_cases hname : MySqlCommand.name ⟨c⟩ m.last.payload.length = ""
    · exact Or.inl hname
    · -- the record can only be about this packet, so its two parts are compared
      obtain ⟨ns, n, c', rest', heq, hpayload', -, hrecord⟩ := htruth _
        ((logRecord_command hfeed hpayload).mpr ⟨hname, rfl⟩)
      rw [← Message.last_eq_of_encode_eq heq] at hpayload'
      obtain ⟨hc, rfl⟩ := List.cons.inj (hpayload.symm.trans hpayload')
      obtain rfl : c = c' := congrArg Prod.fst hc
      simp only [truthfulRecord, LogRecord.mk.injEq, ← hlength] at hrecord
      refine Or.inr ⟨hrecord.1, ?_⟩
      by_contra hleft
      simp only [not_or] at hleft
      simp [hleft.1, hleft.2.1, hleft.2.2] at hrecord
  · rintro hcond record hrecord
    obtain ⟨hname, rfl⟩ := (logRecord_command hfeed hpayload).mp hrecord
    obtain ⟨hsame, hdata⟩ := hcond.resolve_left hname
    -- a named command is valid, and a valid command that passed has the sequence id 0
    have hvalid := MySqlCommand.isValid_of_name_ne_empty hname
    obtain ⟨before, -, -, hafter, -⟩ := FromClientPacket.feedAll_snoc_message hfeed
    refine ⟨ms, m, c, rest, rfl, hpayload, seq_of_afterMessage hpayload hvalid hafter, ?_⟩
    simp only [truthfulRecord, LogRecord.mk.injEq, ← hlength]
    refine ⟨hsame, ?_⟩
    rcases hdata with hfield | hrest | hmode
    · simp [hfield]
    · simp [hrest]
    · simp [hmode]

end Record

/-- **One completed packet.** Its record, if it has one, is truthful exactly when nothing left
over misleads the logger. The cases are those of the first payload byte. -/
theorem truthful_iff_logsTruly {st : MySqlConnectionState} {ms : List (Message StampedByte)}
    {m : Message StampedByte} {packet : FromClientPacket}
    (hfeed : FromClientPacket.initial.feedAll ((ms ++ [m]).flatMap Message.encode) = .ok packet)
    (hsettled : Settled st ((ms ++ [m]).flatMap Message.encode)) :
    (∀ record, packet.logRecord = some record →
      Truthful ((ms ++ [m]).flatMap Message.encode) record) ↔ LogsTruly ms m := by
  unfold LogsTruly
  split
  · rename_i hempty
    exact truthful_empty_iff hfeed hempty
  · rename_i b rest hpayload
    exact ⟨fun _ => trivial, fun _ record hrecord =>
      absurd hrecord (logRecord_connection hfeed hsettled hpayload record)⟩
  · rename_i c rest hpayload
    exact truthful_command_iff hfeed hpayload

/-! ## Every run -/

/-- Every record the read appends is truthful. -/
def AppendsTruly (s s' : Connection × PacketLogger) : Prop :=
  ∃ records, s'.2.logFile = s.2.logFile ++ records ∧
    ∀ record ∈ records, Truthful s'.1.clientStream record

omit [BasicString.Library] in
/-- A read that appends what its packet shows appends truly when that record is truthful. -/
theorem appendsTruly_logRecord_iff {s : Connection × PacketLogger} {connection : Connection}
    {packet : FromClientPacket} :
    AppendsTruly s (connection,
        s.2.write packet.logRecord.toList) ↔
      ∀ record, packet.logRecord = some record → Truthful connection.clientStream record := by
  constructor
  · rintro ⟨records, heq, hall⟩ record hrecord
    rw [PacketLogger.logFile_write] at heq
    obtain rfl : packet.logRecord.toList = records := List.append_cancel_left heq
    exact hall record (by simp [hrecord])
  · intro hall
    exact ⟨_, PacketLogger.logFile_write _ _, fun record hrecord =>
      hall record (by simpa using hrecord)⟩

/-- **One client read.** It appends truly exactly when the packet it completes, if it completes
one, logs truly. -/
theorem appendsTruly_client_iff {s s' : Connection × PacketLogger} (htracked : Tracked s.1)
    {read : LoggedRead} (hdir : read.fromClientToServer = true) (hread : logRead s read = .ok s') :
    AppendsTruly s s' ↔
      ∀ (ms : List (Message StampedByte)) (m : Message StampedByte),
        s'.1.clientStream = (ms ++ [m]).flatMap Message.encode → LogsTruly ms m := by
  have htracked' := tracked_logRead htracked hread
  obtain ⟨packet, hfeed, rfl⟩ := (logRead_client_ok hdir).mp hread
  have hfed := htracked'.fed
  have hsettled := htracked'.settled
  rw [appendsTruly_logRecord_iff]
  simp only at hfed hsettled ⊢
  constructor
  · intro htruth ms m heq
    -- the read completes the packet `m`: its record is the one to be judged
    rw [heq] at hfed hsettled htruth
    exact (truthful_iff_logsTruly hfed hsettled).mp htruth
  · intro hcond record hrecord
    -- a record shows only at the end of a logical packet
    have hrecv : packet.isReceived = true := by
      by_contra hrecv
      rw [FromClientPacket.logRecord_of_not_received (by simpa using hrecv)] at hrecord
      exact absurd hrecord (by simp)
    have hne : s.1.clientStream ++ stamp s.1.connectionState read.bytes ≠ [] := by
      apply List.append_ne_nil_of_right_ne_nil
      simpa [stamp] using read.ne_nil
    rw [MySqlPacket.isReceived, Packet.feedAll_base hfed] at hrecv
    obtain ⟨ms, m, heq⟩ :=
      (MySqlPacket.isReceived_iff MySqlPacket.betweenPackets_initial hne).mp hrecv
    rw [heq] at hfed hsettled ⊢
    exact (truthful_iff_logsTruly hfed hsettled).mpr (hcond ms m heq) record hrecord

/-- **When every record is truthful.** Along a run of client and server reads, up to a throw,
exactly when at the end of every client read that completes a logical packet nothing left over
misleads the logger. -/
theorem log_truthful_iff (reads : List LoggedRead) :
    (∀ front read back t u, reads = front ++ read :: back →
      Fallible.run logRead logStart front = .ok t → logRead t read = .ok u → AppendsTruly t u) ↔
    ∀ front read back t u, reads = front ++ read :: back →
      Fallible.run logRead logStart front = .ok t → logRead t read = .ok u →
      read.fromClientToServer = true →
      ∀ (ms : List (Message StampedByte)) (m : Message StampedByte),
        u.1.clientStream = (ms ++ [m]).flatMap Message.encode → LogsTruly ms m := by
  constructor
  · intro htruth front read back t u heq hfront hread hdir
    exact (appendsTruly_client_iff (tracked_run hfront) hdir hread).mp
      (htruth front read back t u heq hfront hread)
  · intro hcond front read back t u heq hfront hread
    cases hdir : read.fromClientToServer with
    | true =>
      exact (appendsTruly_client_iff (tracked_run hfront) hdir hread).mpr
        (hcond front read back t u heq hfront hread hdir)
    | false =>
      -- a server read appends nothing
      obtain ⟨-, -, hlog, -⟩ := logRead_server_ok hdir hread
      exact ⟨[], by simp [hlog], by simp⟩

end

/-- A `COM_PING` packet. -/
def ping : Message StampedByte :=
  Message.single
    { len0 := (1, .COMMAND_PHASE)
      len1 := (0, .COMMAND_PHASE)
      len2 := (0, .COMMAND_PHASE)
      seq := (0, .COMMAND_PHASE)
      payload := [(0x0E, .COMMAND_PHASE)]
      length_eq := rfl }
    (by decide)

/-- An empty packet. -/
def emptyPacket : Message StampedByte :=
  Message.single
    { len0 := (0, .COMMAND_PHASE)
      len1 := (0, .COMMAND_PHASE)
      len2 := (0, .COMMAND_PHASE)
      seq := (0, .COMMAND_PHASE)
      payload := []
      length_eq := rfl }
    (by decide)

open scoped BasicString.Libstdcxx in
/-- An empty packet after a ping is logged as a second ping. -/
theorem log_repeats_ping :
    ∃ t u, Fallible.run logRead logStart [serverOk, clientRead [1, 0, 0, 0, 0x0E] (by simp)]
        = .ok t ∧
      logRead t (clientRead [0, 0, 0, 0] (by simp)) = .ok u ∧
      u.2.logFile = t.2.logFile ++ [⟨"COM_PING", none⟩] ∧ ¬ AppendsTruly t u := by
  obtain ⟨t, u, ht, hu, hlog, hstream⟩ : ∃ t u,
      Fallible.run logRead logStart [serverOk, clientRead [1, 0, 0, 0, 0x0E] (by simp)] = .ok t ∧
      logRead t (clientRead [0, 0, 0, 0] (by simp)) = .ok u ∧
      u.2.logFile = t.2.logFile ++ [⟨"COM_PING", none⟩] ∧
      u.1.clientStream = ([ping] ++ [emptyPacket]).flatMap Message.encode :=
    ⟨_, _, rfl, rfl, rfl, rfl⟩
  refine ⟨t, u, ht, hu, hlog, fun htruth => ?_⟩
  have hcond := (appendsTruly_client_iff (tracked_run ht) rfl hu).mp htruth [ping] emptyPacket
    hstream
  rw [show LogsTruly [ping] emptyPacket = (MySqlCommand.name .COM_PING 0 = "") from rfl] at hcond
  exact absurd hcond (by decide)

end Proxy
