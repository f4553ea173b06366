import MySqlProxy.Connection.Exchange
import MySqlProxy.Connection.Phase
import MySqlProxy.Connection.LogTruth
import MySqlProxy.Connection.Interleaving

/-!
# Sessions

What the proxy is for: a client logs in, and then sends one command after the other, each one after
the answer to the last. In such a session no read holds bytes of two commands, so the client packet
is looked at right after every command. A `Visit` is what such a client has sent so far;
`Visit.run_logRead` says that it is parsed without a throw and that the log is then the list of its
commands, whatever the reads cut the commands into and whatever the server answers in between.
-/

namespace Proxy

open Framing FromClientFields

/-! ## Commands -/

/-- A command of a client: its byte, what follows it, and the sequence ids of its frames. -/
structure ClientCommand where
  code : UInt8
  data : List UInt8
  seq : Nat → UInt8
  seq_zero : seq 0 = 0

namespace ClientCommand

/-- The frames the client sends. -/
def message (command : ClientCommand) : Message UInt8 :=
  Message.ofPayload command.seq (command.code :: command.data)

/-- What the log should have of the command: its name and its SQL string, if it has a name. -/
def record (command : ClientCommand) : Option LogRecord :=
  if MySqlCommand.name ⟨command.code⟩ (command.data.length + 1) ≠ "" then
    some (truthfulRecord command.code command.data)
  else none

/-- The last frame names the command as its whole length does, and ends an SQL string. Every command
that fits one frame is like this. -/
structure Regular (command : ClientCommand) : Prop where
  name : MySqlCommand.name ⟨command.code⟩ ((command.data.length + 1) % fullLength)
    = MySqlCommand.name ⟨command.code⟩ (command.data.length + 1)
  ends : MySqlCommand.hasSqlField ⟨command.code⟩ = true →
    (command.data.length + 1) % fullLength ≠ 0

theorem regular_of_lt {command : ClientCommand} (h : command.data.length + 1 < fullLength) :
    command.Regular := by
  have hmod : (command.data.length + 1) % fullLength = command.data.length + 1 := Nat.mod_eq_of_lt h
  refine ⟨by rw [hmod], fun _ => ?_⟩
  rw [hmod]
  omega

/-- What the client packet holds after the command. -/
def contents (command : ClientCommand) : Contents where
  command := ⟨command.code⟩
  sqlDataReceiving := false
  sql := if MySqlCommand.hasSqlField ⟨command.code⟩ then command.data else []

/-- What the client packet holds after a command that comes while the receive mode is off. -/
theorem contents_afterMessage (command : ClientCommand) (hregular : command.Regular)
    {contents : Contents} (hmode : contents.sqlDataReceiving = false) :
    contents.afterMessage (stampMessage .COMMAND_PHASE command.message) = command.contents := by
  have hlength := length_last_stampMessage .COMMAND_PHASE command.message
  rw [message, Message.length_last_ofPayload, List.length_cons] at hlength
  have hpayload := payload_commandMessage command.seq command.code command.data
  rw [commandMessage] at hpayload
  rw [message, Contents.afterMessage_cons hpayload, map_fst_stamp]
  unfold Contents.closePacket
  cases hsql : MySqlCommand.hasSqlField ⟨command.code⟩ with
  | false =>
    split <;> simp [ClientCommand.contents, Contents.opened, Contents.startCommand,
      Contents.appendData, Contents.dataIsReceived, hmode, hsql]
  | true =>
    have hne : (stampMessage .COMMAND_PHASE
        (Message.ofPayload command.seq (command.code :: command.data))).last.payload ≠ [] := by
      intro hnil
      rw [hnil] at hlength
      exact hregular.ends hsql hlength.symm
    rw [if_neg hne]
    simp [ClientCommand.contents, Contents.opened, Contents.startCommand, Contents.appendData,
      Contents.dataIsReceived, hsql]

/-- At its end the client packet shows the record of the command. -/
theorem logRecord_eq (command : ClientCommand) (hregular : command.Regular)
    {derived : FromClientFields} (h : derived.contents = command.contents) :
    FromClientPacket.logRecord
        ⟨MySqlPacket.closed (stampMessage .COMMAND_PHASE command.message), derived⟩
      = command.record := by
  obtain ⟨hcommand, -, hchars⟩ := Contents.mk.inj h
  have hlength := length_last_stampMessage .COMMAND_PHASE command.message
  have hle := (stampMessage .COMMAND_PHASE command.message).last.length_le
  have hname : FromClientPacket.getCommandString
      ⟨MySqlPacket.closed (stampMessage .COMMAND_PHASE command.message), derived⟩
      = MySqlCommand.name ⟨command.code⟩ (command.data.length + 1) := by
    rw [FromClientPacket.getCommandString]
    show MySqlCommand.name derived.command
      (UInt64.ofNat (stampMessage .COMMAND_PHASE command.message).last.payload.length).toNat = _
    rw [hcommand, toNat_ofNat_of_le hle, hlength, message, Message.length_last_ofPayload,
      List.length_cons, hregular.name]
  have hsql : (if FromClientPacket.hasSqlString
        ⟨MySqlPacket.closed (stampMessage .COMMAND_PHASE command.message), derived⟩
      then some (FromClientPacket.getSqlString
        ⟨MySqlPacket.closed (stampMessage .COMMAND_PHASE command.message), derived⟩)
      else none) = (truthfulRecord command.code command.data).sqlString := by
    unfold FromClientPacket.hasSqlString FromClientPacket.getSqlString truthfulRecord
    dsimp only
    rw [hchars]
    cases MySqlCommand.hasSqlField ⟨command.code⟩ with
    | false => rfl
    | true => cases command.data <;> rfl
  unfold FromClientPacket.logRecord record
  rw [hname, hsql]
  by_cases hempty : MySqlCommand.name ⟨command.code⟩ (command.data.length + 1) = ""
  · rw [if_neg fun h => h.2 hempty, if_neg (not_not.mpr hempty)]
  · rw [if_pos ⟨rfl, hempty⟩, if_pos hempty]
    rfl

variable [BasicString.Library]

/-- The capacity of the SQL string after the command, `capacity` being the one before it, if the
command gets the room it asks for. -/
def room (command : ClientCommand) (capacity : Nat) : Except BasicString.Failure Nat :=
  if MySqlCommand.hasSqlField ⟨command.code⟩ then
    sqlCapacity capacity (frameLengths (command.data.length + 1))
  else .ok (BasicString.Library.shrink 0 capacity)

theorem messageCapacity_eq (command : ClientCommand) {contents : Contents} {capacity : Nat}
    (hmode : contents.sqlDataReceiving = false)
    (hcapacity : capacity ≤ BasicString.Library.maxSize) :
    messageCapacity contents capacity (stampMessage .COMMAND_PHASE command.message)
      = command.room capacity := by
  unfold room
  cases hsql : MySqlCommand.hasSqlField ⟨command.code⟩ with
  | true => exact messageCapacity_sql hcapacity hsql command.data command.seq
  | false =>
    show messageCapacity contents capacity (commandMessage command.seq command.code command.data)
      = _
    rw [messageCapacity_other (payload_commandMessage command.seq command.code command.data) hsql,
      hmode]
    rfl

/-- A command that gets its room is collected without a throw. -/
theorem afterMessage_ok (command : ClientCommand) {derived : FromClientFields}
    (hmode : derived.sqlDataReceiving = false)
    (hcapacity : derived.sqlString.capacity ≤ BasicString.Library.maxSize) {capacity : Nat}
    (hroom : command.room derived.sqlString.capacity = .ok capacity) :
    ∃ derived', derived.afterMessage (stampMessage .COMMAND_PHASE command.message) = .ok derived' ∧
      derived'.contents
          = derived.contents.afterMessage (stampMessage .COMMAND_PHASE command.message) ∧
        derived'.sqlString.capacity = capacity := by
  have hmodeContents : derived.contents.sqlDataReceiving = false := hmode
  have hrequests := command.messageCapacity_eq hmodeContents hcapacity
  have hrej : ∀ x rest, (stampMessage .COMMAND_PHASE command.message).payload = x :: rest →
      ¬ Rejected (stampMessage .COMMAND_PHASE command.message).first.seq.1 x := by
    intro x rest _ hbad
    refine hbad.2.2 ?_
    rw [message, ← commandMessage, seq_commandMessage]
    exact command.seq_zero
  obtain ⟨derived', hafter⟩ := afterMessage_granted hrej (hrequests.trans hroom)
  obtain ⟨-, hcontents, hgranted⟩ := afterMessage_ok_iff.mp hafter
  rw [hrequests, hroom] at hgranted
  exact ⟨derived', hafter, hcontents, (Except.ok.inj hgranted).symm⟩

end ClientCommand

/-! ## One command, in any reads -/

theorem clientReads_append (reads reads' : List LoggedRead) :
    clientReads (reads ++ reads') = clientReads reads ++ clientReads reads' :=
  List.filter_append ..

theorem readBytes_append (reads reads' : List LoggedRead) :
    readBytes (reads ++ reads') = readBytes reads ++ readBytes reads' :=
  List.flatMap_append

section

variable [BasicString.Library]

/-- A connection that waits for a command, with room for `capacity` characters in its SQL string. -/
structure Ready (capacity : Nat) (s : Connection × PacketLogger) : Prop where
  phase : s.1.connectionState = .COMMAND_PHASE
  between : s.1.clientPacket.toMySqlPacket.BetweenPackets
  mode : s.1.clientPacket.derived.sqlDataReceiving = false
  room : s.1.clientPacket.derived.sqlString.capacity = capacity
  bound : capacity ≤ BasicString.Library.maxSize

omit [BasicString.Library] in
/-- In the command phase the client reads are sampled in it, whatever server reads are between. -/
theorem chunksFrom_of_command {s : Connection × PacketLogger}
    (h : s.1.connectionState = .COMMAND_PHASE) (reads : List LoggedRead) :
    chunksFrom s reads = chunks .COMMAND_PHASE (clientReads reads) := by
  rw [chunksFrom, h]
  exact clientChunks_of_constant reads (FromServerPacket.phaseAfter_command _ _)

/-- The bytes of a command that gets its room, fed to a connection that waits for it. -/
theorem Ready.feedAll {capacity capacity' : Nat} {s : Connection × PacketLogger}
    (hs : Ready capacity s) {command : ClientCommand}
    (hroom : command.room capacity = .ok capacity') :
    ∃ derived : FromClientFields,
      s.1.clientPacket.feedAll (stampMessage .COMMAND_PHASE command.message).encode
          = .ok ⟨MySqlPacket.closed (stampMessage .COMMAND_PHASE command.message), derived⟩ ∧
        derived.contents = s.1.clientPacket.derived.contents.afterMessage
            (stampMessage .COMMAND_PHASE command.message) ∧
          derived.sqlString.capacity = capacity' ∧ capacity' ≤ BasicString.Library.maxSize := by
  have hbound : s.1.clientPacket.derived.sqlString.capacity ≤ BasicString.Library.maxSize :=
    hs.room.trans_le hs.bound
  obtain ⟨derived, hafter, hcontents, hcapacity⟩ :=
    command.afterMessage_ok hs.mode hbound (by rw [hs.room]; exact hroom)
  have hfeed := FromClientPacket.feedAll_message hs.between
    (stampMessage .COMMAND_PHASE command.message)
  rw [hafter] at hfeed
  have hbound' := Fallible.run_invariant
    (fun _ _ _ hle hstep => FromClientPacket.capacity_le_of_feed hle hstep) hbound hfeed
  exact ⟨derived, hfeed, hcontents, hcapacity, hcapacity ▸ hbound'⟩

/-- **One command.** The client reads deliver its bytes, cut in any way, and any server reads come
in between. -/
theorem command_log {capacity capacity' : Nat} {s : Connection × PacketLogger}
    (hs : Ready capacity s) {command : ClientCommand} (hregular : command.Regular)
    (hroom : command.room capacity = .ok capacity') {reads : List LoggedRead}
    (hwire : readBytes (clientReads reads) = command.message.encode) :
    ∃ t, Fallible.run logRead s reads = .ok t ∧ Ready capacity' t ∧
      t.2.logFile = s.2.logFile ++ command.record.toList := by
  have hstamped : stamp .COMMAND_PHASE (readBytes (clientReads reads))
      = (stampMessage .COMMAND_PHASE command.message).encode := by
    rw [hwire, encode_stampMessage]
  obtain ⟨derived, hfeed, hcontents, hcapacity, hbound⟩ := hs.feedAll hroom
  rw [command.contents_afterMessage hregular hs.mode] at hcontents
  rw [← hstamped, ← flatten_chunks] at hfeed
  obtain ⟨seen, hsample⟩ := Fallible.exists_sample_of_run FromClientPacket.logRecord hfeed
  -- the reads show what the packet shows at its end, and nothing else
  have hreads : clientReads reads ≠ [] := by
    intro hnil
    rw [hnil] at hwire
    exact command.message.encode_ne_nil hwire.symm
  obtain ⟨early, hearly⟩ := sample_last hreads hsample
  have hsublist := sample_message_sublist hs.between hstamped hsample
  have hseen : seen = command.record.toList := by
    rw [← command.logRecord_eq hregular hcontents]
    refine hsublist.eq_of_length_le ?_
    rw [hearly, List.length_append]
    omega
  have hrun := run_reads.mpr ⟨_, seen, by rw [chunksFrom_of_command hs.phase]; exact hsample, rfl⟩
  refine ⟨_, hrun, ⟨?_, MySqlPacket.betweenPackets_closed _,
    congrArg Contents.sqlDataReceiving hcontents, hcapacity, hbound⟩, ?_⟩
  · show FromServerPacket.phaseAfter _ s.1.connectionState _ = _
    rw [hs.phase]
    exact FromServerPacket.phaseAfter_command _ _
  · rw [← hseen]
    simp [afterReads]

/-- A command of which the client has sent only a part is not logged. -/
theorem partial_command_log {capacity capacity' : Nat} {s : Connection × PacketLogger}
    (hs : Ready capacity s) {command : ClientCommand}
    (hroom : command.room capacity = .ok capacity') {reads : List LoggedRead}
    {missing : List UInt8} (hmissing : missing ≠ [])
    (hwire : readBytes (clientReads reads) ++ missing = command.message.encode) :
    ∃ t, Fallible.run logRead s reads = .ok t ∧ t.2.logFile = s.2.logFile := by
  have hstamped : (stampMessage .COMMAND_PHASE command.message).encode
      = (chunks .COMMAND_PHASE (clientReads reads)).flatten ++ stamp .COMMAND_PHASE missing := by
    rw [encode_stampMessage, ← hwire, stamp_append, flatten_chunks]
  obtain ⟨derived, hfeed, -⟩ := hs.feedAll hroom
  rw [hstamped] at hfeed
  obtain ⟨packet, hpart⟩ := Fallible.run_prefix_ok hfeed
  obtain ⟨seen, hsample⟩ := Fallible.exists_sample_of_run FromClientPacket.logRecord hpart
  -- every read ends strictly inside the packet
  have hseen : seen = [] := by
    refine Fallible.sample_eq_nil (fun front back u heq hfront hu => ?_) hsample
    apply FromClientPacket.logRecord_of_not_received
    rw [MySqlPacket.isReceived, Packet.feedAll_base hu]
    rw [heq, List.flatten_append, List.append_assoc] at hstamped
    refine MySqlPacket.not_received_inside hs.between hstamped ?_ ?_
    · obtain ⟨chunk, rest, rfl⟩ := List.exists_cons_of_ne_nil hfront
      have hchunk := chunks_ne_nil chunk (by rw [heq]; simp)
      simp [hchunk]
    · simp [stamp, hmissing]
  have hrun := run_reads.mpr ⟨packet, seen, by rw [chunksFrom_of_command hs.phase]; exact hsample,
    rfl⟩
  refine ⟨_, hrun, ?_⟩
  rw [hseen]
  simp [afterReads]

/-! ## The login -/

/-- The reads of a login: the client sends whole packets, all of them before the read with the OK
packet of the server that ends the connection phase. -/
structure Login (reads : List LoggedRead) : Prop where
  ended : phaseOf reads = .COMMAND_PHASE
  whole : ∃ ms : List (Message UInt8), readBytes (clientReads reads) = ms.flatMap Message.encode
  before : ∃ front back, reads = front ++ back ∧ phaseOf front = .CONNECTION_PHASE ∧
    clientReads back = []

theorem Login.chunksFrom_eq {reads : List LoggedRead} (h : Login reads) :
    chunksFrom logStart reads = chunks .CONNECTION_PHASE (clientReads reads) := by
  obtain ⟨front, back, rfl, hfront, hback⟩ := h.before
  have hclient : clientReads (front ++ back) = clientReads front := by
    rw [clientReads_append, hback, List.append_nil]
  have hlate : (clientChunks (MySqlPacket.advanceAll {} (serverBytes front))
      (FromServerPacket.phaseAfter {} .CONNECTION_PHASE (serverBytes front)) back) = [] := by
    apply List.length_eq_zero_iff.mp
    rw [length_clientChunks, hback]
    rfl
  show clientChunks {} .CONNECTION_PHASE (front ++ back) = _
  rw [clientChunks_append, hlate, List.append_nil, hclient]
  exact clientChunks_of_constant front hfront

/-- Nothing shows in the connection phase. -/
theorem logRecord_of_connection {xs : List StampedByte} {packet : FromClientPacket}
    (h : FromClientPacket.initial.feedAll xs = .ok packet)
    (hxs : ∀ x ∈ xs, x.2 = .CONNECTION_PHASE) : packet.logRecord = none := by
  refine (logRecord_eq_none_iff h).mpr fun ms m heq hnamed => hnamed ?_
  rw [lastCommand_eq_unknown (by rw [← heq]; exact hxs)]
  rfl

omit [BasicString.Library] in
theorem flatMap_encode_stampMessage (st : MySqlConnectionState) (ms : List (Message UInt8)) :
    (ms.map (stampMessage st)).flatMap Message.encode = stamp st (ms.flatMap Message.encode) := by
  induction ms with
  | nil => rfl
  | cons m ms ih =>
    rw [List.map_cons, List.flatMap_cons, List.flatMap_cons, stamp_append, ih, encode_stampMessage]

/-- Reads that are all sampled in the connection phase log nothing. -/
theorem connecting_log {reads : List LoggedRead}
    (h : chunksFrom logStart reads = chunks .CONNECTION_PHASE (clientReads reads)) :
    ∃ t, Fallible.run logRead logStart reads = .ok t ∧ t.2.logFile = [] ∧
      FromClientPacket.initial.feedAll (stamp .CONNECTION_PHASE (readBytes (clientReads reads)))
        = .ok t.1.clientPacket ∧ t.1.clientPacket.derived = FromClientFields.initial := by
  obtain ⟨packet, hfeed, hsame⟩ := FromClientPacket.feedAll_connection
    (show FromClientPacket.initial.derived.sqlDataReceiving = false from rfl)
    (readBytes (clientReads reads))
  have hchunks := hfeed
  rw [← flatten_chunks] at hchunks
  obtain ⟨seen, hsample⟩ := Fallible.exists_sample_of_run FromClientPacket.logRecord hchunks
  have hseen : seen = [] := by
    refine Fallible.sample_eq_nil (fun front back u heq _ hu => ?_) hsample
    refine logRecord_of_connection hu fun x hx => ?_
    have hmem : x ∈ (chunks .CONNECTION_PHASE (clientReads reads)).flatten := by
      rw [heq, List.flatten_append]
      exact List.mem_append_left _ hx
    rw [flatten_chunks] at hmem
    obtain ⟨b, -, rfl⟩ := List.mem_map.mp hmem
    rfl
  refine ⟨_, run_reads.mpr ⟨packet, seen, by rw [h]; exact hsample, rfl⟩, ?_, hfeed, hsame⟩
  rw [hseen]
  rfl

/-- **The login.** Nothing is logged, and the connection waits for a command with a string as it was
constructed. -/
theorem login_log {reads : List LoggedRead} (h : Login reads) :
    ∃ t, Fallible.run logRead logStart reads = .ok t ∧
      Ready BasicString.Library.initialCapacity t ∧ t.2.logFile = [] := by
  obtain ⟨t, hrun, hlog, hfeed, hderived⟩ := connecting_log h.chunksFrom_eq
  -- the packets of the client leave the parser between packets
  obtain ⟨ms, hms⟩ := h.whole
  rw [hms, ← flatMap_encode_stampMessage] at hfeed
  obtain ⟨-, hbetween⟩ :=
    FromClientPacket.feedAll_messages_ok MySqlPacket.betweenPackets_initial hfeed
  refine ⟨t, hrun, ⟨?_, hbetween, ?_, ?_, BasicString.Library.initialCapacity_le⟩, hlog⟩
  · rw [connectionState_of_run hrun]
    exact h.ended
  · rw [hderived]
    rfl
  · rw [hderived]
    rfl

/-! ## Sessions -/

/-- A part of a command, but not the whole. The command would get its room. -/
def Unfinished (capacity : Nat) (part : List UInt8) : Prop :=
  ∃ (command : ClientCommand) (missing : List UInt8) (capacity' : Nat), missing ≠ [] ∧
    part ++ missing = command.message.encode ∧ command.room capacity = .ok capacity'

/-- No byte of the next command has been sent. -/
theorem unfinished_nil (capacity : Nat) : Unfinished capacity [] := by
  let command : ClientCommand := ⟨0x01, [], fun _ => 0, rfl⟩
  exact ⟨command, command.message.encode, _, command.message.encode_ne_nil, rfl, rfl⟩

/-- The reads of a client that sends one command after the other: each of the commands in reads of
its own, with any server reads in between, and at the end at most a part of the next one. Every
command gets the room it asks for, the SQL string having room for `capacity` characters before the
first. -/
inductive Session : Nat → List ClientCommand → List LoggedRead → Prop where
  | waiting {capacity : Nat} {reads : List LoggedRead}
      (hpart : Unfinished capacity (readBytes (clientReads reads))) : Session capacity [] reads
  | command {capacity capacity' : Nat} {command : ClientCommand} {commands : List ClientCommand}
      {reads rest : List LoggedRead}
      (hwire : readBytes (clientReads reads) = command.message.encode)
      (hroom : command.room capacity = .ok capacity')
      (hrest : Session capacity' commands rest) :
      Session capacity (command :: commands) (reads ++ rest)

/-- A client that has sent nothing. -/
theorem Session.nil (capacity : Nat) : Session capacity [] [] := .waiting (unfinished_nil capacity)

/-- **The run lemma.** Induction on the session: every command leaves a connection that waits for
the next one. -/
theorem session_run {capacity : Nat} {commands : List ClientCommand} {reads : List LoggedRead}
    (h : Session capacity commands reads) {s : Connection × PacketLogger} (hs : Ready capacity s)
    (hregular : ∀ command ∈ commands, command.Regular) :
    ∃ t, Fallible.run logRead s reads = .ok t ∧
      t.2.logFile = s.2.logFile ++ commands.filterMap ClientCommand.record := by
  induction h generalizing s with
  | waiting hpart =>
    obtain ⟨command, missing, capacity', hmissing, hwire, hroom⟩ := hpart
    obtain ⟨t, hrun, hlog⟩ := partial_command_log hs hroom hmissing hwire
    exact ⟨t, hrun, hlog.trans (List.append_nil _).symm⟩
  | command hwire hroom hrest ih =>
    rename_i capacity capacity' command commands reads rest
    obtain ⟨u, hu, hready, hlog⟩ :=
      command_log hs (hregular command (List.mem_cons_self ..)) hroom hwire
    obtain ⟨t, ht, hlog'⟩ := ih hready fun c hc => hregular c (List.mem_cons_of_mem _ hc)
    refine ⟨t, ?_, ?_⟩
    · rw [Fallible.run_append_of_ok _ hu]
      exact ht
    · have hcons : (command :: commands).filterMap ClientCommand.record
          = command.record.toList ++ commands.filterMap ClientCommand.record := by
        rw [List.filterMap_cons]
        cases command.record <;> rfl
      rw [hlog', hlog, hcons, List.append_assoc]

/-- The bytes of a session are those of its commands and a part of one more. -/
theorem Session.readBytes_eq {capacity : Nat} {commands : List ClientCommand}
    {reads : List LoggedRead} (h : Session capacity commands reads) :
    ∃ part capacity', Unfinished capacity' part ∧ readBytes (clientReads reads)
      = commands.flatMap (fun command => command.message.encode) ++ part := by
  induction h with
  | waiting hpart => exact ⟨_, _, hpart, rfl⟩
  | command hwire hroom hrest ih =>
    obtain ⟨part, capacity', hpart, hbytes⟩ := ih
    refine ⟨part, capacity', hpart, ?_⟩
    rw [clientReads_append, readBytes_append, hwire, hbytes, List.flatMap_cons, List.append_assoc]

/-! ## Visits -/

/-- What a client that keeps to the protocol has sent so far, with the server reads in between: its
login or a part of it, and after the login one command after the other, each of which gets the room
it asks for. -/
structure Visit where
  login : List LoggedRead
  rest : List LoggedRead
  commands : List ClientCommand
  keeps : (phaseOf login = .CONNECTION_PHASE ∧ rest = [] ∧ commands = []) ∨
    (Login login ∧ Session BasicString.Library.initialCapacity commands rest)
  regular : ∀ command ∈ commands, command.Regular

namespace Visit

/-- All reads of the connection. -/
def reads (visit : Visit) : List LoggedRead := visit.login ++ visit.rest

/-- The records of the commands that have a name. -/
def records (visit : Visit) : List LogRecord := visit.commands.filterMap ClientCommand.record

/-- **The log of a visit.** Whatever the reads cut the bytes into, nothing is thrown, and the log is
the list of the commands. -/
theorem run_logRead (visit : Visit) :
    ∃ t, Fallible.run logRead logStart visit.reads = .ok t ∧ t.2.logFile = visit.records := by
  unfold reads records
  rcases visit.keeps with ⟨hphase, hrest, hcommands⟩ | ⟨hlogin, hsession⟩
  · obtain ⟨t, hrun, hlog, -⟩ := connecting_log (clientChunks_of_constant visit.login hphase)
    rw [hrest, hcommands, List.append_nil]
    exact ⟨t, hrun, hlog⟩
  · obtain ⟨s, hs, hready, hempty⟩ := login_log hlogin
    obtain ⟨t, ht, hlog⟩ := session_run hsession hready visit.regular
    refine ⟨t, ?_, ?_⟩
    · rw [Fallible.run_append_of_ok _ hs]
      exact ht
    · rw [hlog, hempty]
      rfl

/-- The bytes of the client. -/
theorem readBytes_eq (visit : Visit) :
    ∃ part capacity, Unfinished capacity part ∧ readBytes (clientReads visit.reads)
      = readBytes (clientReads visit.login)
        ++ (visit.commands.flatMap (fun command => command.message.encode) ++ part) := by
  rw [reads, clientReads_append, readBytes_append]
  rcases visit.keeps with ⟨-, hrest, hcommands⟩ | ⟨-, hsession⟩
  · refine ⟨[], 0, unfinished_nil 0, ?_⟩
    rw [hrest, hcommands]
    rfl
  · obtain ⟨part, capacity, hpart, hbytes⟩ := hsession.readBytes_eq
    exact ⟨part, capacity, hpart, by rw [hbytes]⟩

end Visit

end

/-! ### The query `SHOW` -/

/-- The query `SHOW`. -/
def showCommand : ClientCommand := ⟨0x03, [0x53, 0x48, 0x4F, 0x57], fun i => UInt8.ofNat i, rfl⟩

theorem encode_showCommand :
    showCommand.message.encode = [5, 0, 0, 0, 0x03, 0x53, 0x48, 0x4F, 0x57] := by
  rw [ClientCommand.message, Message.encode_ofPayload_of_lt _ (by decide)]
  rfl

theorem regular_showCommand : showCommand.Regular := ClientCommand.regular_of_lt (by decide)

end Proxy
