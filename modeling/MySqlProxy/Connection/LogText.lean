import MySqlProxy.Connection.PacketLogger
import MySqlProxy.Lib.RawLines

/-!
# What the text of the log determines

`packet_logger` writes a record as a line: the command string and, behind `", SQL: "`, the SQL
string as the client sent it. Command strings contain neither a line break nor a comma, so the log
is a `RawLines.Format`, and what its text determines is settled there.

* **`log_text_ambiguous`** — the log text does not determine the records: a query with a line break
  in it is written as two commands are;
* **`log_text_determines_records`** — it does determine them when no SQL string ends with a line
  break and the line of another record, and each record that does so has a second reading.
-/

namespace Proxy

/-! ## What packets are logged as -/

namespace FromClientPacket

/-- The record as the packet holds it: the command string and the SQL string. -/
def contents (packet : FromClientPacket) : String × List UInt8 :=
  (packet.getCommandString, packet.getSqlString)

/-- A packet that leaves a record, with an SQL string only when its command has an SQL field. -/
def Loggable (packet : FromClientPacket) : Prop :=
  packet.getCommandString ≠ "" ∧
    (packet.getSqlString ≠ [] → MySqlCommand.hasSqlField packet.derived.command = true)

instance (packet : FromClientPacket) : Decidable packet.Loggable :=
  inferInstanceAs (Decidable (_ ∧ _))

/-- The record `packet_logger` writes for a packet with a command string. -/
def recordOf (packet : FromClientPacket) : LogRecord :=
  ⟨packet.getCommandString, if packet.hasSqlString then some packet.getSqlString else none⟩

theorem hasSqlString_iff {packet : FromClientPacket} :
    packet.hasSqlString = true ↔ packet.getSqlString ≠ [] := by
  rw [hasSqlString, getSqlString]
  cases packet.derived.sqlString.chars <;> simp

theorem recordOf_sqlString {packet : FromClientPacket} (h : packet.getSqlString ≠ []) :
    packet.recordOf.sqlString = some packet.getSqlString := by
  rw [recordOf, if_pos (hasSqlString_iff.mpr h)]

/-- The contents are read back from the record, in which an empty SQL string is left out. -/
theorem contents_eq (packet : FromClientPacket) :
    packet.contents = (packet.recordOf.commandString, packet.recordOf.sqlString.getD []) := by
  by_cases h : packet.getSqlString = []
  · rw [contents, recordOf, if_neg (fun hs => hasSqlString_iff.mp hs h), h]
    rfl
  · rw [contents, recordOf_sqlString h]
    rfl

theorem map_contents_eq {packets packets' : List FromClientPacket}
    (h : packets.map recordOf = packets'.map recordOf) :
    packets.map contents = packets'.map contents := by
  rw [funext contents_eq]
  have hmap := congrArg
    (List.map fun record : LogRecord => (record.commandString, record.sqlString.getD [])) h
  rwa [List.map_map, List.map_map] at hmap

end FromClientPacket

namespace PacketLogger

/-- Writes client packets to the log file, one after the other. -/
def logAll (packets : List FromClientPacket) (logger : PacketLogger) : PacketLogger :=
  packets.foldl (fun logger packet => logger.packetLogger (.fromClient packet) true) logger

theorem packetLogger_loggable {packet : FromClientPacket} (h : packet.Loggable)
    (logger : PacketLogger) :
    (logger.packetLogger (.fromClient packet) true).text
      = logger.text ++ packet.recordOf.text := by
  simp [packetLogger, AnyPacket.asFromClientPacket, h.1, text, FromClientPacket.recordOf]

/-- What a run of the logger appends. Induction on the packets. -/
theorem logAll_text {packets : List FromClientPacket} (h : ∀ packet ∈ packets, packet.Loggable)
    (logger : PacketLogger) :
    (logger.logAll packets).text
      = logger.text ++ (packets.map FromClientPacket.recordOf).flatMap LogRecord.text := by
  induction packets generalizing logger with
  | nil => simp [logAll]
  | cons packet packets ih =>
    have hrest : ∀ p ∈ packets, p.Loggable := fun p hp => h p (by simp [hp])
    have hstep := ih hrest (logger.packetLogger (.fromClient packet) true)
    rw [packetLogger_loggable (h packet (by simp)), List.append_assoc] at hstep
    rw [List.map_cons, List.flatMap_cons, ← hstep]
    rfl

/-- The packets append this text to the log file, whatever is in it. -/
def Appends (packets : List FromClientPacket) (appended : List UInt8) : Prop :=
  ∀ logger : PacketLogger, (logger.logAll packets).text = logger.text ++ appended

theorem appends_iff {packets : List FromClientPacket} (h : ∀ packet ∈ packets, packet.Loggable)
    {appended : List UInt8} :
    Appends packets appended
      ↔ appended = (packets.map FromClientPacket.recordOf).flatMap LogRecord.text := by
  constructor
  · intro happends
    have hempty := happends {}
    rw [logAll_text h] at hempty
    exact (List.append_cancel_left hempty).symm
  · rintro rfl logger
    exact logAll_text h logger

end PacketLogger

/-! ## The log as a format -/

theorem toList_loop (bytes : ByteArray) (i : Nat) (r : List UInt8) :
    ByteArray.toList.loop bytes i r = r.reverse ++ bytes.data.toList.drop i := by
  fun_induction ByteArray.toList.loop bytes i r with
  | case1 i r h ih =>
    have hget : bytes.get! i = bytes.data.toList.get ⟨i, h⟩ := by
      show bytes.data[i]! = _
      rw [getElem!_pos bytes.data i h]
      rfl
    rw [ih, hget, List.reverse_cons, List.append_assoc, List.drop_eq_getElem_cons h]
    rfl
  | case2 i r h =>
    have hle : bytes.data.toList.length ≤ i := Nat.le_of_not_lt h
    rw [List.drop_eq_nil_of_le hle, List.append_nil]

/-- `ByteArray.toList` by the array it is a loop over. -/
theorem toList_eq_data_toList (bytes : ByteArray) : bytes.toList = bytes.data.toList := by
  rw [ByteArray.toList, toList_loop]
  rfl

theorem toUTF8_toList_inj {s t : String} (h : s.toUTF8.toList = t.toUTF8.toList) : s = t := by
  rw [toList_eq_data_toList, toList_eq_data_toList] at h
  exact String.toByteArray_inj.mp (ByteArray.ext (Array.toList_inj.mp h))

/-- `'\n'`. -/
def lineBreak : UInt8 := 0x0A

/-- The bytes of `" SQL: "`, which follow the comma. -/
def afterComma : List UInt8 := [0x20, 0x53, 0x51, 0x4C, 0x3A, 0x20]

theorem toList_lineBreak : "\n".toUTF8.toList = [lineBreak] := by
  rw [toList_eq_data_toList]
  decide

theorem toList_separator : ", SQL: ".toUTF8.toList = 0x2C :: afterComma := by
  rw [toList_eq_data_toList]
  decide

theorem comma_ne_lineBreak : (0x2C : UInt8) ≠ lineBreak := by decide

theorem lineBreak_not_mem_afterComma : lineBreak ∉ afterComma := by decide

theorem eq_of_bytes_eq (record record' : LogRecord)
    (hname : record.commandString.toUTF8.toList = record'.commandString.toUTF8.toList)
    (hsql : record.sqlString = record'.sqlString) : record = record' := by
  cases record
  cases record'
  rw [LogRecord.mk.injEq]
  exact ⟨toUTF8_toList_inj hname, hsql⟩

/-- How records are written into the log file. -/
def logFormat : RawLines.Format UInt8 LogRecord where
  newline := lineBreak
  mark := 0x2C
  tail := afterComma
  head record := record.commandString.toUTF8.toList
  body record := record.sqlString
  mark_ne_newline := comma_ne_lineBreak
  newline_not_mem_tail := lineBreak_not_mem_afterComma
  ext := eq_of_bytes_eq

theorem line_logFormat (record : LogRecord) : logFormat.line record = record.text := by
  rw [LogRecord.text, toList_lineBreak, toList_separator]
  cases hsql : record.sqlString with
  | none => simp [RawLines.Format.line, RawLines.Format.bodyText, logFormat, hsql]
  | some sqlString => simp [RawLines.Format.line, RawLines.Format.bodyText, logFormat, hsql]

theorem text_logFormat (records : List LogRecord) :
    logFormat.text records = records.flatMap LogRecord.text := by
  rw [RawLines.Format.text, funext line_logFormat]

/-- No command string contains a line break or a comma. -/
theorem name_stops (command : MySqlCommand.Command) (n : Nat) :
    lineBreak ∉ (MySqlCommand.name command n).toUTF8.toList ∧
      0x2C ∉ (MySqlCommand.name command n).toUTF8.toList := by
  rw [toList_eq_data_toList]
  unfold MySqlCommand.name
  split <;> try split
  all_goals decide

/-! ## Records that the log can be given -/

/-- The record of a packet. -/
def Recorded (record : LogRecord) : Prop :=
  ∃ packet : FromClientPacket, packet.Loggable ∧ packet.recordOf = record

theorem clean_of_recorded {record : LogRecord} (h : Recorded record) : logFormat.Clean record := by
  obtain ⟨packet, -, rfl⟩ := h
  have hstops := name_stops packet.derived.command packet.payloadLength.toNat
  exact ⟨hstops.1, hstops.2⟩

/-- An SQL string that ends with a line break and the line of a record, less its line end: behind
the text that comes before, the line of that record is read where the SQL string ends. -/
def ForgesRecord (sqlString : List UInt8) : Prop :=
  ∃ front, ∃ packet : FromClientPacket, packet.Loggable ∧
    sqlString ++ [lineBreak] = front ++ lineBreak :: packet.recordOf.text

theorem forgesRecord_iff {sqlString : List UInt8} :
    ForgesRecord sqlString ↔ logFormat.Forges Recorded sqlString := by
  constructor
  · rintro ⟨front, packet, hpacket, heq⟩
    exact ⟨front, packet.recordOf, ⟨packet, hpacket, rfl⟩, by rw [line_logFormat]; exact heq⟩
  · rintro ⟨front, _, ⟨packet, hpacket, rfl⟩, heq⟩
    exact ⟨front, packet, hpacket, by rw [← line_logFormat]; exact heq⟩

/-- An SQL string of one line forges nothing. -/
theorem not_forgesRecord_of_not_mem {sqlString : List UInt8} (h : lineBreak ∉ sqlString) :
    ¬ ForgesRecord sqlString := by
  rintro ⟨front, packet, -, heq⟩
  rw [← line_logFormat] at heq
  rcases List.eq_nil_or_concat (logFormat.line packet.recordOf) with hnil | ⟨xs, b, hconcat⟩
  · exact RawLines.Format.line_ne_nil _ hnil
  · rw [hconcat, List.concat_eq_append, ← List.cons_append, ← List.append_assoc] at heq
    exact h (by rw [List.append_inj_left' heq rfl]; simp)

theorem plain_of_not_forgesRecord {packet : FromClientPacket} (hpacket : packet.Loggable)
    (hnot : ¬ ForgesRecord packet.getSqlString) : logFormat.Plain Recorded packet.recordOf := by
  refine ⟨⟨packet, hpacket, rfl⟩, fun body hbody hforges => hnot ?_⟩
  have hsome : (if packet.hasSqlString then some packet.getSqlString else none) = some body := hbody
  split at hsome
  · rw [forgesRecord_iff, Option.some.inj hsome]
    exact hforges
  · exact absurd hsome (by simp)

/-! ## The text and the records -/

/-- A packet of one frame as the parser leaves it at the end of the frame, its SQL string with the
room of a short string of libstdc++ or more. -/
def receivedPacket (command : MySqlCommand.Command) (sqlString : List UInt8) :
    FromClientPacket where
  payloadIsReceived := true
  payloadLength := UInt64.ofNat (sqlString.length + 1)
  receivedBytes := UInt64.ofNat (sqlString.length + 1)
  payload := command.byte :: sqlString
  derived :=
    { command := command
      sqlString := ⟨sqlString, max sqlString.length 15, Nat.le_max_left ..⟩ }

theorem loggable_query (sqlString : List UInt8) : (receivedPacket .COM_QUERY sqlString).Loggable :=
  ⟨(MySqlCommand.name_of_hasSqlField rfl _ 0).1, fun _ => rfl⟩

/-- The SQL string `"x"`. -/
def oneLine : List UInt8 := [0x78]

/-- The SQL string `"x\nCOM_PING"`. -/
def twoLines : List UInt8 := [0x78, lineBreak, 0x43, 0x4F, 0x4D, 0x5F, 0x50, 0x49, 0x4E, 0x47]

open FromClientPacket PacketLogger

open scoped BasicString.Libstdcxx in
/-- **The log is ambiguous.** A query of two lines and a query followed by a ping, each packet as it
is collected from its frame, append the same text. -/
theorem log_text_ambiguous :
    (initial.collectBytes ([0x0B, 0, 0, 0, 0x03] ++ twoLines) .COMMAND_PHASE
        = .ok (receivedPacket .COM_QUERY twoLines, .COMMAND_PHASE) ∧
      initial.collectBytes ([0x02, 0, 0, 0, 0x03] ++ oneLine) .COMMAND_PHASE
        = .ok (receivedPacket .COM_QUERY oneLine, .COMMAND_PHASE) ∧
      initial.collectBytes [0x01, 0, 0, 0, 0x0E] .COMMAND_PHASE
        = .ok (receivedPacket .COM_PING [], .COMMAND_PHASE)) ∧
    (∀ packet ∈ [receivedPacket .COM_QUERY twoLines], packet.Loggable) ∧
    (∀ packet ∈ [receivedPacket .COM_QUERY oneLine, receivedPacket .COM_PING []],
      packet.Loggable) ∧
    [receivedPacket .COM_QUERY twoLines].map contents
      ≠ [receivedPacket .COM_QUERY oneLine, receivedPacket .COM_PING []].map contents ∧
    ∃ appended, Appends [receivedPacket .COM_QUERY twoLines] appended ∧
      Appends [receivedPacket .COM_QUERY oneLine, receivedPacket .COM_PING []] appended := by
  have htwo : ∀ packet ∈ [receivedPacket .COM_QUERY twoLines], packet.Loggable := by decide
  have hone : ∀ packet ∈ [receivedPacket .COM_QUERY oneLine, receivedPacket .COM_PING []],
      packet.Loggable := by decide
  refine ⟨⟨rfl, rfl, rfl⟩, htwo, hone, by decide, _, (appends_iff htwo).mpr rfl,
    (appends_iff hone).mpr ?_⟩
  simp only [List.map, List.flatMap_cons, List.flatMap_nil, LogRecord.text, toList_eq_data_toList]
  decide

/-- A query before the packet, and the two readings of what they append: the query and the packet,
or a query that reaches up to the line that the packet ends with, and the packet of that line. -/
theorem exists_second_reading {packet : FromClientPacket} (hpacket : packet.Loggable)
    (hforges : ForgesRecord packet.getSqlString) :
    ∃ packets packets', packet ∈ packets ∧
      (∀ packet ∈ packets, packet.Loggable) ∧ (∀ packet ∈ packets', packet.Loggable) ∧
      packets.map contents ≠ packets'.map contents ∧
      ∃ appended, Appends packets appended ∧ Appends packets' appended := by
  obtain ⟨front, forged, hforged, heq⟩ := id hforges
  have hsql : packet.getSqlString ≠ [] := fun hnil =>
    not_forgesRecord_of_not_mem (by rw [hnil]; exact List.not_mem_nil) hforges
  -- what the longer query contains behind its first line
  let swallowed := lineBreak :: (logFormat.head packet.recordOf ++ 0x2C :: afterComma ++ front)
  let before := receivedPacket .COM_QUERY oneLine
  let merged := receivedPacket .COM_QUERY (oneLine ++ swallowed)
  have hreading : ∀ p ∈ [before, packet], p.Loggable := by
    simp [before, loggable_query, hpacket]
  have hother : ∀ p ∈ [merged, forged], p.Loggable := by
    simp [merged, loggable_query, hforged]
  have htext : logFormat.text [before.recordOf, packet.recordOf]
      = logFormat.text [merged.recordOf, forged.recordOf] := by
    refine RawLines.Format.text_collision (recordOf_sqlString hsql) ?_ rfl rfl rfl
    rw [line_logFormat]
    exact heq
  rw [text_logFormat, text_logFormat] at htext
  refine ⟨[before, packet], [merged, forged], by simp, hreading, hother, ?_, _,
    (appends_iff hreading).mpr rfl, (appends_iff hother).mpr htext⟩
  intro hcontents
  have hlength : oneLine = oneLine ++ swallowed :=
    congrArg Prod.snd (List.cons.inj hcontents).1
  exact absurd (List.self_eq_append_right.mp hlength) (List.cons_ne_nil _ _)

/-- **What the text of the log determines.** Packets none of whose SQL strings ends with the line
of another record are determined by the text they append, as far as they are recorded; and a packet
whose SQL string does end so has a text that other packets append as well. -/
theorem log_text_determines_records :
    (∀ (packets packets' : List FromClientPacket) (appended : List UInt8),
      (∀ packet ∈ packets, packet.Loggable ∧ ¬ ForgesRecord packet.getSqlString) →
      (∀ packet ∈ packets', packet.Loggable ∧ ¬ ForgesRecord packet.getSqlString) →
      Appends packets appended → Appends packets' appended →
        packets.map contents = packets'.map contents) ∧
    ∀ packet : FromClientPacket, packet.Loggable → ForgesRecord packet.getSqlString →
      ∃ packets packets', packet ∈ packets ∧
        (∀ packet ∈ packets, packet.Loggable) ∧ (∀ packet ∈ packets', packet.Loggable) ∧
        packets.map contents ≠ packets'.map contents ∧
        ∃ appended, Appends packets appended ∧ Appends packets' appended := by
  constructor
  · intro packets packets' appended h h' happends happends'
    rw [appends_iff (fun p hp => (h p hp).1)] at happends
    rw [appends_iff (fun p hp => (h' p hp).1), happends, ← text_logFormat, ← text_logFormat]
      at happends'
    have hrecords : packets.map recordOf = packets'.map recordOf :=
      RawLines.Format.eq_of_text_eq (fun _ => clean_of_recorded)
        (List.forall_mem_map.mpr fun p hp => plain_of_not_forgesRecord (h p hp).1 (h p hp).2)
        (List.forall_mem_map.mpr fun p hp => plain_of_not_forgesRecord (h' p hp).1 (h' p hp).2)
        happends'
    exact map_contents_eq hrecords
  · intro packet hpacket hforges
    exact exists_second_reading hpacket hforges

/-- The forging query, and two one-line queries of which only the framing differs. -/
theorem log_text_determines_records_query :
    [receivedPacket .COM_QUERY oneLine].map contents
      = [{ receivedPacket .COM_QUERY oneLine with payload := [] }].map contents ∧
    ∃ packets packets', receivedPacket .COM_QUERY twoLines ∈ packets ∧
      (∀ packet ∈ packets, packet.Loggable) ∧ (∀ packet ∈ packets', packet.Loggable) ∧
      packets.map contents ≠ packets'.map contents ∧
      ∃ appended, Appends packets appended ∧ Appends packets' appended := by
  have hnot : ¬ ForgesRecord oneLine := not_forgesRecord_of_not_mem (by decide)
  have hplain : ∀ packet ∈ [receivedPacket .COM_QUERY oneLine],
      packet.Loggable ∧ ¬ ForgesRecord packet.getSqlString :=
    List.forall_mem_singleton.mpr ⟨by decide, hnot⟩
  have hplain' : ∀ packet ∈ [{ receivedPacket .COM_QUERY oneLine with payload := [] }],
      FromClientPacket.Loggable packet ∧ ¬ ForgesRecord packet.getSqlString :=
    List.forall_mem_singleton.mpr ⟨by decide, hnot⟩
  have hforges : ForgesRecord twoLines := by
    refine ⟨oneLine, receivedPacket .COM_PING [], by decide, ?_⟩
    simp only [LogRecord.text, toList_eq_data_toList]
    decide
  exact ⟨log_text_determines_records.1 _ _ _ hplain hplain'
      ((appends_iff fun p hp => (hplain p hp).1).mpr rfl)
      ((appends_iff fun p hp => (hplain' p hp).1).mpr rfl),
    log_text_determines_records.2 (receivedPacket .COM_QUERY twoLines) (loggable_query twoLines)
      hforges⟩

end Proxy
