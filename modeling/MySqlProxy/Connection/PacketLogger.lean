import MySqlProxy.Packet.Collect

/-!
# The packet logger (`packet_logger.cpp`)

`packet_logger` is handed a packet of either class and streams at most one record into the log
file, and `flush` hands what has been streamed to the storage device. The model keeps the records;
`LogRecord.text` is what a record streams into the file. What a client packet would be logged as is
`FromClientPacket.logRecord`.
-/

namespace Proxy

/-- One record of the log: the command string and, after `", SQL: "`, the SQL string. -/
structure LogRecord where
  commandString : String
  sqlString : Option (List UInt8)
  deriving DecidableEq, Repr

/-- The bytes a record streams into the log file. -/
def LogRecord.text (record : LogRecord) : List UInt8 :=
  record.commandString.toUTF8.toList
    ++ (match record.sqlString with
        | some sqlStr => ", SQL: ".toUTF8.toList ++ sqlStr
        | none => [])
    ++ "\n".toUTF8.toList

/-- What a `const MySqlPacket*` points to. -/
inductive AnyPacket where
  | fromClient (packet : FromClientPacket)
  | fromServer (packet : FromServerPacket)

/-- `dynamic_cast<const FromClientPacket*>`. -/
def AnyPacket.asFromClientPacket : AnyPacket → Option FromClientPacket
  | .fromClient packet => some packet
  | .fromServer _ => none

/-- Represents the file logger for the MySQL packets. A record that is streamed into `m_log_file`
may wait in the buffer of the stream until the next flush. A file that could not be opened takes
nothing (`onDisk`, `inBuffer`). -/
structure PacketLogger where
  isOpen : Bool := true
  flushed : List LogRecord := []
  pending : List LogRecord := []
  deriving DecidableEq, Repr

namespace PacketLogger

/-- Open the log file. -/
def construct (isOpen : Bool) : PacketLogger := { isOpen := isOpen }

/-- The records that have been streamed into the log file, in order. -/
def logFile (logger : PacketLogger) : List LogRecord := logger.flushed ++ logger.pending

/-- The records that have certainly been handed to the storage device. -/
def onDisk (logger : PacketLogger) : List LogRecord := if logger.isOpen then logger.flushed else []

/-- The records that may still wait in the buffer of the stream. -/
def inBuffer (logger : PacketLogger) : List LogRecord :=
  if logger.isOpen then logger.pending else []

/-- The bytes streamed into the log file. -/
def text (logger : PacketLogger) : List UInt8 := logger.logFile.flatMap LogRecord.text

/-- Stream records into the log file. -/
def write (records : List LogRecord) (logger : PacketLogger) : PacketLogger :=
  { logger with pending := logger.pending ++ records }

/-- Synchronizes with the underlying storage device. -/
def flush (logger : PacketLogger) : PacketLogger :=
  { logger with flushed := logger.flushed ++ logger.pending, pending := [] }

@[simp] theorem logFile_write (records : List LogRecord) (logger : PacketLogger) :
    (logger.write records).logFile = logger.logFile ++ records :=
  (List.append_assoc ..).symm

@[simp] theorem logFile_flush (logger : PacketLogger) : logger.flush.logFile = logger.logFile :=
  List.append_nil _

@[simp] theorem flushed_write (records : List LogRecord) (logger : PacketLogger) :
    (logger.write records).flushed = logger.flushed := rfl

@[simp] theorem isOpen_write (records : List LogRecord) (logger : PacketLogger) :
    (logger.write records).isOpen = logger.isOpen := rfl

@[simp] theorem isOpen_flush (logger : PacketLogger) : logger.flush.isOpen = logger.isOpen := rfl

@[simp] theorem write_nil (logger : PacketLogger) : logger.write [] = logger := by
  rw [write, List.append_nil]

theorem write_write (xs ys : List LogRecord) (logger : PacketLogger) :
    (logger.write xs).write ys = logger.write (xs ++ ys) := by
  rw [write, write, write, List.append_assoc]

end PacketLogger

/-- Writes the packet to the log file. -/
def PacketLogger.packetLogger (packet : AnyPacket) (fromClientToServer : Bool)
    (logger : PacketLogger) : PacketLogger :=
  if fromClientToServer then
    match packet.asFromClientPacket with
    | none => logger
    | some clientPacket =>
      let commandString := clientPacket.getCommandString
      if commandString ≠ "" then
        let sqlString :=
          if clientPacket.hasSqlString then some clientPacket.getSqlString else none
        logger.write [⟨commandString, sqlString⟩]
      else logger
  else logger

/-- The record a received client packet is logged as, if any. -/
def FromClientPacket.logRecord (packet : FromClientPacket) : Option LogRecord :=
  if packet.isReceived = true ∧ packet.getCommandString ≠ "" then
    some ⟨packet.getCommandString,
      if packet.hasSqlString then some packet.getSqlString else none⟩
  else none

namespace PacketLogger

theorem packetLogger_fromServer (packet : FromServerPacket) (fromClientToServer : Bool)
    (logger : PacketLogger) :
    logger.packetLogger (.fromServer packet) fromClientToServer = logger := by
  simp [packetLogger, AnyPacket.asFromClientPacket]

/-- A received client packet appends its record. -/
theorem packetLogger_fromClient {packet : FromClientPacket} (h : packet.isReceived = true)
    (logger : PacketLogger) :
    logger.packetLogger (.fromClient packet) true = logger.write packet.logRecord.toList := by
  by_cases hname : packet.getCommandString = ""
  · simp [packetLogger, AnyPacket.asFromClientPacket, FromClientPacket.logRecord, hname]
  · simp [packetLogger, AnyPacket.asFromClientPacket, FromClientPacket.logRecord, hname, h]

end PacketLogger

theorem FromClientPacket.logRecord_of_not_received {packet : FromClientPacket}
    (h : packet.isReceived = false) : packet.logRecord = none := by
  simp [logRecord, h]

end Proxy
