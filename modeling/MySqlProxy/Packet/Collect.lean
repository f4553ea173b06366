import MySqlProxy.Packet.Command
import MySqlProxy.Lib.Fallible

/-!
# Collecting packets from bytes (`MySqlPacket`, `FromClientPacket`, `FromServerPacket`)

The byte-driven parser of `packet.cpp` as a function of the receiving object. The base class
`MySqlPacket` owns the framing fields and `collect`; its four pure virtual functions read those
fields but write only the fields of the derived class, so an override is a function of the base
object and of the derived fields (`Overrides`), and an object of a derived class is a
`Packet σ`: the base fields extended by `σ`. `MySqlConnectionState&` is passed in and handed
back. The model is of the release build; the debug build's `m_payload` is kept next to it, without
the memory that build asks for it.

`m_sql_string` is a string of the library the proxy is built with (`BasicString.Library`): what it
throws when it is refused room leaves `collect`.
-/

namespace Proxy

/-! ## The base class -/

/-- Data between client and server is exchanged in packets of max 16MByte size. -/
def MAX_PAYLOAD_LENGTH : UInt64 := 0xffffff

inductive PacketState where
  | PAYLOAD_LENGTH_0
  | PAYLOAD_LENGTH_1
  | PAYLOAD_LENGTH_2
  | SEQUENCE_ID
  | PAYLOAD
  deriving DecidableEq, Repr

/-- The fields of `MySqlPacket`. -/
@[ext] structure MySqlPacket where
  payloadFirstPart : Bool := true
  payloadNotEnded : Bool := false
  payloadIsReceived : Bool := false
  payloadLength : UInt64 := 0
  sequenceId : UInt8 := 0
  receivedBytes : UInt64 := 0
  packetState : PacketState := .PAYLOAD_LENGTH_0
  payload : List UInt8 := []
  deriving DecidableEq, Repr

/-- An object of a class derived from `MySqlPacket`; `σ` holds the fields the class adds. -/
structure Packet (σ : Type) extends MySqlPacket where
  derived : σ
  deriving DecidableEq, Repr

/-- The overrides of the pure virtual functions of `MySqlPacket`. -/
class Overrides (σ : Type) where
  connectionPhaseParse (base : MySqlPacket) (payload0 : UInt8)
    (connectionState : MySqlConnectionState) (derived : σ) : σ × MySqlConnectionState
  commandPhaseParse (base : MySqlPacket) (payload0 : UInt8) (derived : σ) : Except Exception σ
  collectData (receivedByte : UInt8) (derived : σ) : Except Exception σ
  dataIsReceived (derived : σ) : σ

namespace MySqlPacket

/-- Check if the packet is fully received. -/
def isReceived (packet : MySqlPacket) : Bool := packet.payloadIsReceived

end MySqlPacket

namespace Packet

variable {σ : Type} [Overrides σ]

/-- Analyse the 1st byte of the packet payload. -/
def analyse (receivedByte : UInt8) (connectionState : MySqlConnectionState) (packet : Packet σ) :
    Except Exception (Packet σ × MySqlConnectionState) :=
  match connectionState with
  | .CONNECTION_PHASE =>
    let (derived, connectionState) := Overrides.connectionPhaseParse packet.toMySqlPacket
      receivedByte connectionState packet.derived
    .ok ({ packet with derived := derived }, connectionState)
  | .COMMAND_PHASE => do
    let derived ← Overrides.commandPhaseParse packet.toMySqlPacket receivedByte packet.derived
    .ok ({ packet with derived := derived }, connectionState)

/-- Keep the payload byte (debug build). -/
def pushPayload (receivedByte : UInt8) (packet : Packet σ) : Packet σ :=
  { packet with payload := packet.payload ++ [receivedByte] }

/-- Collect the payload data, count the byte and close the frame it completes. -/
def collectPayload (receivedByte : UInt8) (packet : Packet σ) : Except Exception (Packet σ) := do
  let packet : Packet σ ←
    if 0 < packet.receivedBytes ∨ packet.payloadFirstPart = false then do
      let derived ← Overrides.collectData receivedByte packet.derived
      .ok { packet with derived := derived }
    else .ok packet
  let packet : Packet σ := { packet with receivedBytes := packet.receivedBytes + 1 }
  if packet.receivedBytes = packet.payloadLength then
    let packet : Packet σ :=
      if packet.payloadNotEnded = false then
        { packet with
          payloadIsReceived := true
          derived := Overrides.dataIsReceived packet.derived }
      else packet
    .ok { packet with
      payloadFirstPart := !packet.payloadNotEnded
      packetState := .PAYLOAD_LENGTH_0 }
  else .ok packet

/-- Collects the packet from the incoming bytes. -/
def collect (receivedByte : UInt8) (connectionState : MySqlConnectionState) (packet : Packet σ) :
    Except Exception (Packet σ × MySqlConnectionState) :=
  match packet.packetState with
  | .PAYLOAD_LENGTH_0 =>
    .ok ({ packet with
      payloadIsReceived := false
      receivedBytes := 0
      payloadLength := receivedByte.toUInt64
      packetState := .PAYLOAD_LENGTH_1 }, connectionState)
  | .PAYLOAD_LENGTH_1 =>
    .ok ({ packet with
      payloadLength := packet.payloadLength + (receivedByte.toUInt64 <<< 8)
      packetState := .PAYLOAD_LENGTH_2 }, connectionState)
  | .PAYLOAD_LENGTH_2 =>
    .ok ({ packet with
      payloadLength := packet.payloadLength + (receivedByte.toUInt64 <<< 16)
      packetState := .SEQUENCE_ID }, connectionState)
  | .SEQUENCE_ID =>
    let packet : Packet σ := { packet with
      sequenceId := receivedByte
      payloadNotEnded := MAX_PAYLOAD_LENGTH == packet.payloadLength
      payload := if packet.payloadFirstPart then [] else packet.payload }
    if packet.payloadLength = 0 then
      .ok ({ packet with
        payloadIsReceived := true
        payloadFirstPart := true
        packetState := .PAYLOAD_LENGTH_0 }, connectionState)
    else
      .ok ({ packet with packetState := .PAYLOAD }, connectionState)
  | .PAYLOAD => do
    let packet : Packet σ := packet.pushPayload receivedByte
    let (packet, connectionState) ←
      if packet.receivedBytes = 0 then packet.analyse receivedByte connectionState
      else .ok (packet, connectionState)
    let packet ← packet.collectPayload receivedByte
    .ok (packet, connectionState)

/-- Collect one byte in the given connection state, dropping the state handed back. -/
def feed (packet : Packet σ) (x : UInt8 × MySqlConnectionState) : Except Exception (Packet σ) :=
  (packet.collect x.1 x.2).map Prod.fst

/-- Collect a stream each of whose bytes is stamped with the connection state it is handled in. -/
def feedAll (packet : Packet σ) (xs : List (UInt8 × MySqlConnectionState)) :
    Except Exception (Packet σ) :=
  Fallible.run feed packet xs

/-- Collect bytes one after the other, the connection state being passed along by reference. -/
def collectBytes (bytes : List UInt8) (connectionState : MySqlConnectionState)
    (packet : Packet σ) : Except Exception (Packet σ × MySqlConnectionState) :=
  Fallible.run (fun s receivedByte => s.1.collect receivedByte s.2) (packet, connectionState) bytes

end Packet

/-! ## `FromClientPacket` -/

/-- The fields `FromClientPacket` adds. -/
@[ext] structure FromClientFields where
  command : MySqlCommand.Command := .UNKNOWN
  sqlDataReceiving : Bool := false
  sqlString : BasicString UInt8
  deriving DecidableEq, Repr

/-- What an operation of `m_sql_string` throws leaves the function that makes it. -/
def throwing {α : Type} (result : Except BasicString.Failure α) : Except Exception α :=
  result.mapError Exception.ofString

/-- What `command_phase_parse` reserves at the first frame of a command. -/
def reserveLength (payloadLength : UInt64) : UInt64 := payloadLength - 1

/-- What `command_phase_parse` reserves at a later frame. -/
def reserveMoreLength (capacity payloadLength : UInt64) : UInt64 := capacity + payloadLength - 1

variable [BasicString.Library]

namespace FromClientFields

/-- The fields as the constructor leaves them. -/
def initial : FromClientFields := { sqlString := .empty }

def commandPhaseParse (base : MySqlPacket) (payload0 : UInt8) (packet : FromClientFields) :
    Except Exception FromClientFields := do
  let packet ←
    if base.payloadFirstPart then
      let packet := { packet with command := ⟨payload0⟩ }
      if MySqlCommand.isValid packet.command ∧ base.sequenceId ≠ 0 then
        .error (.runtimeError "BAD packet")
      else .ok { packet with sqlString := packet.sqlString.clear.shrinkToFit }
    else .ok packet
  if MySqlCommand.hasSqlField packet.command then
    if base.payloadFirstPart then
      let sqlString ← throwing <|
        packet.sqlString.reserve (reserveLength base.payloadLength).toNat
      .ok { packet with sqlString := sqlString, sqlDataReceiving := true }
    else
      let capacity := UInt64.ofNat packet.sqlString.capacity
      let sqlString ← throwing <|
        packet.sqlString.reserve (reserveMoreLength capacity base.payloadLength).toNat
      .ok { packet with sqlString := sqlString }
  else .ok packet

def collectData (receivedByte : UInt8) (packet : FromClientFields) :
    Except Exception FromClientFields :=
  if packet.sqlDataReceiving then do
    let sqlString ← throwing (packet.sqlString.pushBack receivedByte)
    .ok { packet with sqlString := sqlString }
  else .ok packet

omit [BasicString.Library] in
def dataIsReceived (packet : FromClientFields) : FromClientFields :=
  { packet with sqlDataReceiving := false }

end FromClientFields

instance : Overrides FromClientFields where
  connectionPhaseParse _ _ connectionState packet := (packet, connectionState)
  commandPhaseParse := FromClientFields.commandPhaseParse
  collectData := FromClientFields.collectData
  dataIsReceived := FromClientFields.dataIsReceived

/-- Represents the data packets from the client to the MySQL server. -/
abbrev FromClientPacket := Packet FromClientFields

namespace FromClientPacket

/-- A freshly constructed packet. -/
def initial : FromClientPacket := { derived := .initial }

/-- Get the string representation of the client's command. -/
def getCommandString (packet : FromClientPacket) : String :=
  MySqlCommand.name packet.derived.command packet.payloadLength.toNat

/-- Get the SQL field string of the command. -/
def getSqlString (packet : FromClientPacket) : List UInt8 := packet.derived.sqlString.chars

/-- Check if the command has the SQL field string. -/
def hasSqlString (packet : FromClientPacket) : Bool := !packet.derived.sqlString.chars.isEmpty

end FromClientPacket

/-! ## `FromServerPacket` -/

/-- `FromServerPacket` adds no fields. -/
structure FromServerFields where
  deriving DecidableEq, Repr

instance : Overrides FromServerFields where
  connectionPhaseParse base payload0 connectionState packet :=
    if base.payloadFirstPart then
      match MySqlResponse.getResponse payload0 base.payloadLength.toNat with
      | .OK_PACKET => (packet, .COMMAND_PHASE)
      | .EOF_PACKET => (packet, connectionState)
      | .ERR_PACKET => (packet, connectionState)
      | .OTHER_PACKET => (packet, connectionState)
    else (packet, connectionState)
  commandPhaseParse _ _ packet := .ok packet
  collectData _ packet := .ok packet
  dataIsReceived packet := packet

/-- Represents the data packets from the MySQL server to the client. -/
abbrev FromServerPacket := Packet FromServerFields

/-- A freshly constructed packet. -/
def FromServerPacket.initial : FromServerPacket := { derived := {} }

end Proxy
