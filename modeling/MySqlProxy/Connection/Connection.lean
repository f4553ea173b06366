import MySqlProxy.Connection.PacketLogger
import MySqlProxy.Packet.FrameWalk

/-!
# A proxy connection (`connection.hpp`, `connection.cpp`)

A `Connection` object and its handlers. What the handlers get from Boost.Asio comes in as data:
the result of opening a socket, of a `send`, and the bytes a read has put into the buffer. An
asynchronous operation a handler starts is appended to `operations`; its completion handler
captures the raw `this`. The sockets keep the bytes written to them, and the connection the client
bytes it has collected, each stamped with the connection state it was handled in: both are history
that no handler reads.

`do_transfer` is always called with the sockets and the buffer of one direction, so the direction
`t_from_client_to_server` stands for its other reference arguments.
-/

namespace Proxy

/-! ## Buffers and reads -/

/-- The length of each of the two buffers (release build). -/
def BUFFER_LENGTH : Nat := 8192

/-- `std::array<char, BUFFER_LENGTH>`. -/
structure Buffer where
  data : List UInt8
  length_eq : data.length = BUFFER_LENGTH

/-- A value-initialised buffer. -/
def Buffer.zero : Buffer := ⟨List.replicate BUFFER_LENGTH 0, List.length_replicate⟩

/-- What a successful read delivers into its buffer: between 1 and `BUFFER_LENGTH` bytes. -/
structure Read where
  bytes : List UInt8
  ne_nil : bytes ≠ []
  length_le : bytes.length ≤ BUFFER_LENGTH

/-- A read overwrites the front of the buffer. -/
def Buffer.fill (buffer : Buffer) (read : Read) : Buffer where
  data := read.bytes ++ buffer.data.drop read.bytes.length
  length_eq := by
    have hle := read.length_le
    rw [List.length_append, List.length_drop, buffer.length_eq]
    omega

@[simp] theorem Buffer.take_fill (buffer : Buffer) (read : Read) :
    (buffer.fill read).data.take read.bytes.length = read.bytes :=
  List.take_left

/-! ## Sockets and operations -/

/-- A TCP socket, with the bytes that have been written to it. -/
structure Socket where
  isOpen : Bool
  sent : List UInt8 := []
  deriving DecidableEq, Repr

def Socket.close (socket : Socket) : Socket := { socket with isOpen := false }

/-- The outcome of opening a socket. -/
inductive OpenResult where
  | opened
  | failed (what : String)
  deriving DecidableEq, Repr

/-- `socket.open(protocol)`, the overload that throws on an error. -/
def Socket.open (result : OpenResult) (socket : Socket) : Except Exception Socket :=
  match result with
  | .opened => .ok { socket with isOpen := true }
  | .failed what => .error (.systemError what)

/-- The outcome of a `send`. -/
inductive SendResult where
  | written (n : Nat)
  | failed (what : String)
  deriving DecidableEq, Repr

/-- What the socket may answer to a `send` of `n` bytes. -/
def SendResult.Allowed (n : Nat) : SendResult → Prop
  | .written k => 1 ≤ k ∧ k ≤ n
  | .failed _ => True

/-- `socket.send(buffer)`, the overload that throws on an error: a prefix is written. -/
def Socket.send (bytes : List UInt8) (result : SendResult) (socket : Socket) :
    Except Exception Socket :=
  match result with
  | .written n => .ok { socket with sent := socket.sent ++ bytes.take n }
  | .failed what => .error (.systemError what)

/-- `boost::system::error_code`, as far as the handlers tell errors apart. -/
inductive ErrorCode where
  | operationAborted
  | other (value : Nat)
  deriving DecidableEq, Repr

/-- An asynchronous operation of a connection: pending, or completed with a result and queued for
its handler. A read is a `receive` when `do_receive` started it and a `transfer` when
`do_transfer` did: their handlers differ. -/
inductive Operation where
  | connect (completion : Option (Except ErrorCode Unit))
  | receive (fromClientToServer : Bool) (completion : Option (Except ErrorCode Read))
  | transfer (fromClientToServer : Bool) (completion : Option (Except ErrorCode Read))

namespace Operation

/-- Closing a socket completes its pending operations and leaves the queued ones alone. -/
def abort : Operation → Operation
  | .connect none => .connect (some (.error .operationAborted))
  | .receive dir none => .receive dir (some (.error .operationAborted))
  | .transfer dir none => .transfer dir (some (.error .operationAborted))
  | operation => operation

/-- Is the completion queued? -/
def isCompleted : Operation → Bool
  | .connect completion => completion.isSome
  | .receive _ completion => completion.isSome
  | .transfer _ completion => completion.isSome

/-- The error a completed operation is delivered with. -/
def error? : Operation → Option ErrorCode
  | .connect (some (.error e)) => some e
  | .receive _ (some (.error e)) => some e
  | .transfer _ (some (.error e)) => some e
  | _ => none

end Operation

/-! ## The connection -/

/-- Represents a single proxy connection between the client and MySQL server. -/
structure Connection where
  clientSocket : Socket
  serverSocket : Socket
  clientBuffer : Buffer := Buffer.zero
  serverBuffer : Buffer := Buffer.zero
  connectionState : MySqlConnectionState := .CONNECTION_PHASE
  clientPacket : FromClientPacket
  serverPacket : FromServerPacket := FromServerPacket.initial
  operations : List Operation := []
  clientStream : List StampedByte := []

namespace Connection

/-- A connection as its constructor leaves it: the client socket is the accepted one, the server
socket is not open yet. -/
def construct [BasicString.Library] : Connection where
  clientSocket := { isOpen := true }
  serverSocket := { isOpen := false }
  clientPacket := FromClientPacket.initial

/-- The socket a direction sends to. -/
def sendTo (fromClientToServer : Bool) (connection : Connection) : Socket :=
  if fromClientToServer then connection.serverSocket else connection.clientSocket

/-- The buffer a direction reads into. -/
def readBuffer (fromClientToServer : Bool) (connection : Connection) : Buffer :=
  if fromClientToServer then connection.clientBuffer else connection.serverBuffer

def setSendTo (fromClientToServer : Bool) (socket : Socket) (connection : Connection) :
    Connection :=
  if fromClientToServer then { connection with serverSocket := socket }
  else { connection with clientSocket := socket }

/-- A read has put its bytes into the buffer of its direction. -/
def fill (fromClientToServer : Bool) (read : Read) (connection : Connection) : Connection :=
  if fromClientToServer then
    { connection with clientBuffer := connection.clientBuffer.fill read }
  else { connection with serverBuffer := connection.serverBuffer.fill read }

variable [BasicString.Library]

/-- Performs the packet collection from the incoming stream and runs the packet logging. -/
def doPacketLogging (readBuffer : List UInt8) (bytesTransferred : Nat) (fromClientToServer : Bool)
    (s : Connection × PacketLogger) : Except Exception (Connection × PacketLogger) :=
  let bytes := readBuffer.take bytesTransferred
  let (connection, logger) := s
  if fromClientToServer then do
    let (packet, connectionState) ←
      connection.clientPacket.collectBytes bytes connection.connectionState
    let connection := { connection with
      clientPacket := packet
      connectionState := connectionState
      clientStream := connection.clientStream
        ++ bytes.map fun b => (b, connection.connectionState) }
    if packet.isReceived then
      .ok (connection, logger.packetLogger (.fromClient packet) fromClientToServer)
    else .ok (connection, logger)
  else do
    let (packet, connectionState) ←
      connection.serverPacket.collectBytes bytes connection.connectionState
    let connection := { connection with
      serverPacket := packet
      connectionState := connectionState }
    if packet.isReceived then
      .ok (connection, logger.packetLogger (.fromServer packet) fromClientToServer)
    else .ok (connection, logger)

/-- This function is called whenever the data is received. -/
def doTransfer (fromClientToServer : Bool) (bytesTransferred : Nat) (sendResult : SendResult)
    (s : Connection × PacketLogger) : Except Exception (Connection × PacketLogger) := do
  let buffer := (s.1.readBuffer fromClientToServer).data
  let (connection, logger) ← doPacketLogging buffer bytesTransferred fromClientToServer s
  -- Forward the received data on to "the other side".
  let socket ←
    (connection.sendTo fromClientToServer).send (buffer.take bytesTransferred) sendResult
  let connection := connection.setSendTo fromClientToServer socket
  -- Read more data from "this side".
  .ok ({ connection with
    operations := connection.operations ++ [.transfer fromClientToServer none] }, logger)

omit [BasicString.Library]

/-- Perform an asynchronous receive operation on both sockets. -/
def doReceive (connection : Connection) : Connection :=
  { connection with
    operations := connection.operations ++ [.receive true none, .receive false none] }

/-- Perform an asynchronous connection operation. -/
def doConnect (openResult : OpenResult) (connection : Connection) : Except Exception Connection :=
  do
    let socket ← connection.serverSocket.open openResult
    .ok { connection with
      serverSocket := socket
      operations := connection.operations ++ [.connect none] }

/-- Start the first asynchronous operation for the connection. -/
def start (openResult : OpenResult) (connection : Connection) : Except Exception Connection :=
  connection.doConnect openResult

/-- Stop all asynchronous operations associated with the connection. -/
def stop (connection : Connection) : Connection :=
  { connection with
    clientSocket := connection.clientSocket.close
    serverSocket := connection.serverSocket.close
    operations := connection.operations.map Operation.abort }

end Connection
end Proxy
