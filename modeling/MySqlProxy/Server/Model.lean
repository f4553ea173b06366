import MySqlProxy.Connection.Forwarding
import Mathlib.Data.Finset.Basic
import Mathlib.Logic.Function.Basic

/-!
# The server and its event loop (`server.cpp`, `connection_manager.cpp`)

The whole program as a state machine: a `Server` with its acceptor, its signal wait, its
`ConnectionManager` and every `Connection` it has constructed, and one `Event` at a time. Two kinds
of events come from Boost.Asio: the reactor *completes* a pending operation with a result, which is
then queued, and the loop *delivers* a queued completion to its handler. Closing a socket completes
its pending operations with `operation_aborted` and leaves queued completions as they are. Which
operation completes or is delivered next is open, so a run is any list of events that are enabled.

The handlers of a connection capture the raw `this`, and only `m_connections` keeps the object
alive. A handler that uses a connection that is no longer a member therefore uses a destroyed
object (`Process.undefinedBehaviour`), and an exception that leaves a handler leaves
`io_context::run()` (`Process.stopped`).
-/

namespace Proxy

/-- What the program is run with: a string library and its memory, and a log file that can be opened
or cannot. -/
class Host extends BasicString.Library where
  logOpens : Bool

namespace Host.Libstdcxx

/-- The host of the examples: libstdc++ with memory enough, and a log file that can be opened. -/
scoped instance : Host := { BasicString.libstdcxx 0x7FFFFFFFFFFFFFFE with logOpens := true }

end Host.Libstdcxx

/-! ## Handlers -/

/-- What a completion handler goes on to do with its connection. -/
inductive Call where
  | doReceive
  | doTransfer (fromClientToServer : Bool) (read : Read)
  | stopTransfer

/-- The bodies of the completion handlers of `do_connect`, `do_receive` and `do_transfer`. Only the
last looks at the error. -/
def Operation.handlerCall : Operation → Option Call
  | .connect (some (.ok ())) => some .doReceive
  | .connect (some (.error _)) => none
  | .receive dir (some (.ok read)) => some (.doTransfer dir read)
  | .receive _ (some (.error _)) => none
  | .transfer dir (some (.ok read)) => some (.doTransfer dir read)
  | .transfer _ (some (.error .operationAborted)) => none
  | .transfer _ (some (.error (.other _))) => some .stopTransfer
  | .connect none => none
  | .receive _ none => none
  | .transfer _ none => none

/-- The result the reactor completes an operation with: of a connect or an accept, or of a read. -/
inductive Completion where
  | connect (result : Except ErrorCode Unit)
  | read (result : Except ErrorCode Read)

/-- The error of a completion. -/
def Completion.error? : Completion → Option ErrorCode
  | .connect (.error e) => some e
  | .read (.error e) => some e
  | _ => none

/-- Complete a pending operation with a result of its kind. -/
def Operation.complete (completion : Completion) : Operation → Option Operation
  | .connect none =>
    match completion with
    | .connect result => some (.connect (some result))
    | .read _ => none
  | .receive dir none =>
    match completion with
    | .connect _ => none
    | .read result => some (.receive dir (some result))
  | .transfer dir none =>
    match completion with
    | .connect _ => none
    | .read result => some (.transfer dir (some result))
  | _ => none

/-! ## The server -/

/-- The address of a connection. A new one is never an old one. -/
abbrev ConnectionPtr := Nat

/-- The top-level class of the proxy server. `objects` holds every connection ever constructed,
with the operations still outstanding for it; `connections` is `m_connections`, the ones alive. -/
structure Server where
  acceptorIsOpen : Bool := true
  accepts : List (Option (Except ErrorCode Unit)) := []
  signalWait : Bool := false
  connections : Finset ConnectionPtr := ∅
  packetLogger : PacketLogger
  objects : ConnectionPtr → Connection
  nextPtr : ConnectionPtr := 0

namespace Server

/-- Write one connection back. -/
def setObject (ptr : ConnectionPtr) (connection : Connection) (server : Server) : Server :=
  { server with objects := Function.update server.objects ptr connection }

/-! ### `ConnectionManager` -/

/-- Add the specified connection to the manager and start it. -/
def startConnection (ptr : ConnectionPtr) (connection : Connection) (openResult : OpenResult)
    (server : Server) : Except Exception Server := do
  let server := { server with connections := insert ptr server.connections }
  let connection ← connection.start openResult
  .ok (server.setObject ptr connection)

/-- Stop the specified connection. -/
def stopConnection (ptr : ConnectionPtr) (server : Server) : Server :=
  let server := server.setObject ptr (server.objects ptr).stop
  { server with connections := server.connections.erase ptr }

/-- Stop all connections. -/
def stopAll (server : Server) : Server :=
  { server with
    objects := fun ptr =>
      if ptr ∈ server.connections then (server.objects ptr).stop else server.objects ptr
    connections := ∅ }

/-! ### `Server` -/

/-- Perform an asynchronous accept operation. -/
def doAccept (server : Server) : Server := { server with accepts := server.accepts ++ [none] }

/-- Wait for a request to stop the server. -/
def doAwaitStop (server : Server) : Server := { server with signalWait := true }

/-- Construct the server: it opens the log file, waits for signals and listens. -/
def initial [Host] : Server :=
  doAccept (doAwaitStop {
    packetLogger := .construct Host.logOpens
    objects := fun _ => Connection.construct })

/-- Closing the acceptor completes a pending accept. -/
def closeAcceptor (server : Server) : Server :=
  { server with
    acceptorIsOpen := false
    accepts := server.accepts.map fun accept => some (accept.getD (.error .operationAborted)) }

/-- The completion handler of `do_accept`. -/
def acceptHandler [Host] (result : Except ErrorCode Unit) (openResult : OpenResult)
    (server : Server) : Except Exception Server :=
  if server.acceptorIsOpen = false then .ok server
  else do
    let server ←
      match result with
      | .ok () =>
        let ptr := server.nextPtr
        startConnection ptr Connection.construct openResult { server with nextPtr := ptr + 1 }
      | .error _ => .ok server
    .ok server.doAccept

/-- The completion handler of `do_await_stop`. -/
def stopHandler (server : Server) : Server :=
  let server := server.closeAcceptor.stopAll
  { server with packetLogger := server.packetLogger.flush }

/-- The stop functor of a connection. -/
def stopTransferFunc (ptr : ConnectionPtr) (server : Server) : Server :=
  let server := server.stopConnection ptr
  { server with packetLogger := server.packetLogger.flush }

/-- What a completion handler of a live connection does. -/
def call [Host] (ptr : ConnectionPtr) (call : Call) (sendResult : SendResult) (server : Server) :
    Except Exception Server :=
  match call with
  | .doReceive => .ok (server.setObject ptr (server.objects ptr).doReceive)
  | .doTransfer dir read => do
    let (connection, logger) ← Connection.doTransfer dir read.bytes.length sendResult
      ((server.objects ptr).fill dir read, server.packetLogger)
    .ok { server.setObject ptr connection with packetLogger := logger }
  | .stopTransfer => .ok (server.stopTransferFunc ptr)

end Server

/-! ## Events and steps -/

/-- The program: in its loop, left by an exception, or after the use of a destroyed object. -/
inductive Process where
  | running (server : Server)
  | stopped (exception : Exception)
  | undefinedBehaviour

/-- What a handler leaves the program in. -/
def Process.ofHandler : Except Exception Server → Process
  | .ok server => .running server
  | .error exception => .stopped exception

/-- An event of Boost.Asio: the reactor completes the `i`-th operation, or the loop delivers it. The
outcomes of the calls the handler makes come with the delivery. -/
inductive Event where
  | complete (ptr : ConnectionPtr) (i : Nat) (completion : Completion)
  | completeAccept (i : Nat) (result : Except ErrorCode Unit)
  | deliver (ptr : ConnectionPtr) (i : Nat) (sendResult : SendResult)
  | deliverAccept (i : Nat) (openResult : OpenResult)
  | deliverSignal

/-- The event is not enabled. -/
inductive Disabled where
  | disabled
  deriving DecidableEq, Repr

instance (n : Nat) (result : SendResult) : Decidable (result.Allowed n) :=
  match result with
  | .written _ => inferInstanceAs (Decidable (_ ∧ _))
  | .failed _ => inferInstanceAs (Decidable True)

/-- What a `send` may answer while the handler runs. -/
def Call.Permits (sendResult : SendResult) : Call → Prop
  | .doTransfer _ read => sendResult.Allowed read.bytes.length
  | _ => True

instance (sendResult : SendResult) (call : Call) : Decidable (call.Permits sendResult) :=
  match call with
  | .doReceive => inferInstanceAs (Decidable True)
  | .doTransfer _ _ => inferInstanceAs (Decidable (SendResult.Allowed _ _))
  | .stopTransfer => inferInstanceAs (Decidable True)

namespace Server

/-- The outstanding operations of a connection. -/
def operations (ptr : ConnectionPtr) (server : Server) : List Operation :=
  (server.objects ptr).operations

/-- Replace the outstanding operations of a connection. -/
def setOperations (ptr : ConnectionPtr) (operations : List Operation) (server : Server) : Server :=
  server.setObject ptr { server.objects ptr with operations := operations }

/-- One event of the loop. -/
def step [Host] (server : Server) : Event → Except Disabled Process
  | .complete ptr i completion =>
    -- only closing a socket aborts an operation
    if completion.error? = some .operationAborted then .error .disabled
    else
      match (server.operations ptr)[i]?.bind (Operation.complete completion) with
      | none => .error .disabled
      | some operation =>
        .ok (.running (server.setOperations ptr ((server.operations ptr).set i operation)))
  | .completeAccept i result =>
    if (Completion.connect result).error? = some .operationAborted then .error .disabled
    else
      match server.accepts[i]? with
      | some none => .ok (.running { server with accepts := server.accepts.set i (some result) })
      | _ => .error .disabled
  | .deliver ptr i sendResult =>
    match (server.operations ptr)[i]? with
    | none => .error .disabled
    | some operation =>
      if operation.isCompleted = false then .error .disabled
      else
        let server := server.setOperations ptr ((server.operations ptr).eraseIdx i)
        match operation.handlerCall with
        | none => .ok (.running server)
        | some call =>
          if ¬ call.Permits sendResult then .error .disabled
          else if ptr ∉ server.connections then .ok .undefinedBehaviour
          else .ok (.ofHandler (server.call ptr call sendResult))
  | .deliverAccept i openResult =>
    match server.accepts[i]? with
    | some (some result) =>
      let server := { server with accepts := server.accepts.eraseIdx i }
      .ok (.ofHandler (server.acceptHandler result openResult))
    | _ => .error .disabled
  | .deliverSignal =>
    if server.signalWait then
      let server := { server with signalWait := false }
      .ok (.running server.stopHandler)
    else .error .disabled

end Server

/-- Nothing happens to a program that has left its loop. -/
def Process.step [Host] (process : Process) (event : Event) : Except Disabled Process :=
  match process with
  | .running server => server.step event
  | .stopped _ => .error .disabled
  | .undefinedBehaviour => .error .disabled

/-- A run of the program: events one after the other, from the constructed server. -/
def runEvents [Host] (events : List Event) : Except Disabled Process :=
  Fallible.run Process.step (.running Server.initial) events

/-- The events that accept one client and connect its server socket, up to the queued result. -/
def acceptAndConnect (ptr : ConnectionPtr) : List Event :=
  [.completeAccept 0 (.ok ()), .deliverAccept 0 .opened, .complete ptr 0 (.connect (.ok ()))]

end Proxy
