import MySqlProxy.Server.Invariants

/-!
# What one connection can do to the others

A handler writes back its own connection only (`call_other`, `acceptHandler_other`), so it can
disturb the others in two ways: by an exception, which leaves the loop, and by using a destroyed
connection. `Harmless` is the condition under which it does neither, in terms of the bytes, of the
room there is for them, of the result of the `send` and of the result of opening the server socket;
`contained_iff` is its exactness, from every reachable server state.
-/

namespace Proxy

section

variable [Host]

open FromClientPacket

/-! ## Which reads throw -/

/-- After what the client packet has been fed, a byte is the command byte of a packet to be
rejected, or the SQL string is refused the room the byte asks for. -/
def ThrowingByte (pre : List StampedByte) (x : StampedByte) : Prop :=
  RejectedAt pre x ∨ RefusedAt pre x

/-- Feeding a read throws exactly when one of its bytes does. -/
theorem feedAll_error_iff {connection : Connection} (h : Tracked connection)
    {st : MySqlConnectionState} {bytes : List UInt8} :
    (∃ e, connection.clientPacket.feedAll (stamp st bytes) = .error e) ↔
      ∃ pre x post, bytes = pre ++ x :: post ∧
        ThrowingByte (connection.clientStream ++ stamp st pre) (x, st) := by
  constructor
  · rintro ⟨e, herror⟩
    obtain ⟨pre', a, post', packet, heq, hpre, ha⟩ := Fallible.run_error_iff.mp herror
    obtain ⟨pre, rest, rfl, rfl, hrest⟩ := List.map_eq_append_iff.mp heq
    obtain ⟨x, post, rfl, rfl, -⟩ := List.map_eq_cons_iff.mp hrest
    have hfed : initial.feedAll (connection.clientStream ++ stamp st pre) = .ok packet := by
      rw [h.feedAll_append]
      exact hpre
    exact ⟨pre, x, post, rfl, (feed_error_iff_rejectedAt hfed (x, st)).mp ⟨e, ha⟩⟩
  · rintro ⟨pre, x, post, rfl, hthrows⟩
    cases hpre : connection.clientPacket.feedAll (stamp st pre) with
    | error e =>
      -- an earlier byte of the read has thrown already
      refine ⟨e, ?_⟩
      rw [stamp, List.map_append]
      exact Fallible.run_append_of_error _ hpre
    | ok packet =>
      have hfed : initial.feedAll (connection.clientStream ++ stamp st pre) = .ok packet := by
        rw [h.feedAll_append]
        exact hpre
      obtain ⟨e, he⟩ := (feed_error_iff_rejectedAt hfed (x, st)).mpr hthrows
      refine ⟨e, Fallible.run_error_iff.mpr
        ⟨stamp st pre, (x, st), stamp st post, packet, ?_, hpre, he⟩⟩
      simp [stamp]

/-- No byte of the read of a direction is rejected, and none is refused the room it asks for. -/
def NoThrowingByte (connection : Connection) (dir : Bool) (read : Read) : Prop :=
  dir = true → ∀ pre x post, read.bytes = pre ++ x :: post →
    ¬ ThrowingByte (connection.clientStream ++ stamp connection.connectionState pre)
      (x, connection.connectionState)

/-- Logging a read throws exactly when one of its bytes does. -/
theorem doPacketLogging_fill_error_iff {connection : Connection} (h : Tracked connection)
    (dir : Bool) (read : Read) (logger : PacketLogger) :
    (∃ e, Connection.doPacketLogging ((connection.fill dir read).readBuffer dir).data
        read.bytes.length dir (connection.fill dir read, logger) = .error e) ↔
      ¬ NoThrowingByte connection dir read := by
  cases dir with
  | true =>
    have htake : ((connection.fill true read).readBuffer true).data.take read.bytes.length
        = read.bytes := Connection.take_readBuffer_fill true read connection
    -- the read has changed the buffer only
    have hsame : (connection.fill true read).clientPacket.feedAll
        (stamp (connection.fill true read).connectionState read.bytes)
          = connection.clientPacket.feedAll (stamp connection.connectionState read.bytes) := rfl
    rw [Connection.doPacketLogging_client, htake, hsame, Fallible.map_error_iff,
      feedAll_error_iff h]
    simp [NoThrowingByte]
  | false =>
    obtain ⟨packet, st, hok, -⟩ := Connection.doPacketLogging_server
      ((connection.fill false read).readBuffer false).data read.bytes.length
      (connection.fill false read) logger
    rw [hok]
    simp [NoThrowingByte]

/-- A transfer throws exactly when a byte of its read or its `send` does. -/
theorem doTransfer_fill_error_iff {connection : Connection} (h : Tracked connection) (dir : Bool)
    (read : Read) (result : SendResult) (logger : PacketLogger) :
    (∃ e, Connection.doTransfer dir read.bytes.length result (connection.fill dir read, logger)
      = .error e) ↔ ¬ NoThrowingByte connection dir read ∨ ∃ what, result = .failed what := by
  rw [Connection.doTransfer_error, doPacketLogging_fill_error_iff h]

/-! ## Handlers and the other connections -/

/-- The other connections are untouched: still members, open, with the same parser state and
operations. -/
def OthersUntouched (server : Server) (ptr : ConnectionPtr) (server' : Server) : Prop :=
  ∀ q ∈ server.connections, q ≠ ptr → q ∈ server'.connections ∧
    server'.objects q = server.objects q ∧
    (server'.objects q).clientSocket.isOpen = true ∧
    (server'.objects q).serverSocket.isOpen = true

/-- The loop is still running and the other connections are untouched. -/
def Contained (server : Server) (ptr : ConnectionPtr) (process : Process) : Prop :=
  ∃ server', process = .running server' ∧ OthersUntouched server ptr server'

/-- Unchanged members of a healthy server are open. -/
theorem Healthy.othersUntouched {server server' : Server} (h : Healthy server) {ptr : ConnectionPtr}
    (hother : ∀ q, q ≠ ptr → (q ∈ server.connections → q ∈ server'.connections) ∧
      server'.objects q = server.objects q) : OthersUntouched server ptr server' := by
  intro q hq hne
  obtain ⟨hmember, hobject⟩ := hother q hne
  refine ⟨hmember hq, hobject, ?_, ?_⟩
  · rw [hobject]
    exact (h.alive q hq).clientOpen
  · rw [hobject]
    exact (h.alive q hq).serverOpen

theorem Server.call_other {ptr : ConnectionPtr} {call : Call} {sendResult : SendResult}
    {server server' : Server} (h : server.call ptr call sendResult = .ok server')
    {q : ConnectionPtr} (hne : q ≠ ptr) :
    (q ∈ server.connections → q ∈ server'.connections) ∧
      server'.objects q = server.objects q := by
  rcases Server.call_ok h with ⟨-, rfl⟩ | ⟨dir, read, s, -, -, rfl⟩ | ⟨-, rfl⟩
  · exact ⟨id, objects_setObject_of_ne hne ..⟩
  · exact ⟨id, objects_setObject_of_ne hne ..⟩
  · exact ⟨fun hq => Finset.mem_erase.mpr ⟨hne, hq⟩, objects_setObject_of_ne hne ..⟩

theorem Server.acceptHandler_other {result : Except ErrorCode Unit} {openResult : OpenResult}
    {server server' : Server} (h : server.acceptHandler result openResult = .ok server')
    {q : ConnectionPtr} (hne : q ≠ server.nextPtr) :
    (q ∈ server.connections → q ∈ server'.connections) ∧
      server'.objects q = server.objects q := by
  rcases acceptHandler_ok h with ⟨-, rfl⟩ | ⟨-, rfl⟩ | ⟨-, connection, -, rfl⟩
  · exact ⟨id, rfl⟩
  · exact ⟨id, rfl⟩
  · exact ⟨fun hq => Finset.mem_insert_of_mem hq, objects_setObject_of_ne hne ..⟩

/-- Accepting throws exactly when the acceptor is open, a client socket has been accepted and the
server socket cannot be opened. -/
theorem Server.acceptHandler_error_iff {result : Except ErrorCode Unit} {openResult : OpenResult}
    {server : Server} :
    (∃ e, server.acceptHandler result openResult = .error e) ↔
      server.acceptorIsOpen = true ∧ result = .ok () ∧ ∃ what, openResult = .failed what := by
  unfold acceptHandler
  cases hopen : server.acceptorIsOpen with
  | false => simp
  | true =>
    cases result with
    | error e => simp [bind, Except.bind]
    | ok _ =>
      cases openResult <;>
        simp [startConnection, Connection.start, Connection.doConnect, Socket.open, bind,
          Except.bind]

/-! ## Containment -/

/-- The events whose handler runs for a connection: its own completions, and the accept that starts
it. -/
inductive HandledBy (server : Server) : Event → ConnectionPtr → Prop where
  | deliver (ptr : ConnectionPtr) (i : Nat) (sendResult : SendResult) :
      HandledBy server (.deliver ptr i sendResult) ptr
  | accept (i : Nat) (openResult : OpenResult) :
      HandledBy server (.deliverAccept i openResult) server.nextPtr

/-- The event does no harm. A handler that acts finds its connection alive; a transfer carries no
command byte to be rejected, its SQL string gets the room it asks for, and its `send` succeeds; a
connection that is started can open its server socket. -/
def Harmless (server : Server) : Event → Prop
  | .deliver ptr i sendResult => ∀ op call, (server.operations ptr)[i]? = some op →
      op.handlerCall = some call → ptr ∈ server.connections ∧
        ∀ dir read, call = .doTransfer dir read →
          NoThrowingByte (server.objects ptr) dir read ∧ ∀ what, sendResult ≠ .failed what
  | .deliverAccept i openResult => server.accepts[i]? = some (some (.ok ())) →
      server.acceptorIsOpen = true → openResult = .opened
  | _ => True

theorem contained_ofHandler_iff {server : Server} {ptr : ConnectionPtr} (h : Healthy server)
    {x : Except Exception Server}
    (hother : ∀ server', x = .ok server' → ∀ q, q ≠ ptr →
      (q ∈ server.connections → q ∈ server'.connections) ∧ server'.objects q = server.objects q) :
    Contained server ptr (.ofHandler x) ↔ ¬ ∃ e, x = .error e := by
  cases x with
  | error e =>
    constructor
    · rintro ⟨server', heq, -⟩
      cases heq
    · exact fun hnone => absurd ⟨e, rfl⟩ hnone
  | ok server' =>
    exact ⟨fun _ => by simp, fun _ => ⟨server', rfl, h.othersUntouched (hother server' rfl)⟩⟩

omit [Host] in
theorem Server.eraseIdx_other (server : Server) (ptr : ConnectionPtr) (i : Nat)
    {q : ConnectionPtr} (hne : q ≠ ptr) :
    (server.setOperations ptr ((server.operations ptr).eraseIdx i)).objects q
      = server.objects q := objects_setObject_of_ne hne ..

theorem Server.call_doTransfer_error_iff {server : Server} {ptr : ConnectionPtr} {dir : Bool}
    {read : Read} {sendResult : SendResult} :
    (∃ e, server.call ptr (.doTransfer dir read) sendResult = .error e) ↔
      ∃ e, Connection.doTransfer dir read.bytes.length sendResult
        ((server.objects ptr).fill dir read, server.packetLogger) = .error e := by
  simp only [Server.call]
  cases Connection.doTransfer dir read.bytes.length sendResult
    ((server.objects ptr).fill dir read, server.packetLogger) <;> simp [bind, Except.bind]

theorem contained_called_iff {server : Server} (h : Healthy server) {ptr : ConnectionPtr} {i : Nat}
    {sendResult : SendResult} {call : Call} (hmember : ptr ∈ server.connections) :
    Contained server ptr (.ofHandler
        ((server.setOperations ptr ((server.operations ptr).eraseIdx i)).call ptr call
          sendResult)) ↔
      ∀ dir read, call = .doTransfer dir read →
        NoThrowingByte (server.objects ptr) dir read ∧ ∀ what, sendResult ≠ .failed what := by
  rw [contained_ofHandler_iff h fun server' hcall q hne => by
    obtain ⟨hq, hobject⟩ := Server.call_other hcall hne
    exact ⟨hq, hobject.trans (server.eraseIdx_other ptr i hne)⟩]
  cases call with
  | doReceive => simp [Server.call]
  | stopTransfer => simp [Server.call]
  | doTransfer dir read =>
    -- the handler finds its connection without the completion it was delivered
    have hobject : (server.setOperations ptr ((server.operations ptr).eraseIdx i)).objects ptr
        = { server.objects ptr with operations := (server.operations ptr).eraseIdx i } :=
      Server.objects_setObject_self ..
    have htracked : Tracked
        ((server.setOperations ptr ((server.operations ptr).eraseIdx i)).objects ptr) := by
      rw [hobject]
      exact ((h.alive ptr hmember).eraseIdx i).tracked
    have hsame : NoThrowingByte
        ((server.setOperations ptr ((server.operations ptr).eraseIdx i)).objects ptr) dir read ↔
          NoThrowingByte (server.objects ptr) dir read := by
      rw [hobject]
      rfl
    rw [Server.call_doTransfer_error_iff, doTransfer_fill_error_iff htracked, hsame]
    constructor
    · rintro hnone dir' read' heq
      cases heq
      exact ⟨not_not.mp fun hrej => hnone (Or.inl hrej),
        fun what hwhat => hnone (Or.inr ⟨what, hwhat⟩)⟩
    · rintro hall (hrej | ⟨what, hwhat⟩)
      · exact hrej (hall dir read rfl).1
      · exact (hall dir read rfl).2 what hwhat

theorem contained_accepted_iff {server : Server} (h : Healthy server) {i : Nat}
    {openResult : OpenResult} {result : Except ErrorCode Unit} :
    Contained server server.nextPtr (.ofHandler (Server.acceptHandler result openResult
        { server with accepts := server.accepts.eraseIdx i })) ↔
      (result = .ok () → server.acceptorIsOpen = true → openResult = .opened) := by
  have hother : ∀ server', Server.acceptHandler result openResult
      { server with accepts := server.accepts.eraseIdx i } = .ok server' →
      ∀ q, q ≠ server.nextPtr → (q ∈ server.connections → q ∈ server'.connections) ∧
        server'.objects q = server.objects q :=
    fun server' haccepted q hne => Server.acceptHandler_other haccepted hne
  rw [contained_ofHandler_iff h hother, Server.acceptHandler_error_iff]
  constructor
  · intro hnone hok hopen
    cases openResult with
    | opened => rfl
    | failed what => exact absurd ⟨hopen, hok, what, rfl⟩ hnone
  · rintro hopened ⟨hopen, hok, what, rfl⟩
    cases hopened hok hopen

/-- **When a connection cannot bring down the others.** In every reachable server, after the handler
of an event of the connection `ptr`, the loop is running and every other member is untouched
exactly when the event is harmless. -/
theorem contained_iff (events : List Event) (server : Server)
    (hreach : runEvents events = .ok (.running server)) (event : Event) (ptr : ConnectionPtr)
    (hevent : HandledBy server event ptr) (process : Process)
    (hstep : server.step event = .ok process) :
    Contained server ptr process ↔ Harmless server event := by
  have hhealthy := healthy_of_runEvents hreach
  have htransition := transition_of_step hstep
  cases hevent with
  | deliver ptr i sendResult =>
    cases htransition with
    | silent hop hcompleted hcall =>
      -- the handler does nothing: harmless, and nothing to contain
      have hharmless : Harmless server (.deliver ptr i sendResult) := by
        intro op' call hop' hcall'
        rw [hop, Option.some.injEq] at hop'
        rw [← hop', hcall] at hcall'
        cases hcall'
      refine ⟨fun _ => hharmless, fun _ => ⟨_, rfl, hhealthy.othersUntouched fun q hne => ?_⟩⟩
      exact ⟨id, server.eraseIdx_other ptr i hne⟩
    | dangling hop hcall hgone =>
      -- a destroyed connection is used, which a harmless event rules out
      constructor
      · rintro ⟨server', heq, -⟩
        cases heq
      · exact fun hharmless => absurd (hharmless _ _ hop hcall).1 hgone
    | called hop hcall hmember =>
      rw [contained_called_iff hhealthy hmember]
      constructor
      · intro htransfer op' call' hop' hcall'
        rw [hop, Option.some.injEq] at hop'
        rw [← hop', hcall, Option.some.injEq] at hcall'
        rw [← hcall']
        exact ⟨hmember, htransfer⟩
      · exact fun hharmless => (hharmless _ _ hop hcall).2
  | accept i openResult =>
    cases htransition with
    | accepted haccept =>
      rw [contained_accepted_iff hhealthy]
      constructor
      · intro hopened hok hopen
        rw [haccept, Option.some.injEq, Option.some.injEq] at hok
        exact hopened hok hopen
      · rintro hharmless rfl hopen
        exact hharmless haccept hopen

end

open scoped Host.Libstdcxx in
/-- Starting a first connection is harmless. -/
theorem contained_iff_accept :
    ∃ server process, runEvents [.completeAccept 0 (.ok ())] = .ok (.running server) ∧
      server.step (.deliverAccept 0 .opened) = .ok process ∧ Contained server 0 process := by
  refine ⟨_, _, rfl, rfl, ?_⟩
  have hiff := contained_iff [.completeAccept 0 (.ok ())] _ rfl _ 0 (.accept 0 .opened) _ rfl
  exact hiff.mpr fun _ _ => rfl

open scoped Host.Libstdcxx in
/-- With two connections open, a `send` of the first that fails stops the program. -/
theorem failing_send_stops_server :
    ∃ server, runEvents (acceptAndConnect 0 ++ acceptAndConnect 1 ++ [.deliver 0 0 (.written 1),
        .complete 0 0 (.read (.ok ⟨[1, 0], by simp, by decide⟩))]) = .ok (.running server) ∧
      0 ∈ server.connections ∧ 1 ∈ server.connections ∧
      server.step (.deliver 0 0 (.failed "Broken pipe"))
        = .ok (.stopped (.systemError "Broken pipe")) :=
  ⟨_, rfl, by decide, by decide, rfl⟩

end Proxy
