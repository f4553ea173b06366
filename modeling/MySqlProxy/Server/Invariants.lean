import MySqlProxy.Server.Model

/-!
# What every step of the server can do

`Transition` lists the outcomes of a step, guards included, and `transition_of_step` inverts `step`
into it once and for all. Every invariant is then a case analysis over its constructors:

* `complete`, `completeAccept` — the reactor queues a result;
* `silent` — a handler that does nothing;
* `dangling` — a handler that uses a destroyed connection;
* `called` — a handler that acts on a live one;
* `accepted`, `signalled` — the handlers of the server itself.

`Healthy` is the invariant of the running server: the members of `m_connections` are `Alive`, all
other connections are `Dead`, and new pointers are fresh.
-/

namespace Proxy

section

variable [Host]

/-! ## Inverting a step -/

/-- The outcomes of a step. -/
inductive Transition (server : Server) : Event → Process → Prop where
  | complete {ptr : ConnectionPtr} {i : Nat} {completion : Completion} {op op' : Operation}
      (hop : (server.operations ptr)[i]? = some op)
      (hresult : completion.error? ≠ some .operationAborted)
      (hcomplete : op.complete completion = some op') :
      Transition server (.complete ptr i completion)
        (.running (server.setOperations ptr ((server.operations ptr).set i op')))
  | completeAccept {i : Nat} {result : Except ErrorCode Unit}
      (haccept : server.accepts[i]? = some none) :
      Transition server (.completeAccept i result)
        (.running { server with accepts := server.accepts.set i (some result) })
  | silent {ptr : ConnectionPtr} {i : Nat} {sendResult : SendResult} {op : Operation}
      (hop : (server.operations ptr)[i]? = some op) (hcompleted : op.isCompleted = true)
      (hcall : op.handlerCall = none) :
      Transition server (.deliver ptr i sendResult)
        (.running (server.setOperations ptr ((server.operations ptr).eraseIdx i)))
  | dangling {ptr : ConnectionPtr} {i : Nat} {sendResult : SendResult} {op : Operation}
      {call : Call}
      (hop : (server.operations ptr)[i]? = some op) (hcall : op.handlerCall = some call)
      (hgone : ptr ∉ server.connections) :
      Transition server (.deliver ptr i sendResult) .undefinedBehaviour
  | called {ptr : ConnectionPtr} {i : Nat} {sendResult : SendResult} {op : Operation} {call : Call}
      (hop : (server.operations ptr)[i]? = some op) (hcall : op.handlerCall = some call)
      (hmember : ptr ∈ server.connections) :
      Transition server (.deliver ptr i sendResult)
        (.ofHandler ((server.setOperations ptr ((server.operations ptr).eraseIdx i)).call ptr call
          sendResult))
  | accepted {i : Nat} {openResult : OpenResult} {result : Except ErrorCode Unit}
      (haccept : server.accepts[i]? = some (some result)) :
      Transition server (.deliverAccept i openResult)
        (.ofHandler (Server.acceptHandler result openResult
          { server with accepts := server.accepts.eraseIdx i }))
  | signalled (hwait : server.signalWait = true) :
      Transition server .deliverSignal
        (.running (Server.stopHandler { server with signalWait := false }))

/-- **Every step is one of these.** -/
theorem transition_of_step {server : Server} {event : Event} {process : Process}
    (h : server.step event = .ok process) : Transition server event process := by
  cases event with
  | complete ptr i completion =>
    simp only [Server.step] at h
    split at h
    · exact absurd h (by simp)
    · rename_i hresult
      cases hop : (server.operations ptr)[i]? with
      | none => simp [hop] at h
      | some op =>
        cases hcomplete : op.complete completion with
        | none => simp [hop, hcomplete] at h
        | some op' =>
          simp only [hop, Option.bind_some, hcomplete, Except.ok.injEq] at h
          rw [← h]
          exact .complete hop hresult hcomplete
  | completeAccept i result =>
    simp only [Server.step] at h
    split at h
    · exact absurd h (by simp)
    · split at h
      · rename_i haccept
        rw [Except.ok.injEq] at h
        rw [← h]
        exact .completeAccept haccept
      · exact absurd h (by simp)
  | deliver ptr i sendResult =>
    simp only [Server.step] at h
    cases hop : (server.operations ptr)[i]? with
    | none => simp [hop] at h
    | some op =>
      simp only [hop] at h
      split at h
      · exact absurd h (by simp)
      · rename_i hcompleted
        cases hcall : op.handlerCall with
        | none =>
          simp only [hcall, Except.ok.injEq] at h
          rw [← h]
          exact .silent hop (by simpa using hcompleted) hcall
        | some call =>
          simp only [hcall] at h
          split at h
          · exact absurd h (by simp)
          · split at h
            · rename_i hgone
              rw [Except.ok.injEq] at h
              rw [← h]
              exact .dangling hop hcall hgone
            · rename_i hmember
              rw [Except.ok.injEq] at h
              rw [← h]
              exact .called hop hcall (not_not.mp hmember)
  | deliverAccept i openResult =>
    simp only [Server.step] at h
    split at h
    · rename_i result haccept
      rw [Except.ok.injEq] at h
      rw [← h]
      exact .accepted haccept
    · exact absurd h (by simp)
  | deliverSignal =>
    simp only [Server.step] at h
    split at h
    · rename_i hwait
      rw [Except.ok.injEq] at h
      rw [← h]
      exact .signalled hwait
    · exact absurd h (by simp)

/-- A handler that does nothing can always be delivered to. -/
theorem Server.step_silent {server : Server} {ptr : ConnectionPtr} {i : Nat}
    {sendResult : SendResult} {op : Operation} (hop : (server.operations ptr)[i]? = some op)
    (hcompleted : op.isCompleted = true) (hcall : op.handlerCall = none) :
    server.step (.deliver ptr i sendResult)
      = .ok (.running (server.setOperations ptr ((server.operations ptr).eraseIdx i))) := by
  simp [step, hop, hcompleted, hcall]

/-! ## The operations of a connection -/

namespace Operation

omit [Host] in
/-- Only a pending operation is completed, and its result is the one given. -/
theorem complete_spec {completion : Completion} {op op' : Operation}
    (h : op.complete completion = some op') :
    op.isCompleted = false ∧ op'.isCompleted = true ∧ op'.error? = completion.error? := by
  unfold complete at h
  split at h
  · cases completion with
    | connect result => cases h; cases result <;> simp [isCompleted, error?, Completion.error?]
    | read result => cases h
  · cases completion with
    | connect result => cases h
    | read result => cases h; cases result <;> simp [isCompleted, error?, Completion.error?]
  · cases completion with
    | connect result => cases h
    | read result => cases h; cases result <;> simp [isCompleted, error?, Completion.error?]
  · cases h

omit [Host] in
@[simp] theorem isCompleted_abort (op : Operation) : op.abort.isCompleted = true := by
  unfold abort
  split
  · rfl
  · rfl
  · rfl
  · cases op <;> simp_all [isCompleted, Option.isSome_iff_ne_none]

omit [Host] in
/-- Closing a socket gives no pending operation anything to do, and keeps queued completions. -/
theorem handlerCall_abort (op : Operation) : op.abort.handlerCall = op.handlerCall := by
  unfold abort
  split <;> rfl

omit [Host] in
/-- Only the reads of `do_transfer` answer to an error, and only by stopping the connection. -/
theorem handlerCall_of_error {op : Operation} {e : ErrorCode} (he : op.error? = some e)
    (hne : e ≠ .operationAborted) :
    (op.handlerCall = some .stopTransfer ∧ ∃ dir, op = .transfer dir (some (.error e))) ∨
      (op.handlerCall = none ∧
        (op = .connect (some (.error e)) ∨ ∃ dir, op = .receive dir (some (.error e)))) := by
  unfold error? at he
  split at he
  · cases he
    exact Or.inr ⟨rfl, Or.inl rfl⟩
  · cases he
    exact Or.inr ⟨rfl, Or.inr ⟨_, rfl⟩⟩
  · cases he
    cases e with
    | operationAborted => exact absurd rfl hne
    | other value => exact Or.inl ⟨rfl, _, rfl⟩
  · cases he

end Operation

/-! ## Alive and dead connections -/

/-- A member of `m_connections`: tracked, both sockets open, none of its operations aborted. -/
structure Alive (connection : Connection) : Prop where
  tracked : Tracked connection
  clientOpen : connection.clientSocket.isOpen = true
  serverOpen : connection.serverSocket.isOpen = true
  notAborted : ∀ op ∈ connection.operations, op.error? ≠ some .operationAborted

/-- A connection that is not a member: nothing is pending, and if completions are still queued, its
sockets are closed. -/
structure Dead (connection : Connection) : Prop where
  completed : ∀ op ∈ connection.operations, op.isCompleted = true
  closed : connection.operations ≠ [] →
    connection.clientSocket.isOpen = false ∧ connection.serverSocket.isOpen = false

theorem dead_construct : Dead Connection.construct :=
  ⟨fun _ h => absurd h (by simp [Connection.construct]),
    fun h => absurd rfl h⟩

omit [Host] in
theorem dead_stop (connection : Connection) : Dead connection.stop := by
  refine ⟨fun op hop => ?_, fun _ => ⟨rfl, rfl⟩⟩
  obtain ⟨op', -, rfl⟩ := List.mem_map.mp hop
  exact Operation.isCompleted_abort op'

theorem alive_start {openResult : OpenResult} {connection : Connection}
    (h : Connection.construct.start openResult = .ok connection) : Alive connection := by
  cases openResult with
  | opened =>
    cases h
    refine ⟨⟨rfl, settled_nil _⟩, rfl, rfl, fun op hop => ?_⟩
    obtain rfl : op = .connect none := by simpa [Connection.construct] using hop
    exact fun h => by cases h
  | failed what => cases h

theorem Alive.setOperations {connection : Connection} (h : Alive connection)
    {operations : List Operation}
    (hops : ∀ op ∈ operations, op.error? ≠ some .operationAborted) :
    Alive { connection with operations := operations } :=
  ⟨h.tracked.congr rfl rfl fun hst => hst, h.clientOpen, h.serverOpen, hops⟩

theorem Alive.eraseIdx {connection : Connection} (h : Alive connection) (i : Nat) :
    Alive { connection with operations := connection.operations.eraseIdx i } :=
  h.setOperations fun op hop => h.notAborted op (List.mem_of_mem_eraseIdx hop)

theorem Alive.doReceive {connection : Connection} (h : Alive connection) :
    Alive connection.doReceive := by
  refine h.setOperations fun op hop => ?_
  rcases List.mem_append.mp hop with hop | hop
  · exact h.notAborted op hop
  · rcases List.mem_pair.mp hop with rfl | rfl
    · exact fun h => by cases h
    · exact fun h => by cases h

theorem Alive.fill {connection : Connection} (h : Alive connection) (dir : Bool) (read : Read) :
    Alive (connection.fill dir read) := by
  cases dir <;> exact ⟨h.tracked.congr rfl rfl fun hst => hst, h.clientOpen, h.serverOpen,
    h.notAborted⟩

/-- A transfer keeps a connection alive and starts the next read of its direction. -/
theorem Alive.doTransfer {connection : Connection} (h : Alive connection) {dir : Bool} {n : Nat}
    {result : SendResult} {logger : PacketLogger} {s' : Connection × PacketLogger}
    (htransfer : Connection.doTransfer dir n result (connection, logger) = .ok s') :
    Alive s'.1 ∧ s'.1.operations = connection.operations ++ [.transfer dir none] := by
  obtain ⟨u, k, hlog, -, rfl⟩ := Connection.doTransfer_ok.mp htransfer
  obtain ⟨hclient, hserver, hoperations⟩ := Connection.doPacketLogging_frame hlog
  have htracked := tracked_doPacketLogging h.tracked hlog
  have hops : ∀ op ∈ u.1.operations ++ [.transfer dir none],
      op.error? ≠ some .operationAborted := by
    intro op hop
    rw [hoperations] at hop
    rcases List.mem_append.mp hop with hop | hop
    · exact h.notAborted op hop
    · rw [List.mem_singleton.mp hop]
      exact fun h => by cases h
  have hclientOpen : u.1.clientSocket.isOpen = true := by rw [hclient]; exact h.clientOpen
  have hserverOpen : u.1.serverSocket.isOpen = true := by rw [hserver]; exact h.serverOpen
  refine ⟨?_, by simp [hoperations]⟩
  cases dir with
  | true => exact ⟨htracked.congr rfl rfl fun hst => hst, hclientOpen, hserverOpen, hops⟩
  | false => exact ⟨htracked.congr rfl rfl fun hst => hst, hclientOpen, hserverOpen, hops⟩

/-! ## The invariant -/

namespace Server

omit [Host] in
@[simp] theorem objects_setObject_self (ptr : ConnectionPtr) (c : Connection) (server : Server) :
    (server.setObject ptr c).objects ptr = c := Function.update_self ..

omit [Host] in
theorem objects_setObject_of_ne {ptr q : ConnectionPtr} (h : q ≠ ptr) (c : Connection)
    (server : Server) : (server.setObject ptr c).objects q = server.objects q :=
  Function.update_of_ne h ..

end Server

/-- The invariant of the running server. -/
structure Healthy (server : Server) : Prop where
  alive : ∀ ptr ∈ server.connections, Alive (server.objects ptr)
  dead : ∀ ptr, ptr ∉ server.connections → Dead (server.objects ptr)
  fresh : ∀ ptr ∈ server.connections, ptr < server.nextPtr

theorem healthy_initial : Healthy Server.initial :=
  ⟨fun _ h => absurd h (Finset.notMem_empty _), fun _ _ => dead_construct,
    fun _ h => absurd h (Finset.notMem_empty _)⟩

/-- Health depends on the connections only. -/
theorem Healthy.congr {server server' : Server} (h : Healthy server)
    (hobjects : server'.objects = server.objects)
    (hconnections : server'.connections = server.connections)
    (hnext : server'.nextPtr = server.nextPtr) : Healthy server' := by
  refine ⟨?_, ?_, ?_⟩
  · rw [hobjects, hconnections]
    exact h.alive
  · rw [hobjects, hconnections]
    exact h.dead
  · rw [hconnections, hnext]
    exact h.fresh

/-- Writing one connection back keeps health when the connection is as its membership asks. -/
theorem Healthy.setObject {server : Server} (h : Healthy server) {ptr : ConnectionPtr}
    {connection : Connection} (halive : ptr ∈ server.connections → Alive connection)
    (hdead : ptr ∉ server.connections → Dead connection) :
    Healthy (server.setObject ptr connection) := by
  refine ⟨fun q hq => ?_, fun q hq => ?_, h.fresh⟩
  · -- the connection written back, or one of the others
    by_cases hptr : q = ptr
    · rw [hptr, Server.objects_setObject_self]
      exact halive (hptr ▸ hq)
    · rw [Server.objects_setObject_of_ne hptr]
      exact h.alive q hq
  · by_cases hptr : q = ptr
    · rw [hptr, Server.objects_setObject_self]
      exact hdead (hptr ▸ hq)
    · rw [Server.objects_setObject_of_ne hptr]
      exact h.dead q hq

theorem Healthy.eraseIdx {server : Server} (h : Healthy server) (ptr : ConnectionPtr) (i : Nat) :
    Healthy (server.setOperations ptr ((server.operations ptr).eraseIdx i)) := by
  refine h.setObject (fun hmember => (h.alive ptr hmember).eraseIdx i) fun hgone => ?_
  have hdead := h.dead ptr hgone
  refine ⟨fun op hop => hdead.completed op (List.mem_of_mem_eraseIdx hop), fun hne => ?_⟩
  apply hdead.closed
  intro hnil
  rw [show (server.operations ptr).eraseIdx i = [] from by
    rw [Server.operations, hnil, List.eraseIdx_nil]] at hne
  exact hne rfl

theorem Healthy.stopConnection {server : Server} (h : Healthy server) (ptr : ConnectionPtr) :
    Healthy (server.stopConnection ptr) := by
  refine ⟨fun q hq => ?_, fun q hq => ?_, fun q hq => h.fresh q (Finset.mem_of_mem_erase hq)⟩
  · have hne := Finset.ne_of_mem_erase hq
    have hobject := Server.objects_setObject_of_ne hne (server.objects ptr).stop server
    rw [Server.stopConnection, hobject]
    exact h.alive q (Finset.mem_of_mem_erase hq)
  · by_cases hptr : q = ptr
    · have hobject := Server.objects_setObject_self ptr (server.objects ptr).stop server
      rw [hptr, Server.stopConnection, hobject]
      exact dead_stop _
    · have hobject := Server.objects_setObject_of_ne hptr (server.objects ptr).stop server
      rw [Server.stopConnection, hobject]
      exact h.dead q fun hmember => hq (Finset.mem_erase.mpr ⟨hptr, hmember⟩)

theorem Healthy.stopAll {server : Server} (h : Healthy server) : Healthy server.stopAll := by
  refine ⟨fun q hq => absurd hq (Finset.notMem_empty q), fun q _ => ?_,
    fun q hq => absurd hq (Finset.notMem_empty q)⟩
  simp only [Server.stopAll]
  split
  · exact dead_stop _
  · exact h.dead q (by assumption)

/-- A new member at the next pointer. -/
def Server.addConnection (connection : Connection) (server : Server) : Server :=
  Server.setObject server.nextPtr connection
    { server with
      connections := insert server.nextPtr server.connections
      nextPtr := server.nextPtr + 1 }

/-- What a completed accept handler has done: nothing, accepted again, or started a connection and
accepted again. -/
theorem Server.acceptHandler_ok {result : Except ErrorCode Unit} {openResult : OpenResult}
    {server server' : Server} (h : server.acceptHandler result openResult = .ok server') :
    (server.acceptorIsOpen = false ∧ server' = server) ∨
      (server.acceptorIsOpen = true ∧ server' = server.doAccept) ∨
      (server.acceptorIsOpen = true ∧ ∃ connection,
        Connection.construct.start openResult = .ok connection ∧
        server' = (server.addConnection connection).doAccept) := by
  unfold acceptHandler at h
  split at h
  · exact Or.inl ⟨by assumption, (Except.ok.inj h).symm⟩
  · rename_i hopen
    have hopen' : server.acceptorIsOpen = true := by simpa using hopen
    cases result with
    | error e => exact Or.inr (Or.inl ⟨hopen', (Except.ok.inj h).symm⟩)
    | ok _ =>
      cases hstart : Connection.construct.start openResult with
      | error e => simp [startConnection, hstart, bind, Except.bind] at h
      | ok connection =>
        simp only [startConnection, hstart, bind, Except.bind, Except.ok.injEq] at h
        exact Or.inr (Or.inr ⟨hopen', connection, rfl, h.symm⟩)

theorem Healthy.addConnection {server : Server} (h : Healthy server) {connection : Connection}
    (halive : Alive connection) : Healthy (server.addConnection connection) := by
  refine ⟨fun q hq => ?_, fun q hq => ?_, fun q hq => ?_⟩
  · rcases Finset.mem_insert.mp hq with rfl | hq
    · rw [Server.addConnection, Server.objects_setObject_self]
      exact halive
    · rw [Server.addConnection, Server.objects_setObject_of_ne (Nat.ne_of_lt (h.fresh q hq))]
      exact h.alive q hq
  · -- the new pointer is a member, so it is none of the dead ones
    have hne : q ≠ server.nextPtr := fun heq => hq (Finset.mem_insert.mpr (Or.inl heq))
    rw [Server.addConnection, Server.objects_setObject_of_ne hne]
    exact h.dead q fun hmember => hq (Finset.mem_insert_of_mem hmember)
  · rcases Finset.mem_insert.mp hq with rfl | hq
    · exact Nat.lt_succ_self _
    · exact Nat.lt_succ_of_lt (h.fresh q hq)

/-! ## Every step keeps it -/

omit [Host] in
@[simp] theorem Process.ofHandler_eq_running {x : Except Exception Server} {server : Server} :
    Process.running server = .ofHandler x ↔ x = .ok server := by
  cases x <;> simp [ofHandler, eq_comm]

/-- What a completed call has done. -/
theorem Server.call_ok {ptr : ConnectionPtr} {call : Call} {sendResult : SendResult}
    {server server' : Server} (h : server.call ptr call sendResult = .ok server') :
    (call = .doReceive ∧ server' = server.setObject ptr (server.objects ptr).doReceive) ∨
      (∃ dir read s, call = .doTransfer dir read ∧
        Connection.doTransfer dir read.bytes.length sendResult
          ((server.objects ptr).fill dir read, server.packetLogger) = .ok s ∧
        server' = { server.setObject ptr s.1 with packetLogger := s.2 }) ∨
      (call = .stopTransfer ∧ server' = server.stopTransferFunc ptr) := by
  cases call with
  | doReceive => exact Or.inl ⟨rfl, (Except.ok.inj h).symm⟩
  | doTransfer dir read =>
    cases htransfer : Connection.doTransfer dir read.bytes.length sendResult
        ((server.objects ptr).fill dir read, server.packetLogger) with
    | error e => simp [Server.call, htransfer, bind, Except.bind] at h
    | ok s =>
      simp only [Server.call, htransfer, bind, Except.bind, Except.ok.injEq] at h
      exact Or.inr (Or.inl ⟨dir, read, s, rfl, htransfer, h.symm⟩)
  | stopTransfer => exact Or.inr (Or.inr ⟨rfl, (Except.ok.inj h).symm⟩)

theorem Healthy.call {server server' : Server} (h : Healthy server) {ptr : ConnectionPtr}
    {call : Call} {sendResult : SendResult} (hmember : ptr ∈ server.connections)
    (hcall : server.call ptr call sendResult = .ok server') : Healthy server' := by
  have halive := h.alive ptr hmember
  rcases Server.call_ok hcall with ⟨-, rfl⟩ | ⟨dir, read, s, -, htransfer, rfl⟩ | ⟨-, rfl⟩
  · exact h.setObject (fun _ => halive.doReceive) fun hgone => absurd hmember hgone
  · exact (h.setObject (fun _ => ((halive.fill dir read).doTransfer htransfer).1)
      fun hgone => absurd hmember hgone).congr rfl rfl rfl
  · exact (h.stopConnection ptr).congr rfl rfl rfl

theorem Healthy.acceptHandler {server server' : Server} (h : Healthy server)
    {result : Except ErrorCode Unit} {openResult : OpenResult}
    (haccept : server.acceptHandler result openResult = .ok server') : Healthy server' := by
  rcases Server.acceptHandler_ok haccept with ⟨-, rfl⟩ | ⟨-, rfl⟩ | ⟨-, connection, hstart, rfl⟩
  · exact h
  · exact h.congr rfl rfl rfl
  · exact (h.addConnection (alive_start hstart)).congr rfl rfl rfl

/-- **The step lemma.** The cases are the outcomes of a step. -/
theorem healthy_step {server server' : Server} {event : Event} (h : Healthy server)
    (hstep : Transition server event (.running server')) : Healthy server' := by
  generalize hprocess : Process.running server' = process at hstep
  cases hstep with
  | complete hop hresult hcomplete =>
    rename_i ptr i completion op op'
    obtain ⟨hpending, -, herror⟩ := Operation.complete_spec hcomplete
    cases hprocess
    refine h.setObject (fun hmember => ?_) fun hgone => ?_
    · refine (h.alive ptr hmember).setOperations fun op'' hop'' => ?_
      rcases List.mem_or_eq_of_mem_set hop'' with hold | rfl
      · exact (h.alive ptr hmember).notAborted op'' hold
      · rw [herror]
        exact hresult
    · -- nothing is pending on a dead connection
      have hcompleted := (h.dead ptr hgone).completed op (List.mem_of_getElem? hop)
      rw [hpending] at hcompleted
      exact absurd hcompleted (by decide)
  | completeAccept haccept =>
    cases hprocess
    exact h.congr rfl rfl rfl
  | silent hop hcompleted hcall =>
    cases hprocess
    exact h.eraseIdx _ _
  | dangling hop hcall hgone => cases hprocess
  | called hop hcall hmember =>
    -- the completion leaves the queue before its handler runs
    exact (h.eraseIdx _ _).call hmember (Process.ofHandler_eq_running.mp hprocess)
  | accepted haccept =>
    rename_i i openResult result
    have haccepts : Healthy { server with accepts := server.accepts.eraseIdx i } :=
      h.congr rfl rfl rfl
    exact haccepts.acceptHandler (Process.ofHandler_eq_running.mp hprocess)
  | signalled hwait =>
    cases hprocess
    have hclosed : Healthy (Server.closeAcceptor { server with signalWait := false }) :=
      h.congr rfl rfl rfl
    exact hclosed.stopAll.congr rfl rfl rfl

/-! ## Runs -/

/-- A step of a run that starts in a running server. -/
theorem runEvents_snoc {events : List Event} {event : Event} {process : Process}
    (h : runEvents (events ++ [event]) = .ok process) :
    ∃ server, runEvents events = .ok (.running server) ∧ Transition server event process := by
  obtain ⟨before, hbefore, hstep⟩ := Fallible.run_snoc_ok.mp h
  cases before with
  | running server => exact ⟨server, hbefore, transition_of_step hstep⟩
  | stopped exception => cases hstep
  | undefinedBehaviour => cases hstep

/-- **The run rule.** A property of the running server that holds initially and is kept by every
transition that is `Good` holds after every run all of whose steps are. -/
theorem runEvents_invariant {Inv : Server → Prop} {Good : Server → Event → Prop}
    (hinitial : Inv Server.initial)
    (hstep : ∀ server event server', Inv server → Good server event →
      Transition server event (.running server') → Inv server')
    {events : List Event} {server : Server}
    (hgood : ∀ front event back s, events = front ++ event :: back →
      runEvents front = .ok (.running s) → Good s event)
    (h : runEvents events = .ok (.running server)) : Inv server := by
  -- the library rule is about processes, so both properties are asked of the running ones
  have hrule := @Fallible.run_invariant_of_everyStep _ _ _ Process.step
    (fun process event => ∀ s, process = .running s → Good s event)
    (fun process => ∀ s, process = .running s → Inv s)
  refine hrule ?_ ?_ ?_ h server rfl
  · rintro process event process' hinv hgoodStep hok server' rfl
    cases process with
    | running s =>
      exact hstep s event server' (hinv s rfl) (hgoodStep s rfl) (transition_of_step hok)
    | stopped exception => cases hok
    | undefinedBehaviour => cases hok
  · -- the program starts in the constructed server
    intro s hs
    cases hs
    exact hinitial
  · rintro front event back process heq hfront s rfl
    exact hgood front event back s heq hfront

/-- **Every running server is healthy.** -/
theorem healthy_of_runEvents {events : List Event} {server : Server}
    (h : runEvents events = .ok (.running server)) : Healthy server :=
  @runEvents_invariant _ Healthy (fun _ _ => True) healthy_initial
    (fun _ _ _ hs _ hstep => healthy_step hs hstep) _ _ (fun _ _ _ _ _ _ => trivial) h

end

end Proxy
