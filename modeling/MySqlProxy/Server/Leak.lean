import MySqlProxy.Server.Invariants

/-!
# Connections that stay behind

A connection leaves `m_connections` through the stop functor, which only the reads of `do_transfer`
call. An error of the connect, or of the first read of a direction, is ignored by its handler
(`IgnoredError`). `no_leak_iff` says that this is the whole defect: along a run, every delivered
error releases its connection and every member keeps an operation outstanding exactly when no such
error is delivered to a member.
-/

namespace Proxy

section

variable [Host]

/-! ## The property and the defect -/

/-- After a handler that was delivered an error other than `operation_aborted`, its connection is
not a member and both of its sockets are closed. -/
def Releases (server : Server) (event : Event) (process : Process) : Prop :=
  ∀ ptr i sendResult op e, event = .deliver ptr i sendResult →
    (server.operations ptr)[i]? = some op → op.error? = some e → e ≠ .operationAborted →
    ∀ server', process = .running server' → ptr ∉ server'.connections ∧
      (server'.objects ptr).clientSocket.isOpen = false ∧
      (server'.objects ptr).serverSocket.isOpen = false

/-- Every member has an outstanding connect or read operation. -/
def Served (server : Server) : Prop := ∀ ptr ∈ server.connections, server.operations ptr ≠ []

/-- The event delivers an error of the connect or of a first read to a member. -/
def IgnoredError (server : Server) (event : Event) : Prop :=
  ∃ ptr i sendResult op e, event = .deliver ptr i sendResult ∧
    (server.operations ptr)[i]? = some op ∧
    (op = .connect (some (.error e)) ∨ ∃ dir, op = .receive dir (some (.error e))) ∧
    e ≠ .operationAborted ∧ ptr ∈ server.connections

/-! ## Handlers that do nothing -/

omit [Host] in
/-- A completed operation whose handler does nothing was aborted, or is a connect or a first read
with an error. -/
theorem Operation.error_of_handlerCall_none {op : Operation} (hcompleted : op.isCompleted = true)
    (h : op.handlerCall = none) :
    ∃ e, op.error? = some e ∧ (e = .operationAborted ∨ op = .connect (some (.error e)) ∨
      ∃ dir, op = .receive dir (some (.error e))) := by
  unfold handlerCall at h
  split at h
  · cases h
  · exact ⟨_, rfl, Or.inr (Or.inl rfl)⟩
  · cases h
  · exact ⟨_, rfl, Or.inr (Or.inr ⟨_, rfl⟩)⟩
  · cases h
  · exact ⟨_, rfl, Or.inl rfl⟩
  · cases h
  · cases hcompleted
  · cases hcompleted
  · cases hcompleted

/-- An ignored error leaves its connection a member. -/
theorem IgnoredError.not_releases {server : Server} {event : Event}
    (h : IgnoredError server event) :
    ∃ process, server.step event = .ok process ∧ ¬ Releases server event process := by
  obtain ⟨ptr, i, sendResult, op, e, rfl, hop, hkind, hne, hmember⟩ := h
  have herror : op.isCompleted = true ∧ op.handlerCall = none ∧ op.error? = some e := by
    rcases hkind with rfl | ⟨dir, rfl⟩
    · exact ⟨rfl, rfl, rfl⟩
    · exact ⟨rfl, rfl, rfl⟩
  refine ⟨_, Server.step_silent hop herror.1 herror.2.1, fun hreleases => ?_⟩
  exact (hreleases ptr i sendResult op e rfl hop herror.2.2 hne _ rfl).1 hmember

/-! ## One step -/

/-- Every other delivered error releases its connection. -/
theorem releases_step {server : Server} {event : Event} {process : Process}
    (hhealthy : Healthy server) (hheeded : ¬ IgnoredError server event)
    (hstep : Transition server event process) : Releases server event process := by
  rintro ptr i sendResult op e rfl hop herror hne server' rfl
  have hcases := Operation.handlerCall_of_error herror hne
  generalize hprocess : Process.running server' = process at hstep
  cases hstep with
  | silent hop' hcompleted hcall =>
    rw [hop, Option.some.injEq] at hop'
    subst hop'
    rcases hcases with ⟨hstop, -⟩ | ⟨-, hkind⟩
    · rw [hstop] at hcall
      cases hcall
    · -- the connection is gone already, and its sockets are closed
      have hgone : ptr ∉ server.connections := fun hmember =>
        hheeded ⟨ptr, i, sendResult, op, e, rfl, hop, hkind, hne, hmember⟩
      have hops : (server.objects ptr).operations ≠ [] :=
        List.ne_nil_of_mem (List.mem_of_getElem? hop)
      obtain ⟨hclient, hserver⟩ := (hhealthy.dead ptr hgone).closed hops
      cases hprocess
      refine ⟨hgone, ?_, ?_⟩
      · rw [Server.setOperations, Server.objects_setObject_self]
        exact hclient
      · rw [Server.setOperations, Server.objects_setObject_self]
        exact hserver
  | dangling hop' hcall hgone => cases hprocess
  | called hop' hcall hmember =>
    rw [hop, Option.some.injEq] at hop'
    subst hop'
    -- the handler that acts on an error is the one that stops the connection
    rcases hcases with ⟨hstop, -⟩ | ⟨hnone, -⟩
    · rw [hstop, Option.some.injEq] at hcall
      subst hcall
      cases Process.ofHandler_eq_running.mp hprocess
      refine ⟨Finset.notMem_erase ptr _, ?_, ?_⟩ <;>
        simp [Server.stopTransferFunc, Server.stopConnection, Server.setObject, Connection.stop,
          Socket.close]
    · rw [hnone] at hcall
      cases hcall

omit [Host] in
/-- A member keeps an operation as long as its connection is written back with one. -/
theorem Served.setObject {server : Server} (h : Served server) {ptr : ConnectionPtr}
    {connection : Connection} (hops : ptr ∈ server.connections → connection.operations ≠ []) :
    Served (server.setObject ptr connection) := by
  intro q hq
  by_cases hptr : q = ptr
  · rw [hptr, Server.operations, Server.objects_setObject_self]
    exact hops (hptr ▸ hq)
  · rw [Server.operations, Server.objects_setObject_of_ne hptr]
    exact h q hq

/-- The members of a server, save possibly one, have an operation outstanding. -/
def ServedExcept (ptr : ConnectionPtr) (server : Server) : Prop :=
  ∀ q ∈ server.connections, q ≠ ptr → server.operations q ≠ []

omit [Host] in
theorem Served.eraseIdx {server : Server} (h : Served server) (ptr : ConnectionPtr) (i : Nat) :
    ServedExcept ptr (server.setOperations ptr ((server.operations ptr).eraseIdx i)) := by
  intro q hq hne
  rw [Server.operations, Server.setOperations, Server.objects_setObject_of_ne hne]
  exact h q hq

omit [Host] in
theorem ServedExcept.setObject {server : Server} {ptr : ConnectionPtr}
    (h : ServedExcept ptr server) {connection : Connection} (hops : connection.operations ≠ []) :
    Served (server.setObject ptr connection) := by
  intro q hq
  by_cases hptr : q = ptr
  · rw [hptr, Server.operations, Server.objects_setObject_self]
    exact hops
  · rw [Server.operations, Server.objects_setObject_of_ne hptr]
    exact h q hq hptr

omit [Host] in
theorem ServedExcept.stopConnection {server : Server} {ptr : ConnectionPtr}
    (h : ServedExcept ptr server) : Served (server.stopConnection ptr) := by
  intro q hq
  have hne := Finset.ne_of_mem_erase hq
  have hobject := Server.objects_setObject_of_ne hne (server.objects ptr).stop server
  rw [Server.operations, Server.stopConnection, hobject]
  exact h q (Finset.mem_of_mem_erase hq) hne

/-- A handler that acts on a live connection leaves it served or removed. -/
theorem ServedExcept.call {server server' : Server} {ptr : ConnectionPtr}
    (hhealthy : Healthy server) (h : ServedExcept ptr server) (hmember : ptr ∈ server.connections)
    {call : Call} {sendResult : SendResult}
    (hcall : server.call ptr call sendResult = .ok server') :
    Served server' := by
  rcases Server.call_ok hcall with ⟨-, rfl⟩ | ⟨dir, read, s, -, htransfer, rfl⟩ | ⟨-, rfl⟩
  · exact h.setObject (by simp [Connection.doReceive])
  · have halive := (hhealthy.alive ptr hmember).fill dir read
    have hops : s.1.operations ≠ [] := by
      rw [(halive.doTransfer htransfer).2]
      simp
    exact h.setObject hops
  · exact h.stopConnection

theorem Served.acceptHandler {server server' : Server} (h : Served server)
    {result : Except ErrorCode Unit} {openResult : OpenResult}
    (haccept : server.acceptHandler result openResult = .ok server') : Served server' := by
  rcases Server.acceptHandler_ok haccept with ⟨-, rfl⟩ | ⟨-, rfl⟩ | ⟨-, connection, hstart, rfl⟩
  · exact h
  · exact h
  · have hops : connection.operations ≠ [] := by
      cases openResult with
      | opened =>
        cases hstart
        simp
      | failed what => cases hstart
    have hexcept : ServedExcept server.nextPtr { server with
        connections := insert server.nextPtr server.connections
        nextPtr := server.nextPtr + 1 } := by
      intro q hq hne
      exact h q ((Finset.mem_insert.mp hq).resolve_left hne)
    exact hexcept.setObject hops

/-- **The step lemma.** A step that ignores no error keeps every member served. -/
theorem served_step {server server' : Server} {event : Event} (hhealthy : Healthy server)
    (h : Served server) (hheeded : ¬ IgnoredError server event)
    (hstep : Transition server event (.running server')) : Served server' := by
  generalize hprocess : Process.running server' = process at hstep
  cases hstep with
  | complete hop hresult hcomplete =>
    rename_i ptr i completion op op'
    cases hprocess
    refine h.setObject fun hmember => ?_
    -- completing an operation replaces it in its place
    have hne := h ptr hmember
    intro hnil
    exact hne (List.length_eq_zero_iff.mp (by simpa using congrArg List.length hnil))
  | completeAccept haccept =>
    cases hprocess
    exact h
  | silent hop hcompleted hcall =>
    rename_i ptr i sendResult op
    cases hprocess
    -- no handler of a member does nothing: its operations are not aborted, its errors are heeded
    have hgone : ptr ∉ server.connections := by
      intro hmember
      obtain ⟨e, herror, hkind⟩ := Operation.error_of_handlerCall_none hcompleted hcall
      have hne : e ≠ .operationAborted := by
        rintro rfl
        exact (hhealthy.alive ptr hmember).notAborted op (List.mem_of_getElem? hop) herror
      exact hheeded ⟨ptr, i, sendResult, op, e, rfl, hop, hkind.resolve_left hne, hne, hmember⟩
    exact h.setObject fun hmember => absurd hmember hgone
  | dangling hop hcall hgone => cases hprocess
  | called hop hcall hmember =>
    rename_i ptr i sendResult op call
    exact (h.eraseIdx ptr i).call (hhealthy.eraseIdx ptr i) hmember
      (Process.ofHandler_eq_running.mp hprocess)
  | accepted haccept =>
    rename_i i openResult result
    have haccepts : Served { server with accepts := server.accepts.eraseIdx i } := h
    exact haccepts.acceptHandler (Process.ofHandler_eq_running.mp hprocess)
  | signalled hwait =>
    cases hprocess
    exact fun ptr hmember => absurd hmember (Finset.notMem_empty ptr)

/-! ## Runs -/

theorem served_of_heeded {events : List Event} {server : Server}
    (hheeded : ∀ front event back s, events = front ++ event :: back →
      runEvents front = .ok (.running s) → ¬ IgnoredError s event)
    (h : runEvents events = .ok (.running server)) : Served server := by
  have hinitial : Served Server.initial :=
    fun ptr hmember => absurd hmember (Finset.notMem_empty ptr)
  -- the step lemma needs the health of the server it starts from
  have hboth : Healthy server ∧ Served server :=
    @runEvents_invariant _ (fun s => Healthy s ∧ Served s) (fun s event => ¬ IgnoredError s event)
      ⟨healthy_initial, hinitial⟩
      (fun _ _ _ hs hh hstep => ⟨healthy_step hs.1 hstep, served_step hs.1 hs.2 hh hstep⟩)
      _ _ hheeded h
  exact hboth.2

/-- **When no connection is leaked.** Along any run, every error that is delivered releases its
connection and every member is served at every point exactly when no error of a connect or of a
first read is delivered to a member. -/
theorem no_leak_iff (events : List Event) :
    ((∀ front event back server process, events = front ++ event :: back →
        runEvents front = .ok (.running server) → server.step event = .ok process →
        Releases server event process) ∧
      (∀ front back server, events = front ++ back → runEvents front = .ok (.running server) →
        Served server)) ↔
    ∀ front event back server, events = front ++ event :: back →
      runEvents front = .ok (.running server) → ¬ IgnoredError server event := by
  constructor
  · rintro ⟨hreleases, -⟩ front event back server heq hfront hignored
    obtain ⟨process, hstep, hleaks⟩ := hignored.not_releases
    exact hleaks (hreleases front event back server process heq hfront hstep)
  · intro hheeded
    constructor
    · intro front event back server process heq hfront hstep
      exact releases_step (healthy_of_runEvents hfront) (hheeded front event back server heq hfront)
        (transition_of_step hstep)
    · rintro front back server rfl hfront
      refine served_of_heeded (fun front' event back' s heq hs => ?_) hfront
      exact hheeded front' event (back' ++ back) s (by rw [heq]; simp) hs

end

open scoped Host.Libstdcxx in
/-- A refused connect leaves a member behind with nothing outstanding and both sockets open. -/
theorem refused_connect_leaks :
    ∃ server server', runEvents [.completeAccept 0 (.ok ()), .deliverAccept 0 .opened,
        .complete 0 0 (.connect (.error (.other 111)))] = .ok (.running server) ∧
      server.step (.deliver 0 0 (.written 1)) = .ok (.running server') ∧
      0 ∈ server'.connections ∧ server'.operations 0 = [] ∧
      (server'.objects 0).clientSocket.isOpen = true ∧
      (server'.objects 0).serverSocket.isOpen = true :=
  ⟨_, _, rfl, rfl, by decide, rfl, rfl, rfl⟩

end Proxy
