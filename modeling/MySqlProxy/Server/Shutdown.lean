import MySqlProxy.Server.Invariants

/-!
# After the stop signal

The signal handler closes the acceptor and stops every connection, and from then on nothing adds
one: an accept completion that is still queued finds the acceptor closed, and every other handler
acts on one connection only (`shutdown_is_final`).

Handlers of the connections `stop_all` has removed may still be queued, and they use a destroyed
object. So that they do not end the run here, `IntactTransition` lets them find the object as `stop`
left it; the runs made of such steps include every run of the program (`intactRun_of_runEvents`).
-/

namespace Proxy

section

variable [Host]

/-! ## Runs that go on after the use of a removed connection -/

/-- The outcomes of a step, a handler of a removed connection finding the object intact. -/
inductive IntactTransition (server : Server) : Event → Process → Prop where
  | defined {event : Event} {process : Process} (h : Transition server event process) :
      IntactTransition server event process
  | dangling {ptr : ConnectionPtr} {i : Nat} {sendResult : SendResult} {op : Operation}
      {call : Call}
      (hop : (server.operations ptr)[i]? = some op) (hcall : op.handlerCall = some call)
      (hgone : ptr ∉ server.connections) :
      IntactTransition server (.deliver ptr i sendResult)
        (.ofHandler ((server.setOperations ptr ((server.operations ptr).eraseIdx i)).call ptr call
          sendResult))

/-- A run that stays in the loop. -/
inductive IntactRun (server : Server) : List Event → Server → Prop where
  | nil : IntactRun server [] server
  | snoc {events : List Event} {middle server' : Server} {event : Event}
      (hrun : IntactRun server events middle)
      (hstep : IntactTransition middle event (.running server')) :
      IntactRun server (events ++ [event]) server'

/-- Every run of the program is one. Induction on the events from the right. -/
theorem intactRun_of_runEvents {events : List Event} {server : Server}
    (h : runEvents events = .ok (.running server)) : IntactRun Server.initial events server := by
  induction events using List.reverseRecOn generalizing server with
  | nil =>
    cases h
    exact .nil
  | append_singleton events event ih =>
    obtain ⟨middle, hbefore, hstep⟩ := runEvents_snoc h
    exact .snoc (ih hbefore) (.defined hstep)

/-! ## The invariant -/

/-- The server has been shut down: no connection, no open acceptor, and no accept pending. -/
structure ShutDown (server : Server) : Prop where
  empty : server.connections = ∅
  closed : server.acceptorIsOpen = false
  noAccept : ∀ accept ∈ server.accepts, accept ≠ none

/-- Since `server`, no connection has been constructed and no accept has been issued. -/
structure NothingNew (server server' : Server) : Prop where
  nextPtr : server'.nextPtr = server.nextPtr
  accepts : server'.accepts.Sublist server.accepts

omit [Host] in
theorem NothingNew.refl (server : Server) : NothingNew server server :=
  ⟨rfl, List.Sublist.refl _⟩

omit [Host] in
theorem NothingNew.trans {server middle server' : Server} (h : NothingNew server middle)
    (h' : NothingNew middle server') : NothingNew server server' :=
  ⟨h'.nextPtr.trans h.nextPtr, h'.accepts.trans h.accepts⟩

omit [Host] in
/-- Shutdown concerns the set of connections, the acceptor and its operations. -/
theorem ShutDown.congr {server server' : Server} (h : ShutDown server)
    (hconnections : server'.connections = server.connections)
    (hopen : server'.acceptorIsOpen = server.acceptorIsOpen)
    (haccepts : server'.accepts.Sublist server.accepts) : ShutDown server' :=
  ⟨hconnections.trans h.empty, hopen.trans h.closed,
    fun accept haccept => h.noAccept accept (haccepts.subset haccept)⟩

omit [Host] in
theorem shutDown_stopHandler (server : Server) : ShutDown server.stopHandler := by
  refine ⟨rfl, rfl, fun accept haccept => ?_⟩
  obtain ⟨accept', -, rfl⟩ := List.mem_map.mp haccept
  exact Option.some_ne_none _

theorem ShutDown.call {server server' : Server} (h : ShutDown server) {ptr : ConnectionPtr}
    {call : Call} {sendResult : SendResult}
    (hcall : server.call ptr call sendResult = .ok server') :
    ShutDown server' ∧ NothingNew server server' := by
  rcases Server.call_ok hcall with ⟨-, rfl⟩ | ⟨dir, read, s, -, -, rfl⟩ | ⟨-, rfl⟩
  · exact ⟨h.congr rfl rfl (List.Sublist.refl _), rfl, List.Sublist.refl _⟩
  · exact ⟨h.congr rfl rfl (List.Sublist.refl _), rfl, List.Sublist.refl _⟩
  · -- the stop functor erases from a set that is empty already
    have hempty : (server.stopTransferFunc ptr).connections = server.connections := by
      show server.connections.erase ptr = server.connections
      rw [h.empty, Finset.erase_empty]
    exact ⟨h.congr hempty rfl (List.Sublist.refl _), rfl, List.Sublist.refl _⟩

/-- A queued accept completion finds the acceptor closed. -/
theorem ShutDown.acceptHandler {server : Server} (h : ShutDown server)
    (result : Except ErrorCode Unit) (openResult : OpenResult) :
    server.acceptHandler result openResult = .ok server := if_pos h.closed

/-- Every queued accept is delivered with its completion taken off the queue, and no more. -/
theorem ShutDown.deliverAccept {server : Server} (h : ShutDown server) {i : Nat}
    {openResult : OpenResult} {process : Process}
    (hstep : IntactTransition server (.deliverAccept i openResult) process) :
    process = .running { server with accepts := server.accepts.eraseIdx i } := by
  have herased : ShutDown { server with accepts := server.accepts.eraseIdx i } :=
    h.congr rfl rfl (List.eraseIdx_sublist ..)
  cases hstep with
  | defined hdefined =>
    cases hdefined with
    | accepted haccept =>
      rw [herased.acceptHandler]
      rfl

/-- **The step lemma.** No step leaves the shutdown, constructs a connection or issues an accept.
The cases are the outcomes of a step. -/
theorem shutDown_step {server server' : Server} {event : Event} (h : ShutDown server)
    (hstep : IntactTransition server event (.running server')) :
    ShutDown server' ∧ NothingNew server server' := by
  generalize hprocess : Process.running server' = process at hstep
  cases hstep with
  | dangling hop hcall hgone =>
    rename_i ptr i sendResult op call
    have herased : ShutDown
        (server.setOperations ptr ((server.operations ptr).eraseIdx i)) :=
      h.congr rfl rfl (List.Sublist.refl _)
    obtain ⟨hshut, hnew⟩ := herased.call (Process.ofHandler_eq_running.mp hprocess)
    exact ⟨hshut, hnew.nextPtr, hnew.accepts⟩
  | defined hdefined =>
    cases hdefined with
    | complete hop hresult hcomplete =>
      cases hprocess
      exact ⟨h.congr rfl rfl (List.Sublist.refl _), rfl, List.Sublist.refl _⟩
    | completeAccept haccept => exact absurd rfl (h.noAccept none (List.mem_of_getElem? haccept))
    | silent hop hcompleted hcall =>
      cases hprocess
      exact ⟨h.congr rfl rfl (List.Sublist.refl _), rfl, List.Sublist.refl _⟩
    | dangling hop hcall hgone => cases hprocess
    | called hop hcall hmember =>
      rw [h.empty] at hmember
      exact absurd hmember (Finset.notMem_empty _)
    | accepted haccept =>
      rename_i i openResult result
      have hsub := List.eraseIdx_sublist server.accepts i
      have herased : ShutDown { server with accepts := server.accepts.eraseIdx i } :=
        h.congr rfl rfl hsub
      rw [herased.acceptHandler] at hprocess
      cases hprocess
      exact ⟨herased, rfl, hsub⟩
    | signalled hwait =>
      cases hprocess
      -- every accept has been completed before, so closing again changes none of them
      have hsame : server.accepts.map (fun accept => some (accept.getD (.error .operationAborted)))
          = server.accepts := by
        refine (List.map_congr_left fun accept haccept => ?_).trans (List.map_id _)
        obtain ⟨result, rfl⟩ := Option.ne_none_iff_exists'.mp (h.noAccept accept haccept)
        rfl
      refine ⟨shutDown_stopHandler _, rfl, ?_⟩
      show (server.accepts.map fun accept =>
        some (accept.getD (.error .operationAborted))).Sublist server.accepts
      rw [hsame]

/-- **The run lemma.** Induction on the run. -/
theorem shutDown_run {server server' : Server} {events : List Event} (h : ShutDown server)
    (hrun : IntactRun server events server') : ShutDown server' ∧ NothingNew server server' := by
  induction hrun with
  | nil => exact ⟨h, .refl server⟩
  | snoc _ hstep ih =>
    obtain ⟨hshut, hnew⟩ := shutDown_step ih.1 hstep
    exact ⟨hshut, ih.2.trans hnew⟩

/-- **Shutdown is final.** Whatever has come before the signal handler, and in whichever order
completions and stop functors come after it: there is no connection, the acceptor is closed, since
the handler has returned no connection has been constructed and no accept issued, and delivering
an accept that is still queued does nothing but take it off the queue. -/
theorem shutdown_is_final (server afterSignal server' : Server) (events : List Event)
    (hsignal : IntactTransition server .deliverSignal (.running afterSignal))
    (hrun : IntactRun afterSignal events server') :
    server'.connections = ∅ ∧ server'.acceptorIsOpen = false ∧
    server'.nextPtr = afterSignal.nextPtr ∧
    (∀ accept ∈ server'.accepts, accept ≠ none) ∧
    server'.accepts.Sublist afterSignal.accepts ∧
    (∀ i openResult process, IntactTransition server' (.deliverAccept i openResult) process →
      process = .running { server' with accepts := server'.accepts.eraseIdx i }) := by
  have hshut : ShutDown afterSignal := by
    generalize hprocess : Process.running afterSignal = process at hsignal
    cases hsignal with
    | defined hdefined =>
      cases hdefined with
      | signalled hwait =>
        cases hprocess
        exact shutDown_stopHandler _
  obtain ⟨hfinal, hnew⟩ := shutDown_run hshut hrun
  exact ⟨hfinal.empty, hfinal.closed, hnew.nextPtr, hfinal.noAccept, hnew.accepts,
    fun _ _ _ hstep => hfinal.deliverAccept hstep⟩

end

open scoped Host.Libstdcxx in
/-- A server with one client accepted and the completion queued. -/
def acceptQueued : Server := { Server.initial with accepts := [some (.ok ())] }

open scoped Host.Libstdcxx in
/-- The signal comes before the accepted client. -/
theorem shutdown_is_final_accepted :
    runEvents [.completeAccept 0 (.ok ())] = .ok (.running acceptQueued) ∧
      ∃ afterSignal server',
        IntactTransition acceptQueued .deliverSignal (.running afterSignal) ∧
        IntactRun afterSignal [.deliverAccept 0 .opened] server' ∧
        server'.connections = ∅ ∧ server'.nextPtr = afterSignal.nextPtr := by
  have hsignal : IntactTransition acceptQueued .deliverSignal
      (.running (Server.stopHandler { acceptQueued with signalWait := false })) :=
    .defined (.signalled rfl)
  have haccept : IntactTransition (Server.stopHandler { acceptQueued with signalWait := false })
      (.deliverAccept 0 .opened)
      (.running { Server.stopHandler { acceptQueued with signalWait := false } with
        accepts := [] }) := .defined (transition_of_step rfl)
  have hrun := IntactRun.snoc .nil haccept
  obtain ⟨hempty, -, hnext, -⟩ := shutdown_is_final _ _ _ _ hsignal hrun
  exact ⟨rfl, _, _, hsignal, hrun, hempty, hnext⟩

end Proxy
