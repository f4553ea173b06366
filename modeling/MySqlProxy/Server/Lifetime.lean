import MySqlProxy.Server.Invariants

/-!
# Handlers of removed connections

`stop` and `stop_all` remove a connection while completions of it may still be queued. Closing its
sockets turns what is pending into `operation_aborted`, on which every handler does nothing; what
is queued is delivered as it is. `QuietRemoval` asks of a step that no connection it removes has a
queued completion whose handler would act, and then no handler ever acts for a removed connection
(`removed_connections_rest`). A removal that is not quiet leads to one that does
(`loud_removal_acts`).
-/

namespace Proxy

/-! ## Acting and removing -/

/-- The event delivers a completion of a connection that is not a member to a handler that
executes `do_receive`, `do_transfer` or the stop functor on it. -/
def ActsOnRemoved (server : Server) (event : Event) : Prop :=
  ∃ ptr i sendResult op call, event = .deliver ptr i sendResult ∧
    (server.operations ptr)[i]? = some op ∧ op.handlerCall = some call ∧ ptr ∉ server.connections

/-- The event stops the connection and removes it from `m_connections`: the stop functor at an
error of one of its reads, or `stop_all` at a signal. -/
inductive Removes (server : Server) : Event → ConnectionPtr → Prop where
  | stop {ptr : ConnectionPtr} {i : Nat} {sendResult : SendResult} {op : Operation}
      (hop : (server.operations ptr)[i]? = some op) (hcall : op.handlerCall = some .stopTransfer)
      (hmember : ptr ∈ server.connections) : Removes server (.deliver ptr i sendResult) ptr
  | stopAll {ptr : ConnectionPtr} (hmember : ptr ∈ server.connections) :
      Removes server .deliverSignal ptr

/-- The operations of a connection the event does not itself deliver. -/
def others (server : Server) (ptr : ConnectionPtr) : Event → List Operation
  | .deliver ptr' i _ =>
    if ptr' = ptr then (server.operations ptr).eraseIdx i else server.operations ptr
  | _ => server.operations ptr

/-- No connection the event removes has another completion queued whose handler would act. -/
def QuietRemoval (server : Server) (event : Event) : Prop :=
  ∀ ptr, Removes server event ptr → ∀ op ∈ others server ptr event, op.handlerCall = none

/-! ## The invariant -/

/-- Nothing that is queued for a removed connection would act. -/
def Rests (server : Server) : Prop :=
  ∀ ptr, ptr ∉ server.connections → ∀ op ∈ server.operations ptr, op.handlerCall = none

theorem Rests.not_actsOnRemoved {server : Server} (h : Rests server) (event : Event) :
    ¬ ActsOnRemoved server event := by
  rintro ⟨ptr, i, sendResult, op, call, -, hop, hcall, hgone⟩
  rw [h ptr hgone op (List.mem_of_getElem? hop)] at hcall
  cases hcall

/-- Stopping keeps what is queued: the operations of a stopped connection act as before. -/
theorem stop_rests {connection : Connection}
    (h : ∀ op ∈ connection.operations, op.handlerCall = none) :
    ∀ op ∈ connection.stop.operations, op.handlerCall = none := by
  intro op hop
  obtain ⟨op', hop', rfl⟩ := List.mem_map.mp hop
  rw [Operation.handlerCall_abort]
  exact h op' hop'

/-- Writing a member back concerns no removed connection. -/
theorem Rests.setObject_member {server : Server} (h : Rests server) {ptr : ConnectionPtr}
    (hmember : ptr ∈ server.connections) (connection : Connection) :
    Rests (server.setObject ptr connection) := by
  intro q hgone op hop
  have hne : q ≠ ptr := fun heq => hgone (heq ▸ hmember)
  rw [Server.operations, Server.objects_setObject_of_ne hne] at hop
  exact h q hgone op hop

theorem Rests.eraseIdx {server : Server} (h : Rests server) (ptr : ConnectionPtr) (i : Nat) :
    Rests (server.setOperations ptr ((server.operations ptr).eraseIdx i)) := by
  intro q hgone op hop
  by_cases hptr : q = ptr
  · rw [hptr, Server.operations, Server.setOperations, Server.objects_setObject_self] at hop
    exact h ptr (hptr ▸ hgone) op (List.mem_of_mem_eraseIdx hop)
  · rw [Server.operations, Server.setOperations, Server.objects_setObject_of_ne hptr] at hop
    exact h q hgone op hop

theorem Rests.stopConnection {server : Server} (h : Rests server) {ptr : ConnectionPtr}
    (hquiet : ∀ op ∈ server.operations ptr, op.handlerCall = none) :
    Rests (server.stopConnection ptr) := by
  intro q hgone op hop
  by_cases hptr : q = ptr
  · have hobject := Server.objects_setObject_self ptr (server.objects ptr).stop server
    rw [hptr, Server.operations, Server.stopConnection, hobject] at hop
    exact stop_rests hquiet op hop
  · have hobject := Server.objects_setObject_of_ne hptr (server.objects ptr).stop server
    rw [Server.operations, Server.stopConnection, hobject] at hop
    exact h q (fun hmember => hgone (Finset.mem_erase.mpr ⟨hptr, hmember⟩)) op hop

theorem Rests.stopAll {server : Server} (h : Rests server)
    (hquiet : ∀ ptr ∈ server.connections, ∀ op ∈ server.operations ptr, op.handlerCall = none) :
    Rests server.stopAll := by
  intro q _ op hop
  simp only [Server.operations, Server.stopAll] at hop
  split at hop
  · rename_i hmember
    exact stop_rests (hquiet q hmember) op hop
  · rename_i hgone
    exact h q hgone op hop

section

variable [Host]

theorem rests_initial : Rests Server.initial := by
  intro ptr _ op hop
  exact absurd hop (List.not_mem_nil)

/-- A new connection is started at a pointer of its own. -/
theorem Rests.acceptHandler {server server' : Server} (h : Rests server)
    {result : Except ErrorCode Unit} {openResult : OpenResult}
    (haccept : server.acceptHandler result openResult = .ok server') : Rests server' := by
  rcases Server.acceptHandler_ok haccept with ⟨-, rfl⟩ | ⟨-, rfl⟩ | ⟨-, connection, -, rfl⟩
  · exact h
  · exact h
  · intro q hgone op hop
    have hne : q ≠ server.nextPtr := fun heq => hgone (Finset.mem_insert.mpr (Or.inl heq))
    have hobject : (server.addConnection connection).objects q = server.objects q :=
      Server.objects_setObject_of_ne hne ..
    refine h q (fun hmember => hgone (Finset.mem_insert_of_mem hmember)) op ?_
    rw [Server.operations, ← hobject]
    exact hop

/-- **The step lemma.** A quiet step keeps removed connections at rest. -/
theorem rests_step {server server' : Server} {event : Event} (hhealthy : Healthy server)
    (h : Rests server) (hquiet : QuietRemoval server event)
    (hstep : Transition server event (.running server')) : Rests server' := by
  generalize hprocess : Process.running server' = process at hstep
  cases hstep with
  | complete hop hresult hcomplete =>
    rename_i ptr i completion op op'
    cases hprocess
    by_cases hmember : ptr ∈ server.connections
    · exact h.setObject_member hmember _
    · -- nothing is pending on a removed connection
      have hcompleted := (hhealthy.dead ptr hmember).completed op (List.mem_of_getElem? hop)
      rw [(Operation.complete_spec hcomplete).1] at hcompleted
      exact absurd hcompleted (by decide)
  | completeAccept haccept =>
    cases hprocess
    exact h
  | silent hop hcompleted hcall =>
    cases hprocess
    exact h.eraseIdx _ _
  | dangling hop hcall hgone => cases hprocess
  | called hop hcall hmember =>
    rename_i ptr i sendResult op call
    have herased := h.eraseIdx ptr i
    rcases Server.call_ok (Process.ofHandler_eq_running.mp hprocess) with
      ⟨-, rfl⟩ | ⟨dir, read, s, -, -, rfl⟩ | ⟨rfl, rfl⟩
    · exact herased.setObject_member hmember _
    · exact herased.setObject_member hmember _
    · -- the connection goes: what else it has queued is what the quiet removal speaks of
      refine herased.stopConnection fun op' hop' => ?_
      refine hquiet ptr (.stop hop hcall hmember) op' ?_
      have hobject := Server.objects_setObject_self ptr
        { server.objects ptr with operations := (server.operations ptr).eraseIdx i } server
      rw [Server.operations, Server.setOperations, hobject] at hop'
      rw [others, if_pos rfl]
      exact hop'
  | accepted haccept =>
    rename_i i openResult result
    have haccepts : Rests { server with accepts := server.accepts.eraseIdx i } := h
    exact haccepts.acceptHandler (Process.ofHandler_eq_running.mp hprocess)
  | signalled hwait =>
    cases hprocess
    have hclosed : Rests (Server.closeAcceptor { server with signalWait := false }) := h
    exact hclosed.stopAll fun ptr hmember => hquiet ptr (.stopAll hmember)

/-! ## Removed for good -/

/-- A connection that has been removed is not a member and its pointer is not used again. -/
def Gone (ptr : ConnectionPtr) (server : Server) : Prop :=
  ptr ∉ server.connections ∧ ptr < server.nextPtr

omit [Host] in
theorem Removes.mem {server : Server} {event : Event} {ptr : ConnectionPtr}
    (h : Removes server event ptr) : ptr ∈ server.connections := by
  cases h with
  | stop _ _ hmember => exact hmember
  | stopAll hmember => exact hmember

/-- What a removal leaves behind: the other operations, the pending ones aborted. -/
theorem Removes.spec {server server' : Server} {event : Event} {ptr : ConnectionPtr}
    (h : Removes server event ptr) (hstep : Transition server event (.running server')) :
    ptr ∉ server'.connections ∧ server'.nextPtr = server.nextPtr ∧
      server'.operations ptr = (others server ptr event).map Operation.abort := by
  generalize hprocess : Process.running server' = process at hstep
  cases h with
  | stop hop hcall hmember =>
    rename_i i sendResult op
    cases hstep with
    | silent hop' hcompleted hcall' =>
      rw [hop, Option.some.injEq] at hop'
      rw [← hop', hcall] at hcall'
      cases hcall'
    | dangling hop' hcall' hgone => cases hprocess
    | called hop' hcall' hmember' =>
      rw [hop, Option.some.injEq] at hop'
      rw [← hop', hcall, Option.some.injEq] at hcall'
      subst hcall'
      cases Process.ofHandler_eq_running.mp hprocess
      refine ⟨Finset.notMem_erase ptr _, rfl, ?_⟩
      simp [Server.stopTransferFunc, Server.stopConnection, Server.operations,
        Server.setOperations, Server.setObject, others, Connection.stop]
  | stopAll hmember =>
    cases hstep with
    | signalled hwait =>
      cases hprocess
      refine ⟨Finset.notMem_empty ptr, rfl, ?_⟩
      simp [Server.stopHandler, Server.stopAll, Server.closeAcceptor, Server.operations, others,
        Connection.stop, hmember]

theorem gone_of_removes {server server' : Server} {event : Event} {ptr : ConnectionPtr}
    (hhealthy : Healthy server) (hremoves : Removes server event ptr)
    (hstep : Transition server event (.running server')) : Gone ptr server' := by
  obtain ⟨hgone, hnext, -⟩ := hremoves.spec hstep
  exact ⟨hgone, by rw [hnext]; exact hhealthy.fresh ptr hremoves.mem⟩

theorem Gone.step {server server' : Server} {event : Event} {ptr : ConnectionPtr}
    (h : Gone ptr server) (hstep : Transition server event (.running server')) :
    Gone ptr server' := by
  generalize hprocess : Process.running server' = process at hstep
  cases hstep with
  | complete hop hresult hcomplete => cases hprocess; exact h
  | completeAccept haccept => cases hprocess; exact h
  | silent hop hcompleted hcall => cases hprocess; exact h
  | dangling hop hcall hgone => cases hprocess
  | called hop hcall hmember =>
    rcases Server.call_ok (Process.ofHandler_eq_running.mp hprocess) with
      ⟨-, rfl⟩ | ⟨dir, read, s, -, -, rfl⟩ | ⟨-, rfl⟩
    · exact h
    · exact h
    · exact ⟨fun hmember => h.1 (Finset.mem_of_mem_erase hmember), h.2⟩
  | accepted haccept =>
    rename_i i openResult result
    rcases Server.acceptHandler_ok (Process.ofHandler_eq_running.mp hprocess) with
      ⟨-, rfl⟩ | ⟨-, rfl⟩ | ⟨-, connection, -, rfl⟩
    · exact h
    · exact h
    · -- a new connection gets a new pointer
      refine ⟨fun hmember => ?_, Nat.lt_succ_of_lt h.2⟩
      rcases Finset.mem_insert.mp hmember with heq | hmember
      · exact absurd heq (Nat.ne_of_lt h.2)
      · exact h.1 hmember
  | signalled hwait =>
    cases hprocess
    exact ⟨Finset.notMem_empty ptr, h.2⟩

/-- A removal that is not quiet is followed by a handler that uses the destroyed connection. -/
theorem loud_removal_acts {server server' : Server} {event : Event}
    (hstep : Transition server event (.running server')) (hloud : ¬ QuietRemoval server event) :
    ∃ event', ActsOnRemoved server' event' ∧ server'.step event' = .ok .undefinedBehaviour := by
  unfold QuietRemoval at hloud
  push Not at hloud
  obtain ⟨ptr, hremoves, op, hop, hacts⟩ := hloud
  obtain ⟨call, hcall⟩ := Option.ne_none_iff_exists'.mp hacts
  obtain ⟨hgone, -, hoperations⟩ := hremoves.spec hstep
  -- the completion is still queued after the removal
  have hqueued : op.abort ∈ server'.operations ptr := by
    rw [hoperations]
    exact List.mem_map_of_mem hop
  obtain ⟨i, hi⟩ := List.mem_iff_getElem?.mp hqueued
  have hcall' : op.abort.handlerCall = some call := by rw [Operation.handlerCall_abort, hcall]
  have hpermits : call.Permits (.failed "") := by cases call <;> trivial
  refine ⟨.deliver ptr i (.failed ""), ⟨ptr, i, _, _, call, rfl, hi, hcall', hgone⟩, ?_⟩
  simp only [Server.step, hi, Operation.isCompleted_abort, hcall']
  simp [hpermits, Server.setOperations, Server.setObject, hgone]

/-! ## Runs -/

theorem rests_of_quiet {events : List Event} {server : Server}
    (hquiet : ∀ front event back s, events = front ++ event :: back →
      runEvents front = .ok (.running s) → QuietRemoval s event)
    (h : runEvents events = .ok (.running server)) : Rests server := by
  -- the step lemma needs the health of the server it starts from
  have hboth : Healthy server ∧ Rests server :=
    @runEvents_invariant _ (fun s => Healthy s ∧ Rests s) QuietRemoval
      ⟨healthy_initial, rests_initial⟩
      (fun _ _ _ hs hq hstep => ⟨healthy_step hs.1 hstep, rests_step hs.1 hs.2 hq hstep⟩)
      _ _ hquiet h
  exact hboth.2

/-- Once removed, a connection stays removed. Induction on the later events from the right. -/
theorem gone_of_run {front mid : List Event} {event : Event} {server server' : Server}
    {ptr : ConnectionPtr} (hfront : runEvents front = .ok (.running server))
    (hremoves : Removes server event ptr)
    (h : runEvents (front ++ event :: mid) = .ok (.running server')) : Gone ptr server' := by
  induction mid using List.reverseRecOn generalizing server' with
  | nil =>
    obtain ⟨before, hbefore, hstep⟩ := runEvents_snoc h
    rw [hfront, Except.ok.injEq, Process.running.injEq] at hbefore
    subst hbefore
    exact gone_of_removes (healthy_of_runEvents hfront) hremoves hstep
  | append_singleton mid last ih =>
    rw [show front ++ event :: (mid ++ [last]) = (front ++ event :: mid) ++ [last] from by
      simp] at h
    obtain ⟨before, hbefore, hstep⟩ := runEvents_snoc h
    exact (ih hbefore).step hstep

/-- **Removed connections rest.** In a run whose removals are all quiet, no completion handler
acts for a connection that is not a member, and no connection is stopped twice. -/
theorem removed_connections_rest (events : List Event)
    (hquiet : ∀ front event back server, events = front ++ event :: back →
      runEvents front = .ok (.running server) → QuietRemoval server event) :
    (∀ front event back server, events = front ++ event :: back →
      runEvents front = .ok (.running server) → ¬ ActsOnRemoved server event) ∧
    (∀ front event mid event' back server server' ptr,
      events = front ++ event :: (mid ++ event' :: back) →
      runEvents front = .ok (.running server) →
      runEvents (front ++ event :: mid) = .ok (.running server') →
      Removes server event ptr → ¬ Removes server' event' ptr) := by
  constructor
  · rintro front event back server rfl hfront
    have hrests := rests_of_quiet (fun front' event' back' s heq hs =>
      hquiet front' event' (back' ++ event :: back) s (by rw [heq]; simp) hs) hfront
    exact hrests.not_actsOnRemoved event
  · rintro front event mid event' back server server' ptr - hfront hmid hremoves hagain
    have hgone := (gone_of_run hfront hremoves hmid).1
    cases hagain with
    | stop _ _ hmember => exact hgone hmember
    | stopAll hmember => exact hgone hmember

end

open scoped Host.Libstdcxx in
/-- A signal while a connect is still pending is a quiet removal: the aborted connect is delivered
and does not act. -/
theorem removed_connections_rest_signal :
    ∃ server, runEvents [.completeAccept 0 (.ok ()), .deliverAccept 0 .opened, .deliverSignal]
        = .ok (.running server) ∧ ¬ ActsOnRemoved server (.deliver 0 0 (.written 1)) := by
  refine ⟨_, rfl, (removed_connections_rest [.completeAccept 0 (.ok ()), .deliverAccept 0 .opened,
    .deliverSignal, .deliver 0 0 (.written 1)] ?_).1
    [.completeAccept 0 (.ok ()), .deliverAccept 0 .opened, .deliverSignal]
    (.deliver 0 0 (.written 1)) [] _ rfl rfl⟩
  intro front event back server heq hrun ptr hremoves op hop
  -- the cases are the places of the event in the run
  match front, heq with
  | [], heq =>
    obtain ⟨rfl, -⟩ := List.cons.inj heq
    cases hremoves
  | [_], heq =>
    obtain ⟨-, heq⟩ := List.cons.inj heq
    obtain ⟨rfl, -⟩ := List.cons.inj heq
    cases hremoves
  | [_, _], heq =>
    simp only [List.cons_append, List.nil_append, List.cons.injEq] at heq
    obtain ⟨rfl, rfl, rfl, -⟩ := heq
    cases hrun
    have hmember : ptr ∈ insert 0 (∅ : Finset ConnectionPtr) := hremoves.mem
    obtain rfl : ptr = 0 := by simpa using hmember
    obtain rfl : op = .connect none := List.mem_singleton.mp hop
    rfl
  | [_, _, _], heq =>
    simp only [List.cons_append, List.nil_append, List.cons.injEq] at heq
    obtain ⟨rfl, rfl, rfl, rfl, -⟩ := heq
    cases hrun
    exact absurd hremoves.mem (Finset.notMem_empty ptr)
  | _ :: _ :: _ :: _ :: front, heq => simp at heq

open scoped Host.Libstdcxx in
/-- The server's read is queued when the client's end of file removes the connection, and its
handler transfers for the removed connection. -/
theorem queued_read_acts :
    ∃ server, runEvents (acceptAndConnect 0 ++ [.deliver 0 0 (.written 1),
        .complete 0 0 (.read (.ok ⟨[1, 0], by simp, by decide⟩)), .deliver 0 0 (.written 2),
        .complete 0 1 (.read (.error (.other 2))),
        .complete 0 0 (.read (.ok ⟨[7], by simp, by decide⟩)), .deliver 0 1 (.written 1)])
          = .ok (.running server) ∧
      ActsOnRemoved server (.deliver 0 0 (.written 1)) ∧
      server.step (.deliver 0 0 (.written 1)) = .ok .undefinedBehaviour :=
  ⟨_, rfl, ⟨0, 0, .written 1, _, _, rfl, rfl, rfl, by decide⟩, rfl⟩

end Proxy
