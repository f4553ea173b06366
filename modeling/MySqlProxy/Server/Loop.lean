import MySqlProxy.Server.Objects
import MySqlProxy.Server.Shutdown
import MySqlProxy.Server.Lifetime
import Mathlib.Algebra.BigOperators.Group.Finset.Basic

/-!
# The event loop and its end (`Server::run`, `main.cpp`)

`io_context::run()` blocks until all asynchronous operations have finished: it returns when nothing
is pending and no completion is queued, which is when no event is possible (`idle_iff`). While the
server listens there is always one accept outstanding, so `run()` returns only after the stop signal
has been handled (`run_returns_iff`). From then on an event takes one operation away and none is
started, so that the loop ends after as many events as operations are outstanding, unless a
completion that is still queued is handed to a handler that acts on its destroyed connection
(`shutdown_drains`).
-/

namespace Proxy

section

variable [Host]

/-! ## When `run()` returns -/

omit [Host] in
/-- A `send` may always fail. -/
theorem Call.permits_failed (call : Call) (what : String) : call.Permits (.failed what) := by
  cases call <;> trivial

namespace Server

/-- Nothing is pending and no completion is queued. -/
structure Idle (server : Server) : Prop where
  accepts : server.accepts = []
  signalWait : server.signalWait = false
  operations : ∀ ptr, server.operations ptr = []

/-- No event is possible. -/
def Quiet (server : Server) : Prop := ∀ event, server.step event = .error .disabled

theorem Idle.quiet {server : Server} (h : server.Idle) : server.Quiet := by
  intro event
  have hnone : ∀ (ptr : ConnectionPtr) (i : Nat) (op : Operation),
      (server.operations ptr)[i]? ≠ some op := by
    intro ptr i op hop
    rw [h.operations ptr] at hop
    cases hop
  have hnoAccept : ∀ (i : Nat) (accept : Option (Except ErrorCode Unit)),
      server.accepts[i]? ≠ some accept := by
    intro i accept haccept
    rw [h.accepts] at haccept
    cases haccept
  cases hstep : server.step event with
  | error e => cases e; rfl
  | ok process =>
    -- every step takes something that is outstanding
    cases transition_of_step hstep with
    | complete hop hresult hcomplete => exact absurd hop (hnone _ _ _)
    | completeAccept haccept => exact absurd haccept (hnoAccept _ _)
    | silent hop hcompleted hcall => exact absurd hop (hnone _ _ _)
    | dangling hop hcall hgone => exact absurd hop (hnone _ _ _)
    | called hop hcall hmember => exact absurd hop (hnone _ _ _)
    | accepted haccept => exact absurd haccept (hnoAccept _ _)
    | signalled hwait =>
      rw [h.signalWait] at hwait
      cases hwait

/-- A pending operation can be completed. -/
theorem exists_complete_step {server : Server} {ptr : ConnectionPtr} {i : Nat} {op : Operation}
    (hop : (server.operations ptr)[i]? = some op) (hpending : op.isCompleted = false) :
    ∃ event process, server.step event = .ok process := by
  have hstep : ∀ completion op', completion.error? ≠ some .operationAborted →
      op.complete completion = some op' → ∃ process,
        server.step (.complete ptr i completion) = .ok process := by
    intro completion op' hresult hcomplete
    refine ⟨.running (server.setOperations ptr ((server.operations ptr).set i op')), ?_⟩
    simp [step, hop, hresult, hcomplete]
  cases op with
  | connect completion =>
    cases completion with
    | some result => cases hpending
    | none => exact ⟨_, hstep (.connect (.ok ())) _ (by decide) rfl⟩
  | receive dir completion =>
    cases completion with
    | some result => cases hpending
    | none => exact ⟨_, hstep (.read (.error (.other 0))) _ (by decide) rfl⟩
  | transfer dir completion =>
    cases completion with
    | some result => cases hpending
    | none => exact ⟨_, hstep (.read (.error (.other 0))) _ (by decide) rfl⟩

/-- A queued completion can be delivered. -/
theorem exists_deliver_step {server : Server} {ptr : ConnectionPtr} {i : Nat} {op : Operation}
    (hop : (server.operations ptr)[i]? = some op) (hcompleted : op.isCompleted = true) :
    ∃ event process, server.step event = .ok process := by
  refine ⟨.deliver ptr i (.failed ""), ?_⟩
  cases hcall : op.handlerCall with
  | none => exact ⟨_, by simp only [step, hop, hcompleted, hcall]; rfl⟩
  | some call =>
    have hpermits := call.permits_failed ""
    simp only [step, hop, hcompleted, hcall, hpermits, not_true_eq_false, if_false,
      Bool.true_eq_false]
    split
    · exact ⟨_, rfl⟩
    · exact ⟨_, rfl⟩

/-- **The loop has no deadlock.** No event is possible exactly when nothing is outstanding. -/
theorem idle_iff {server : Server} : server.Quiet ↔ server.Idle := by
  constructor
  · intro hquiet
    have hno : ¬ ∃ event process, server.step event = .ok process := by
      rintro ⟨event, process, hstep⟩
      rw [hquiet event] at hstep
      cases hstep
    refine ⟨?_, ?_, fun ptr => ?_⟩
    · by_contra hne
      obtain ⟨accept, accepts, haccepts⟩ := List.exists_cons_of_ne_nil hne
      apply hno
      cases accept with
      | none =>
        refine ⟨.completeAccept 0 (.ok ()), ?_⟩
        simp [step, haccepts, Completion.error?]
      | some result =>
        refine ⟨.deliverAccept 0 .opened, ?_⟩
        simp [step, haccepts]
    · by_contra hwait
      apply hno
      refine ⟨.deliverSignal, ?_⟩
      rw [Bool.not_eq_false] at hwait
      simp [step, hwait]
    · by_contra hne
      obtain ⟨op, rest, hoperations⟩ := List.exists_cons_of_ne_nil hne
      have hop : (server.operations ptr)[0]? = some op := by rw [hoperations]; rfl
      apply hno
      cases hcompleted : op.isCompleted with
      | false => exact exists_complete_step hop hcompleted
      | true => exact exists_deliver_step hop hcompleted
  · exact Idle.quiet

end Server

/-! ## While the server listens -/

omit [Host] in
theorem ShutDown.not_mem {server : Server} (h : ShutDown server) (ptr : ConnectionPtr) :
    ptr ∉ server.connections := by
  rw [h.empty]
  exact Finset.notMem_empty ptr

/-- The operations of the server itself: while the acceptor is open, the signal wait and exactly one
accept; afterwards nothing that is pending. -/
structure Listening (server : Server) : Prop where
  signalWait : server.signalWait = server.acceptorIsOpen
  accepting : server.acceptorIsOpen = true → server.accepts.length = 1
  shutDown : server.acceptorIsOpen = false → ShutDown server

/-- Only the signal handler closes the acceptor, and every other step keeps the number of accepts
while it is open. -/
theorem listening_cases {server server' : Server} {event : Event}
    (hstep : Transition server event (.running server')) :
    (event = .deliverSignal ∧ server.signalWait = true ∧
        server' = Server.stopHandler { server with signalWait := false }) ∨
      (event ≠ .deliverSignal ∧ server'.acceptorIsOpen = server.acceptorIsOpen ∧
        server'.signalWait = server.signalWait ∧
        (server.acceptorIsOpen = true → server'.accepts.length = server.accepts.length)) := by
  generalize hprocess : Process.running server' = process at hstep
  cases hstep with
  | complete hop hresult hcomplete =>
    cases hprocess
    exact Or.inr ⟨Event.noConfusion, rfl, rfl, fun _ => rfl⟩
  | completeAccept haccept =>
    cases hprocess
    exact Or.inr ⟨Event.noConfusion, rfl, rfl, fun _ => List.length_set ..⟩
  | silent hop hcompleted hcall =>
    cases hprocess
    exact Or.inr ⟨Event.noConfusion, rfl, rfl, fun _ => rfl⟩
  | dangling hop hcall hgone => cases hprocess
  | called hop hcall hmember =>
    refine Or.inr ⟨Event.noConfusion, ?_⟩
    rcases Server.call_ok (Process.ofHandler_eq_running.mp hprocess) with
      ⟨-, rfl⟩ | ⟨dir, read, s, -, -, rfl⟩ | ⟨-, rfl⟩
    · exact ⟨rfl, rfl, fun _ => rfl⟩
    · exact ⟨rfl, rfl, fun _ => rfl⟩
    · exact ⟨rfl, rfl, fun _ => rfl⟩
  | accepted haccept =>
    rename_i i openResult result
    refine Or.inr ⟨Event.noConfusion, ?_⟩
    -- the accept that is delivered is replaced by a new one
    have hlength : (server.accepts.eraseIdx i ++ [none]).length = server.accepts.length := by
      obtain ⟨hi, -⟩ := List.getElem?_eq_some_iff.mp haccept
      rw [List.length_append, List.length_eraseIdx_of_lt hi, List.length_singleton]
      omega
    rcases Server.acceptHandler_ok (Process.ofHandler_eq_running.mp hprocess) with
      ⟨hclosed, rfl⟩ | ⟨-, rfl⟩ | ⟨-, connection, -, rfl⟩
    · refine ⟨rfl, rfl, fun hopen => ?_⟩
      rw [show server.acceptorIsOpen = false from hclosed] at hopen
      cases hopen
    · exact ⟨rfl, rfl, fun _ => hlength⟩
    · exact ⟨rfl, rfl, fun _ => hlength⟩
  | signalled hwait =>
    cases hprocess
    exact Or.inl ⟨rfl, hwait, rfl⟩

theorem Listening.step {server server' : Server} {event : Event} (h : Listening server)
    (hstep : Transition server event (.running server')) : Listening server' := by
  rcases listening_cases hstep with ⟨-, -, rfl⟩ | ⟨-, hopen, hwait, haccepts⟩
  · exact ⟨rfl, fun hopen => Bool.noConfusion hopen, fun _ => shutDown_stopHandler _⟩
  · refine ⟨?_, fun hopen' => ?_, fun hclosed => ?_⟩
    · rw [hwait, hopen]
      exact h.signalWait
    · rw [hopen] at hopen'
      rw [haccepts hopen']
      exact h.accepting hopen'
    · rw [hopen] at hclosed
      exact (shutDown_step (h.shutDown hclosed) (.defined hstep)).1

theorem listening_of_runEvents {events : List Event} {server : Server}
    (h : runEvents events = .ok (.running server)) : Listening server :=
  @runEvents_induction _ (fun _ server => Listening server)
    ⟨rfl, fun _ => rfl, fun hclosed => Bool.noConfusion hclosed⟩
    (fun _ _ _ _ _ hlistening hstep => hlistening.step (transition_of_step hstep)) _ _ h

/-- The acceptor is closed exactly when the stop signal has been handled. -/
theorem signal_mem_iff {events : List Event} {server : Server}
    (h : runEvents events = .ok (.running server)) :
    Event.deliverSignal ∈ events ↔ server.acceptorIsOpen = false := by
  refine @runEvents_induction _
    (fun events server => Event.deliverSignal ∈ events ↔ server.acceptorIsOpen = false)
    (iff_of_false List.not_mem_nil Bool.noConfusion) ?_ _ _ h
  intro events event server server' hrun hsignal hstep
  rw [List.mem_append, List.mem_singleton]
  rcases listening_cases (transition_of_step hstep) with ⟨rfl, -, rfl⟩ | ⟨hevent, hopen, -, -⟩
  · exact iff_of_true (Or.inr rfl) rfl
  · rw [hopen, ← hsignal]
    exact or_iff_left (Ne.symm hevent)

/-! ## Sockets -/

/-- Both sockets are closed. -/
def Connection.IsClosed (connection : Connection) : Prop :=
  connection.clientSocket.isOpen = false ∧ connection.serverSocket.isOpen = false

/-- A connection that has been constructed and is not a member any more is closed. -/
theorem closed_step {ptr : ConnectionPtr} {server server' : Server} {event : Event}
    (h : ptr < server.nextPtr → ptr ∉ server.connections → (server.objects ptr).IsClosed)
    (hstep : ObjectStep ptr server server' event) :
    ptr < server'.nextPtr → ptr ∉ server'.connections → (server'.objects ptr).IsClosed := by
  intro hborn hgone
  cases hstep with
  | other htarget hobject hplace =>
    rw [hobject]
    exact h (hplace.born.mp hborn) (mt hplace.member.mpr hgone)
  | completed hop hresult hcomplete hobject hplace =>
    rw [hobject]
    exact h (hplace.born.mp hborn) (mt hplace.member.mpr hgone)
  | silent hop hcompleted hcall hobject hplace =>
    rw [hobject]
    exact h (hplace.born.mp hborn) (mt hplace.member.mpr hgone)
  | received hop hcall hmember hobject hplace =>
    exact absurd (hplace.member.mpr hmember) hgone
  | transferred hop hcall hmember hallowed htransfer hobject hplace =>
    exact absurd (hplace.member.mpr hmember) hgone
  | removed hop hcall hmember hobject hgone hnext =>
    rw [hobject]
    exact ⟨rfl, rfl⟩
  | stopped hmember hobject hgone hnext =>
    rw [hobject]
    exact ⟨rfl, rfl⟩
  | started hptr hstart hmember hborn => exact absurd hmember hgone

theorem closed_of_runEvents {events : List Event} {server : Server}
    (h : runEvents events = .ok (.running server)) (ptr : ConnectionPtr) :
    ptr < server.nextPtr → ptr ∉ server.connections → (server.objects ptr).IsClosed :=
  @runEvents_induction _
    (fun _ server => ptr < server.nextPtr → ptr ∉ server.connections →
      (server.objects ptr).IsClosed)
    (fun hborn => absurd hborn (Nat.not_lt_zero ptr))
    (fun _ _ _ _ _ hclosed hstep => closed_step hclosed (objectStep_of_step hstep ptr)) _ _ h

/-- `io_context::run()` returns when the signal has been handled and nothing is left. -/
theorem quiet_iff {events : List Event} {server : Server}
    (h : runEvents events = .ok (.running server)) :
    server.Quiet ↔ Event.deliverSignal ∈ events ∧ server.accepts = [] ∧
      ∀ ptr, server.operations ptr = [] := by
  have hlistening := listening_of_runEvents h
  rw [signal_mem_iff h, ← hlistening.signalWait, Server.idle_iff]
  constructor
  · intro hidle
    exact ⟨hidle.signalWait, hidle.accepts, hidle.operations⟩
  · rintro ⟨hwait, haccepts, hoperations⟩
    exact ⟨haccepts, hwait, hoperations⟩

/-- **When the loop ends.** In every state a run can reach: while no stop signal has been handled
there is exactly one accept outstanding and the loop goes on; `io_context::run()` returns exactly
when the signal has been handled and every operation of every connection, the removed ones
included, has had its handler run; and then there is no member and no socket is open. -/
theorem run_returns_iff (events : List Event) (server : Server)
    (h : runEvents events = .ok (.running server)) :
    (Event.deliverSignal ∉ events → server.accepts.length = 1 ∧ ¬ server.Quiet) ∧
    (server.Quiet ↔ Event.deliverSignal ∈ events ∧ server.accepts = [] ∧
      ∀ ptr, server.operations ptr = []) ∧
    (server.Quiet → server.connections = ∅ ∧
      ∀ ptr, ptr < server.nextPtr → (server.objects ptr).IsClosed) := by
  have hlistening := listening_of_runEvents h
  have hsignal := signal_mem_iff h
  refine ⟨fun hno => ⟨?_, fun hquiet => ?_⟩, quiet_iff h, fun hquiet => ?_⟩
  · apply hlistening.accepting
    rw [hsignal, Bool.not_eq_false] at hno
    exact hno
  · exact hno ((quiet_iff h).mp hquiet).1
  · have hclosed := hsignal.mp ((quiet_iff h).mp hquiet).1
    have hempty := (hlistening.shutDown hclosed).empty
    refine ⟨hempty, fun ptr hptr => closed_of_runEvents h ptr hptr ?_⟩
    exact (hlistening.shutDown hclosed).not_mem ptr

end

open scoped Host.Libstdcxx in
/-- The signal alone ends the loop once the accept it has aborted is delivered. -/
theorem run_returns_iff_signal :
    ∃ server, runEvents [.deliverSignal, .deliverAccept 0 .opened] = .ok (.running server) ∧
      server.Quiet ∧ server.connections = ∅ := by
  have hreturns := run_returns_iff [.deliverSignal, .deliverAccept 0 .opened] _ rfl
  have hquiet := hreturns.2.1.mpr ⟨List.mem_cons_self .., rfl, fun ptr => rfl⟩
  exact ⟨_, rfl, hquiet, (hreturns.2.2 hquiet).1⟩

section

variable [Host]

/-! ## After the stop signal -/

/-- The number of outstanding operations: accepts, the signal wait, and those of the connections. -/
def Server.outstanding (server : Server) : Nat :=
  server.accepts.length + (if server.signalWait then 1 else 0)
    + ∑ ptr ∈ Finset.range server.nextPtr, (server.operations ptr).length

theorem outstanding_eq_zero_iff {server : Server} (hunborn : Unborn server) :
    server.outstanding = 0 ↔ server.Quiet := by
  rw [Server.idle_iff]
  unfold Server.outstanding
  constructor
  · intro hzero
    have hsum : ∑ ptr ∈ Finset.range server.nextPtr, (server.operations ptr).length = 0 := by omega
    refine ⟨List.length_eq_zero_iff.mp (by omega), ?_, fun ptr => ?_⟩
    · cases hwait : server.signalWait with
      | false => rfl
      | true =>
        rw [hwait, if_pos rfl] at hzero
        omega
    · by_cases hptr : ptr < server.nextPtr
      · exact List.length_eq_zero_iff.mp
          (Finset.sum_eq_zero_iff.mp hsum ptr (Finset.mem_range.mpr hptr))
      · exact hunborn.operations hptr
  · intro hidle
    have hsum : ∑ ptr ∈ Finset.range server.nextPtr, (server.operations ptr).length = 0 := by
      refine Finset.sum_eq_zero fun ptr _ => ?_
      rw [hidle.operations ptr]
      rfl
    rw [hidle.accepts, hidle.signalWait, hsum]
    rfl

omit [Host] in
/-- One connection has one operation less. -/
theorem sum_lower {n ptr : Nat} (hptr : ptr < n) {f g : Nat → Nat} (hself : g ptr + 1 = f ptr)
    (hother : ∀ q, q ≠ ptr → g q = f q) :
    ∑ q ∈ Finset.range n, g q + 1 = ∑ q ∈ Finset.range n, f q := by
  have hmem := Finset.mem_range.mpr hptr
  have hrest : ∑ q ∈ (Finset.range n).erase ptr, g q = ∑ q ∈ (Finset.range n).erase ptr, f q :=
    Finset.sum_congr rfl fun q hq => hother q (Finset.ne_of_mem_erase hq)
  rw [← Finset.add_sum_erase _ f hmem, ← Finset.add_sum_erase _ g hmem, hrest]
  omega

/-- The invariant of the loop after the stop signal. -/
structure Draining (server : Server) : Prop where
  healthy : Healthy server
  unborn : Unborn server
  shutDown : ShutDown server
  signalWait : server.signalWait = false

theorem draining_of_signal {events : List Event} {server : Server}
    (h : runEvents events = .ok (.running server)) (hsignal : Event.deliverSignal ∈ events) :
    Draining server := by
  have hlistening := listening_of_runEvents h
  have hclosed := (signal_mem_iff h).mp hsignal
  refine ⟨healthy_of_runEvents h, unborn_of_runEvents h, hlistening.shutDown hclosed, ?_⟩
  rw [hlistening.signalWait]
  exact hclosed

/-- The operations of a connection that is no member have all been completed. -/
theorem Healthy.complete_ne_some {server : Server} (h : Healthy server) {ptr : ConnectionPtr}
    (hgone : ptr ∉ server.connections) {i : Nat} {op op' : Operation} {completion : Completion}
    (hop : (server.operations ptr)[i]? = some op) : op.complete completion ≠ some op' := by
  intro hcomplete
  have hcompleted := (h.dead ptr hgone).completed op (List.mem_of_getElem? hop)
  rw [(Operation.complete_spec hcomplete).1] at hcompleted
  cases hcompleted

/-- A step after the stop signal delivers a completion to a handler that starts nothing, or to one
that uses a destroyed connection. -/
theorem Draining.step {server : Server} {event : Event} {process : Process} (h : Draining server)
    (hstep : Transition server event process) :
    process = .undefinedBehaviour ∨
      ∃ server', process = .running server' ∧ server'.outstanding + 1 = server.outstanding := by
  cases hstep with
  | complete hop hresult hcomplete =>
    -- nothing is pending any more
    rename_i ptr i completion op op'
    exact absurd hcomplete (h.healthy.complete_ne_some (h.shutDown.not_mem ptr) hop)
  | completeAccept haccept =>
    exact absurd rfl (h.shutDown.noAccept none (List.mem_of_getElem? haccept))
  | silent hop hcompleted hcall =>
    rename_i ptr i sendResult op
    refine Or.inr ⟨_, rfl, ?_⟩
    have hptr : ptr < server.nextPtr := by
      by_contra hnot
      rw [h.unborn.operations hnot] at hop
      cases hop
    have hself : ((server.operations ptr).eraseIdx i).length + 1
        = (server.operations ptr).length := by
      obtain ⟨hi, -⟩ := List.getElem?_eq_some_iff.mp hop
      rw [List.length_eraseIdx_of_lt hi]
      omega
    have hsum : ∑ q ∈ Finset.range server.nextPtr, ((server.setOperations ptr
        ((server.operations ptr).eraseIdx i)).operations q).length + 1
        = ∑ q ∈ Finset.range server.nextPtr, (server.operations q).length := by
      refine sum_lower hptr ?_ fun q hq => ?_
      · rw [Server.operations, Server.objects_take]
        exact hself
      · rw [Server.operations, Server.setOperations, Server.objects_setObject_of_ne hq]
        rfl
    show server.accepts.length + (if server.signalWait then 1 else 0)
      + (∑ q ∈ Finset.range server.nextPtr, ((server.setOperations ptr
        ((server.operations ptr).eraseIdx i)).operations q).length) + 1 = server.outstanding
    unfold Server.outstanding
    omega
  | dangling hop hcall hgone => exact Or.inl rfl
  | called hop hcall hmember =>
    exact absurd hmember (h.shutDown.not_mem _)
  | accepted haccept =>
    rename_i i openResult result
    have herased : ShutDown { server with accepts := server.accepts.eraseIdx i } :=
      h.shutDown.congr rfl rfl (List.eraseIdx_sublist ..)
    rw [herased.acceptHandler]
    refine Or.inr ⟨_, rfl, ?_⟩
    obtain ⟨hi, -⟩ := List.getElem?_eq_some_iff.mp haccept
    have hlength : (server.accepts.eraseIdx i).length + 1 = server.accepts.length := by
      rw [List.length_eraseIdx_of_lt hi]
      omega
    show (server.accepts.eraseIdx i).length + (if server.signalWait then 1 else 0)
      + ∑ q ∈ Finset.range server.nextPtr, (server.operations q).length + 1 = server.outstanding
    unfold Server.outstanding
    omega
  | signalled hwait =>
    rw [h.signalWait] at hwait
    cases hwait

theorem Draining.running {server server' : Server} {event : Event} (h : Draining server)
    (hstep : server.step event = .ok (.running server')) : Draining server' := by
  have htransition := transition_of_step hstep
  refine ⟨healthy_step h.healthy htransition, h.unborn.step h.healthy hstep,
    (shutDown_step h.shutDown (.defined htransition)).1, ?_⟩
  rcases listening_cases htransition with ⟨-, -, rfl⟩ | ⟨-, -, hwait, -⟩
  · rfl
  · rw [hwait]
    exact h.signalWait

/-- The events of a run after the stop signal, counted. -/
theorem drains {events more : List Event} {server server' : Server}
    (h : runEvents events = .ok (.running server)) (hsignal : Event.deliverSignal ∈ events)
    (hmore : runEvents (events ++ more) = .ok (.running server')) :
    Draining server' ∧ server'.outstanding + more.length = server.outstanding := by
  have hrun : Fallible.run Server.stay server more = .ok server' := by
    have hall := run_stay.mpr hmore
    rw [Fallible.run_append_of_ok more (run_stay.mpr h)] at hall
    exact hall
  refine Fallible.run_countdown (fun s event t hs hok => ?_) (draining_of_signal h hsignal) hrun
  have hstep := Server.stay_ok.mp hok
  refine ⟨hs.running hstep, ?_⟩
  rcases hs.step (transition_of_step hstep) with hub | ⟨t', ht, hless⟩
  · cases hub
  · cases ht
    exact hless

/-- Only a handler that acts on a removed connection uses a destroyed object. -/
theorem actsOnRemoved_of_undefinedBehaviour {server : Server} {event : Event} {process : Process}
    (h : Transition server event process) (hprocess : process = .undefinedBehaviour) :
    ActsOnRemoved server event := by
  have hhandler : ∀ x : Except Exception Server,
      Process.ofHandler x ≠ Process.undefinedBehaviour := by
    intro x
    cases x <;> exact Process.noConfusion
  cases h with
  | complete hop hresult hcomplete => cases hprocess
  | completeAccept haccept => cases hprocess
  | silent hop hcompleted hcall => cases hprocess
  | dangling hop hcall hgone => exact ⟨_, _, _, _, _, rfl, hop, hcall, hgone⟩
  | called hop hcall hmember => exact absurd hprocess (hhandler _)
  | accepted haccept => exact absurd hprocess (hhandler _)
  | signalled hwait => cases hprocess

/-- The last event of a run uses a destroyed object: its handler acts on a removed connection. -/
def EndsInUse (events : List Event) : Prop :=
  ∃ front event server, events = front ++ [event] ∧ runEvents front = .ok (.running server) ∧
    ActsOnRemoved server event

/-- The last event of such a run finds an operation to take away. -/
theorem drains_last {events more : List Event} {event : Event} {server : Server}
    {process : Process} (h : runEvents events = .ok (.running server))
    (hsignal : Event.deliverSignal ∈ events)
    (hmore : runEvents (events ++ (more ++ [event])) = .ok process) :
    more.length + 1 ≤ server.outstanding ∧
      ((∃ server', process = .running server') ∨
        (process = .undefinedBehaviour ∧ EndsInUse (events ++ (more ++ [event])))) := by
  rw [← List.append_assoc] at hmore ⊢
  obtain ⟨middle, hmiddle, hstep⟩ := runEvents_snoc hmore
  obtain ⟨hdraining, hcount⟩ := drains h hsignal hmiddle
  obtain ⟨before, hbefore, hlast⟩ := Fallible.run_snoc_ok.mp hmore
  have hsome : middle.outstanding ≠ 0 := by
    intro hzero
    have hquiet := (outstanding_eq_zero_iff hdraining.unborn).mp hzero event
    obtain rfl : before = .running middle := Except.ok.inj (hbefore.symm.trans hmiddle)
    rw [show Process.step (.running middle) event = middle.step event from rfl, hquiet] at hlast
    cases hlast
  refine ⟨by omega, ?_⟩
  rcases hdraining.step hstep with rfl | ⟨server', rfl, -⟩
  · exact Or.inr ⟨rfl, _, event, middle, rfl, hmiddle,
      actsOnRemoved_of_undefinedBehaviour hstep rfl⟩
  · exact Or.inl ⟨server', rfl⟩

/-- **Shutdown drains.** After the stop signal, whatever the order of the events: a run has at most
as many further events as operations are outstanding. It stays in the loop, every event having taken
exactly one operation away, and the loop ends exactly when none is left; or it ends in a handler
that acts on a removed connection. -/
theorem shutdown_drains (events more : List Event) (server : Server) (process : Process)
    (h : runEvents events = .ok (.running server)) (hsignal : Event.deliverSignal ∈ events)
    (hmore : runEvents (events ++ more) = .ok process) :
    more.length ≤ server.outstanding ∧
    ((∃ server', process = .running server' ∧
        server'.outstanding + more.length = server.outstanding ∧
        (server'.outstanding = 0 ↔ server'.Quiet)) ∨
      (process = .undefinedBehaviour ∧ EndsInUse (events ++ more))) := by
  have hrunning : ∀ server', process = .running server' →
      server'.outstanding + more.length = server.outstanding ∧
        (server'.outstanding = 0 ↔ server'.Quiet) := by
    rintro server' rfl
    obtain ⟨hdraining, hcount⟩ := drains h hsignal hmore
    exact ⟨hcount, outstanding_eq_zero_iff hdraining.unborn⟩
  rcases List.eq_nil_or_concat more with rfl | ⟨front, event, rfl⟩
  · rw [List.append_nil, h, Except.ok.injEq] at hmore
    exact ⟨Nat.zero_le _, Or.inl ⟨server, hmore.symm, hrunning server hmore.symm⟩⟩
  · rw [List.concat_eq_append] at hmore hrunning ⊢
    obtain ⟨hlength, hends⟩ := drains_last h hsignal hmore
    refine ⟨by rw [List.length_append]; exact hlength, hends.imp_left ?_⟩
    rintro ⟨server', heq⟩
    exact ⟨server', heq, hrunning server' heq⟩

end

open scoped Host.Libstdcxx in
/-- One client, with both of its reads outstanding at the signal. -/
theorem shutdown_drains_client :
    ∃ server process,
      runEvents (acceptAndConnect 0 ++ [.deliver 0 0 (.written 1), .deliverSignal])
        = .ok (.running server) ∧ server.outstanding = 3 ∧
      runEvents ((acceptAndConnect 0 ++ [.deliver 0 0 (.written 1), .deliverSignal])
        ++ [.deliver 0 1 (.written 1), .deliverAccept 0 .opened, .deliver 0 0 (.written 1)])
        = .ok process ∧
      ∃ server', process = .running server' ∧ server'.outstanding + 3 = 3 ∧
        (server'.outstanding = 0 ↔ server'.Quiet) := by
  have hdrains := shutdown_drains
    (acceptAndConnect 0 ++ [.deliver 0 0 (.written 1), .deliverSignal])
    [.deliver 0 1 (.written 1), .deliverAccept 0 .opened, .deliver 0 0 (.written 1)] _ _ rfl
    (by simp) rfl
  refine ⟨_, _, rfl, rfl, rfl, hdrains.2.resolve_right ?_⟩
  rintro ⟨hused, -⟩
  cases hused

/-! ## `main` -/

def Exception.what : Exception → String
  | .runtimeError what => what
  | .systemError what => what
  | .ofString (.lengthError what) => what
  | .ofString .badAlloc => "std::bad_alloc"

/-- The exit status of the program and what it has written to `std::cerr`. -/
structure Exit where
  status : Nat
  cerr : String
  deriving DecidableEq, Repr

/-- The exit of the program, from the number of its arguments and from what constructing and
running the server comes to. -/
def main (argc : Nat) (construction : Except Exception Unit) (run : Except Exception Unit) : Exit :=
  -- Check command line arguments.
  if argc ≠ 6 then
    { status := 1
      cerr := "Usage: boost-asio-mysql-proxy"
        ++ " <client ip> <port> <mysql server ip> <port> <log file>\n" }
  else
    match construction.bind fun _ => run with
    | .ok () => { status := 0, cerr := "" }
    | .error e => { status := 0, cerr := "Server stopped with exception: " ++ e.what ++ "\n" }

section

variable [Host]

/-- What `Server::run` comes to after some events: it returns, or an exception leaves it. -/
inductive RunEnds (events : List Event) : Except Exception Unit → Prop where
  | returned {server : Server} (hrun : runEvents events = .ok (.running server))
      (hquiet : server.Quiet) : RunEnds events (.ok ())
  | threw {e : Exception} (hrun : runEvents events = .ok (.stopped e)) : RunEnds events (.error e)

omit [Host] in
theorem main_error_cerr (e : Exception) :
    "Server stopped with exception: " ++ e.what ++ "\n" ≠ "" := by
  intro h
  have hlength := congrArg String.length h
  rw [String.length_append, String.length_append] at hlength
  exact absurd hlength (by simp)

/-- **A silent exit.** The program ends without a message exactly when it has been given its five
arguments, the server could be constructed, the stop signal has been handled and the handlers of all
operations have run: every exception of every handler is reported. -/
theorem silent_exit_iff (argc : Nat) (construction : Except Exception Unit) (events : List Event)
    (run : Except Exception Unit) (h : RunEnds events run) :
    (main argc construction run).cerr = "" ↔
      argc = 6 ∧ construction = .ok () ∧
      ∃ server, runEvents events = .ok (.running server) ∧ Event.deliverSignal ∈ events ∧
        server.accepts = [] ∧ ∀ ptr, server.operations ptr = [] := by
  unfold main
  by_cases hargc : argc = 6
  · rw [if_neg (not_not.mpr hargc)]
    cases construction with
    | error e =>
      exact iff_of_false (main_error_cerr e) fun hall => by cases hall.2.1
    | ok _ =>
      cases h with
      | returned hrun hquiet =>
        exact iff_of_true rfl ⟨hargc, rfl, _, hrun, (quiet_iff hrun).mp hquiet⟩
      | threw hrun =>
        refine iff_of_false (main_error_cerr _) ?_
        rintro ⟨-, -, server, hrunning, -⟩
        rw [hrun] at hrunning
        cases hrunning
  · rw [if_pos hargc]
    refine iff_of_false ?_ fun hall => hargc hall.1
    show "Usage: boost-asio-mysql-proxy"
      ++ " <client ip> <port> <mysql server ip> <port> <log file>\n" ≠ ""
    decide

end

open scoped Host.Libstdcxx in
/-- Stopped by a signal, the program says nothing. -/
theorem silent_exit_iff_signal :
    RunEnds [.deliverSignal, .deliverAccept 0 .opened] (.ok ()) ∧
      (main 6 (.ok ()) (.ok ())).cerr = "" := by
  have hrun : runEvents [.deliverSignal, .deliverAccept 0 .opened] = .ok (.running _) := rfl
  have hleft := (quiet_iff hrun).mpr ⟨List.mem_cons_self .., rfl, fun ptr => rfl⟩
  have hends : RunEnds [.deliverSignal, .deliverAccept 0 .opened] (.ok ()) := .returned hrun hleft
  exact ⟨hends, (silent_exit_iff 6 (.ok ()) _ _ hends).mpr
    ⟨rfl, rfl, _, hrun, (quiet_iff hrun).mp hleft⟩⟩

end Proxy
