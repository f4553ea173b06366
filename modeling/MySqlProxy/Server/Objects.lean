import MySqlProxy.Server.Invariants
import MySqlProxy.Lib.Simulation

/-!
# A step, seen by one connection

A step of the server is about one connection, about none, or, when the stop signal is delivered,
about all members. `ObjectStep` lists what a step that stays in the loop can do to one given
connection, and `objectStep_of_step` is the one case analysis over the steps of the server:
what holds of every connection is proved over the constructors of `ObjectStep`.
-/

namespace Proxy

section

variable [Host]

/-- The connection an event is addressed to. -/
def Event.target? : Event → Option ConnectionPtr
  | .complete ptr _ _ => some ptr
  | .deliver ptr _ _ => some ptr
  | .completeAccept _ _ => none
  | .deliverAccept _ _ => none
  | .deliverSignal => none

/-- A connection keeps its place: it is a member, and it has been constructed, as before. -/
structure SamePlace (ptr : ConnectionPtr) (server server' : Server) : Prop where
  member : ptr ∈ server'.connections ↔ ptr ∈ server.connections
  born : ptr < server'.nextPtr ↔ ptr < server.nextPtr

omit [Host] in
theorem SamePlace.of_eq {ptr : ConnectionPtr} {server server' : Server}
    (hconnections : server'.connections = server.connections)
    (hnext : server'.nextPtr = server.nextPtr) : SamePlace ptr server server' :=
  ⟨by rw [hconnections], by rw [hnext]⟩

/-- The connection whose queued completion at `i` has been taken off. -/
def Connection.take (i : Nat) (connection : Connection) : Connection :=
  { connection with operations := connection.operations.eraseIdx i }

/-- What a step that stays in the loop can do to a connection. -/
inductive ObjectStep (ptr : ConnectionPtr) (server server' : Server) : Event → Prop where
  | other {event : Event} (htarget : event.target? ≠ some ptr)
      (hobject : server'.objects ptr = server.objects ptr) (hplace : SamePlace ptr server server') :
      ObjectStep ptr server server' event
  | completed {i : Nat} {completion : Completion} {op op' : Operation}
      (hop : (server.operations ptr)[i]? = some op)
      (hresult : completion.error? ≠ some .operationAborted)
      (hcomplete : op.complete completion = some op')
      (hobject : server'.objects ptr = { server.objects ptr with
        operations := (server.operations ptr).set i op' })
      (hplace : SamePlace ptr server server') :
      ObjectStep ptr server server' (.complete ptr i completion)
  | silent {i : Nat} {sendResult : SendResult} {op : Operation}
      (hop : (server.operations ptr)[i]? = some op) (hcompleted : op.isCompleted = true)
      (hcall : op.handlerCall = none)
      (hobject : server'.objects ptr = (server.objects ptr).take i)
      (hplace : SamePlace ptr server server') :
      ObjectStep ptr server server' (.deliver ptr i sendResult)
  | received {i : Nat} {sendResult : SendResult} {op : Operation}
      (hop : (server.operations ptr)[i]? = some op) (hcall : op.handlerCall = some .doReceive)
      (hmember : ptr ∈ server.connections)
      (hobject : server'.objects ptr = ((server.objects ptr).take i).doReceive)
      (hplace : SamePlace ptr server server') :
      ObjectStep ptr server server' (.deliver ptr i sendResult)
  | transferred {i : Nat} {sendResult : SendResult} {op : Operation} {dir : Bool} {read : Read}
      {s : Connection × PacketLogger}
      (hop : (server.operations ptr)[i]? = some op)
      (hcall : op.handlerCall = some (.doTransfer dir read))
      (hmember : ptr ∈ server.connections) (hallowed : sendResult.Allowed read.bytes.length)
      (htransfer : Connection.doTransfer dir read.bytes.length sendResult
        (((server.objects ptr).take i).fill dir read, server.packetLogger) = .ok s)
      (hobject : server'.objects ptr = s.1) (hplace : SamePlace ptr server server') :
      ObjectStep ptr server server' (.deliver ptr i sendResult)
  | removed {i : Nat} {sendResult : SendResult} {op : Operation}
      (hop : (server.operations ptr)[i]? = some op) (hcall : op.handlerCall = some .stopTransfer)
      (hmember : ptr ∈ server.connections)
      (hobject : server'.objects ptr = ((server.objects ptr).take i).stop)
      (hgone : ptr ∉ server'.connections) (hnext : server'.nextPtr = server.nextPtr) :
      ObjectStep ptr server server' (.deliver ptr i sendResult)
  | stopped (hmember : ptr ∈ server.connections)
      (hobject : server'.objects ptr = (server.objects ptr).stop)
      (hgone : ptr ∉ server'.connections) (hnext : server'.nextPtr = server.nextPtr) :
      ObjectStep ptr server server' .deliverSignal
  | started {i : Nat} {openResult : OpenResult} (hptr : ptr = server.nextPtr)
      (hstart : Connection.construct.start openResult = .ok (server'.objects ptr))
      (hmember : ptr ∈ server'.connections) (hborn : ptr < server'.nextPtr) :
      ObjectStep ptr server server' (.deliverAccept i openResult)

/-! ## Every step is one of these, for every connection -/

/-- A connection that is written back: the one addressed, or another that notices nothing. -/
theorem objectStep_setObject {q : ConnectionPtr} {server server' : Server} {event : Event}
    {connection : Connection} {ptr : ConnectionPtr} (htarget : event.target? = some ptr)
    (hobjects : server'.objects = (server.setObject ptr connection).objects)
    (hplace : ∀ q, q ≠ ptr → SamePlace q server server')
    (hself : server'.objects ptr = connection → ObjectStep ptr server server' event) :
    ObjectStep q server server' event := by
  by_cases hq : q = ptr
  · subst hq
    exact hself (by rw [hobjects, Server.objects_setObject_self])
  · refine .other ?_ ?_ (hplace q hq)
    · rw [htarget]
      exact fun h => hq (Option.some.inj h).symm
    · rw [hobjects, Server.objects_setObject_of_ne hq]

omit [Host] in
theorem Server.objects_take (ptr : ConnectionPtr) (i : Nat) (server : Server) :
    (server.setOperations ptr ((server.operations ptr).eraseIdx i)).objects ptr
      = (server.objects ptr).take i := Server.objects_setObject_self ..

/-- What a handler's `send` answers is what a socket may answer. -/
theorem Server.permits_of_step {server : Server} {process : Process} {ptr : ConnectionPtr} {i : Nat}
    {sendResult : SendResult} {op : Operation} {call : Call}
    (h : server.step (.deliver ptr i sendResult) = .ok process)
    (hop : (server.operations ptr)[i]? = some op) (hcall : op.handlerCall = some call) :
    call.Permits sendResult := by
  by_contra hnot
  simp only [step, hop, hcall, if_pos hnot] at h
  split at h <;> cases h

/-- The call of a live connection's handler. -/
theorem objectStep_called {ptr : ConnectionPtr} {server server' : Server} {i : Nat}
    {sendResult : SendResult} {op : Operation} {call : Call}
    (hop : (server.operations ptr)[i]? = some op) (hcall : op.handlerCall = some call)
    (hmember : ptr ∈ server.connections) (hpermits : call.Permits sendResult)
    (hok : (server.setOperations ptr ((server.operations ptr).eraseIdx i)).call ptr call sendResult
      = .ok server') (q : ConnectionPtr) :
    ObjectStep q server server' (.deliver ptr i sendResult) := by
  have htake := Server.objects_take ptr i server
  have hwrite : ∀ connection, ((server.setOperations ptr ((server.operations ptr).eraseIdx
      i)).setObject ptr connection).objects = (server.setObject ptr connection).objects :=
    fun _ => Function.update_idem ..
  rcases Server.call_ok hok with ⟨rfl, rfl⟩ | ⟨dir, read, s, rfl, htransfer, rfl⟩ | ⟨rfl, rfl⟩
  · rw [htake]
    exact objectStep_setObject rfl (hwrite _) (fun _ _ => .of_eq rfl rfl)
      fun hobject => .received hop hcall hmember hobject (.of_eq rfl rfl)
  · rw [htake] at htransfer
    exact objectStep_setObject rfl (hwrite _) (fun _ _ => .of_eq rfl rfl)
      fun hobject => .transferred hop hcall hmember hpermits htransfer hobject (.of_eq rfl rfl)
  · rw [Server.stopTransferFunc, Server.stopConnection, htake]
    refine objectStep_setObject rfl (hwrite _) (fun q hq => ⟨?_, Iff.rfl⟩)
      fun hobject => .removed hop hcall hmember hobject (Finset.notMem_erase ptr _) rfl
    -- erasing one member leaves the others
    exact Finset.mem_erase.trans (and_iff_right hq)

/-- **A step, seen by one connection.** The cases are the outcomes of a step. -/
theorem objectStep_of_step {server server' : Server} {event : Event}
    (h : server.step event = .ok (.running server')) (q : ConnectionPtr) :
    ObjectStep q server server' event := by
  have hstep := transition_of_step h
  generalize hprocess : Process.running server' = process at hstep
  cases hstep with
  | complete hop hresult hcomplete =>
    cases hprocess
    exact objectStep_setObject rfl rfl (fun _ _ => .of_eq rfl rfl)
      fun hobject => .completed hop hresult hcomplete hobject (.of_eq rfl rfl)
  | completeAccept haccept =>
    cases hprocess
    exact .other (Option.some_ne_none q).symm rfl (.of_eq rfl rfl)
  | silent hop hcompleted hcall =>
    cases hprocess
    exact objectStep_setObject rfl rfl (fun _ _ => .of_eq rfl rfl)
      fun hobject => .silent hop hcompleted hcall hobject (.of_eq rfl rfl)
  | dangling hop hcall hgone => cases hprocess
  | called hop hcall hmember =>
    exact objectStep_called hop hcall hmember (Server.permits_of_step h hop hcall)
      (Process.ofHandler_eq_running.mp hprocess) q
  | accepted haccept =>
    rcases Server.acceptHandler_ok (Process.ofHandler_eq_running.mp hprocess) with
      ⟨-, rfl⟩ | ⟨-, rfl⟩ | ⟨-, connection, hstart, rfl⟩
    · exact .other (Option.some_ne_none q).symm rfl (.of_eq rfl rfl)
    · exact .other (Option.some_ne_none q).symm rfl (.of_eq rfl rfl)
    · by_cases hq : q = server.nextPtr
      · subst hq
        refine .started rfl ?_ (Finset.mem_insert_self ..) (Nat.lt_succ_self _)
        rw [Server.doAccept, Server.addConnection, Server.objects_setObject_self]
        exact hstart
      · -- another connection is the new one
        refine .other (Option.some_ne_none q).symm (Server.objects_setObject_of_ne hq ..)
          ⟨Finset.mem_insert.trans (or_iff_right hq), ?_⟩
        show q < server.nextPtr + 1 ↔ q < server.nextPtr
        exact ⟨fun hlt => Nat.lt_of_le_of_ne (Nat.le_of_lt_succ hlt) hq, Nat.lt_succ_of_lt⟩
  | signalled hwait =>
    cases hprocess
    by_cases hq : q ∈ server.connections
    · refine .stopped hq ?_ (Finset.notMem_empty q) rfl
      exact if_pos hq
    · exact .other (Option.some_ne_none q).symm (if_neg hq)
        ⟨iff_of_false (Finset.notMem_empty q) hq, Iff.rfl⟩

/-! ## Connections to come -/

/-- No connection has been constructed yet at the pointers to come. -/
def Unborn (server : Server) : Prop :=
  ∀ ptr, ¬ ptr < server.nextPtr → server.objects ptr = Connection.construct

theorem Unborn.operations {server : Server} (h : Unborn server) {ptr : ConnectionPtr}
    (hptr : ¬ ptr < server.nextPtr) : server.operations ptr = [] := by
  rw [Server.operations, h ptr hptr]
  rfl

theorem Unborn.step {server server' : Server} {event : Event} (hhealthy : Healthy server)
    (h : Unborn server) (hstep : server.step event = .ok (.running server')) : Unborn server' := by
  intro ptr hptr
  -- nothing is delivered to a connection that does not exist
  have hnone : ∀ (i : Nat) (op : Operation), ¬ ptr < server.nextPtr →
      (server.operations ptr)[i]? ≠ some op := by
    intro i op hnot hop
    rw [h.operations hnot] at hop
    cases hop
  cases objectStep_of_step hstep ptr with
  | other htarget hobject hplace =>
    rw [hobject]
    exact h ptr (mt hplace.born.mpr hptr)
  | completed hop hresult hcomplete hobject hplace =>
    exact absurd hop (hnone _ _ (mt hplace.born.mpr hptr))
  | silent hop hcompleted hcall hobject hplace =>
    exact absurd hop (hnone _ _ (mt hplace.born.mpr hptr))
  | received hop hcall hmember hobject hplace =>
    exact absurd hop (hnone _ _ (mt hplace.born.mpr hptr))
  | transferred hop hcall hmember hallowed htransfer hobject hplace =>
    exact absurd hop (hnone _ _ (mt hplace.born.mpr hptr))
  | removed hop hcall hmember hobject hgone hnext =>
    exact absurd (hnext ▸ hhealthy.fresh ptr hmember) hptr
  | stopped hmember hobject hgone hnext =>
    exact absurd (hnext ▸ hhealthy.fresh ptr hmember) hptr
  | started hptr' hstart hmember hborn => exact absurd hborn hptr

/-! ## What a run has done -/

/-- A step that stays in the loop. -/
def Server.stay (server : Server) (event : Event) : Except Disabled Server :=
  match server.step event with
  | .ok (.running server') => .ok server'
  | _ => .error .disabled

theorem Server.stay_ok {server server' : Server} {event : Event} :
    server.stay event = .ok server' ↔ server.step event = .ok (.running server') := by
  unfold stay
  split
  · rename_i hstep
    rw [hstep]
    simp
  · rename_i hstep
    exact iff_of_false (fun h => by cases h) (hstep server')

/-- A run of the program that is still in its loop is a run of such steps. Induction on the events
from the right. -/
theorem run_stay {events : List Event} {server : Server} :
    Fallible.run Server.stay Server.initial events = .ok server ↔
      runEvents events = .ok (.running server) := by
  induction events using List.reverseRecOn generalizing server with
  | nil => simp [runEvents]
  | append_singleton events event ih =>
    rw [Fallible.run_snoc_ok, runEvents, Fallible.run_snoc_ok]
    constructor
    · rintro ⟨middle, hbefore, hstep⟩
      exact ⟨.running middle, ih.mp hbefore, Server.stay_ok.mp hstep⟩
    · rintro ⟨before, hbefore, hstep⟩
      cases before with
      | running middle => exact ⟨middle, ih.mpr hbefore, Server.stay_ok.mpr hstep⟩
      | stopped exception => cases hstep
      | undefinedBehaviour => cases hstep

/-- **The run rule.** What holds of the constructed server, and is kept by every step that stays in
the loop, holds of the events of a run and the server they lead to. -/
theorem runEvents_induction {P : List Event → Server → Prop} (hinitial : P [] Server.initial)
    (hstep : ∀ events event server server', runEvents events = .ok (.running server) →
      P events server → server.step event = .ok (.running server') → P (events ++ [event]) server')
    {events : List Event} {server : Server}
    (h : runEvents events = .ok (.running server)) : P events server :=
  Fallible.run_induction hinitial
    (fun _ _ _ _ hbefore hP hok => hstep _ _ _ _ (run_stay.mp hbefore) hP (Server.stay_ok.mp hok))
    (run_stay.mpr h)

/-- What the events of a run have meant, in order. -/
def history {β : Type} (meaning : Server → Event → List β) (events : List Event) : List β :=
  Fallible.trace Server.stay meaning Server.initial events

theorem history_snoc {β : Type} (meaning : Server → Event → List β) {events : List Event}
    {event : Event} {server server' : Server} (h : runEvents events = .ok (.running server))
    (hstep : server.step event = .ok (.running server')) :
    history meaning (events ++ [event]) = history meaning events ++ meaning server event :=
  Fallible.trace_snoc_of_ok (run_stay.mpr h) (Server.stay_ok.mpr hstep)

theorem unborn_of_runEvents {events : List Event} {server : Server}
    (h : runEvents events = .ok (.running server)) : Unborn server :=
  @runEvents_induction _ (fun _ server => Unborn server) (fun _ _ => rfl)
    (fun _ _ _ _ hbefore hunborn hstep => hunborn.step (healthy_of_runEvents hbefore) hstep) _ _ h

end

end Proxy
