import MySqlProxy.Server.Objects
import MySqlProxy.Lib.SharedLog
import Mathlib.Data.List.Perm.Subperm

/-!
# The outstanding operations of a connection

A connection starts one operation, the connect, and a completed connect starts two, a read for each
direction. From then on a handler starts the next read of its own direction, removes the connection,
or ignores an error of the connect or of a first read. `operations_exact` is the balance this
leaves: the outstanding operations of a member, together with those failed ones, are the one connect
or the two reads. So a buffer never has two reads at once, a connection never reads while it
connects, and only an ignored error makes a member lose a direction.
-/

namespace Proxy

open SharedLog

namespace Operation

/-- The direction a read is for. A connect is for none. -/
def direction? : Operation → Option Bool
  | .connect _ => none
  | .receive dir _ => some dir
  | .transfer dir _ => some dir

@[simp] theorem direction?_abort (op : Operation) : op.abort.direction? = op.direction? := by
  unfold abort
  split <;> rfl

theorem direction?_complete {completion : Completion} {op op' : Operation}
    (h : op.complete completion = some op') : op'.direction? = op.direction? := by
  unfold complete at h
  split at h
  · cases completion with
    | connect result => cases h; rfl
    | read result => cases h
  · cases completion with
    | connect result => cases h
    | read result => cases h; rfl
  · cases completion with
    | connect result => cases h
    | read result => cases h; rfl
  · cases h

/-- Only a completed connect starts the reads. -/
theorem direction?_of_doReceive {op : Operation} (h : op.handlerCall = some .doReceive) :
    op.direction? = none := by
  unfold handlerCall at h
  split at h <;> first | rfl | cases h

/-- A transfer is the handler of a read of its direction. -/
theorem direction?_of_doTransfer {op : Operation} {dir : Bool} {read : Read}
    (h : op.handlerCall = some (.doTransfer dir read)) : op.direction? = some dir := by
  unfold handlerCall at h
  split at h <;> cases h <;> rfl

/-- The connect, or the first read of a direction, with an error. -/
def failed (what : Option Bool) (value : Nat) : Operation :=
  match what with
  | none => .connect (some (.error (.other value)))
  | some dir => .receive dir (some (.error (.other value)))

theorem silent_failed (what : Option Bool) (value : Nat) :
    (failed what value).isCompleted = true ∧ (failed what value).handlerCall = none := by
  cases what <;> exact ⟨rfl, rfl⟩

/-- Has the connect, or the first read of a direction, failed, and not because it was aborted? -/
def hasLapsed : Operation → Bool
  | .connect (some (.error (.other _))) => true
  | .receive _ (some (.error (.other _))) => true
  | _ => false

/-- The handler that does nothing on a connection that is alive. -/
theorem hasLapsed_of_silent {op : Operation} (hcompleted : op.isCompleted = true)
    (hcall : op.handlerCall = none) (hnot : op.error? ≠ some .operationAborted) :
    op.hasLapsed = true := by
  unfold handlerCall at hcall
  split at hcall
  · cases hcall
  · rename_i e
    cases e with
    | operationAborted => exact absurd rfl hnot
    | other value => rfl
  · cases hcall
  · rename_i dir e
    cases e with
    | operationAborted => exact absurd rfl hnot
    | other value => rfl
  · cases hcall
  · exact absurd rfl hnot
  · cases hcall
  · cases hcompleted
  · cases hcompleted
  · cases hcompleted

theorem eq_failed_of_hasLapsed {op : Operation} (h : op.hasLapsed = true) :
    ∃ value, op = failed op.direction? value := by
  unfold hasLapsed at h
  split at h
  · exact ⟨_, rfl⟩
  · exact ⟨_, rfl⟩
  · cases h

theorem hasLapsed_of_handlerCall {op : Operation} {call : Call} (h : op.handlerCall = some call) :
    op.hasLapsed = false := by
  unfold handlerCall at h
  split at h <;> first | rfl | cases h

end Operation

/-- What a connection is waiting for. -/
def directions (operations : List Operation) : List (Option Bool) :=
  operations.map Operation.direction?

theorem directions_append (xs ys : List Operation) :
    directions (xs ++ ys) = directions xs ++ directions ys := List.map_append

theorem directions_set {operations : List Operation} {i : Nat} {op op' : Operation}
    (hop : operations[i]? = some op) (hdir : op'.direction? = op.direction?) :
    directions (operations.set i op') = directions operations := by
  obtain ⟨hi, rfl⟩ := List.getElem?_eq_some_iff.mp hop
  unfold directions
  rw [List.map_set, hdir]
  apply List.ext_getElem?
  intro j
  rw [List.getElem?_set, List.length_map]
  split
  · subst_vars
    simp [hi]
  · rfl

theorem directions_abort (operations : List Operation) :
    directions (operations.map Operation.abort) = directions operations := by
  unfold directions
  rw [List.map_map]
  exact List.map_congr_left fun op _ => Operation.direction?_abort op

/-- A completion that is taken off is one of the directions waited for. -/
theorem directions_eraseIdx {operations : List Operation} {i : Nat} {op : Operation}
    (hop : operations[i]? = some op) :
    (op.direction? :: directions (operations.eraseIdx i)).Perm (directions operations) := by
  obtain ⟨hi, rfl⟩ := List.getElem?_eq_some_iff.mp hop
  exact (List.getElem_cons_eraseIdx_perm hi).map Operation.direction?

/-! ## The balance -/

namespace Server

/-- The connect, or a first read of a direction, that an event delivers as failed. -/
def lapsedAt (server : Server) : Event → List (ConnectionPtr × Option Bool)
  | .deliver ptr i _ =>
    (((server.operations ptr)[i]?.filter Operation.hasLapsed).map
      Operation.direction?).toList.map fun dir => (ptr, dir)
  | _ => []

theorem own_lapsedAt_of_ne {server : Server} {event : Event} {ptr : ConnectionPtr}
    (h : event.target? ≠ some ptr) : own ptr (server.lapsedAt event) = [] := by
  cases event with
  | deliver q i sendResult => exact own_mark_of_ne (fun heq => h (congrArg some heq)) _
  | _ => rfl

theorem own_lapsedAt {server : Server} {ptr : ConnectionPtr} {i : Nat} {sendResult : SendResult}
    {op : Operation} (hop : (server.operations ptr)[i]? = some op) :
    own ptr (server.lapsedAt (.deliver ptr i sendResult))
      = if op.hasLapsed then [op.direction?] else [] := by
  show own ptr ((((server.operations ptr)[i]?.filter Operation.hasLapsed).map
    Operation.direction?).toList.map fun dir => (ptr, dir)) = _
  rw [hop, own_mark_self, Option.filter_some]
  split <;> rfl

/-- A handler that acts is not the handler of such a failure. -/
theorem own_lapsedAt_of_call {server : Server} {ptr : ConnectionPtr} {i : Nat}
    {sendResult : SendResult} {op : Operation} {call : Call}
    (hop : (server.operations ptr)[i]? = some op) (hcall : op.handlerCall = some call) :
    own ptr (server.lapsedAt (.deliver ptr i sendResult)) = [] := by
  rw [own_lapsedAt hop, Operation.hasLapsed_of_handlerCall hcall]
  rfl

end Server

/-- What a connection has started and not given up: its connect, or a read for each direction. -/
inductive Started : List (Option Bool) → Prop where
  | connecting : Started [none]
  | reading : Started [some true, some false]

/-- The balance of one connection. Before it is constructed there is nothing to it, and when it is
no longer a member some of its operations are given up for good. -/
structure Balanced (ptr : ConnectionPtr) (server : Server) (gone : List (Option Bool)) : Prop where
  unborn : ¬ ptr < server.nextPtr → server.operations ptr = [] ∧ gone = []
  bounded : ∃ started, Started started ∧
    (directions (server.operations ptr) ++ gone).Subperm started
  exact : ptr ∈ server.connections → ∃ started, Started started ∧
    (directions (server.operations ptr) ++ gone).Perm started

/-- A connection that is a member is balanced when its operations add up. -/
theorem Balanced.of_perm {ptr : ConnectionPtr} {server : Server} {gone : List (Option Bool)}
    {started : List (Option Bool)} (hborn : ptr < server.nextPtr) (hstarted : Started started)
    (hperm : (directions (server.operations ptr) ++ gone).Perm started) :
    Balanced ptr server gone :=
  ⟨fun h => absurd hborn h, ⟨started, hstarted, hperm.subperm⟩, fun _ => ⟨started, hstarted, hperm⟩⟩

/-- A step that keeps the place and what the operations and the lapsed ones add up to. -/
theorem Balanced.of_same {ptr : ConnectionPtr} {server server' : Server}
    {gone gone' : List (Option Bool)} (h : Balanced ptr server gone)
    (hplace : SamePlace ptr server server')
    (hunborn : server.operations ptr = [] ∧ gone = [] →
      server'.operations ptr = [] ∧ gone' = [])
    (hperm : (directions (server'.operations ptr) ++ gone').Perm
      (directions (server.operations ptr) ++ gone)) : Balanced ptr server' gone' := by
  refine ⟨fun hnot => hunborn (h.unborn (mt hplace.born.mpr hnot)), ?_, fun hmember => ?_⟩
  · obtain ⟨started, hstarted, hbounded⟩ := h.bounded
    exact ⟨started, hstarted, hperm.subperm_right.mpr hbounded⟩
  · obtain ⟨started, hstarted, hexact⟩ := h.exact (hplace.member.mp hmember)
    exact ⟨started, hstarted, hperm.trans hexact⟩

/-- A connection with an operation has been constructed. -/
theorem Balanced.born {ptr : ConnectionPtr} {server : Server} {gone : List (Option Bool)}
    (h : Balanced ptr server gone) {i : Nat} {op : Operation}
    (hop : (server.operations ptr)[i]? = some op) : ptr < server.nextPtr := by
  by_contra hnot
  rw [(h.unborn hnot).1] at hop
  cases hop

/-- A step of a connection with an operation. -/
theorem Balanced.of_moved {ptr : ConnectionPtr} {server server' : Server}
    {gone gone' : List (Option Bool)} (h : Balanced ptr server gone) {i : Nat} {op : Operation}
    (hop : (server.operations ptr)[i]? = some op) (hplace : SamePlace ptr server server')
    (hperm : (directions (server'.operations ptr) ++ gone').Perm
      (directions (server.operations ptr) ++ gone)) : Balanced ptr server' gone' := by
  refine h.of_same hplace (fun hnil => ?_) hperm
  rw [hnil.1] at hop
  cases hop

/-- A connection that is no member needs the bound only. -/
theorem Balanced.of_subperm {ptr : ConnectionPtr} {server : Server} {gone : List (Option Bool)}
    {started : List (Option Bool)} (hborn : ptr < server.nextPtr)
    (hgone : ptr ∉ server.connections) (hstarted : Started started)
    (hsub : (directions (server.operations ptr) ++ gone).Subperm started) :
    Balanced ptr server gone :=
  ⟨fun h => absurd hborn h, ⟨started, hstarted, hsub⟩, fun hmember => absurd hmember hgone⟩

/-- The bound, with the completion that is taken off in front. -/
theorem Balanced.bounded_eraseIdx {ptr : ConnectionPtr} {server : Server}
    {gone : List (Option Bool)} (h : Balanced ptr server gone) {i : Nat} {op : Operation}
    (hop : (server.operations ptr)[i]? = some op) :
    ∃ started, Started started ∧
      (op.direction? :: (directions ((server.operations ptr).eraseIdx i) ++ gone)).Subperm
        started := by
  obtain ⟨started, hstarted, hsub⟩ := h.bounded
  exact ⟨started, hstarted,
    ((directions_eraseIdx hop).append_right gone).subperm_right.mpr hsub⟩

/-- The connect is the only operation while it is outstanding. -/
theorem Balanced.connect_alone {ptr : ConnectionPtr} {server : Server} {gone : List (Option Bool)}
    (h : Balanced ptr server gone) {i : Nat} {op : Operation}
    (hop : (server.operations ptr)[i]? = some op) (hdir : op.direction? = none) :
    directions ((server.operations ptr).eraseIdx i) = [] ∧ gone = [] := by
  obtain ⟨started, hstarted, hcons⟩ := h.bounded_eraseIdx hop
  rw [hdir] at hcons
  cases hstarted with
  | connecting =>
    have hnil := (List.subperm_cons none).mp hcons
    exact List.append_eq_nil_iff.mp (List.subperm_nil.mp hnil)
  | reading =>
    -- neither of the two reads is a connect
    have hmem : none ∈ [some true, some false] := hcons.subset (List.mem_cons_self ..)
    exact absurd hmem (by decide)

section

variable [Host]

/-! ## The balance of a run -/

/-- The connects and first reads that have been delivered as failed. -/
def lapsed (events : List Event) : List (ConnectionPtr × Option Bool) :=
  history Server.lapsedAt events

/-- A handler that does nothing. Of a member it has ignored a failure, of another connection
perhaps an abort. -/
theorem Balanced.silent {ptr : ConnectionPtr} {server server' : Server}
    {gone : List (Option Bool)} (hhealthy : Healthy server) (h : Balanced ptr server gone) {i : Nat}
    {sendResult : SendResult} {op : Operation} (hop : (server.operations ptr)[i]? = some op)
    (hcompleted : op.isCompleted = true) (hcall : op.handlerCall = none)
    (hobject : server'.objects ptr = (server.objects ptr).take i)
    (hplace : SamePlace ptr server server') :
    Balanced ptr server' (gone ++ own ptr (server.lapsedAt (.deliver ptr i sendResult))) := by
  have hops : server'.operations ptr = (server.operations ptr).eraseIdx i := by
    rw [Server.operations, hobject]
    rfl
  by_cases hmember : ptr ∈ server.connections
  · have hnot := (hhealthy.alive ptr hmember).notAborted op (List.mem_of_getElem? hop)
    rw [Server.own_lapsedAt hop, Operation.hasLapsed_of_silent hcompleted hcall hnot, if_pos rfl]
    refine h.of_moved hop hplace ?_
    rw [hops, ← List.append_assoc]
    exact List.perm_append_comm.trans ((directions_eraseIdx hop).append_right gone)
  · -- the operation is gone, and counts at most once more
    obtain ⟨started, hstarted, hfront⟩ := h.bounded_eraseIdx hop
    refine .of_subperm (hplace.born.mpr (h.born hop)) (mt hplace.member.mp hmember) hstarted ?_
    rw [hops, Server.own_lapsedAt hop]
    split
    · rw [← List.append_assoc]
      exact List.perm_append_comm.subperm_right.mpr hfront
    · rw [List.append_nil]
      exact (List.sublist_cons_self ..).subperm.trans hfront

/-- A handler that transfers a read starts the next read of its direction. -/
theorem Balanced.transferred {ptr : ConnectionPtr} {server server' : Server}
    {gone : List (Option Bool)} (h : Balanced ptr server gone) {i : Nat} {sendResult : SendResult}
    {op : Operation} {dir : Bool} {read : Read} {s : Connection × PacketLogger}
    (hop : (server.operations ptr)[i]? = some op)
    (hcall : op.handlerCall = some (.doTransfer dir read))
    (htransfer : Connection.doTransfer dir read.bytes.length sendResult
      (((server.objects ptr).take i).fill dir read, server.packetLogger) = .ok s)
    (hobject : server'.objects ptr = s.1) (hplace : SamePlace ptr server server') :
    Balanced ptr server' gone := by
  obtain ⟨u, k, hlog, -, rfl⟩ := Connection.doTransfer_ok.mp htransfer
  have hops : directions (server'.operations ptr)
      = directions ((server.operations ptr).eraseIdx i) ++ [op.direction?] := by
    rw [Server.operations, hobject, Operation.direction?_of_doTransfer hcall]
    show directions (u.1.operations ++ _) = _
    rw [directions_append, (Connection.doPacketLogging_frame hlog).2.2]
    cases dir <;> rfl
  refine h.of_moved hop hplace ?_
  rw [hops]
  exact (List.perm_append_comm.trans (directions_eraseIdx hop)).append_right gone

theorem balanced_initial (ptr : ConnectionPtr) : Balanced ptr Server.initial [] :=
  ⟨fun _ => ⟨rfl, rfl⟩, ⟨[none], .connecting, List.nil_subperm⟩,
    fun hmember => absurd hmember (Finset.notMem_empty ptr)⟩

/-- **The step lemma.** The cases are what a step can do to the connection. -/
theorem balanced_step {ptr : ConnectionPtr} {server server' : Server} {event : Event}
    {gone : List (Option Bool)} (hhealthy : Healthy server) (h : Balanced ptr server gone)
    (hstep : ObjectStep ptr server server' event) :
    Balanced ptr server' (gone ++ own ptr (server.lapsedAt event)) := by
  cases hstep with
  | other htarget hobject hplace =>
    have hops : server'.operations ptr = server.operations ptr := by
      rw [Server.operations, hobject, Server.operations]
    rw [Server.own_lapsedAt_of_ne htarget, List.append_nil]
    refine h.of_same hplace (fun hnil => ⟨hops.trans hnil.1, hnil.2⟩) ?_
    rw [hops]
  | completed hop hresult hcomplete hobject hplace =>
    rename_i i completion op op'
    have hdirs : directions (server'.operations ptr) = directions (server.operations ptr) := by
      rw [Server.operations, hobject]
      exact directions_set hop (Operation.direction?_complete hcomplete)
    refine h.of_moved hop hplace ?_
    rw [hdirs]
    show (directions (server.operations ptr) ++ (gone ++ [])).Perm _
    rw [List.append_nil]
  | silent hop hcompleted hcall hobject hplace =>
    exact h.silent hhealthy hop hcompleted hcall hobject hplace
  | received hop hcall hmember hobject hplace =>
    rename_i i sendResult op
    obtain ⟨hnil, rfl⟩ := h.connect_alone hop (Operation.direction?_of_doReceive hcall)
    have hops : directions (server'.operations ptr) = [some true, some false] := by
      rw [Server.operations, hobject]
      show directions ((server.operations ptr).eraseIdx i ++ _) = _
      rw [directions_append, hnil]
      rfl
    rw [Server.own_lapsedAt_of_call hop hcall]
    refine .of_perm (hplace.born.mpr (hhealthy.fresh ptr hmember)) .reading ?_
    rw [hops]
    exact List.Perm.refl _
  | transferred hop hcall hmember hallowed htransfer hobject hplace =>
    rw [Server.own_lapsedAt_of_call hop hcall, List.append_nil]
    exact h.transferred hop hcall htransfer hobject hplace
  | removed hop hcall hmember hobject hgone hnext =>
    rename_i i sendResult op
    have hops : directions (server'.operations ptr)
        = directions ((server.operations ptr).eraseIdx i) := by
      rw [Server.operations, hobject]
      exact directions_abort _
    obtain ⟨started, hstarted, hfront⟩ := h.bounded_eraseIdx hop
    rw [Server.own_lapsedAt_of_call hop hcall, List.append_nil]
    refine .of_subperm (hnext ▸ hhealthy.fresh ptr hmember) hgone hstarted ?_
    rw [hops]
    exact (List.sublist_cons_self ..).subperm.trans hfront
  | stopped hmember hobject hgone hnext =>
    have hops : directions (server'.operations ptr) = directions (server.operations ptr) := by
      rw [Server.operations, hobject]
      exact directions_abort _
    obtain ⟨started, hstarted, hsub⟩ := h.bounded
    refine .of_subperm (hnext ▸ hhealthy.fresh ptr hmember) hgone hstarted ?_
    rw [hops]
    show (directions (server.operations ptr) ++ (gone ++ [])).Subperm started
    rw [List.append_nil]
    exact hsub
  | started hptr hstart hmember hborn =>
    rename_i i openResult
    obtain ⟨-, rfl⟩ := h.unborn (by rw [hptr]; exact Nat.lt_irrefl _)
    cases openResult with
    | failed what => cases hstart
    | opened =>
      refine .of_perm hborn .connecting ?_
      rw [Server.operations, ← Except.ok.inj hstart]
      exact List.Perm.refl _

/-- Every connection is balanced after every run. -/
theorem balanced_of_runEvents {events : List Event} {server : Server}
    (h : runEvents events = .ok (.running server)) (ptr : ConnectionPtr) :
    Balanced ptr server (own ptr (lapsed events)) := by
  refine @runEvents_induction _ (fun events server => Balanced ptr server (own ptr (lapsed events)))
    (balanced_initial ptr) ?_ _ _ h
  intro events event server server' hbefore hbalanced hstep
  unfold lapsed
  rw [history_snoc Server.lapsedAt hbefore hstep, own_append]
  exact balanced_step (healthy_of_runEvents hbefore) hbalanced (objectStep_of_step hstep ptr)

theorem nodup_directions {events : List Event} {server : Server}
    (h : runEvents events = .ok (.running server)) (ptr : ConnectionPtr) :
    (directions (server.operations ptr)).Nodup := by
  obtain ⟨started, hstarted, hsub⟩ := (balanced_of_runEvents h ptr).bounded
  have hnodup : started.Nodup := by
    cases hstarted <;> decide
  obtain ⟨part, hperm, hpart⟩ :=
    ((List.sublist_append_left (directions (server.operations ptr)) _).subperm).trans hsub
  exact hperm.nodup_iff.mp (hnodup.sublist hpart)

/-- The event delivers an error of the connection, of its connect or of its first read of a
direction, and its handler ignores it: the operation is gone, and all else is as it was. -/
def IgnoresError (server : Server) (event : Event) (ptr : ConnectionPtr) (what : Option Bool) :
    Prop :=
  ∃ i sendResult value, event = .deliver ptr i sendResult ∧
    (server.operations ptr)[i]? = some (.failed what value) ∧
    server.step event
      = .ok (.running (server.setOperations ptr ((server.operations ptr).eraseIdx i)))

/-- Where a run has ignored it. -/
theorem exists_ignoresError {events : List Event} {server : Server}
    (h : runEvents events = .ok (.running server)) {ptr : ConnectionPtr} {what : Option Bool}
    (hmem : what ∈ own ptr (lapsed events)) :
    ∃ front event back s, events = front ++ event :: back ∧
      runEvents front = .ok (.running s) ∧ IgnoresError s event ptr what := by
  obtain ⟨x, hx, hwhat⟩ := List.mem_filterMap.mp hmem
  obtain ⟨front, event, back, s, heq, hfront, hmeant⟩ :=
    Fallible.exists_of_mem_trace (run_stay.mpr h) hx
  refine ⟨front, event, back, s, heq, run_stay.mp hfront, ?_⟩
  have hown : what ∈ own ptr (s.lapsedAt event) := List.mem_filterMap.mpr ⟨x, hmeant, hwhat⟩
  by_cases htarget : event.target? = some ptr
  · cases event with
    | deliver q i sendResult =>
      obtain rfl : q = ptr := Option.some.inj htarget
      cases hop : (s.operations q)[i]? with
      | none =>
        simp [Server.lapsedAt, hop] at hown
      | some op =>
        rw [Server.own_lapsedAt hop] at hown
        split at hown
        · rename_i hlapsed
          obtain rfl := List.mem_singleton.mp hown
          obtain ⟨value, hkind⟩ := Operation.eq_failed_of_hasLapsed hlapsed
          have hfailed := hop.trans (congrArg some hkind)
          obtain ⟨hcompleted, hcall⟩ := Operation.silent_failed op.direction? value
          exact ⟨i, sendResult, value, rfl, hfailed,
            Server.step_silent hfailed hcompleted hcall⟩
        · cases hown
    | _ => cases hown
  · rw [Server.own_lapsedAt_of_ne htarget] at hown
    cases hown

/-- **What a connection has outstanding.** After every run, whatever the order of the events: what
a connection is waiting for, and the connect or first reads of it that have failed, is at most one
connect or one read for each direction, and exactly that for a member. What a member has started and
does not wait for any more has failed: an event of the run has delivered the error, and its handler
has ignored it. -/
theorem operations_exact (events : List Event) (server : Server)
    (h : runEvents events = .ok (.running server)) (ptr : ConnectionPtr) :
    ∃ started, (started = [none] ∨ started = [some true, some false]) ∧
      (directions (server.operations ptr) ++ own ptr (lapsed events)).Subperm started ∧
      (ptr ∈ server.connections →
        (directions (server.operations ptr) ++ own ptr (lapsed events)).Perm started ∧
        ∀ what ∈ started, what ∉ directions (server.operations ptr) →
          ∃ front event back s, events = front ++ event :: back ∧
            runEvents front = .ok (.running s) ∧ IgnoresError s event ptr what) := by
  have hbalanced := balanced_of_runEvents h ptr
  have hkinds : ∀ started, Started started →
      started = [none] ∨ started = [some true, some false] := by
    intro started hstarted
    cases hstarted with
    | connecting => exact Or.inl rfl
    | reading => exact Or.inr rfl
  by_cases hmember : ptr ∈ server.connections
  · obtain ⟨started, hstarted, hperm⟩ := hbalanced.exact hmember
    refine ⟨started, hkinds started hstarted, hperm.subperm, fun _ => ⟨hperm, ?_⟩⟩
    intro what hwhat hnot
    rcases List.mem_append.mp (hperm.mem_iff.mpr hwhat) with hwaits | hlapsed
    · exact absurd hwaits hnot
    · exact exists_ignoresError h hlapsed
  · obtain ⟨started, hstarted, hsub⟩ := hbalanced.bounded
    exact ⟨started, hkinds started hstarted, hsub, fun h => absurd h hmember⟩

/-- The events that make the first client read of a connection fail. -/
def failFirstRead (ptr : ConnectionPtr) : List Event :=
  acceptAndConnect ptr ++ [.deliver ptr 0 (.written 1), .complete ptr 0 (.read (.error (.other 2))),
    .deliver ptr 0 (.written 1)]

end

open scoped Host.Libstdcxx in
/-- A connection whose first client read has failed goes on with the other direction only. -/
theorem operations_exact_half :
    ∃ server, runEvents (failFirstRead 0) = .ok (.running server) ∧
      directions (server.operations 0) = [some false] ∧
      own 0 (lapsed (failFirstRead 0)) = [some true] ∧
      ∃ front event back s, failFirstRead 0 = front ++ event :: back ∧
        runEvents front = .ok (.running s) ∧ IgnoresError s event 0 (some true) := by
  have hrun : runEvents (failFirstRead 0) = .ok (.running _) := rfl
  refine ⟨_, hrun, rfl, rfl, ?_⟩
  obtain ⟨started, hkind, -, hexact⟩ := operations_exact (failFirstRead 0) _ hrun 0
  obtain ⟨hperm, hlost⟩ := hexact (Finset.mem_insert_self ..)
  rcases hkind with rfl | rfl
  · exact absurd hperm.length_eq (by decide)
  · exact hlost (some true) (by decide) (by decide)

end Proxy
