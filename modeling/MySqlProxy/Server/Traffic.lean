import MySqlProxy.Server.Operations
import MySqlProxy.Connection.Traffic

/-!
# The connections of a server do not disturb each other

What the reactor delivers to a connection is read off its operations and their results: a
successful read, with the answer of the `send` its handler makes, is a transfer (`transfers`). That
its handler hands just this read to `do_transfer` is `Operation.transfer?_eq`. The transfers of a
run, each with the connection it belongs to, are then a run of `SharedLog.turn`s: one connection at
a time takes a transfer with the log that all share (`simulates_carry`). So a connection is what its
own transfers alone make of it, and the log is an interleaving of the logs the connections would
have written alone (`connections_independent`). The bytes of a connection go through its own parser
and to its own sockets (`bytes_stay_inside`), and none of them is lost between the reactor and the
parser (`reads_conserved`).
-/

namespace Proxy

open SharedLog

/-! ## The transfers of a run -/

namespace Operation

/-- The read that a successful operation has completed with, and its direction. -/
def read? : Operation → Option (Bool × Read)
  | .receive dir (some (.ok read)) => some (dir, read)
  | .transfer dir (some (.ok read)) => some (dir, read)
  | _ => none

/-- A successful read, with the answer to the `send` of its bytes. -/
def transfer? (sendResult : SendResult) (op : Operation) : Option Transfer :=
  op.read?.bind fun x =>
    if h : sendResult.Allowed x.2.bytes.length then some ⟨x.1, x.2, sendResult, h⟩ else none

end Operation

/-- The read that a handler hands to `do_transfer`. -/
def Call.read? : Call → Option (Bool × Read)
  | .doTransfer dir read => some (dir, read)
  | _ => none

/-- The transfer a handler performs, with the answer of the `send` it makes. -/
def Call.transfer? (sendResult : SendResult) : Call → Option Transfer
  | .doTransfer dir read =>
    if h : sendResult.Allowed read.bytes.length then some ⟨dir, read, sendResult, h⟩ else none
  | _ => none

namespace Operation

/-- **What the handlers do with a read.** A successful read is handed to `do_transfer`, and nothing
else is. -/
theorem read?_eq (op : Operation) : op.read? = op.handlerCall.bind Call.read? := by
  unfold read? handlerCall
  cases op with
  | connect completion =>
    rcases completion with _ | _ | _ <;> rfl
  | receive dir completion =>
    rcases completion with _ | _ | _ <;> rfl
  | transfer dir completion =>
    rcases completion with _ | (_ | _) | _ <;> rfl

theorem transfer?_eq (sendResult : SendResult) (op : Operation) :
    op.transfer? sendResult = op.handlerCall.bind (Call.transfer? sendResult) := by
  unfold transfer?
  rw [read?_eq, Option.bind_assoc]
  congr 1
  funext call
  cases call <;> rfl

end Operation

namespace Server

/-- The successful read an event delivers, with its connection and the answer of the `send`. -/
def transfersAt (server : Server) : Event → List (ConnectionPtr × Transfer)
  | .deliver ptr i sendResult =>
    ((server.operations ptr)[i]?.bind (Operation.transfer? sendResult)).toList.map fun x => (ptr, x)
  | _ => []

theorem own_transfersAt_of_ne {server : Server} {event : Event} {ptr : ConnectionPtr}
    (h : event.target? ≠ some ptr) : own ptr (server.transfersAt event) = [] := by
  cases event with
  | deliver q i sendResult => exact own_mark_of_ne (fun heq => h (congrArg some heq)) _
  | _ => rfl

theorem transfersAt_deliver {server : Server} {ptr : ConnectionPtr} {i : Nat}
    {sendResult : SendResult} {op : Operation} (hop : (server.operations ptr)[i]? = some op) :
    server.transfersAt (.deliver ptr i sendResult)
      = (op.handlerCall.bind (Call.transfer? sendResult)).toList.map fun x => (ptr, x) := by
  show ((server.operations ptr)[i]?.bind (Operation.transfer? sendResult)).toList.map _ = _
  rw [hop, Option.bind_some, Operation.transfer?_eq]

end Server

section

variable [Host]

/-- The successful reads that a run has delivered to their handlers, in order. -/
def transfers (events : List Event) : List (ConnectionPtr × Transfer) :=
  history Server.transfersAt events

/-! ## The server as connections with a shared log -/

/-- Either no transfer happens, and the log is left alone or flushed, or the event is one transfer.
A connection is only removed where the log is flushed. -/
theorem transfers_cases {server server' : Server} {event : Event}
    (h : server.step event = .ok (.running server')) :
    (server.transfersAt event = [] ∧
        (server'.packetLogger = server.packetLogger.flush ∨
          (server'.packetLogger = server.packetLogger ∧
            server.connections ⊆ server'.connections))) ∨
      ∃ ptr x connection s, server.transfersAt event = [(ptr, x)] ∧
        event.target? = some ptr ∧ ptr ∈ server.connections ∧
        server'.connections = server.connections ∧
        connection.traffic = (server.objects ptr).traffic ∧
        transfer (connection, server.packetLogger) x = .ok s ∧
        server'.objects ptr = s.1 ∧ server'.packetLogger = s.2 := by
  have hstep := transition_of_step h
  generalize hprocess : Process.running server' = process at hstep
  cases hstep with
  | complete hop hresult hcomplete =>
    cases hprocess
    exact Or.inl ⟨rfl, Or.inr ⟨rfl, Finset.Subset.refl _⟩⟩
  | completeAccept haccept =>
    cases hprocess
    exact Or.inl ⟨rfl, Or.inr ⟨rfl, Finset.Subset.refl _⟩⟩
  | silent hop hcompleted hcall =>
    cases hprocess
    refine Or.inl ⟨?_, Or.inr ⟨rfl, Finset.Subset.refl _⟩⟩
    rw [Server.transfersAt_deliver hop, hcall]
    rfl
  | dangling hop hcall hgone => cases hprocess
  | called hop hcall hmember =>
    rename_i ptr i sendResult op call
    have hpermits := Server.permits_of_step h hop hcall
    rcases Server.call_ok (Process.ofHandler_eq_running.mp hprocess) with
      ⟨rfl, rfl⟩ | ⟨dir, read, s, rfl, htransfer, rfl⟩ | ⟨rfl, rfl⟩
    · refine Or.inl ⟨?_, Or.inr ⟨rfl, Finset.Subset.refl _⟩⟩
      rw [Server.transfersAt_deliver hop, hcall]
      rfl
    · have hallowed : sendResult.Allowed read.bytes.length := hpermits
      rw [Server.objects_take] at htransfer
      refine Or.inr ⟨ptr, ⟨dir, read, sendResult, hallowed⟩, (server.objects ptr).take i, s, ?_,
        rfl, hmember, rfl, rfl, htransfer, ?_, rfl⟩
      · rw [Server.transfersAt_deliver hop, hcall, Option.bind_some, Call.transfer?,
          dif_pos hallowed]
        rfl
      · exact Server.objects_setObject_self ..
    · refine Or.inl ⟨?_, Or.inl rfl⟩
      rw [Server.transfersAt_deliver hop, hcall]
      rfl
  | accepted haccept =>
    rcases Server.acceptHandler_ok (Process.ofHandler_eq_running.mp hprocess) with
      ⟨-, rfl⟩ | ⟨-, rfl⟩ | ⟨-, connection, hstart, rfl⟩
    · exact Or.inl ⟨rfl, Or.inr ⟨rfl, Finset.Subset.refl _⟩⟩
    · exact Or.inl ⟨rfl, Or.inr ⟨rfl, Finset.Subset.refl _⟩⟩
    · exact Or.inl ⟨rfl, Or.inr ⟨rfl, Finset.subset_insert ..⟩⟩
  | signalled hwait =>
    cases hprocess
    exact Or.inl ⟨rfl, Or.inl rfl⟩

omit [Host] in
/-- A log that is left alone or flushed has the same records. -/
theorem logFile_of_left_alone {logger logger' : PacketLogger} {p : Prop}
    (h : logger' = logger.flush ∨ (logger' = logger ∧ p)) : logger'.logFile = logger.logFile := by
  rcases h with rfl | ⟨rfl, -⟩
  · exact PacketLogger.logFile_flush _
  · rfl

/-- A step that performs no transfer of a connection leaves its traffic alone. -/
theorem traffic_step {ptr : ConnectionPtr} {server server' : Server} {event : Event}
    (hunborn : Unborn server) (hown : own ptr (server.transfersAt event) = [])
    (hstep : ObjectStep ptr server server' event) :
    (server'.objects ptr).traffic = (server.objects ptr).traffic := by
  cases hstep with
  | other htarget hobject hplace => rw [hobject]
  | completed hop hresult hcomplete hobject hplace =>
    rw [hobject, Connection.traffic_setOperations]
  | silent hop hcompleted hcall hobject hplace =>
    rw [hobject, Connection.take, Connection.traffic_setOperations]
  | received hop hcall hmember hobject hplace =>
    rw [hobject, Connection.traffic_doReceive, Connection.take, Connection.traffic_setOperations]
  | transferred hop hcall hmember hallowed htransfer hobject hplace =>
    rw [Server.transfersAt_deliver hop, hcall, own_mark_self] at hown
    rw [Option.bind_some, Call.transfer?, dif_pos hallowed] at hown
    cases hown
  | removed hop hcall hmember hobject hgone hnext =>
    rw [hobject, Connection.traffic_stop, Connection.take, Connection.traffic_setOperations]
  | stopped hmember hobject hgone hnext =>
    rw [hobject, Connection.traffic_stop]
  | started hptr hstart hmember hborn =>
    rw [hunborn ptr (by rw [hptr]; exact Nat.lt_irrefl _)]
    exact Connection.traffic_start hstart

/-- The server as a family of connections with a log: their traffic is the same. -/
structure Carries (server : Server) (p : (ConnectionPtr → Connection) × List LogRecord) :
    Prop where
  healthy : Healthy server
  unborn : Unborn server
  traffic : ∀ ptr, (p.1 ptr).traffic = (server.objects ptr).traffic
  log : server.packetLogger.logFile = p.2

/-- The family before the first transfer. -/
def carryStart : (ConnectionPtr → Connection) × List LogRecord := (fun _ => transferStart.1, [])

/-- **Forward simulation.** A step that performs a transfer is a turn of its connection. -/
theorem simulates_carry :
    Fallible.Simulates Server.stay (turn carry) Server.transfersAt Carries := by
  intro server event server' p h hok
  have hstep := Server.stay_ok.mp hok
  have hhealthy := healthy_step h.healthy (transition_of_step hstep)
  have hunborn := h.unborn.step h.healthy hstep
  rcases transfers_cases hstep with ⟨hnil, hlog⟩ | ⟨ptr, x, connection, s, hone, -, -, -,
    htraffic, htransfer, hobject, hlog⟩
  · rw [hnil]
    refine ⟨p, rfl, hhealthy, hunborn, fun ptr => ?_, (logFile_of_left_alone hlog).trans h.log⟩
    rw [h.traffic ptr, traffic_step h.unborn (by rw [hnil]; rfl) (objectStep_of_step hstep ptr)]
  · -- the same transfer of the connection in the family, with a log of its own
    rw [transfer_append] at htransfer
    obtain ⟨u, hu, rfl⟩ := Fallible.map_ok_iff.mp htransfer
    obtain ⟨t, ht, htt, htlog⟩ := transfer_congr (htraffic.trans (h.traffic ptr).symm) hu
    rw [hone]
    refine ⟨(Function.update p.1 ptr t.1, p.2 ++ t.2.logFile), ?_, hhealthy, hunborn, fun q => ?_,
      ?_⟩
    · rw [Fallible.run_singleton]
      unfold turn carry
      rw [transfer_append, ht]
      rfl
    · show (Function.update p.1 ptr t.1 q).traffic = (server'.objects q).traffic
      by_cases hq : q = ptr
      · rw [hq, Function.update_self, htt, hobject]
      · rw [Function.update_of_ne hq, h.traffic q]
        refine (traffic_step h.unborn ?_ (objectStep_of_step hstep q)).symm
        rw [hone]
        exact own_singleton_of_ne (Ne.symm hq) x
    · rw [hlog, PacketLogger.logFile_write, h.log, htlog]

theorem carries_of_runEvents {events : List Event} {server : Server}
    (h : runEvents events = .ok (.running server)) :
    ∃ p, Fallible.run (turn carry) carryStart (transfers events) = .ok p ∧ Carries server p :=
  simulates_carry.run ⟨healthy_initial, fun _ _ => rfl, fun _ => rfl, rfl⟩ (run_stay.mpr h)

/-- **Solo runs.** Each connection runs through its own transfers alone, and the log is an
interleaving of what it then writes. -/
theorem solo_runs {events : List Event} {server : Server}
    (h : runEvents events = .ok (.running server)) :
    ∃ marked : List (ConnectionPtr × LogRecord),
      server.packetLogger.logFile = marked.map Prod.snd ∧
      ∀ ptr, ∃ connection, Fallible.run transfer transferStart (own ptr (transfers events))
          = .ok (connection, { pending := own ptr marked }) ∧
        connection.traffic = (server.objects ptr).traffic := by
  obtain ⟨p, hrun, hcarries⟩ := carries_of_runEvents h
  obtain ⟨marked, hlog, halone⟩ := run_turn onlyAppends_carry hrun
  refine ⟨marked, ?_, fun ptr => ⟨p.1 ptr, ?_, hcarries.traffic ptr⟩⟩
  · exact hcarries.log.trans hlog
  · exact run_transfer_of_carry (halone ptr)

/-- The server's OK packet and the query `SHOW` of the client, each in one read. -/
def okRead : Read :=
  ⟨[7, 0, 0, 2, 0, 0, 0, 2, 0, 0, 0], List.cons_ne_nil _ _, Nat.le_of_ble_eq_true rfl⟩

def showRead : Read :=
  ⟨[5, 0, 0, 0, 0x03, 0x53, 0x48, 0x4F, 0x57], List.cons_ne_nil _ _, Nat.le_of_ble_eq_true rfl⟩

/-- A client that is accepted and connected, with both reads started. -/
def connectClient (ptr : ConnectionPtr) : List Event :=
  acceptAndConnect ptr ++ [.deliver ptr 0 (.written 1)]

/-- The next read of a connection, completed and handled. -/
def readOf (ptr : ConnectionPtr) (i : Nat) (read : Read) : List Event :=
  [.complete ptr i (.read (.ok read)), .deliver ptr i (.written read.bytes.length)]

/-- Two clients send a query, the steps of the one between the steps of the other; the last read
of the second is still waiting. -/
def twoClients : List Event :=
  connectClient 0 ++ connectClient 1 ++ readOf 0 1 okRead ++ readOf 1 1 okRead
    ++ readOf 0 0 showRead ++ readOf 1 0 showRead ++ [.complete 1 1 (.read (.ok showRead))]

/-- **The connections do not disturb each other.** After every run, whatever the order of the
events, the parsers of a connection are what its own reads make of fresh ones, and the log is an
interleaving of the records that each connection would have logged alone. -/
theorem connections_independent (events : List Event) (server : Server)
    (h : runEvents events = .ok (.running server)) :
    ∃ marked : List (ConnectionPtr × LogRecord),
      server.packetLogger.logFile = marked.map Prod.snd ∧
      ∀ ptr, Fallible.run logRead logStart ((own ptr (transfers events)).map Transfer.logged)
        = .ok ((server.objects ptr).parsers, { pending := own ptr marked }) := by
  obtain ⟨marked, hlog, halone⟩ := solo_runs h
  refine ⟨marked, hlog, fun ptr => ?_⟩
  obtain ⟨connection, hrun, htraffic⟩ := halone ptr
  rw [← Connection.eq_of_traffic Connection.parsers (fun _ => rfl) htraffic]
  exact run_logRead_of_transfer hrun

end

open scoped Host.Libstdcxx in
/-- Two queries of two clients. -/
theorem connections_independent_two :
    ∃ server, runEvents twoClients = .ok (.running server) ∧
      ∃ marked : List (ConnectionPtr × LogRecord),
        server.packetLogger.logFile = marked.map Prod.snd ∧
        ∀ ptr, Fallible.run logRead logStart ((own ptr (transfers twoClients)).map Transfer.logged)
          = .ok ((server.objects ptr).parsers, { pending := own ptr marked }) :=
  ⟨_, rfl, connections_independent twoClients _ rfl⟩

section

variable [Host]

/-! ## Bytes -/

/-- The parser of a connection has been fed with what its client reads have delivered. -/
theorem clientStream_of_runEvents {events : List Event} {server : Server}
    (h : runEvents events = .ok (.running server)) (ptr : ConnectionPtr) :
    (server.objects ptr).clientStream.map Prod.fst
      = delivered true (own ptr (transfers events)) := by
  obtain ⟨marked, -, halone⟩ := solo_runs h
  obtain ⟨connection, hrun, htraffic⟩ := halone ptr
  rw [← Connection.eq_of_traffic Connection.clientStream (fun _ => rfl) htraffic]
  exact clientStream_run hrun

/-- Each socket of a connection has been written the accepted parts of the reads of the other. -/
theorem sent_of_runEvents {events : List Event} {server : Server}
    (h : runEvents events = .ok (.running server)) (ptr : ConnectionPtr) (dir : Bool) :
    ((server.objects ptr).sendTo dir).sent = written dir (own ptr (transfers events)) := by
  obtain ⟨marked, -, halone⟩ := solo_runs h
  obtain ⟨connection, hrun, htraffic⟩ := halone ptr
  have hsame := Connection.eq_of_traffic (fun c => (c.sendTo dir).sent)
    (fun c => by cases dir <;> rfl) htraffic
  have hsent := sent_run hrun dir
  rw [← hsame, hsent]
  cases dir <;> rfl

/-- **The bytes of a connection stay inside.** After every run, whatever the order of the events:
the parser of a connection has been fed with all bytes that its own client reads have delivered,
each of its sockets has been written the accepted parts of its own reads of the other side, and so
no byte goes to the MySQL server that has not gone through the parser of the same connection. -/
theorem bytes_stay_inside (events : List Event) (server : Server)
    (h : runEvents events = .ok (.running server)) (ptr : ConnectionPtr) :
    (server.objects ptr).clientStream.map Prod.fst = delivered true (own ptr (transfers events)) ∧
    (∀ dir, ((server.objects ptr).sendTo dir).sent = written dir (own ptr (transfers events))) ∧
    (server.objects ptr).serverSocket.sent.Sublist
      ((server.objects ptr).clientStream.map Prod.fst) ∧
    (server.objects ptr).clientSocket.sent.Sublist
      (delivered false (own ptr (transfers events))) := by
  refine ⟨clientStream_of_runEvents h ptr, sent_of_runEvents h ptr, ?_, ?_⟩
  · show ((server.objects ptr).sendTo true).sent.Sublist _
    rw [sent_of_runEvents h ptr, clientStream_of_runEvents h ptr]
    exact written_sublist_delivered true _
  · show ((server.objects ptr).sendTo false).sent.Sublist _
    rw [sent_of_runEvents h ptr]
    exact written_sublist_delivered false _

end

open scoped Host.Libstdcxx in
/-- The second client's query has gone through its parser to its MySQL server. -/
theorem bytes_stay_inside_two :
    ∃ server, runEvents twoClients = .ok (.running server) ∧
      (server.objects 1).serverSocket.sent = showRead.bytes ∧
      (server.objects 1).clientStream.map Prod.fst
        = delivered true (own 1 (transfers twoClients)) :=
  ⟨_, rfl, rfl, (bytes_stay_inside twoClients _ rfl 1).1⟩

/-! ## Reads on their way -/

namespace Operation

theorem direction?_of_read? {op : Operation} {x : Bool × Read} (h : op.read? = some x) :
    op.direction? = some x.1 := by
  unfold read? at h
  split at h
  · cases h
    rfl
  · cases h
    rfl
  · cases h

/-- Closing a socket loses no read that has been completed. -/
@[simp] theorem read?_abort (op : Operation) : op.abort.read? = op.read? := by
  unfold abort
  split <;> rfl

theorem read?_of_pending {op : Operation} (h : op.isCompleted = false) : op.read? = none := by
  cases op with
  | connect completion | receive dir completion | transfer dir completion =>
    cases completion with
    | none => rfl
    | some result => cases h

end Operation

/-- The reads that wait for their handlers. -/
def queued (operations : List Operation) : List (Bool × Read) :=
  operations.filterMap Operation.read?

theorem queued_abort (operations : List Operation) :
    queued (operations.map Operation.abort) = queued operations := by
  unfold queued
  rw [List.filterMap_map]
  exact List.filterMap_congr fun op _ => Operation.read?_abort op

/-- A list at the place of one of its elements. -/
theorem split_of_getElem? {α : Type} {xs : List α} {i : Nat} {x : α} (h : xs[i]? = some x) :
    ∃ front back, xs = front ++ x :: back ∧ xs.eraseIdx i = front ++ back ∧
      ∀ y, xs.set i y = front ++ y :: back := by
  obtain ⟨hi, rfl⟩ := List.getElem?_eq_some_iff.mp h
  refine ⟨xs.take i, xs.drop (i + 1), ?_, List.eraseIdx_eq_take_drop_succ .., fun y => ?_⟩
  · rw [← List.drop_eq_getElem_cons hi, List.take_append_drop]
  · rw [List.set_eq_take_append_cons_drop, if_pos hi]

theorem own_queued_eq_nil {dir : Bool} {operations : List Operation}
    (h : some dir ∉ directions operations) : own dir (queued operations) = [] := by
  unfold own queued
  rw [List.filterMap_filterMap, List.filterMap_eq_nil_iff]
  intro op hop
  cases hread : op.read? with
  | none => rfl
  | some x =>
    -- a read of this direction would be waited for
    have hne : x.1 ≠ dir := by
      rintro rfl
      exact h (List.mem_map.mpr ⟨op, hop, Operation.direction?_of_read? hread⟩)
    show (if x.1 = dir then some x.2 else none) = none
    exact if_neg hne

theorem own_read?_eq_nil {dir : Bool} {op : Operation} (h : op.direction? ≠ some dir) :
    own dir op.read?.toList = [] := by
  cases hread : op.read? with
  | none => rfl
  | some x =>
    refine own_singleton_of_ne (fun heq => h ?_) x.2
    rw [Operation.direction?_of_read? hread, heq]

theorem queued_at (front back : List Operation) (op : Operation) (dir : Bool) :
    own dir (queued (front ++ op :: back))
      = own dir (queued front) ++ (own dir op.read?.toList ++ own dir (queued back)) := by
  have hcons : queued (op :: back) = op.read?.toList ++ queued back := by
    unfold queued
    rw [List.filterMap_cons]
    cases op.read? <;> rfl
  rw [show queued (front ++ op :: back) = queued front ++ queued (op :: back) from
    List.filterMap_append, hcons, own_append, own_append]

theorem queued_append (xs ys : List Operation) (dir : Bool) :
    own dir (queued (xs ++ ys)) = own dir (queued xs) ++ own dir (queued ys) := by
  rw [← own_append]
  exact congrArg _ List.filterMap_append

/-- While an operation of a direction is outstanding, no other one waits with a read of it. -/
theorem own_queued_of_nodup {dir : Bool} {front back : List Operation} {op : Operation}
    (hnodup : (directions (front ++ op :: back)).Nodup) (hdir : op.direction? = some dir) :
    own dir (queued front) = [] ∧ own dir (queued back) = [] := by
  have hmiddle : (some dir :: (directions front ++ directions back)).Nodup := by
    rw [← hdir]
    refine (List.Perm.nodup_iff ?_).mp hnodup
    rw [directions_append]
    exact List.perm_middle
  have hnot := (List.nodup_cons.mp hmiddle).1
  exact ⟨own_queued_eq_nil fun h => hnot (List.mem_append_left _ h),
    own_queued_eq_nil fun h => hnot (List.mem_append_right _ h)⟩

/-- A read that is taken off is the first of its direction. -/
theorem queued_eraseIdx {operations : List Operation} {i : Nat} {op : Operation}
    (hnodup : (directions operations).Nodup) (hop : operations[i]? = some op) (dir : Bool) :
    own dir (queued operations)
      = own dir op.read?.toList ++ own dir (queued (operations.eraseIdx i)) := by
  obtain ⟨front, back, rfl, herase, -⟩ := split_of_getElem? hop
  rw [herase, queued_at, queued_append]
  by_cases hdir : op.direction? = some dir
  · obtain ⟨hfront, hback⟩ := own_queued_of_nodup hnodup hdir
    rw [hfront, hback]
    rfl
  · rw [own_read?_eq_nil hdir]
    rfl

/-- A read that is completed is the last of its direction. -/
theorem queued_set {operations : List Operation} {i : Nat} {op op' : Operation}
    (hnodup : (directions operations).Nodup) (hop : operations[i]? = some op)
    (hpending : op.isCompleted = false) (hsame : op'.direction? = op.direction?) (dir : Bool) :
    own dir (queued operations) ++ own dir op'.read?.toList
      = own dir (queued (operations.set i op')) := by
  obtain ⟨front, back, rfl, -, hset⟩ := split_of_getElem? hop
  rw [hset, queued_at, queued_at, Operation.read?_of_pending hpending]
  by_cases hdir : op.direction? = some dir
  · obtain ⟨hfront, hback⟩ := own_queued_of_nodup hnodup hdir
    rw [hfront, hback]
    simp
  · rw [own_read?_eq_nil (hsame ▸ hdir)]
    simp

/-- Reads that have just been started do not wait for their handlers. -/
theorem queued_append_pending {xs ys : List Operation} (h : ∀ op ∈ ys, op.isCompleted = false)
    (dir : Bool) : own dir (queued (xs ++ ys)) = own dir (queued xs) := by
  have hys : queued ys = [] :=
    List.filterMap_eq_nil_iff.mpr fun op hop => Operation.read?_of_pending (h op hop)
  rw [queued_append, hys]
  exact List.append_nil _

theorem length_queued_le {operations : List Operation} (hnodup : (directions operations).Nodup)
    (dir : Bool) : (own dir (queued operations)).length ≤ 1 := by
  by_cases hmem : some dir ∈ directions operations
  · obtain ⟨op, hop, hdir⟩ := List.mem_map.mp hmem
    obtain ⟨front, back, rfl⟩ := List.append_of_mem hop
    obtain ⟨hfront, hback⟩ := own_queued_of_nodup hnodup hdir
    rw [queued_at, hfront, hback, List.nil_append, List.append_nil]
    refine (List.length_filterMap_le ..).trans ?_
    exact Option.length_toList_le
  · rw [own_queued_eq_nil hmem]
    exact Nat.zero_le 1

/-! ### The reads of the reactor -/

namespace Server

/-- The read an event of the reactor completes, with its connection. -/
def readsAt (server : Server) : Event → List (ConnectionPtr × Bool × Read)
  | .complete ptr i completion =>
    (((server.operations ptr)[i]?.bind (Operation.complete completion)).bind
      Operation.read?).toList.map fun x => (ptr, x)
  | _ => []

theorem own_readsAt_of_ne {server : Server} {event : Event} {ptr : ConnectionPtr}
    (h : event.target? ≠ some ptr) : own ptr (server.readsAt event) = [] := by
  cases event with
  | complete q i completion => exact own_mark_of_ne (fun heq => h (congrArg some heq)) _
  | _ => rfl

end Server

/-- The read of a transfer, with its direction. -/
def Transfer.directed (x : Transfer) : Bool × Read := (x.fromClientToServer, x.read)

/-- The bytes that the reads of one direction have delivered. -/
theorem flatMap_own_directed (dir : Bool) (xs : List Transfer) :
    (own dir (xs.map Transfer.directed)).flatMap Read.bytes = delivered dir xs := by
  unfold own delivered
  induction xs with
  | nil => rfl
  | cons x xs ih =>
    rw [List.filterMap_map] at ih ⊢
    by_cases hdir : x.fromClientToServer = dir <;> simp [Transfer.directed, hdir, ih]

/-- The read that is delivered is the one taken off. -/
theorem transfersAt_directed {server : Server} {ptr : ConnectionPtr} {i : Nat}
    {sendResult : SendResult} {op : Operation} (hop : (server.operations ptr)[i]? = some op)
    (hpermits : ∀ call, op.handlerCall = some call → call.Permits sendResult) :
    (own ptr (server.transfersAt (.deliver ptr i sendResult))).map Transfer.directed
      = op.read?.toList := by
  rw [Server.transfersAt_deliver hop, own_mark_self, Operation.read?_eq]
  cases hcall : op.handlerCall with
  | none => rfl
  | some call =>
    cases call with
    | doReceive => rfl
    | doTransfer dir read =>
      have hallowed : sendResult.Allowed read.bytes.length := hpermits _ hcall
      rw [Option.bind_some, Option.bind_some, Call.transfer?, dif_pos hallowed]
      rfl
    | stopTransfer => rfl

section

variable [Host]

/-- The reads that the reactor has completed, in order. -/
def completedReads (events : List Event) : List (ConnectionPtr × Bool × Read) :=
  history Server.readsAt events

/-- Every read of one direction that the reactor has completed has been delivered or waits. -/
def Conserved (ptr : ConnectionPtr) (dir : Bool) (events : List Event) (server : Server) : Prop :=
  own dir (own ptr (completedReads events))
    = own dir ((own ptr (transfers events)).map Transfer.directed)
      ++ own dir (queued (server.operations ptr))

/-- What the step adds on the one side it adds on the other. -/
theorem Conserved.snoc {ptr : ConnectionPtr} {dir : Bool} {events : List Event} {event : Event}
    {server server' : Server} (h : Conserved ptr dir events server)
    (hrun : runEvents events = .ok (.running server))
    (hstep : server.step event = .ok (.running server'))
    (hparts : own dir (queued (server.operations ptr)) ++ own dir (own ptr (server.readsAt event))
      = own dir ((own ptr (server.transfersAt event)).map Transfer.directed)
        ++ own dir (queued (server'.operations ptr))) :
    Conserved ptr dir (events ++ [event]) server' := by
  unfold Conserved completedReads transfers
  rw [history_snoc Server.readsAt hrun hstep, history_snoc Server.transfersAt hrun hstep,
    own_append, own_append, own_append, List.map_append, own_append, List.append_assoc, ← hparts,
    ← List.append_assoc]
  exact congrArg (· ++ _) h

/-- A completion that is handed to its handler. -/
theorem Conserved.deliver {ptr : ConnectionPtr} {dir : Bool} {events : List Event}
    {server server' : Server} (h : Conserved ptr dir events server)
    (hrun : runEvents events = .ok (.running server)) {i : Nat} {sendResult : SendResult}
    {op : Operation} (hop : (server.operations ptr)[i]? = some op)
    (hstep : server.step (.deliver ptr i sendResult) = .ok (.running server'))
    (hqueued : own dir (queued (server'.operations ptr))
      = own dir (queued ((server.operations ptr).eraseIdx i))) :
    Conserved ptr dir (events ++ [.deliver ptr i sendResult]) server' := by
  refine h.snoc hrun hstep ?_
  rw [transfersAt_directed hop fun call => Server.permits_of_step hstep hop, hqueued]
  show _ ++ [] = _
  rw [List.append_nil]
  exact queued_eraseIdx (nodup_directions hrun ptr) hop dir

/-- **The step lemma.** The cases are what a step can do to the connection. -/
theorem conserved_step {ptr : ConnectionPtr} {dir : Bool} {events : List Event} {event : Event}
    {server server' : Server} (h : Conserved ptr dir events server)
    (hrun : runEvents events = .ok (.running server))
    (hstep : server.step event = .ok (.running server')) :
    Conserved ptr dir (events ++ [event]) server' := by
  cases objectStep_of_step hstep ptr with
  | other htarget hobject hplace =>
    refine h.snoc hrun hstep ?_
    rw [Server.own_readsAt_of_ne htarget, Server.own_transfersAt_of_ne htarget, Server.operations,
      Server.operations, hobject]
    exact List.append_nil _
  | completed hop hresult hcomplete hobject hplace =>
    rename_i i completion op op'
    refine h.snoc hrun hstep ?_
    have hread : own ptr (server.readsAt (.complete ptr i completion)) = op'.read?.toList := by
      show own ptr ((((server.operations ptr)[i]?.bind (Operation.complete completion)).bind
        Operation.read?).toList.map fun x => (ptr, x)) = _
      rw [hop, Option.bind_some, hcomplete, own_mark_self]
      rfl
    rw [hread, show server'.operations ptr = (server.operations ptr).set i op' from by
      rw [Server.operations, hobject]]
    exact queued_set (nodup_directions hrun ptr) hop (Operation.complete_spec hcomplete).1
      (Operation.direction?_complete hcomplete) dir
  | silent hop hcompleted hcall hobject hplace =>
    refine h.deliver hrun hop hstep ?_
    rw [Server.operations, hobject]
    rfl
  | received hop hcall hmember hobject hplace =>
    refine h.deliver hrun hop hstep ?_
    rw [Server.operations, hobject]
    refine queued_append_pending (fun op hop => ?_) dir
    rcases List.mem_pair.mp hop with rfl | rfl <;> rfl
  | transferred hop hcall hmember hallowed htransfer hobject hplace =>
    refine h.deliver hrun hop hstep ?_
    obtain ⟨u, k, hlog, -, rfl⟩ := Connection.doTransfer_ok.mp htransfer
    rw [Server.operations, hobject]
    rename_i i sendResult op dir' read
    have hops : u.1.operations = (server.operations ptr).eraseIdx i := by
      rw [(Connection.doPacketLogging_frame hlog).2.2]
      cases dir' <;> rfl
    show own dir (queued (u.1.operations ++ _)) = _
    rw [hops]
    refine queued_append_pending (fun op hop => ?_) dir
    rw [List.mem_singleton.mp hop]
    rfl
  | removed hop hcall hmember hobject hgone hnext =>
    refine h.deliver hrun hop hstep ?_
    rw [Server.operations, hobject]
    exact congrArg _ (queued_abort _)
  | stopped hmember hobject hgone hnext =>
    refine h.snoc hrun hstep ?_
    rw [Server.operations, Server.operations, hobject]
    show own dir (queued _) ++ [] = [] ++ own dir (queued (List.map _ _))
    rw [queued_abort, List.append_nil]
    rfl
  | started hptr hstart hmember hborn =>
    rename_i i openResult
    refine h.snoc hrun hstep ?_
    rw [(unborn_of_runEvents hrun).operations (by rw [hptr]; exact Nat.lt_irrefl _)]
    cases openResult with
    | failed what => cases hstart
    | opened =>
      rw [Server.operations, ← Except.ok.inj hstart]
      rfl

/-! ### The reads of the handlers -/

/-- The read that the handler of an event hands to `do_transfer`, with its connection. -/
def Server.passedOnAt (server : Server) : Event → List (ConnectionPtr × Bool × Read)
  | .deliver ptr i _ =>
    (((server.operations ptr)[i]?.bind Operation.handlerCall).bind Call.read?).toList.map
      fun x => (ptr, x)
  | _ => []

/-- The reads that the handlers have handed to `do_transfer`, in order. -/
def passedOn (events : List Event) : List (ConnectionPtr × Bool × Read) :=
  history Server.passedOnAt events

/-- **The handlers pass on what is delivered to them.** -/
theorem passedOn_eq {events : List Event} {server : Server}
    (h : runEvents events = .ok (.running server)) (ptr : ConnectionPtr) :
    own ptr (passedOn events) = (own ptr (transfers events)).map Transfer.directed := by
  refine @runEvents_induction _ (fun events _ => own ptr (passedOn events)
    = (own ptr (transfers events)).map Transfer.directed) rfl ?_ _ _ h
  intro events event server server' hrun hsame hstep
  unfold passedOn transfers
  rw [history_snoc Server.passedOnAt hrun hstep, history_snoc Server.transfersAt hrun hstep,
    own_append, own_append, List.map_append]
  refine congrArg₂ (· ++ ·) hsame ?_
  cases event with
  | deliver q i sendResult =>
    by_cases hq : q = ptr
    · subst hq
      cases hop : (server.operations q)[i]? with
      | none => simp [Server.passedOnAt, Server.transfersAt, hop]
      | some op =>
        rw [transfersAt_directed hop fun call => Server.permits_of_step hstep hop,
          Operation.read?_eq]
        simp only [Server.passedOnAt]
        rw [hop, Option.bind_some, own_mark_self]
    · have htarget : (Event.deliver q i sendResult).target? ≠ some ptr :=
        fun heq => hq (Option.some.inj heq)
      rw [Server.own_transfersAt_of_ne htarget]
      exact own_mark_of_ne hq _
  | _ => rfl

/-- **No read is lost, repeated or moved.** After every run, whatever the order of the events: the
reads of one direction that the reactor has completed for a connection are, in this order, those
its handlers have passed on and at most one that still waits for its handler. The bytes of the
client reads are those the parser has been fed and those that wait. -/
theorem reads_conserved (events : List Event) (server : Server)
    (h : runEvents events = .ok (.running server)) (ptr : ConnectionPtr) :
    (∀ dir, own dir (own ptr (completedReads events))
        = own dir (own ptr (passedOn events)) ++ own dir (queued (server.operations ptr)) ∧
      (own dir (queued (server.operations ptr))).length ≤ 1) ∧
    (own true (own ptr (completedReads events))).flatMap Read.bytes
      = (server.objects ptr).clientStream.map Prod.fst
        ++ (own true (queued (server.operations ptr))).flatMap Read.bytes := by
  have hconserved : ∀ dir, Conserved ptr dir events server := fun dir =>
    @runEvents_induction _ (Conserved ptr dir) rfl
      (fun _ _ _ _ hrun hconserved hstep => conserved_step hconserved hrun hstep) _ _ h
  refine ⟨fun dir => ⟨?_, length_queued_le (nodup_directions h ptr) dir⟩, ?_⟩
  · rw [passedOn_eq h ptr]
    exact hconserved dir
  · rw [hconserved true, List.flatMap_append, clientStream_of_runEvents h ptr,
      flatMap_own_directed]

end

open scoped Host.Libstdcxx in
/-- The second client has sent two queries, and the second of them waits. -/
theorem reads_conserved_two :
    ∃ server, runEvents twoClients = .ok (.running server) ∧
      own true (queued (server.operations 1)) = [showRead] ∧
      own true (own 1 (completedReads twoClients))
        = own true (own 1 (passedOn twoClients)) ++ [showRead] := by
  have hrun : runEvents twoClients = .ok (.running _) := rfl
  exact ⟨_, hrun, rfl, ((reads_conserved twoClients _ hrun 1).1 true).1⟩

end Proxy
