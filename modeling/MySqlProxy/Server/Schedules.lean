import MySqlProxy.Server.Journal
import MySqlProxy.Lib.Reordering

/-!
# The schedule between connections does not matter

An event that is addressed to a connection is a function of this connection alone (`react`), so
events of different connections commute, up to the order of their records in the log
(`commutes_stayMarked`). Every reordering of a run that keeps what each connection sees, its own
events and those of the server, is then a run to the same server, and its journal is another
interleaving of the same logs of the single connections (`schedules_agree`).
-/

namespace Proxy

open SharedLog Reordering

/-! ## Outcomes -/

/-- What an event makes of its connection: what it is afterwards, whether the stop functor has
removed it, and what has been written to the log. -/
structure Outcome where
  connection : Connection
  removed : Bool
  records : List LogRecord

/-- The outcome, written back. -/
def Server.put (ptr : ConnectionPtr) (outcome : Outcome) (server : Server) : Server :=
  { server.setObject ptr outcome.connection with
    connections :=
      if outcome.removed then server.connections.erase ptr else server.connections
    packetLogger :=
      if outcome.removed then (server.packetLogger.write outcome.records).flush
      else server.packetLogger.write outcome.records }

theorem Server.put_nil (ptr : ConnectionPtr) (connection : Connection) (server : Server) :
    server.put ptr ⟨connection, false, []⟩ = server.setObject ptr connection := by
  unfold put
  dsimp only
  rw [PacketLogger.write_nil]
  rfl

namespace Server

/-- The server without its log. -/
def unlogged (server : Server) : Server := { server with packetLogger := {} }

theorem objects_put_of_ne {ptr q : ConnectionPtr} (h : q ≠ ptr) (outcome : Outcome)
    (server : Server) : (server.put ptr outcome).objects q = server.objects q :=
  objects_setObject_of_ne h ..

theorem mem_put_of_ne {ptr q : ConnectionPtr} (h : q ≠ ptr) (outcome : Outcome)
    (server : Server) : q ∈ (server.put ptr outcome).connections ↔ q ∈ server.connections := by
  show q ∈ (if outcome.removed then server.connections.erase ptr else server.connections) ↔ _
  split
  · exact Finset.mem_erase.trans (and_iff_right h)
  · exact Iff.rfl

/-- Written back in either order, they are the same but for the log. -/
theorem unlogged_put_comm {ptr q : ConnectionPtr} (h : ptr ≠ q) (outcome outcome' : Outcome)
    (server : Server) :
    ((server.put ptr outcome).put q outcome').unlogged
      = ((server.put q outcome').put ptr outcome).unlogged := by
  unfold unlogged put setObject
  dsimp only
  rw [Function.update_comm h]
  cases outcome.removed <;> cases outcome'.removed <;> simp [Finset.erase_right_comm]

end Server

section

variable [Host]

/-! ## What a connection does with an event -/

namespace Connection

/-- The call of a handler. -/
def reactCall (sendResult : SendResult) (connection : Connection) : Call → Except Disabled Outcome
  | .doReceive => .ok ⟨connection.doReceive, false, []⟩
  | .doTransfer dir read =>
    match doTransfer dir read.bytes.length sendResult (connection.fill dir read, {}) with
    | .ok s => .ok ⟨s.1, false, s.2.logFile⟩
    | .error _ => .error .disabled
  | .stopTransfer => .ok ⟨connection.stop, true, []⟩

/-- An event that is addressed to the connection, a member or not, and stays in the loop. -/
def react (member : Bool) (connection : Connection) : Event → Except Disabled Outcome
  | .complete _ i completion =>
    if completion.error? = some .operationAborted then .error .disabled
    else
      match connection.operations[i]?.bind (Operation.complete completion) with
      | none => .error .disabled
      | some op =>
        .ok ⟨{ connection with operations := connection.operations.set i op }, false, []⟩
  | .deliver _ i sendResult =>
    match connection.operations[i]? with
    | none => .error .disabled
    | some op =>
      if op.isCompleted = false then .error .disabled
      else
        match op.handlerCall with
        | none => .ok ⟨connection.take i, false, []⟩
        | some call =>
          if ¬ call.Permits sendResult then .error .disabled
          else if member = false then .error .disabled
          else (connection.take i).reactCall sendResult call
  | _ => .error .disabled

end Connection

/-- The handler of a live connection. -/
theorem call_ok_iff_react {server : Server} {ptr : ConnectionPtr} {i : Nat}
    {sendResult : SendResult} {call : Call} (hpermits : call.Permits sendResult)
    {server' : Server} :
    (server.setOperations ptr ((server.operations ptr).eraseIdx i)).call ptr call sendResult
        = .ok server' ↔
      ∃ o, ((server.objects ptr).take i).reactCall sendResult call = .ok o ∧
        server' = server.put ptr o := by
  have htake := Server.objects_take ptr i server
  have hwrite : ∀ connection, (server.setOperations ptr ((server.operations ptr).eraseIdx
      i)).setObject ptr connection = server.setObject ptr connection := by
    intro connection
    unfold Server.setOperations Server.setObject
    rw [Function.update_idem]
  cases call with
  | doReceive =>
    simp only [Server.call, Connection.reactCall]
    rw [htake, hwrite]
    simp [Server.put_nil, eq_comm]
  | stopTransfer =>
    have hput : server.put ptr ⟨((server.objects ptr).take i).stop, true, []⟩
        = (server.setOperations ptr ((server.operations ptr).eraseIdx i)).stopTransferFunc ptr := by
      unfold Server.stopTransferFunc Server.stopConnection
      rw [htake, hwrite]
      unfold Server.put
      dsimp only
      rw [PacketLogger.write_nil]
      rfl
    simp [Server.call, Connection.reactCall, hput, eq_comm]
  | doTransfer dir read =>
    have hallowed : sendResult.Allowed read.bytes.length := hpermits
    have hlog := transfer_append ((server.objects ptr).take i) server.packetLogger
      ⟨dir, read, sendResult, hallowed⟩
    unfold transfer at hlog
    simp only [Server.call, Connection.reactCall]
    rw [htake, show (server.setOperations ptr ((server.operations ptr).eraseIdx i)).packetLogger
      = server.packetLogger from rfl, hlog]
    cases Connection.doTransfer dir read.bytes.length sendResult
        (((server.objects ptr).take i).fill dir read, {}) with
    | error e => simp [Except.map, bind, Except.bind]
    | ok u =>
      have hput : server.put ptr ⟨u.1, false, u.2.logFile⟩
          = { server.setObject ptr u.1 with
              packetLogger := server.packetLogger.write u.2.logFile } := rfl
      simp [Except.map, bind, Except.bind, hwrite, hput, eq_comm]

/-- **An event is local.** -/
theorem stay_ok_iff_react {server : Server} {event : Event} {ptr : ConnectionPtr}
    (htarget : event.target? = some ptr) {server' : Server} :
    server.stay event = .ok server' ↔
      ∃ o, (server.objects ptr).react (decide (ptr ∈ server.connections)) event = .ok o ∧
        server' = server.put ptr o := by
  rw [Server.stay_ok]
  cases event with
  | complete q i completion =>
    obtain rfl : q = ptr := Option.some.inj htarget
    simp only [Server.step, Connection.react, Server.operations]
    by_cases haborted : completion.error? = some .operationAborted
    · simp [haborted]
    · rw [if_neg haborted, if_neg haborted]
      cases (server.objects q).operations[i]?.bind (Operation.complete completion) with
      | none => simp
      | some op => simp [Server.put_nil, eq_comm, Server.setOperations]
  | deliver q i sendResult =>
    obtain rfl : q = ptr := Option.some.inj htarget
    simp only [Server.step, Connection.react, Server.operations]
    cases (server.objects q).operations[i]? with
    | none => simp
    | some op =>
      cases hcompleted : op.isCompleted with
      | false => simp [hcompleted]
      | true =>
        cases hcall : op.handlerCall with
        | none =>
          simp [hcompleted, hcall, Server.put_nil, eq_comm, Server.setOperations, Connection.take]
        | some call =>
          by_cases hpermits : call.Permits sendResult
          · by_cases hmember : q ∈ server.connections
            · have hmember' : q ∈ (server.setOperations q ((server.objects q).operations.eraseIdx
                i)).connections := hmember
              simp only [hcompleted, hcall, hpermits, hmember, hmember', not_true_eq_false,
                if_false, Bool.true_eq_false, decide_true, Except.ok.injEq]
              rw [eq_comm, Process.ofHandler_eq_running]
              exact call_ok_iff_react hpermits
            · have hgone : q ∉ (server.setOperations q ((server.objects q).operations.eraseIdx
                i)).connections := hmember
              simp [hcompleted, hcall, hpermits, hmember, hgone]
          · simp [hcompleted, hcall, hpermits]
  | completeAccept i result => cases htarget
  | deliverAccept i openResult => cases htarget
  | deliverSignal => cases htarget

/-! ## What an event does to the server -/

namespace Server

/-- What an event of a connection does does not depend on the rest. -/
theorem stay_put {server server' : Server} {event : Event} {ptr : ConnectionPtr}
    (htarget : event.target? = some ptr) {outcome : Outcome}
    (hobject : server'.objects ptr = server.objects ptr)
    (hmember : ptr ∈ server'.connections ↔ ptr ∈ server.connections)
    (h : (server.objects ptr).react (decide (ptr ∈ server.connections)) event = .ok outcome) :
    server'.stay event = .ok (server'.put ptr outcome) := by
  refine (stay_ok_iff_react htarget).mpr ⟨outcome, ?_, rfl⟩
  rw [hobject, decide_eq_decide.mpr hmember]
  exact h

theorem recordsAt_put {server : Server} {event : Event} {ptr : ConnectionPtr} {outcome : Outcome}
    (htarget : event.target? = some ptr) (h : server.stay event = .ok (server.put ptr outcome)) :
    server.recordsAt event = outcome.records.map fun r => (ptr, r) := by
  have hfile : (server.put ptr outcome).packetLogger.logFile
      = server.packetLogger.logFile ++ outcome.records := by
    show (if outcome.removed then (server.packetLogger.write outcome.records).flush
      else server.packetLogger.write outcome.records).logFile = _
    split
    · rw [PacketLogger.logFile_flush, PacketLogger.logFile_write]
    · exact PacketLogger.logFile_write ..
  rw [recordsAt_eq (stay_ok.mp h) htarget, hfile]
  exact congrArg _ List.drop_left

theorem recordsAt_of_untargeted {event : Event} (htarget : event.target? = none)
    (server : Server) : server.recordsAt event = [] := by
  unfold recordsAt
  rw [htarget]

/-- The accept handler does not look at the log. -/
theorem acceptHandler_withLog (result : Except ErrorCode Unit) (openResult : OpenResult)
    (server : Server) (logger : PacketLogger) :
    acceptHandler result openResult { server with packetLogger := logger }
      = (acceptHandler result openResult server).map
        fun server' => { server' with packetLogger := logger } := by
  unfold acceptHandler
  dsimp only
  split
  · rfl
  · cases result with
    | error e => rfl
    | ok _ => cases openResult <;> rfl

/-- Nor do the other events of the server itself: the stop handler flushes whatever is there. -/
theorem stay_withLog {server server' : Server} {event : Event} (htarget : event.target? = none)
    (h : server.stay event = .ok server') (logger : PacketLogger) :
    ∃ logger', ({ server with packetLogger := logger } : Server).stay event
      = .ok { server' with packetLogger := logger' } := by
  simp only [stay_ok] at h ⊢
  cases event with
  | complete ptr i completion => cases htarget
  | deliver ptr i sendResult => cases htarget
  | completeAccept i result =>
    simp only [step] at h ⊢
    split at h
    · cases h
    · rename_i hresult
      rw [if_neg hresult]
      cases haccept : server.accepts[i]? with
      | none =>
        rw [haccept] at h
        cases h
      | some accept =>
        rw [haccept] at h
        cases accept with
        | none =>
          cases h
          exact ⟨logger, rfl⟩
        | some result' => cases h
  | deliverAccept i openResult =>
    simp only [step] at h ⊢
    cases haccept : server.accepts[i]? with
    | none =>
      rw [haccept] at h
      cases h
    | some accept =>
      rw [haccept] at h
      cases accept with
      | none => cases h
      | some result =>
        have haccepted := Process.ofHandler_eq_running.mp (Except.ok.inj h).symm
        have hlogged := acceptHandler_withLog result openResult
          { server with accepts := server.accepts.eraseIdx i } logger
        rw [haccepted] at hlogged
        exact ⟨logger, congrArg (fun x => Except.ok (Process.ofHandler x)) hlogged⟩
  | deliverSignal =>
    simp only [step] at h ⊢
    split at h
    · rename_i hwait
      rw [if_pos hwait]
      cases h
      exact ⟨logger.flush, rfl⟩
    · cases h

end Server

/-! ## Schedules -/

/-- The connections an event concerns: the one it is addressed to, or all. -/
def Event.touches (ptr : ConnectionPtr) (event : Event) : Bool :=
  match event.target? with
  | some q => decide (q = ptr)
  | none => true

omit [Host] in
theorem Event.exists_touches (event : Event) : ∃ ptr, event.touches ptr = true := by
  unfold touches
  cases event.target? with
  | none => exact ⟨0, rfl⟩
  | some q => exact ⟨q, decide_eq_true rfl⟩

omit [Host] in
/-- Independent events are addressed to different connections. -/
theorem Event.target_of_independent {event event' : Event}
    (h : Independent Event.touches event event') :
    ∃ ptr q, event.target? = some ptr ∧ event'.target? = some q ∧ ptr ≠ q := by
  cases htarget : event.target? with
  | none =>
    -- an event of the server concerns what the other event concerns
    obtain ⟨q, hq⟩ := event'.exists_touches
    have hevent : event.touches q = true := by
      unfold touches
      rw [htarget]
    have hfalse : event'.touches q = false := h q hevent
    rw [hq] at hfalse
    cases hfalse
  | some ptr =>
    have hevent : event.touches ptr = true := by
      unfold touches
      rw [htarget]
      exact decide_eq_true rfl
    have hfalse : event'.touches ptr = false := h ptr hevent
    unfold touches at hfalse
    cases htarget' : event'.target? with
    | none =>
      rw [htarget'] at hfalse
      cases hfalse
    | some q =>
      rw [htarget'] at hfalse
      exact ⟨ptr, q, rfl, rfl, Ne.symm (of_decide_eq_false hfalse)⟩

/-- A step, with the records of the log marked by their connections. -/
def Server.stayMarked (s : Server × List (ConnectionPtr × LogRecord)) (event : Event) :
    Except Disabled (Server × List (ConnectionPtr × LogRecord)) :=
  (s.1.stay event).map fun server' => (server', s.2 ++ s.1.recordsAt event)

/-- The same server, and the same log of every connection. -/
structure SameButOrder (s t : Server × List (ConnectionPtr × LogRecord)) : Prop where
  server : s.1.unlogged = t.1.unlogged
  own : ∀ ptr, own ptr s.2 = own ptr t.2

/-- **Independent events commute.** -/
theorem commutes_stayMarked :
    Commutes Event.touches Server.stayMarked SameButOrder where
  refl s := ⟨rfl, fun _ => rfl⟩
  trans s t u h h' := ⟨h.server.trans h'.server, fun ptr => (h.own ptr).trans (h'.own ptr)⟩
  congr s t event s' h hstep := by
    obtain ⟨server', hstay, rfl⟩ := Fallible.map_ok_iff.mp hstep
    have hobjects : s.1.objects = t.1.objects := by
      show s.1.unlogged.objects = t.1.unlogged.objects
      rw [h.server]
    have hconnections : s.1.connections = t.1.connections := by
      show s.1.unlogged.connections = t.1.unlogged.connections
      rw [h.server]
    cases htarget : event.target? with
    | some ptr =>
      obtain ⟨outcome, hreact, rfl⟩ := (stay_ok_iff_react htarget).mp hstay
      have ht : t.1.stay event = .ok (t.1.put ptr outcome) :=
        Server.stay_put htarget (by rw [hobjects]) (by rw [hconnections]) hreact
      refine ⟨_, Fallible.map_ok_iff.mpr ⟨_, ht, rfl⟩, ?_, fun q => ?_⟩
      · show (s.1.unlogged.put ptr outcome).unlogged = (t.1.unlogged.put ptr outcome).unlogged
        rw [h.server]
      · show own q (s.2 ++ s.1.recordsAt event) = own q (t.2 ++ t.1.recordsAt event)
        rw [Server.recordsAt_put htarget hstay, Server.recordsAt_put htarget ht, own_append,
          own_append, h.own]
    | none =>
      have hsame : t.1 = { s.1 with packetLogger := t.1.packetLogger } := by
        show t.1 = { s.1.unlogged with packetLogger := t.1.packetLogger }
        rw [h.server]
        rfl
      obtain ⟨logger', ht⟩ := Server.stay_withLog htarget hstay t.1.packetLogger
      rw [← hsame] at ht
      refine ⟨_, Fallible.map_ok_iff.mpr ⟨_, ht, rfl⟩, rfl, fun q => ?_⟩
      show own q (s.2 ++ s.1.recordsAt event) = own q (t.2 ++ t.1.recordsAt event)
      rw [Server.recordsAt_of_untargeted htarget, Server.recordsAt_of_untargeted htarget,
        List.append_nil, List.append_nil, h.own]
  swap s event event' u v hindependent hfirst hsecond := by
    obtain ⟨ptr, q, hptr, hq, hne⟩ := Event.target_of_independent hindependent
    obtain ⟨server', hstay, rfl⟩ := Fallible.map_ok_iff.mp hfirst
    obtain ⟨outcome, hreact, rfl⟩ := (stay_ok_iff_react hptr).mp hstay
    obtain ⟨server'', hstay', rfl⟩ := Fallible.map_ok_iff.mp hsecond
    obtain ⟨outcome', hreact', rfl⟩ := (stay_ok_iff_react hq).mp hstay'
    -- the other order
    have hb : s.1.stay event' = .ok (s.1.put q outcome') :=
      Server.stay_put hq (Server.objects_put_of_ne (Ne.symm hne) outcome s.1).symm
        (Server.mem_put_of_ne (Ne.symm hne) outcome s.1).symm hreact'
    have ha : (s.1.put q outcome').stay event = .ok ((s.1.put q outcome').put ptr outcome) :=
      Server.stay_put hptr (Server.objects_put_of_ne hne outcome' s.1)
        (Server.mem_put_of_ne hne outcome' s.1) hreact
    refine ⟨_, _, Fallible.map_ok_iff.mpr ⟨_, hb, rfl⟩, Fallible.map_ok_iff.mpr ⟨_, ha, rfl⟩,
      Server.unlogged_put_comm hne outcome outcome' s.1, fun r => ?_⟩
    show own r ((s.2 ++ s.1.recordsAt event) ++ (s.1.put ptr outcome).recordsAt event')
      = own r ((s.2 ++ s.1.recordsAt event') ++ (s.1.put q outcome').recordsAt event)
    rw [Server.recordsAt_put hptr hstay, Server.recordsAt_put hq hstay',
      Server.recordsAt_put hq hb, Server.recordsAt_put hptr ha]
    simp only [own_append]
    by_cases hr : ptr = r
    · rw [own_mark_of_ne (fun heq => hne (hr.trans heq.symm)), List.append_nil, List.append_nil]
    · rw [own_mark_of_ne hr, List.append_nil, List.append_nil]

/-- A run, marked: the marks are those of the journal. -/
theorem run_stayMarked {events : List Event} {server : Server}
    (h : runEvents events = .ok (.running server)) :
    Fallible.run Server.stayMarked (Server.initial, []) events
      = .ok (server, journal events) := by
  refine @runEvents_induction _ (fun events server =>
    Fallible.run Server.stayMarked (Server.initial, []) events
      = .ok (server, journal events)) rfl
    (fun events event server server' hrun hmarked hstep => ?_) _ _ h
  refine Fallible.run_snoc_ok.mpr ⟨_, hmarked, ?_⟩
  rw [journal_snoc hrun hstep]
  unfold Server.stayMarked
  rw [Server.stay_ok.mpr hstep]
  rfl

theorem runEvents_of_stayMarked {events : List Event}
    {t : Server × List (ConnectionPtr × LogRecord)}
    (h : Fallible.run Server.stayMarked (Server.initial, []) events = .ok t) :
    runEvents events = .ok (.running t.1) := by
  have hrun := @Fallible.run_translate _ _ _ _ _ _ Server.stayMarked Server.stay Prod.fst id
    (fun s event s' hstep => by
      obtain ⟨server', hstay, rfl⟩ := Fallible.map_ok_iff.mp hstep
      exact hstay) _ _ _ h
  rw [List.map_id] at hrun
  exact run_stay.mp hrun

end

/-- Two clients that are connected, with the OK packets of their servers. -/
def twoReady : List Event :=
  connectClient 0 ++ connectClient 1 ++ readOf 0 1 okRead ++ readOf 1 1 okRead

end Proxy
