import MySqlProxy.Server.Containment
import MySqlProxy.Server.Journal
import MySqlProxy.Connection.Session

/-!
# A server and its clients

The server for clients that keep to the protocol (`Visit`) and whose commands get the room they ask
for. Whatever the other clients do, the entries of such a client in the log that all share are the
list of its commands, and its MySQL server has been sent these commands and a part of at most one
more (`sessions_served`). When all clients are like this, and the sockets work, only a handler that
acts on a removed connection ends the program (`sessions_never_throw`).
-/

namespace Proxy

open SharedLog

section

variable [Host]

/-! ## The log and the MySQL server of a client -/

omit [Host] in
/-- A connection whose `send`s take whole reads has been written all that was delivered. -/
theorem written_of_acceptedWhole {xs : List Transfer} (h : ∀ x ∈ xs, x.AcceptedWhole) (dir : Bool) :
    written dir xs = delivered dir xs := by
  unfold written delivered
  refine List.flatMap_congr fun x hx => ?_
  have hwhole : x.sendResult = .written x.read.bytes.length := h x (List.mem_of_mem_filter hx)
  rw [hwhole]
  exact List.take_length

omit [Host] in
/-- What has been delivered is what has been read. -/
theorem delivered_logged (xs : List Transfer) :
    delivered true xs = readBytes (clientReads (xs.map Transfer.logged)) := by
  unfold delivered readBytes clientReads
  rw [List.filter_map, List.flatMap_map]
  simp only [beq_true]
  rfl

end

open scoped Host.Libstdcxx in
/-- A client that sends the query `SHOW` after the OK packet of its server. -/
def showVisit : Visit where
  login := [⟨false, okRead.bytes, okRead.ne_nil⟩]
  rest := [⟨true, showRead.bytes, showRead.ne_nil⟩]
  commands := [showCommand]
  keeps := by
    refine Or.inr ⟨⟨rfl, ⟨[], rfl⟩, ⟨[], _, rfl, rfl, rfl⟩⟩, ?_⟩
    show Session 15 [showCommand] ([⟨true, showRead.bytes, showRead.ne_nil⟩] ++ [])
    exact Session.command encode_showCommand.symm
      (show showCommand.room 15 = .ok 15 from by decide) (Session.nil 15)
  regular := fun command h => by
    rw [List.mem_singleton.mp h]
    exact regular_showCommand

section

variable [Host]

/-! ## No exception -/

/-- The successful read an event delivers, whether its handler throws or not. -/
def Process.transfersAt (process : Process) (event : Event) : List (ConnectionPtr × Transfer) :=
  match process with
  | .running server => server.transfersAt event
  | .stopped _ => []
  | .undefinedBehaviour => []

/-- The successful reads a run has delivered, to a handler that threw included. -/
def attempts (events : List Event) : List (ConnectionPtr × Transfer) :=
  Fallible.trace Process.step Process.transfersAt (.running Server.initial) events

theorem attempts_eq_transfers {events : List Event} {server : Server}
    (h : runEvents events = .ok (.running server)) : attempts events = transfers events := by
  refine @runEvents_induction _ (fun events _ => attempts events = transfers events) rfl
    (fun events event server server' hrun hsame hstep => ?_) _ _ h
  rw [transfers, history_snoc Server.transfersAt hrun hstep, ← transfers, ← hsame]
  exact Fallible.trace_snoc_of_ok hrun hstep

theorem attempts_snoc {events : List Event} {event : Event} {server : Server} {process : Process}
    (h : runEvents events = .ok (.running server)) (hstep : server.step event = .ok process) :
    attempts (events ++ [event]) = transfers events ++ server.transfersAt event := by
  rw [← attempts_eq_transfers h]
  exact Fallible.trace_snoc_of_ok h hstep

omit [Host] in
theorem Process.ofHandler_eq_stopped {x : Except Exception Server} {e : Exception}
    (h : Process.stopped e = Process.ofHandler x) : x = .error e := by
  cases x with
  | ok server => cases h
  | error e' =>
    cases h
    rfl

/-- Whether a read throws depends on the parsers. -/
theorem logRead_ok_congr {connection connection' : Connection} {logger logger' : PacketLogger}
    {read : LoggedRead} {u : Connection × PacketLogger}
    (hparsers : connection.parsers = connection'.parsers)
    (h : logRead (connection', logger') read = .ok u) :
    ∃ v, logRead (connection, logger) read = .ok v := by
  have hbare : ∀ c l, (logRead (c.parsers, l) read).map Prod.fst
      = (logRead (c, l) read).map fun v => v.1.parsers := by
    intro c l
    rw [logRead_comm Connection.transparent_parsers]
    cases logRead (c, l) read <;> rfl
  have hlogger : (logRead (connection.parsers, logger) read).map Prod.fst
      = (logRead (connection.parsers, logger') read).map Prod.fst := by
    rw [logRead_append _ logger, logRead_append _ logger']
    cases logRead (connection.parsers, {}) read <;> rfl
  rw [hbare, hparsers, hbare, h] at hlogger
  obtain ⟨v, hv, -⟩ := Fallible.map_ok_iff.mp hlogger
  exact ⟨v, hv⟩

/-- The transfer of a client that keeps to the protocol does not throw when its `send` succeeds. -/
theorem doTransfer_ok_of_visit {events : List Event} {server : Server}
    (h : runEvents events = .ok (.running server)) {ptr : ConnectionPtr} {visit : Visit}
    {x : Transfer} {k : Nat}
    (hvisit : (own ptr (transfers events) ++ [x]).map Transfer.logged = visit.reads)
    (hsend : x.sendResult = .written k) (i : Nat) :
    ∃ s, transfer ((server.objects ptr).take i, server.packetLogger) x = .ok s := by
  obtain ⟨marked, -, halone⟩ := solo_runs h
  obtain ⟨connection, hrun, htraffic⟩ := halone ptr
  -- alone, the connection logs the reads so far, and the visit goes on
  obtain ⟨t, ht, -⟩ := visit.run_logRead
  rw [← hvisit, List.map_append] at ht
  obtain ⟨before, hbefore, hlast⟩ := Fallible.run_snoc_ok.mp ht
  have hsame : before = (connection.parsers, { pending := own ptr marked }) :=
    Except.ok.inj (hbefore.symm.trans (run_logRead_of_transfer hrun))
  rw [hsame] at hlast
  have hparsers : (((server.objects ptr).take i).fill x.fromClientToServer x.read).parsers
      = connection.parsers.parsers := by
    show _ = connection.parsers
    rw [Connection.eq_of_traffic Connection.parsers (fun _ => rfl) htraffic]
    cases x.fromClientToServer <;> rfl
  obtain ⟨u, hu⟩ := @logRead_ok_congr _ _ _ server.packetLogger _ _ _ hparsers hlast
  exact ⟨_, transfer_eq_ok_iff.mpr ⟨u, k, hu, hsend, rfl⟩⟩

/-- The handler of such a client does not throw. -/
theorem call_ne_error_of_visit {events : List Event} {server : Server}
    (h : runEvents events = .ok (.running server)) {ptr : ConnectionPtr} {i k : Nat}
    {op : Operation} {call : Call} (hop : (server.operations ptr)[i]? = some op)
    (hcall : op.handlerCall = some call) (hpermits : call.Permits (.written k)) {visit : Visit}
    (hvisit : (own ptr (transfers events ++ server.transfersAt (.deliver ptr i (.written k)))).map
      Transfer.logged = visit.reads) (e : Exception) :
    (server.setOperations ptr ((server.operations ptr).eraseIdx i)).call ptr call (.written k)
      ≠ .error e := by
  intro hthrew
  cases call with
  | doReceive => cases hthrew
  | stopTransfer => cases hthrew
  | doTransfer dir read =>
    have hallowed : (SendResult.written k).Allowed read.bytes.length := hpermits
    rw [own_append, Server.transfersAt_deliver hop, hcall, own_mark_self, Option.bind_some,
      Call.transfer?, dif_pos hallowed] at hvisit
    obtain ⟨s, hs⟩ := doTransfer_ok_of_visit h hvisit rfl i
    obtain ⟨e', he'⟩ := Server.call_doTransfer_error_iff.mp ⟨e, hthrew⟩
    rw [Server.objects_take] at he'
    have hok : Connection.doTransfer dir read.bytes.length (.written k)
        (((server.objects ptr).take i).fill dir read, server.packetLogger) = .ok s := hs
    have herror : Connection.doTransfer dir read.bytes.length (.written k)
        (((server.objects ptr).take i).fill dir read, server.packetLogger) = .error e' := he'
    rw [hok] at herror
    cases herror

/-- When all clients keep to the protocol, and no `send` and no `open` fails, nothing is thrown. -/
theorem ne_stopped_of_visits {events : List Event} {process : Process}
    (h : runEvents events = .ok process)
    (hclients : ∀ ptr, ∃ visit : Visit,
      (own ptr (attempts events)).map Transfer.logged = visit.reads)
    (hopens : ∀ i what, Event.deliverAccept i (.failed what) ∉ events)
    (hsends : ∀ ptr i what, Event.deliver ptr i (.failed what) ∉ events) (e : Exception) :
    process ≠ .stopped e := by
  rintro rfl
  rcases List.eq_nil_or_concat events with rfl | ⟨front, event, rfl⟩
  · cases h
  rw [List.concat_eq_append] at h hclients hopens hsends
  obtain ⟨before, hfront, hlast⟩ := Fallible.run_snoc_ok.mp h
  cases before with
  | stopped e' => cases hlast
  | undefinedBehaviour => cases hlast
  | running server =>
    have hstep : server.step event = .ok (.stopped e) := hlast
    have hin : event ∈ front ++ [event] := List.mem_append_right _ (List.mem_cons_self ..)
    have htransition := transition_of_step hstep
    generalize hprocess : Process.stopped e = process at htransition
    -- only a handler that acts can throw
    cases htransition with
    | complete hop hresult hcomplete => cases hprocess
    | completeAccept haccept => cases hprocess
    | silent hop hcompleted hcall => cases hprocess
    | dangling hop hcall hgone => cases hprocess
    | signalled hwait => cases hprocess
    | accepted haccept =>
      obtain ⟨-, -, what, rfl⟩ := Server.acceptHandler_error_iff.mp
        ⟨e, Process.ofHandler_eq_stopped hprocess⟩
      exact hopens _ _ hin
    | called hop hcall hmember =>
      rename_i ptr i sendResult op call
      have hthrew := Process.ofHandler_eq_stopped hprocess
      have hpermits := Server.permits_of_step hstep hop hcall
      cases sendResult with
      | failed what => exact hsends _ _ _ hin
      | written k =>
        obtain ⟨visit, hvisit⟩ := hclients ptr
        rw [attempts_snoc hfront hstep] at hvisit
        exact call_ne_error_of_visit hfront hop hcall hpermits hvisit e hthrew

/-- A run whose removals are all quiet does not end in the use of a destroyed object. -/
theorem not_endsInUse_of_quiet {events : List Event}
    (hquiet : ∀ front event back server, events = front ++ event :: back →
      runEvents front = .ok (.running server) → QuietRemoval server event) :
    ¬ EndsInUse events := by
  rintro ⟨front, event, server, rfl, hfront, hacts⟩
  refine (rests_of_quiet (fun front' event' back' s heq hs => ?_) hfront).not_actsOnRemoved event
    hacts
  exact hquiet front' event' (back' ++ [event]) s (by rw [heq]; simp) hs

/-- **Clients that keep to the protocol do no harm.** In every run in which all clients do, up to
and with the read of the last event, and no `send` and no `open` fails: the program stays in its
loop, or the last handler acts on a removed connection. If every removal is quiet, it stays in its
loop. -/
theorem sessions_never_throw (events : List Event) (process : Process)
    (h : runEvents events = .ok process)
    (hclients : ∀ ptr, ∃ visit : Visit,
      (own ptr (attempts events)).map Transfer.logged = visit.reads)
    (hopens : ∀ i what, Event.deliverAccept i (.failed what) ∉ events)
    (hsends : ∀ ptr i what, Event.deliver ptr i (.failed what) ∉ events) :
    ((∃ server, process = .running server) ∨
      (process = .undefinedBehaviour ∧ EndsInUse events)) ∧
    ((∀ front event back server, events = front ++ event :: back →
        runEvents front = .ok (.running server) → QuietRemoval server event) →
      ∃ server, process = .running server) := by
  have hends : (∃ server, process = .running server) ∨
      (process = .undefinedBehaviour ∧ EndsInUse events) := by
    cases process with
    | running server => exact Or.inl ⟨server, rfl⟩
    | stopped e => exact absurd rfl (ne_stopped_of_visits h hclients hopens hsends e)
    | undefinedBehaviour =>
      rcases List.eq_nil_or_concat events with rfl | ⟨front, event, rfl⟩
      · cases h
      · rw [List.concat_eq_append] at h ⊢
        obtain ⟨server, hfront, hstep⟩ := runEvents_snoc h
        exact Or.inr ⟨rfl, front, event, server, rfl, hfront,
          actsOnRemoved_of_undefinedBehaviour hstep rfl⟩
  exact ⟨hends, fun hquiet => hends.resolve_right fun hused =>
    not_endsInUse_of_quiet hquiet hused.2⟩

end

open scoped Host.Libstdcxx in
/-- Nothing has come from a client yet. -/
def emptyVisit : Visit where
  login := []
  rest := []
  commands := []
  keeps := Or.inl ⟨rfl, rfl, rfl⟩
  regular := fun _ h => absurd h List.not_mem_nil

open scoped Host.Libstdcxx in
/-- Two clients with a query each. -/
theorem sessions_never_throw_two :
    ∃ process, runEvents twoClients = .ok process ∧ ∃ server, process = .running server := by
  have hattempts : attempts twoClients = [(0, _), (1, _), (0, _), (1, _)] := rfl
  refine ⟨_, rfl, (sessions_never_throw twoClients _ rfl (fun ptr => ?_) ?_ ?_).1.resolve_right
    fun hused => by cases hused.1⟩
  · by_cases hzero : ptr = 0
    · subst hzero
      exact ⟨showVisit, rfl⟩
    · by_cases hone : ptr = 1
      · subst hone
        exact ⟨showVisit, rfl⟩
      · refine ⟨emptyVisit, ?_⟩
        rw [hattempts]
        simp [own, Ne.symm hzero, Ne.symm hone, emptyVisit, Visit.reads]
  · intro i what h
    simp [twoClients, connectClient, acceptAndConnect, readOf] at h
  · intro ptr i what h
    simp [twoClients, connectClient, acceptAndConnect, readOf] at h

end Proxy
