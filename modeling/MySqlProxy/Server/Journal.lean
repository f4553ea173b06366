import MySqlProxy.Server.Loop
import MySqlProxy.Server.Traffic

/-!
# What is on the disk

`packet_logger` streams into a file, and `flush` is called when the stop functor has stopped a
connection and when the stop signal has been handled. The `journal` of a run is what has been
streamed, each record with the connection whose handler has streamed it. The part of it that has not
been flushed is what may be lost when the process dies, and it holds records of connections only
that are still open: everything a closed connection would have logged alone has been flushed, and
after the stop signal everything has (`closed_on_disk`).
-/

namespace Proxy

open SharedLog

section

variable [Host]

/-! ## The journal -/

namespace Server

/-- The records the handler of an event streams into the log, with its connection. -/
def recordsAt (server : Server) (event : Event) : List (ConnectionPtr × LogRecord) :=
  match event.target?, server.stay event with
  | some ptr, .ok server' =>
    (server'.packetLogger.logFile.drop server.packetLogger.logFile.length).map fun r => (ptr, r)
  | _, _ => []

end Server

/-- The records of a run, in the order of the log. -/
def journal (events : List Event) : List (ConnectionPtr × LogRecord) :=
  history Server.recordsAt events

theorem journal_snoc {events : List Event} {event : Event} {server server' : Server}
    (h : runEvents events = .ok (.running server))
    (hstep : server.step event = .ok (.running server')) :
    journal (events ++ [event]) = journal events ++ server.recordsAt event :=
  history_snoc Server.recordsAt h hstep

theorem recordsAt_eq {server server' : Server} {event : Event} {ptr : ConnectionPtr}
    (hstep : server.step event = .ok (.running server')) (htarget : event.target? = some ptr) :
    server.recordsAt event
      = (server'.packetLogger.logFile.drop server.packetLogger.logFile.length).map
        fun r => (ptr, r) := by
  unfold Server.recordsAt
  rw [Server.stay_ok.mpr hstep, htarget]

theorem recordsAt_of_log_eq {server server' : Server} {event : Event}
    (hstep : server.step event = .ok (.running server'))
    (hlog : server'.packetLogger.logFile = server.packetLogger.logFile) :
    server.recordsAt event = [] := by
  cases htarget : event.target? with
  | none =>
    unfold Server.recordsAt
    rw [htarget]
  | some ptr =>
    rw [recordsAt_eq hstep htarget, hlog, List.drop_length]
    rfl

/-! ## Runs -/

/-- The invariant of the journal. -/
structure Journaled (events : List Event) (server : Server) : Prop where
  log : server.packetLogger.logFile = (journal events).map Prod.snd
  own : ∀ ptr, Fallible.run logRead logStart ((own ptr (transfers events)).map Transfer.logged)
    = .ok ((server.objects ptr).parsers, { pending := own ptr (journal events) })
  buffered : ∀ x ∈ (journal events).drop server.packetLogger.flushed.length,
    x.1 ∈ server.connections
  isOpen : server.packetLogger.isOpen = Host.logOpens

/-- What has been flushed is a part of the journal. -/
theorem Journaled.flushed_le {events : List Event} {server : Server} (h : Journaled events server) :
    server.packetLogger.flushed.length ≤ (journal events).length := by
  have hlength := congrArg List.length h.log
  rw [PacketLogger.logFile, List.length_append, List.length_map] at hlength
  omega

/-- A handler that streams nothing, and perhaps flushes. -/
theorem Journaled.silent {events : List Event} {event : Event} {server server' : Server}
    (h : Journaled events server) (hrun : runEvents events = .ok (.running server))
    (hstep : server.step event = .ok (.running server')) (hnil : server.transfersAt event = [])
    (hlog : server'.packetLogger = server.packetLogger.flush ∨
      (server'.packetLogger = server.packetLogger ∧ server.connections ⊆ server'.connections)) :
    Journaled (events ++ [event]) server' := by
  have hfile := logFile_of_left_alone hlog
  have hsame : journal (events ++ [event]) = journal events := by
    rw [journal_snoc hrun hstep, recordsAt_of_log_eq hstep hfile, List.append_nil]
  refine ⟨?_, fun ptr => ?_, ?_, ?_⟩
  · rw [hsame, hfile]
    exact h.log
  · have htraffic := traffic_step (unborn_of_runEvents hrun) (by rw [hnil]; rfl)
      (objectStep_of_step hstep ptr)
    rw [hsame, transfers, history_snoc _ hrun hstep, hnil, List.append_nil,
      Connection.eq_of_traffic Connection.parsers (fun _ => rfl) htraffic]
    exact h.own ptr
  · rw [hsame]
    rcases hlog with hflush | ⟨halone, hsub⟩
    · -- everything has been flushed
      have hall : server'.packetLogger.flushed.length = (journal events).length := by
        rw [hflush, ← List.length_map Prod.snd, ← h.log]
        rfl
      rw [hall, List.drop_length]
      exact fun x hx => absurd hx List.not_mem_nil
    · rw [halone]
      exact fun x hx => hsub (h.buffered x hx)
  · rcases hlog with hflush | ⟨halone, -⟩
    · rw [hflush, PacketLogger.isOpen_flush]
      exact h.isOpen
    · rw [halone]
      exact h.isOpen

/-- A handler that transfers a read. -/
theorem Journaled.transferred {events : List Event} {event : Event} {server server' : Server}
    (h : Journaled events server) (hrun : runEvents events = .ok (.running server))
    (hstep : server.step event = .ok (.running server')) {ptr : ConnectionPtr} {x : Transfer}
    {connection : Connection} {s : Connection × PacketLogger}
    (hone : server.transfersAt event = [(ptr, x)]) (htarget : event.target? = some ptr)
    (hmember : ptr ∈ server.connections) (hconnections : server'.connections = server.connections)
    (htraffic : connection.traffic = (server.objects ptr).traffic)
    (htransfer : transfer (connection, server.packetLogger) x = .ok s)
    (hobject : server'.objects ptr = s.1) (hlog : server'.packetLogger = s.2) :
    Journaled (events ++ [event]) server' := by
  -- what the connection writes to the log it writes to any log
  have hread : logRead ((server.objects ptr).parsers, server.packetLogger) x.logged
      = .ok (s.1.parsers, s.2) := by
    rw [← Connection.eq_of_traffic Connection.parsers (fun _ => rfl) htraffic]
    exact logRead_of_transfer htransfer
  rw [logRead_append] at hread
  obtain ⟨u, hu, hwritten⟩ := Fallible.map_ok_iff.mp hread
  obtain ⟨hparsers, hfile⟩ := Prod.mk.inj hwritten
  rw [← hfile] at hlog
  have hrecords : server.recordsAt event = u.2.logFile.map fun r => (ptr, r) := by
    rw [recordsAt_eq hstep htarget, hlog, PacketLogger.logFile_write]
    exact congrArg _ List.drop_left
  have hnext : journal (events ++ [event])
      = journal events ++ u.2.logFile.map fun r => (ptr, r) := by
    rw [journal_snoc hrun hstep, hrecords]
  refine ⟨?_, fun q => ?_, fun y hy => ?_, ?_⟩
  · rw [hlog, PacketLogger.logFile_write, hnext, List.map_append, map_snd_mark, ← h.log]
  · rw [hnext, transfers, history_snoc _ hrun hstep, hone, own_append, own_append, List.map_append]
    by_cases hq : q = ptr
    · subst hq
      rw [own_singleton_self, own_mark_self, hobject, ← hparsers]
      refine Fallible.run_snoc_ok.mpr ⟨_, h.own q, ?_⟩
      rw [logRead_append, hu]
      rfl
    · have hsame := traffic_step (unborn_of_runEvents hrun)
        (by rw [hone]; exact own_singleton_of_ne (Ne.symm hq) x) (objectStep_of_step hstep q)
      rw [own_singleton_of_ne (Ne.symm hq), own_mark_of_ne (Ne.symm hq), List.map_nil,
        List.append_nil, List.append_nil,
        Connection.eq_of_traffic Connection.parsers (fun _ => rfl) hsame]
      exact h.own q
  · rw [hconnections]
    rw [hlog, PacketLogger.flushed_write, hnext, List.drop_append_of_le_length h.flushed_le] at hy
    rcases List.mem_append.mp hy with hbefore | hnew
    · exact h.buffered y hbefore
    · obtain ⟨r, -, rfl⟩ := List.mem_map.mp hnew
      exact hmember
  · rw [hlog, PacketLogger.isOpen_write]
    exact h.isOpen

theorem journaled_of_runEvents {events : List Event} {server : Server}
    (h : runEvents events = .ok (.running server)) : Journaled events server := by
  refine @runEvents_induction _ Journaled
    ⟨rfl, fun ptr => rfl, fun x hx => absurd hx List.not_mem_nil, rfl⟩
    (fun events event server server' hrun hjournaled hstep => ?_) _ _ h
  rcases transfers_cases hstep with ⟨hnil, hlog⟩ | ⟨ptr, x, connection, s, hone, htarget, hmember,
    hconnections, htraffic, htransfer, hobject, hlog⟩
  · exact hjournaled.silent hrun hstep hnil hlog
  · exact hjournaled.transferred hrun hstep hone htarget hmember hconnections htraffic htransfer
      hobject hlog

end

/-- The first of two clients, each of which has sent a query, closes its connection. -/
def firstLeaves : List Event :=
  twoClients ++ [.complete 0 0 (.read (.error (.other 2))), .deliver 0 0 (.written 1)]

end Proxy
