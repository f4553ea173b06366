import MySqlProxy.Connection.Directions

/-!
# The connection phase along the reads of a connection

The connection state is written by the server bytes only (`connectionState_of_run`), and which of
them end the connection phase is what `FromServerPacket.endsPhase_iff` says: the first payload byte
of an OK packet (`connection_phase_exact`).
-/

namespace Proxy

open Framing

/-- The connection state the server bytes of some reads lead to. -/
def phaseOf (reads : List LoggedRead) : MySqlConnectionState :=
  FromServerPacket.phaseAfter {} .CONNECTION_PHASE (serverBytes reads)

section

variable [BasicString.Library]

theorem connectionState_of_run {reads : List LoggedRead} {t : Connection × PacketLogger}
    (h : Fallible.run logRead logStart reads = .ok t) : t.1.connectionState = phaseOf reads := by
  obtain ⟨packet, seen, -, rfl⟩ := run_reads.mp h
  rfl

theorem serverPacket_of_run {reads : List LoggedRead} {t : Connection × PacketLogger}
    (h : Fallible.run logRead logStart reads = .ok t) :
    t.1.serverPacket.toMySqlPacket = MySqlPacket.advanceAll {} (serverBytes reads) := by
  obtain ⟨packet, seen, -, rfl⟩ := run_reads.mp h
  rfl

omit [BasicString.Library] in
theorem phaseOf_eq_command_iff {reads : List LoggedRead} :
    phaseOf reads = .COMMAND_PHASE ↔
      ∃ (ms : List (Message UInt8)) (l0 l1 l2 s : UInt8) (post : List UInt8),
        serverBytes reads = ms.flatMap Message.encode ++ [l0, l1, l2, s] ++ 0x00 :: post ∧
          3 < le24 l0 l1 l2 := by
  rw [phaseOf, FromServerPacket.phaseAfter_eq_command_iff]
  simp only [reduceCtorEq, false_or,
    FromServerPacket.endsPhase_iff MySqlPacket.betweenPackets_initial]
  constructor
  · rintro ⟨pre, b, post, hbytes, ms, l0, l1, l2, s, rfl, rfl, hlt⟩
    exact ⟨ms, l0, l1, l2, s, post, hbytes, hlt⟩
  · rintro ⟨ms, l0, l1, l2, s, post, hbytes, hlt⟩
    exact ⟨_, _, post, hbytes, ms, l0, l1, l2, s, rfl, rfl, hlt⟩

/-- **The connection phase is tracked exactly.** After any reads that do not throw, the connection
is in the command phase if and only if the server bytes contain the first payload byte of an OK
packet. No client read changes the state, the command phase is never left, and no byte of a
continuation frame of the server changes it. -/
theorem connection_phase_exact (reads : List LoggedRead) (t : Connection × PacketLogger)
    (h : Fallible.run logRead logStart reads = .ok t) :
    (t.1.connectionState = .COMMAND_PHASE ↔
      ∃ (ms : List (Message UInt8)) (l0 l1 l2 s : UInt8) (post : List UInt8),
        serverBytes reads = ms.flatMap Message.encode ++ [l0, l1, l2, s] ++ 0x00 :: post ∧
          3 < le24 l0 l1 l2) ∧
    (∀ read t', read.fromClientToServer = true → logRead t read = .ok t' →
      t'.1.connectionState = t.1.connectionState) ∧
    (∀ more t', t.1.connectionState = .COMMAND_PHASE → Fallible.run logRead t more = .ok t' →
      t'.1.connectionState = .COMMAND_PHASE) ∧
    (∀ ms fs rest, IsSplit (serverBytes reads) ms fs rest → fs ≠ [] →
      ∀ b packet st, t.1.serverPacket.collect b t.1.connectionState = .ok (packet, st) →
        st = t.1.connectionState) := by
  refine ⟨?_, ?_, ?_, ?_⟩
  · rw [connectionState_of_run h]
    exact phaseOf_eq_command_iff
  · intro read t' hdir hread
    obtain ⟨packet, -, rfl⟩ := (logRead_client_ok hdir).mp hread
    rfl
  · intro more t' hst hrun
    obtain ⟨packet, seen, -, rfl⟩ := run_reads.mp hrun
    dsimp only [afterReads, Connection.afterServer]
    rw [hst]
    exact FromServerPacket.phaseAfter_command _ _
  · intro ms fs rest hsplit hfs b packet st hcollect
    have hnot := FromServerPacket.not_endsPhase_continued MySqlPacket.betweenPackets_initial
      hsplit hfs b
    rw [← serverPacket_of_run h] at hnot
    rw [FromServerPacket.collect_eq, FromServerPacket.phaseStep_of_not_endsPhase hnot,
      Except.ok.injEq, Prod.mk.injEq] at hcollect
    exact hcollect.2.symm

end

open scoped BasicString.Libstdcxx in
/-- The phase after the server's OK packet. -/
theorem connection_phase_exact_ok :
    ∃ t, Fallible.run logRead logStart [serverOk] = .ok t ∧
      (t.1.connectionState = .COMMAND_PHASE ↔
        ∃ (ms : List (Message UInt8)) (l0 l1 l2 s : UInt8) (post : List UInt8),
          serverBytes [serverOk]
              = ms.flatMap Message.encode ++ [l0, l1, l2, s] ++ 0x00 :: post ∧
            3 < le24 l0 l1 l2) :=
  ⟨_, rfl, (connection_phase_exact [serverOk] _ rfl).1⟩

end Proxy
