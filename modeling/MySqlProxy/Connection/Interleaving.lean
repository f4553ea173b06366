import MySqlProxy.Connection.Phase

/-!
# Interleavings of the two directions

What a run logs depends on the client reads, on the server reads, and on one thing about their
interleaving: the number of client reads that come before the switch to the command phase
(`switchAfter`). It fixes the connection state every client read is handled in
(`chunksFrom_eq_switched`), and the rest is `run_reads` and `throwsAtRead_iff`, which look at the
interleaving through the stamped chunks only.
-/

namespace Proxy

open Framing

section

variable [BasicString.Library]

/-- The number of client reads handled before the read that ends the connection phase; none when
no read of the run does. -/
def switchAfter (s : Connection × PacketLogger) : List LoggedRead → Option Nat
  | [] => none
  | read :: reads =>
    match logRead s read with
    | .error _ => none
    | .ok t =>
      if s.1.connectionState = .CONNECTION_PHASE ∧ t.1.connectionState = .COMMAND_PHASE then
        some 0
      else if read.fromClientToServer then (switchAfter t reads).map (· + 1)
      else switchAfter t reads

/-- The client reads stamped as a switch after some of them prescribes. -/
def switchedChunks (switch : Option Nat) (reads : List LoggedRead) : List (List StampedByte) :=
  match switch with
  | none => chunks .CONNECTION_PHASE reads
  | some k => chunks .CONNECTION_PHASE (reads.take k) ++ chunks .COMMAND_PHASE (reads.drop k)

omit [BasicString.Library] in
theorem switchedChunks_cons (switch : Option Nat) (read : LoggedRead) (reads : List LoggedRead) :
    switchedChunks (switch.map (· + 1)) (read :: reads)
      = stamp .CONNECTION_PHASE read.bytes :: switchedChunks switch reads := by
  cases switch <;> rfl

/-! ## The connection phase does not throw -/

/-- With the receive mode off, a byte of the connection phase changes no derived field. -/
theorem FromClientPacket.feed_connection {packet : FromClientPacket}
    (hmode : packet.derived.sqlDataReceiving = false) (b : UInt8) :
    ∃ packet' : FromClientPacket, packet.feed (b, .CONNECTION_PHASE) = .ok packet' ∧
      packet'.derived = packet.derived := by
  by_cases hstate : packet.packetState = .PAYLOAD
  · have hbyte : packet.derived.payloadByte packet.toMySqlPacket (b, .CONNECTION_PHASE)
        = .ok packet.derived := by
      simp [FromClientFields.payloadByte, FromClientFields.openPacket, FromClientFields.Rejected,
        FromClientFields.continuePacket, FromClientFields.collectData, hmode, bind, Except.bind]
    have hclosed : packet.derived.dataIsReceived = packet.derived :=
      FromClientFields.ext rfl hmode.symm rfl
    rw [feed_payload hstate, hbyte]
    refine ⟨_, rfl, ?_⟩
    dsimp only
    rw [hclosed, ite_self]
  · exact ⟨_, feed_header hstate _, rfl⟩

/-- Nor do all of them. Induction on the bytes. -/
theorem FromClientPacket.feedAll_connection {packet : FromClientPacket}
    (hmode : packet.derived.sqlDataReceiving = false) (bytes : List UInt8) :
    ∃ packet' : FromClientPacket, packet.feedAll (stamp .CONNECTION_PHASE bytes) = .ok packet' ∧
      packet'.derived = packet.derived := by
  induction bytes generalizing packet with
  | nil => exact ⟨packet, rfl, rfl⟩
  | cons b bytes ih =>
    obtain ⟨next, hnext, hsame⟩ := feed_connection hmode b
    obtain ⟨packet', hrest, hsame'⟩ := ih (by rw [hsame]; exact hmode)
    exact ⟨packet', Fallible.run_cons_ok.mpr ⟨next, hnext, hrest⟩, hsame'.trans hsame⟩

/-! ## The stamps of a run -/

/-- **The stamps, from the switch.** In the connection phase, with the receive mode off, the client
reads of a run are handled in the states that `switchAfter` prescribes. Induction on the reads. -/
theorem chunksFrom_eq_switched {s : Connection × PacketLogger}
    (hst : s.1.connectionState = .CONNECTION_PHASE)
    (hmode : s.1.clientPacket.derived.sqlDataReceiving = false) (reads : List LoggedRead) :
    chunksFrom s reads = switchedChunks (switchAfter s reads) (clientReads reads) := by
  induction reads generalizing s with
  | nil => rfl
  | cons read reads ih =>
    cases hdir : read.fromClientToServer with
    | true =>
      obtain ⟨packet, hfeed, hsame⟩ := FromClientPacket.feedAll_connection hmode read.bytes
      rw [← hst] at hfeed
      obtain ⟨t, hread, htst, htmode, ht⟩ : ∃ t, logRead s read = .ok t ∧
          t.1.connectionState = .CONNECTION_PHASE ∧
          t.1.clientPacket.derived.sqlDataReceiving = false ∧
          chunksFrom t reads = chunksFrom s reads :=
        ⟨_, (logRead_client_ok hdir).mpr ⟨packet, hfeed, rfl⟩, hst,
          by rw [← hmode, ← hsame], rfl⟩
      have hchunks : chunksFrom s (read :: reads)
          = stamp s.1.connectionState read.bytes :: chunksFrom s reads :=
        clientChunks_cons_client reads hdir
      rw [hchunks, switchAfter, hread, clientReads_cons_client _ hdir, ← ht, ih htst htmode, hst]
      simp only [htst, reduceCtorEq, and_false, if_false, hdir, if_true, switchedChunks_cons]
    | false =>
      have hchunks : chunksFrom s (read :: reads)
          = chunksFrom (s.1.afterServer read.bytes, s.2) reads :=
        clientChunks_cons_server reads hdir
      rw [hchunks, switchAfter, logRead_server hdir, clientReads_cons_server _ hdir]
      simp only [hst, true_and, hdir, Bool.false_eq_true, if_false]
      cases hafter : (s.1.afterServer read.bytes).connectionState with
      | CONNECTION_PHASE =>
        simp only [reduceCtorEq, if_false]
        exact ih hafter hmode
      | COMMAND_PHASE =>
        -- the switch: every client read from here on is handled in the command phase
        simp only [if_true, switchedChunks, List.take_zero, List.drop_zero]
        rw [chunksFrom, hafter]
        exact clientChunks_of_constant reads (FromServerPacket.phaseAfter_command _ _)

/-! ## Two interleavings -/

/-- **The two directions do not disturb each other.** Two interleavings of the same client reads
and the same server reads, with the switch to the command phase between the same two client reads
or in neither, throw at the same client read, having logged the same, or end in the same state. -/
theorem interleavings_agree (reads reads' : List LoggedRead)
    (hclient : clientReads reads = clientReads reads')
    (hserver : serverReads reads = serverReads reads')
    (hswitch : switchAfter logStart reads = switchAfter logStart reads') :
    (∀ n e log, ThrowsAtRead reads n e log ↔ ThrowsAtRead reads' n e log) ∧
    (∀ t, Fallible.run logRead logStart reads = .ok t ↔
      Fallible.run logRead logStart reads' = .ok t) := by
  have hchunks : chunksFrom logStart reads = chunksFrom logStart reads' := by
    rw [chunksFrom_eq_switched rfl rfl, chunksFrom_eq_switched rfl rfl, hclient, hswitch]
  have hafter : ∀ packet seen,
      afterReads logStart reads packet seen = afterReads logStart reads' packet seen := by
    intro packet seen
    rw [afterReads, afterReads, hchunks, serverBytes, serverBytes, hserver]
  constructor
  · intro n e log
    rw [throwsAtRead_iff, throwsAtRead_iff, hchunks]
  · intro t
    rw [run_reads, run_reads, hchunks]
    simp only [hafter]

/-- The server's OK packet in two reads. -/
def serverOkFront : LoggedRead where
  fromClientToServer := false
  bytes := [7, 0, 0, 2]
  ne_nil := List.cons_ne_nil _ _

def serverOkBack : LoggedRead where
  fromClientToServer := false
  bytes := [0, 0, 0, 2, 0, 0, 0]
  ne_nil := List.cons_ne_nil _ _

end

open scoped BasicString.Libstdcxx in
/-- A login and a ping, the login before or inside the server's OK packet. -/
theorem interleavings_agree_login :
    ∃ t, Fallible.run logRead logStart
        [clientRead [1, 0, 0, 1, 0x41] (by simp), serverOkFront, serverOkBack,
          clientRead [1, 0, 0, 0, 0x0E] (by simp)] = .ok t ∧
      Fallible.run logRead logStart
        [serverOkFront, clientRead [1, 0, 0, 1, 0x41] (by simp), serverOkBack,
          clientRead [1, 0, 0, 0, 0x0E] (by simp)] = .ok t :=
  ⟨_, rfl, ((interleavings_agree _ _ rfl rfl rfl).2 _).mp rfl⟩

end Proxy
