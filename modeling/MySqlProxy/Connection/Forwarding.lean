import MySqlProxy.Connection.Logging

/-!
# Forwarding

`do_transfer` writes what a read has put into the buffer to the other socket and reads on. The
write is one `send`, which may accept a prefix only, and its result is dropped.
`transfer_ok` is the exact effect on both sockets, and `forwards_iff` what it means over a run:
every byte is forwarded exactly when every `send` accepts the whole read.
-/

namespace Proxy

namespace Connection

/-! ## Sockets and buffers -/

@[simp] theorem sendTo_setSendTo (dir : Bool) (socket : Socket) (connection : Connection) :
    (connection.setSendTo dir socket).sendTo dir = socket := by
  cases dir <;> rfl

@[simp] theorem sendTo_setSendTo_not (dir : Bool) (socket : Socket) (connection : Connection) :
    (connection.setSendTo dir socket).sendTo (!dir) = connection.sendTo (!dir) := by
  cases dir <;> rfl

@[simp] theorem sendTo_fill (dir dir' : Bool) (read : Read) (connection : Connection) :
    (connection.fill dir read).sendTo dir' = connection.sendTo dir' := by
  cases dir <;> rfl

@[simp] theorem take_readBuffer_fill (dir : Bool) (read : Read) (connection : Connection) :
    ((connection.fill dir read).readBuffer dir).data.take read.bytes.length = read.bytes := by
  cases dir <;> exact Buffer.take_fill _ _

end Connection

section

variable [BasicString.Library]

namespace Connection

/-! ## `do_transfer` by its effects -/

/-- Logging touches neither the sockets and buffers nor the outstanding operations. -/
theorem doPacketLogging_frame {buffer : List UInt8} {n : Nat} {fromClientToServer : Bool}
    {s u : Connection × PacketLogger} (h : doPacketLogging buffer n fromClientToServer s = .ok u) :
    u.1.clientSocket = s.1.clientSocket ∧ u.1.serverSocket = s.1.serverSocket ∧
      u.1.operations = s.1.operations := by
  obtain ⟨connection, logger⟩ := s
  cases fromClientToServer with
  | true =>
    obtain ⟨packet, -, rfl⟩ := doPacketLogging_client_ok.mp h
    exact ⟨rfl, rfl, rfl⟩
  | false =>
    obtain ⟨packet, st, hok, -⟩ := doPacketLogging_server buffer n connection logger
    rw [hok, Except.ok.injEq] at h
    subst h
    exact ⟨rfl, rfl, rfl⟩

theorem sendTo_doPacketLogging {buffer : List UInt8} {n : Nat} {fromClientToServer : Bool}
    {s u : Connection × PacketLogger} (h : doPacketLogging buffer n fromClientToServer s = .ok u)
    (dir : Bool) : u.1.sendTo dir = s.1.sendTo dir := by
  obtain ⟨hclient, hserver, -⟩ := doPacketLogging_frame h
  unfold sendTo
  rw [hclient, hserver]

/-- What a completed `do_transfer` has done: logged, written a prefix, started the next read. -/
theorem doTransfer_ok {dir : Bool} {n : Nat} {result : SendResult}
    {s s' : Connection × PacketLogger} :
    doTransfer dir n result s = .ok s' ↔
      ∃ u k, doPacketLogging (s.1.readBuffer dir).data n dir s = .ok u ∧ result = .written k ∧
        s' = ({ u.1.setSendTo dir { u.1.sendTo dir with
                  sent := (u.1.sendTo dir).sent ++ ((s.1.readBuffer dir).data.take n).take k } with
                operations := u.1.operations ++ [.transfer dir none] }, u.2) := by
  unfold doTransfer
  cases hlog : doPacketLogging (s.1.readBuffer dir).data n dir s with
  | error e => simp [hlog, bind, Except.bind]
  | ok u =>
    have hoperations : ∀ socket : Socket,
        (u.1.setSendTo dir socket).operations = u.1.operations := by
      intro socket
      cases dir <;> rfl
    cases result with
    | written k =>
      simp only [hlog, bind, Except.bind, Socket.send, hoperations, Except.ok.injEq]
      constructor
      · rintro rfl
        exact ⟨u, k, rfl, rfl, rfl⟩
      · rintro ⟨_, _, rfl, hk, rfl⟩
        cases hk
        rfl
    | failed what => simp [hlog, bind, Except.bind, Socket.send]

/-- A `do_transfer` throws when the logging does or when the `send` fails. -/
theorem doTransfer_error {dir : Bool} {n : Nat} {result : SendResult}
    {s : Connection × PacketLogger} :
    (∃ e, doTransfer dir n result s = .error e) ↔
      (∃ e, doPacketLogging (s.1.readBuffer dir).data n dir s = .error e) ∨
        ∃ what, result = .failed what := by
  unfold doTransfer
  cases hlog : doPacketLogging (s.1.readBuffer dir).data n dir s with
  | error e => simp [hlog, bind, Except.bind]
  | ok u => cases result <;> simp [hlog, bind, Except.bind, Socket.send]

end Connection

/-! ## Runs of transfers -/

/-- The successful completion of a read, with what the socket answers to the `send`. -/
structure Transfer where
  fromClientToServer : Bool
  read : Read
  sendResult : SendResult
  allowed : sendResult.Allowed read.bytes.length

/-- The handler of a successful read. -/
def transfer (s : Connection × PacketLogger) (x : Transfer) :
    Except Exception (Connection × PacketLogger) :=
  Connection.doTransfer x.fromClientToServer x.read.bytes.length x.sendResult
    (s.1.fill x.fromClientToServer x.read, s.2)

/-- A connection that has been connected, before its first read. -/
def transferStart : Connection × PacketLogger :=
  ({ Connection.construct with serverSocket := { isOpen := true } }, {})

/-- The bytes the reads of one direction have delivered. -/
def delivered (dir : Bool) (xs : List Transfer) : List UInt8 :=
  (xs.filter fun x => x.fromClientToServer == dir).flatMap fun x => x.read.bytes

/-- The `send` has accepted the whole read. -/
def Transfer.AcceptedWhole (x : Transfer) : Prop := x.sendResult = .written x.read.bytes.length

omit [BasicString.Library] in
theorem delivered_snoc_self (xs : List Transfer) (x : Transfer) :
    delivered x.fromClientToServer (xs ++ [x])
      = delivered x.fromClientToServer xs ++ x.read.bytes := by
  simp [delivered]

omit [BasicString.Library] in
theorem delivered_snoc_not (xs : List Transfer) (x : Transfer) :
    delivered (!x.fromClientToServer) (xs ++ [x]) = delivered (!x.fromClientToServer) xs := by
  cases hdir : x.fromClientToServer <;> simp [delivered, hdir]

/-- **One transfer.** A prefix of the read goes to its socket, the other socket is untouched. -/
theorem transfer_ok {s s' : Connection × PacketLogger} {x : Transfer}
    (h : transfer s x = .ok s') :
    ∃ k, x.sendResult = .written k ∧
      (s'.1.sendTo x.fromClientToServer).sent
        = (s.1.sendTo x.fromClientToServer).sent ++ x.read.bytes.take k ∧
      (s'.1.sendTo (!x.fromClientToServer)).sent = (s.1.sendTo (!x.fromClientToServer)).sent := by
  obtain ⟨u, k, hlog, hwritten, rfl⟩ := Connection.doTransfer_ok.mp h
  have hself := Connection.sendTo_doPacketLogging hlog x.fromClientToServer
  have hother := Connection.sendTo_doPacketLogging hlog (!x.fromClientToServer)
  rw [Connection.sendTo_fill] at hself hother
  have hsockets : ∀ (connection : Connection) (operations : List Operation) (dir : Bool),
      ({ connection with operations := operations } : Connection).sendTo dir
        = connection.sendTo dir := fun _ _ _ => rfl
  refine ⟨k, hwritten, ?_, ?_⟩
  · simp only [hsockets, Connection.sendTo_setSendTo, hself, Connection.take_readBuffer_fill]
  · simp only [hsockets, Connection.sendTo_setSendTo_not, hother]

/-- A transfer whose `send` accepts the whole read keeps both directions level. -/
theorem level_transfer {s s' : Connection × PacketLogger} {xs : List Transfer} {x : Transfer}
    (hlevel : ∀ dir, (s.1.sendTo dir).sent = delivered dir xs) (hx : x.AcceptedWhole)
    (h : transfer s x = .ok s') : ∀ dir, (s'.1.sendTo dir).sent = delivered dir (xs ++ [x]) := by
  obtain ⟨k, hk, hself, hother⟩ := transfer_ok h
  obtain rfl : x.read.bytes.length = k := by
    rw [hx, SendResult.written.injEq] at hk
    exact hk
  intro dir
  by_cases hdir : dir = x.fromClientToServer
  · rw [hdir, hself, hlevel, List.take_length, delivered_snoc_self]
  · have hnot : dir = !x.fromClientToServer := by
      cases dir <;> cases hx : x.fromClientToServer <;> simp_all
    rw [hnot, hother, hlevel, delivered_snoc_not]

/-- A transfer that leaves both directions level, as they were before it, has had its whole read
accepted. -/
theorem acceptedWhole_of_level {s s' : Connection × PacketLogger} {xs : List Transfer}
    {x : Transfer} (hbefore : ∀ dir, (s.1.sendTo dir).sent = delivered dir xs)
    (hafter : ∀ dir, (s'.1.sendTo dir).sent = delivered dir (xs ++ [x]))
    (h : transfer s x = .ok s') : x.AcceptedWhole := by
  obtain ⟨k, hk, hself, -⟩ := transfer_ok h
  -- the bytes written by the transfer are the whole read
  have hread : x.read.bytes.take k = x.read.bytes := by
    rw [hafter, hbefore, delivered_snoc_self] at hself
    exact (List.append_cancel_left hself).symm
  -- and `k` is its length: a socket does not report more bytes than it was given
  have hle : k ≤ x.read.bytes.length := by
    have hallowed := x.allowed
    rw [hk] at hallowed
    exact hallowed.2
  have hge := congrArg List.length hread
  rw [List.length_take] at hge
  rw [Transfer.AcceptedWhole, hk, show k = x.read.bytes.length from by omega]

/-- Over a run whose `send`s accept the whole reads, both directions stay level. Induction on the
transfers from the right. -/
theorem level_run {s : Connection × PacketLogger} {xs : List Transfer}
    (hxs : ∀ x ∈ xs, x.AcceptedWhole) (h : Fallible.run transfer transferStart xs = .ok s) :
    ∀ dir, (s.1.sendTo dir).sent = delivered dir xs := by
  induction xs using List.reverseRecOn generalizing s with
  | nil =>
    cases h
    intro dir
    cases dir <;> rfl
  | append_singleton xs x ih =>
    obtain ⟨t, ht, hlast⟩ := Fallible.run_snoc_ok.mp h
    exact level_transfer (ih (fun y hy => hxs y (by simp [hy])) ht) (hxs x (by simp)) hlast

/-- **When the proxy forwards every byte.** Along a run in which no handler throws, at every point
between handlers each socket has been written exactly what the reads of the other side have
delivered, exactly when every `send` accepts the whole read. -/
theorem forwards_iff (xs : List Transfer) (s : Connection × PacketLogger)
    (hok : Fallible.run transfer transferStart xs = .ok s) :
    (∀ front back t, xs = front ++ back → Fallible.run transfer transferStart front = .ok t →
      t.1.serverSocket.sent = delivered true front ∧
        t.1.clientSocket.sent = delivered false front) ↔
    ∀ x ∈ xs, x.AcceptedWhole := by
  constructor
  · intro hlevel x hx
    obtain ⟨front, back, rfl⟩ := List.append_of_mem hx
    have hsplit : front ++ x :: back = (front ++ [x]) ++ back := by simp
    rw [hsplit] at hok
    obtain ⟨u, hu⟩ := Fallible.run_prefix_ok hok
    obtain ⟨t, ht, hstep⟩ := Fallible.run_snoc_ok.mp hu
    -- both directions are level right before and right after the transfer `x`
    have hbefore := hlevel front (x :: back) t rfl ht
    have hafter := hlevel (front ++ [x]) back u hsplit hu
    exact acceptedWhole_of_level (Bool.forall_bool.mpr ⟨hbefore.2, hbefore.1⟩)
      (Bool.forall_bool.mpr ⟨hafter.2, hafter.1⟩) hstep
  · rintro hall front back t rfl ht
    have hlevel := level_run (fun x hx => hall x (by simp [hx])) ht
    exact ⟨hlevel true, hlevel false⟩

end

/-- A two-byte read from the client of which the `send` accepts `k` bytes. -/
def twoByteTransfer (k : Nat) (h : 1 ≤ k ∧ k ≤ 2) : Transfer where
  fromClientToServer := true
  read := ⟨[1, 0], by simp, by decide⟩
  sendResult := .written k
  allowed := h

open scoped BasicString.Libstdcxx in
/-- Written whole, it arrives. -/
theorem forwards_iff_whole :
    ∃ s, Fallible.run transfer transferStart [twoByteTransfer 2 (by decide)] = .ok s ∧
      s.1.serverSocket.sent = [1, 0] := by
  refine ⟨_, rfl, ?_⟩
  have hiff := forwards_iff [twoByteTransfer 2 (by decide)] _ rfl
  have hwhole : ∀ x ∈ [twoByteTransfer 2 (by decide)], x.AcceptedWhole := by
    intro x hx
    rw [List.mem_singleton.mp hx]
    rfl
  exact (hiff.mpr hwhole [twoByteTransfer 2 (by decide)] [] _ rfl rfl).1

open scoped BasicString.Libstdcxx in
/-- Written in part, it loses its tail. -/
theorem forwarding_loses_tail :
    ∃ s, Fallible.run transfer transferStart [twoByteTransfer 1 (by decide)] = .ok s ∧
      delivered true [twoByteTransfer 1 (by decide)] = [1, 0] ∧ s.1.serverSocket.sent = [1] :=
  ⟨_, rfl, rfl, rfl⟩

end Proxy
