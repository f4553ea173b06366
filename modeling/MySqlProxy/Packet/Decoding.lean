import MySqlProxy.Packet.FrameWalk

/-!
# The parser decodes the framing exactly

`collect` against the grammar of `Lib/Framing.lean`, for an object of either derived class and
any connection states along the way. The observation made after each byte is
`is_received()` with `payload()` (debug build): `decodePayloads` lists what it shows over a
stream, and on the encoding of a list of payloads it shows exactly that list, because nothing is
received inside a logical packet (`not_received_inside`).

The stream is stamped with connection states, the grammar reads its bytes: a stamped stream `xs`
encodes the logical packets `ms` when `xs.map Prod.fst = ms.flatMap Message.encode`.
-/

namespace Proxy

open Framing

namespace Packet

variable {σ : Type}

/-- `payload()` when `is_received()`. -/
def receivedPayload (packet : Packet σ) : Option (List UInt8) :=
  if packet.isReceived then some packet.payload else none

theorem receivedPayload_eq_none {packet : Packet σ} (h : packet.payloadIsReceived = false) :
    packet.receivedPayload = none := by
  simp [receivedPayload, MySqlPacket.isReceived, h]

theorem receivedPayload_closed {packet : Packet σ} {m : Message UInt8}
    (h : packet.toMySqlPacket = MySqlPacket.closed m) :
    packet.receivedPayload = some m.payload := by
  simp [receivedPayload, MySqlPacket.isReceived, h, MySqlPacket.closed, MySqlPacket.bytesOf_bytes]

variable [Overrides σ]

/-- The payloads shown after the bytes of a stream, in order. -/
def decodePayloads (packet : Packet σ) (xs : List StampedByte) :
    Except Exception (List (List UInt8)) :=
  (Fallible.sample feed receivedPayload packet (Fallible.singletons xs)).map Prod.snd

/-- Collecting one whole logical packet leads to its closed base fields. -/
theorem feedAll_message_base {packet packet' : Packet σ}
    (h : packet.toMySqlPacket.BetweenPackets) {xs : List StampedByte} {m : Message UInt8}
    (hxs : xs.map Prod.fst = m.encode) (hfeed : packet.feedAll xs = .ok packet') :
    packet'.toMySqlPacket = MySqlPacket.closed m := by
  rw [feedAll_base hfeed, hxs, ← MySqlPacket.bytesOf_bytes m.encode]
  exact MySqlPacket.advanceAll_message h.1 h.2 m

/-- Nothing shows inside a logical packet. -/
theorem silent_message {packet : Packet σ} (h : packet.toMySqlPacket.BetweenPackets)
    {xs : List StampedByte} {m : Message UInt8} (hxs : xs.map Prod.fst = m.encode) :
    Fallible.Silent feed receivedPayload packet xs := by
  intro pre post t heq hpre hpost hrun
  have hbytes : m.encode = pre.map Prod.fst ++ post.map Prod.fst := by
    rw [← hxs, heq, List.map_append]
  apply receivedPayload_eq_none
  rw [feedAll_base hrun, ← MySqlPacket.bytesOf_bytes (pre.map Prod.fst)]
  exact MySqlPacket.not_received_inside h hbytes (by simpa using hpre) (by simpa using hpost)

/-- Looking at every byte of one logical packet shows its payload, once. -/
theorem sample_message {packet packet' : Packet σ} {seen : List (List UInt8)}
    (h : packet.toMySqlPacket.BetweenPackets) {xs : List StampedByte} {m : Message UInt8}
    (hxs : xs.map Prod.fst = m.encode)
    (hsample : Fallible.sample feed receivedPayload packet (Fallible.singletons xs)
      = .ok (packet', seen)) :
    seen = [m.payload] ∧ packet'.toMySqlPacket = MySqlPacket.closed m := by
  have hfeed : packet.feedAll xs = .ok packet' := by
    simpa [feedAll] using Fallible.run_of_sample hsample
  have hclosed := feedAll_message_base h hxs hfeed
  have hne : xs ≠ [] := by
    intro hnil
    rw [hnil] at hxs
    exact m.encode_ne_nil hxs.symm
  -- what shows early is nothing, what shows at the end is the payload
  obtain ⟨early, rfl, hearly⟩ := Fallible.sample_singletons_chunk hne hsample
  rw [hearly.mpr (silent_message h hxs), receivedPayload_closed hclosed]
  exact ⟨rfl, hclosed⟩

/-- Looking at every byte of a list of logical packets shows their payloads, in order. Induction
on the packets. -/
theorem sample_messages {packet packet' : Packet σ} {seen : List (List UInt8)}
    (h : packet.toMySqlPacket.BetweenPackets) {xs : List StampedByte} {ms : List (Message UInt8)}
    (hxs : xs.map Prod.fst = ms.flatMap Message.encode)
    (hsample : Fallible.sample feed receivedPayload packet (Fallible.singletons xs)
      = .ok (packet', seen)) : seen = ms.map Message.payload := by
  induction ms generalizing packet xs seen with
  | nil =>
    obtain rfl : xs = [] := by simpa using hxs
    simp only [Fallible.singletons_nil, Fallible.sample_nil, Except.ok.injEq,
      Prod.mk.injEq] at hsample
    simp [← hsample.2]
  | cons m ms ih =>
    -- cut the stamped stream where the first logical packet ends
    obtain ⟨ys, zs, rfl, hys, hzs⟩ := List.map_eq_append_iff.mp hxs
    rw [Fallible.singletons_append] at hsample
    obtain ⟨t, seen₁, seen₂, h₁, h₂, rfl⟩ := Fallible.sample_append_ok.mp hsample
    obtain ⟨rfl, hclosed⟩ := sample_message h hys h₁
    rw [ih (by rw [hclosed]; exact MySqlPacket.betweenPackets_closed m) hzs h₂]
    rfl

/-- The payloads decoded from logical packets are theirs. -/
theorem decodePayloads_messages {packet packet' : Packet σ}
    (h : packet.toMySqlPacket.BetweenPackets) {xs : List StampedByte} {ms : List (Message UInt8)}
    (hxs : xs.map Prod.fst = ms.flatMap Message.encode) (hfeed : packet.feedAll xs = .ok packet') :
    packet.decodePayloads xs = .ok (ms.map Message.payload) := by
  have hrun : Fallible.run feed packet (Fallible.singletons xs).flatten = .ok packet' := by
    rw [Fallible.flatten_singletons]
    exact hfeed
  obtain ⟨seen, hseen⟩ := Fallible.exists_sample_of_run receivedPayload hrun
  rw [decodePayloads, hseen, ← sample_messages h hxs hseen]
  rfl

/-- An object of a derived class as its constructor leaves it. -/
def initial (derived : σ) : Packet σ := { derived := derived }

/-- The wire encoding of logical payloads, each with the sequence ids of its frames. -/
def encodePayloads (payloads : List ((Nat → UInt8) × List UInt8)) : List UInt8 :=
  payloads.flatMap fun p => (Message.ofPayload p.1 p.2).encode

/-- **Framing is decoded exactly.** Along every stream that is collected without a throw, the
packet is received after exactly the prefixes that are a whole number of logical packets, at least
one; it is then between packets again and `payload()` is the payload of the last of them. Hence
decoding the encoding of any payloads gives them back. -/
theorem collect_decodes_framing (derived : σ) (xs : List StampedByte) (packet : Packet σ)
    (hfeed : (initial derived).feedAll xs = .ok packet) :
    (∀ pre post, xs = pre ++ post → ∃ reached, (initial derived).feedAll pre = .ok reached ∧
      (reached.isReceived = true ↔ ∃ (ms : List (Message UInt8)) (m : Message UInt8),
        pre.map Prod.fst = (ms ++ [m]).flatMap Message.encode) ∧
      (∀ (ms : List (Message UInt8)) (m : Message UInt8),
        pre.map Prod.fst = (ms ++ [m]).flatMap Message.encode →
          reached.packetState = .PAYLOAD_LENGTH_0 ∧ reached.payloadFirstPart = true ∧
            reached.payload = m.payload)) ∧
    (∀ payloads, xs.map Prod.fst = encodePayloads payloads →
      (initial derived).decodePayloads xs = .ok (payloads.map Prod.snd)) := by
  have hbetween : (initial derived).toMySqlPacket.BetweenPackets :=
    MySqlPacket.betweenPackets_initial
  constructor
  · rintro pre post rfl
    obtain ⟨reached, hreached⟩ := Fallible.run_prefix_ok hfeed
    have hbase := feedAll_base hreached
    refine ⟨reached, hreached, ?_, fun ms m hpre => ?_⟩
    · by_cases hne : pre = []
      · -- no byte yet: the initial object is not received, and no packet is empty on the wire
        subst hne
        cases hreached
        constructor
        · exact fun h => absurd h (by simp [initial, MySqlPacket.isReceived])
        · rintro ⟨ms, m, hms⟩
          exact absurd hms.symm (by simp [Message.encode_ne_nil])
      · have hiff := MySqlPacket.isReceived_iff (α := UInt8) hbetween
          (show pre.map Prod.fst ≠ [] by simpa using hne)
        rw [MySqlPacket.bytesOf_bytes] at hiff
        rw [MySqlPacket.isReceived, hbase]
        exact hiff
    · have hclosed : reached.toMySqlPacket = MySqlPacket.closed m := by
        rw [hbase, hpre, ← MySqlPacket.bytesOf_bytes (List.flatMap _ _)]
        exact MySqlPacket.advanceAll_messages hbetween ms m
      rw [hclosed]
      exact ⟨rfl, rfl, MySqlPacket.bytesOf_bytes _⟩
  · intro payloads hxs
    have hmessages : xs.map Prod.fst
        = (payloads.map fun p => Message.ofPayload p.1 p.2).flatMap Message.encode := by
      rw [hxs, encodePayloads, List.flatMap_map]
    rw [decodePayloads_messages hbetween hmessages hfeed, List.map_map]
    congr 1
    apply List.map_congr_left
    intro p _
    exact Message.payload_ofPayload p.1 p.2

open scoped BasicString.Libstdcxx in
/-- A ping followed by an empty packet, from the client. -/
theorem collect_decodes_framing_ping :
    (initial FromClientFields.initial).decodePayloads
        ([1, 0, 0, 0, 0x0E, 0, 0, 0, 0].map fun b => (b, .COMMAND_PHASE))
      = .ok [[0x0E], []] := by
  have h := (collect_decodes_framing FromClientFields.initial
    ([1, 0, 0, 0, 0x0E, 0, 0, 0, 0].map fun b => (b, .COMMAND_PHASE)) _ rfl).2
    [(fun _ => 0, [0x0E]), (fun _ => 0, [])]
  apply h
  rw [encodePayloads, List.flatMap_cons, List.flatMap_cons, List.flatMap_nil,
    Message.encode_ofPayload_of_lt _ (by decide), Message.encode_ofPayload_of_lt _ (by decide)]
  rfl

end Packet
end Proxy
