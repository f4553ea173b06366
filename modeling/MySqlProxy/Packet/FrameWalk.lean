import MySqlProxy.Packet.Collect
import MySqlProxy.Lib.Framing
import MySqlProxy.Lib.Sampling

/-!
# The framing walk — what `collect` does to the base class

The framing fields of a packet object change with the received bytes alone: neither the derived
class nor the connection state has a say. `advance` is that change, and `collect` is `advance`
on the base fields next to the overrides on the derived ones (`collect_header`, `collect_first`,
`collect_inner`). Everything about framing is then a fact about a plain fold over bytes:

* **`advanceAll_frame`** — from `PAYLOAD_LENGTH_0`, a whole frame leads back to
  `PAYLOAD_LENGTH_0` with the fields `afterFrame` lists;
* **`advanceAll_message`** — a whole logical packet leads to `closed`, whatever was there before;
* **`isReceived_iff`** — from the initial object, the packet is received exactly after a whole
  number of logical packets, at least one. Every other stream is some logical packets, full
  frames of an unfinished one and an unfinished frame (`exists_isSplit`).
-/

namespace Proxy

open Framing

/-- A byte stamped with the connection state it is handled in. -/
abbrev StampedByte := UInt8 × MySqlConnectionState

/-- The value of the three length bytes, as `collect` adds it up. -/
theorem payloadLength_eq_le24 (b0 b1 b2 : UInt8) :
    b0.toUInt64 + (b1.toUInt64 <<< 8) + (b2.toUInt64 <<< 16) = UInt64.ofNat (le24 b0 b1 b2) := by
  have h0 := b0.toNat_lt
  have h1 := b1.toNat_lt
  have h2 := b2.toNat_lt
  -- three bytes fill 24 of the 64 bits: no shift and no sum wraps around
  apply UInt64.toNat_inj.mp
  simp only [UInt64.toNat_add, UInt64.toNat_shiftLeft, UInt8.toNat_toUInt64, UInt64.toNat_ofNat',
    le24, UInt64.reduceToNat, Nat.shiftLeft_eq, Nat.reduceMod, Nat.reducePow]
  omega

/-- Lengths up to `fullLength` are told apart by their `UInt64`. -/
theorem ofNat_eq_ofNat_iff {n m : Nat} (hn : n ≤ fullLength) (hm : m ≤ fullLength) :
    UInt64.ofNat n = UInt64.ofNat m ↔ n = m := by
  simp only [fullLength] at hn hm
  constructor
  · intro h
    have hnat := congrArg UInt64.toNat h
    simp only [UInt64.toNat_ofNat'] at hnat
    omega
  · rintro rfl
    rfl

theorem ofNat_eq_zero_iff {n : Nat} (hn : n ≤ fullLength) : UInt64.ofNat n = 0 ↔ n = 0 :=
  ofNat_eq_ofNat_iff hn (Nat.zero_le _)

theorem max_eq_ofNat_iff {n : Nat} (hn : n ≤ fullLength) :
    (MAX_PAYLOAD_LENGTH == UInt64.ofNat n) = decide (n = fullLength) := by
  have h := ofNat_eq_ofNat_iff (Nat.le_refl fullLength) hn
  have hmax : MAX_PAYLOAD_LENGTH = UInt64.ofNat fullLength := rfl
  rw [hmax, Bool.eq_iff_iff, beq_iff_eq, h, decide_eq_true_iff]
  exact eq_comm

theorem toNat_ofNat_of_le {n : Nat} (hn : n ≤ fullLength) : (UInt64.ofNat n).toNat = n := by
  simp only [fullLength] at hn
  rw [UInt64.toNat_ofNat']
  omega

/-! ## The base step -/

namespace MySqlPacket

/-- What one byte does to the framing fields. -/
def advance (packet : MySqlPacket) (receivedByte : UInt8) : MySqlPacket :=
  match packet.packetState with
  | .PAYLOAD_LENGTH_0 =>
    { packet with
      payloadIsReceived := false
      receivedBytes := 0
      payloadLength := receivedByte.toUInt64
      packetState := .PAYLOAD_LENGTH_1 }
  | .PAYLOAD_LENGTH_1 =>
    { packet with
      payloadLength := packet.payloadLength + (receivedByte.toUInt64 <<< 8)
      packetState := .PAYLOAD_LENGTH_2 }
  | .PAYLOAD_LENGTH_2 =>
    { packet with
      payloadLength := packet.payloadLength + (receivedByte.toUInt64 <<< 16)
      packetState := .SEQUENCE_ID }
  | .SEQUENCE_ID =>
    { packet with
      sequenceId := receivedByte
      payloadNotEnded := MAX_PAYLOAD_LENGTH == packet.payloadLength
      payload := if packet.payloadFirstPart then [] else packet.payload
      payloadIsReceived := packet.payloadIsReceived || (packet.payloadLength == 0)
      payloadFirstPart := packet.payloadFirstPart || (packet.payloadLength == 0)
      packetState := if packet.payloadLength = 0 then .PAYLOAD_LENGTH_0 else .PAYLOAD }
  | .PAYLOAD =>
    let closes : Bool := packet.receivedBytes + 1 == packet.payloadLength
    { packet with
      payload := packet.payload ++ [receivedByte]
      receivedBytes := packet.receivedBytes + 1
      payloadIsReceived := packet.payloadIsReceived || (closes && !packet.payloadNotEnded)
      payloadFirstPart := if closes then !packet.payloadNotEnded else packet.payloadFirstPart
      packetState := if closes then .PAYLOAD_LENGTH_0 else .PAYLOAD }

/-- What a stream does to the framing fields. -/
def advanceAll (packet : MySqlPacket) (bytes : List UInt8) : MySqlPacket :=
  bytes.foldl advance packet

@[simp] theorem advanceAll_nil (packet : MySqlPacket) : packet.advanceAll [] = packet := rfl

theorem advanceAll_append (packet : MySqlPacket) (xs ys : List UInt8) :
    packet.advanceAll (xs ++ ys) = (packet.advanceAll xs).advanceAll ys :=
  List.foldl_append

theorem advanceAll_snoc (packet : MySqlPacket) (xs : List UInt8) (b : UInt8) :
    packet.advanceAll (xs ++ [b]) = (packet.advanceAll xs).advance b := by
  rw [advanceAll_append]
  rfl

/-- The byte that completes a frame which is not full completes the packet. -/
def ends (packet : MySqlPacket) : Bool :=
  packet.receivedBytes + 1 == packet.payloadLength && !packet.payloadNotEnded

end MySqlPacket

/-! ## `collect` is the base step next to the overrides -/

namespace Packet

variable {σ : Type} [Overrides σ]

/-- A header byte leaves the derived fields and the connection state alone. -/
theorem collect_header {packet : Packet σ} (h : packet.packetState ≠ .PAYLOAD) (b : UInt8)
    (st : MySqlConnectionState) :
    packet.collect b st = .ok (⟨packet.toMySqlPacket.advance b, packet.derived⟩, st) := by
  unfold collect MySqlPacket.advance
  split
  · simp_all
  · simp_all
  · simp_all
  · -- `SEQUENCE_ID`: the header of an empty frame is the whole frame
    by_cases hzero : packet.payloadLength = 0 <;> simp_all
  · exact absurd ‹packet.packetState = .PAYLOAD› h

/-- The derived fields after a payload byte: the first byte of the first frame is the command and
is not collected, and the byte that ends the packet closes the data. -/
def collected (packet : MySqlPacket) (b : UInt8) (derived : σ) : Except Exception σ :=
  (if 0 < packet.receivedBytes ∨ packet.payloadFirstPart = false then
      Overrides.collectData b derived
    else .ok derived).map fun derived =>
      if packet.ends then Overrides.dataIsReceived derived else derived

/-- A payload byte, once analysed, does `advance` to the base fields. -/
theorem collectPayload_eq (packet : Packet σ) (h : packet.packetState = .PAYLOAD) (b : UInt8) :
    (packet.pushPayload b).collectPayload b
      = (collected packet.toMySqlPacket b packet.derived).map fun derived =>
          ⟨packet.toMySqlPacket.advance b, derived⟩ := by
  obtain ⟨base, derived⟩ := packet
  simp only at h
  unfold collectPayload pushPayload MySqlPacket.advance collected MySqlPacket.ends
  by_cases hdata : 0 < base.receivedBytes ∨ base.payloadFirstPart = false
  · cases hcollect : Overrides.collectData b derived with
    | error e => simp [hdata, bind, Except.bind, Except.map]
    | ok data =>
      by_cases hclose : base.receivedBytes + 1 = base.payloadLength <;>
        cases base.payloadNotEnded <;>
          simp [h, hdata, hclose, bind, Except.bind, Except.map]
  · by_cases hclose : base.receivedBytes + 1 = base.payloadLength <;>
      cases base.payloadNotEnded <;> simp [h, hdata, hclose, bind, Except.bind, Except.map]

theorem analyse_base {packet : Packet σ} {b : UInt8} {st : MySqlConnectionState}
    {r : Packet σ × MySqlConnectionState} (h : packet.analyse b st = .ok r) :
    r.1 = { packet with derived := r.1.derived } := by
  unfold analyse at h
  cases st with
  | CONNECTION_PHASE =>
    cases h
    rfl
  | COMMAND_PHASE =>
    cases hparse : Overrides.commandPhaseParse packet.toMySqlPacket b packet.derived with
    | error e => simp [hparse, bind, Except.bind] at h
    | ok d =>
      simp only [hparse, bind, Except.bind, Except.ok.injEq] at h
      rw [← h]

/-- A payload byte after the first is collected. -/
theorem collect_inner {packet : Packet σ} (h : packet.packetState = .PAYLOAD)
    (hrecv : packet.receivedBytes ≠ 0) (b : UInt8) (st : MySqlConnectionState) :
    packet.collect b st = (collected packet.toMySqlPacket b packet.derived).map fun derived =>
      (⟨packet.toMySqlPacket.advance b, derived⟩, st) := by
  have hpush : (packet.pushPayload b).receivedBytes ≠ 0 := hrecv
  unfold collect
  simp only [h, if_neg hpush, bind, Except.bind, collectPayload_eq packet h]
  cases collected packet.toMySqlPacket b packet.derived <;> rfl

/-- The first payload byte is analysed, then collected. -/
theorem collect_first {packet : Packet σ} (h : packet.packetState = .PAYLOAD)
    (hrecv : packet.receivedBytes = 0) (b : UInt8) (st : MySqlConnectionState) :
    packet.collect b st = (packet.pushPayload b).analyse b st >>= fun r =>
      (collected packet.toMySqlPacket b r.1.derived).map fun derived =>
        (⟨packet.toMySqlPacket.advance b, derived⟩, r.2) := by
  have hpush : (packet.pushPayload b).receivedBytes = 0 := hrecv
  unfold collect
  simp only [h, if_pos hpush]
  cases hanalyse : (packet.pushPayload b).analyse b st with
  | error e => rfl
  | ok r =>
    -- the analysis only changes the derived fields, so `collectPayload_eq` applies to its result
    have hpushed : pushPayload b { packet with derived := r.1.derived } = r.1 :=
      (analyse_base hanalyse).symm
    have hr : r.1.collectPayload b
        = (collected packet.toMySqlPacket b r.1.derived).map fun derived =>
            ⟨packet.toMySqlPacket.advance b, derived⟩ := by
      rw [← hpushed]
      exact collectPayload_eq { packet with derived := r.1.derived } h b
    simp only [bind, Except.bind, hr]
    cases collected packet.toMySqlPacket b r.1.derived <;> rfl

/-- **The base fields of a collected packet.** -/
theorem collect_base {packet : Packet σ} {b : UInt8} {st : MySqlConnectionState}
    {r : Packet σ × MySqlConnectionState} (h : packet.collect b st = .ok r) :
    r.1.toMySqlPacket = packet.toMySqlPacket.advance b := by
  by_cases hstate : packet.packetState = .PAYLOAD
  · by_cases hrecv : packet.receivedBytes = 0
    · rw [collect_first hstate hrecv] at h
      obtain ⟨q, -, hcollected⟩ := Fallible.bind_ok_iff.mp h
      obtain ⟨derived, -, rfl⟩ := Fallible.map_ok_iff.mp hcollected
      rfl
    · rw [collect_inner hstate hrecv] at h
      obtain ⟨derived, -, rfl⟩ := Fallible.map_ok_iff.mp h
      rfl
  · rw [collect_header hstate] at h
    cases h
    rfl

theorem feed_base {packet packet' : Packet σ} {x : StampedByte} (h : packet.feed x = .ok packet') :
    packet'.toMySqlPacket = packet.toMySqlPacket.advance x.1 := by
  unfold feed at h
  obtain ⟨r, hcollect, rfl⟩ := Fallible.map_ok_iff.mp h
  exact collect_base hcollect

/-- Framing is a fold over the bytes: no override and no connection state changes it. -/
theorem feedAll_base {packet packet' : Packet σ} {xs : List StampedByte}
    (h : packet.feedAll xs = .ok packet') :
    packet'.toMySqlPacket = packet.toMySqlPacket.advanceAll (xs.map Prod.fst) := by
  have hfold := Fallible.run_project Packet.toMySqlPacket (fun base x => base.advance x.1)
    (fun _ _ _ hstep => feed_base hstep) h
  rw [hfold, MySqlPacket.advanceAll, List.foldl_map]

end Packet

/-! ## Walking a frame -/

namespace MySqlPacket

/-- The base fields after a header that announces `n` bytes. -/
def afterHeader (packet : MySqlPacket) (n : Nat) (sequenceId : UInt8) : MySqlPacket where
  payloadFirstPart := packet.payloadFirstPart || (n == 0)
  payloadNotEnded := decide (n = fullLength)
  payloadIsReceived := n == 0
  payloadLength := UInt64.ofNat n
  sequenceId := sequenceId
  receivedBytes := 0
  packetState := if n = 0 then .PAYLOAD_LENGTH_0 else .PAYLOAD
  payload := if packet.payloadFirstPart then [] else packet.payload

/-- The four header bytes, from `PAYLOAD_LENGTH_0`. -/
theorem advanceAll_header {packet : MySqlPacket} (h : packet.packetState = .PAYLOAD_LENGTH_0)
    (b0 b1 b2 s : UInt8) :
    packet.advanceAll [b0, b1, b2, s] = packet.afterHeader (le24 b0 b1 b2) s := by
  have hle := le24_le_fullLength b0 b1 b2
  have hzero := ofNat_eq_zero_iff hle
  have hlength := payloadLength_eq_le24 b0 b1 b2
  simp only [advanceAll, List.foldl_cons, List.foldl_nil, advance, h, hlength, afterHeader,
    max_eq_ofNat_iff hle, Bool.false_or, hzero]
  have hbeq : (UInt64.ofNat (le24 b0 b1 b2) == 0) = (le24 b0 b1 b2 == 0) := by
    rw [Bool.eq_iff_iff, beq_iff_eq, beq_iff_eq, hzero]
  rw [hbeq]

/-- An unfinished header leaves a packet that is not received and not in `PAYLOAD`. -/
theorem advanceAll_partial_header {packet : MySqlPacket}
    (h : packet.packetState = .PAYLOAD_LENGTH_0) {w : List UInt8} (hne : w ≠ [])
    (hlt : w.length < 4) :
    (packet.advanceAll w).payloadIsReceived = false ∧
      (packet.advanceAll w).packetState ≠ .PAYLOAD ∧
      (packet.advanceAll w).packetState ≠ .PAYLOAD_LENGTH_0 ∧
      (packet.advanceAll w).payloadFirstPart = packet.payloadFirstPart := by
  match w, hne, hlt with
  | [b0], _, _ => simp [advanceAll, advance, h]
  | [b0, b1], _, _ => simp [advanceAll, advance, h]
  | [b0, b1, b2], _, _ => simp [advanceAll, advance, h]

/-- Payload bytes short of the announced length are only counted and kept. Induction on the bytes
from the right. -/
theorem advanceAll_payload {packet : MySqlPacket} {n : Nat} (h : packet.packetState = .PAYLOAD)
    (hrecv : packet.receivedBytes = 0) (hlen : packet.payloadLength = UInt64.ofNat n)
    (hn : n ≤ fullLength) {w : List UInt8} (hlt : w.length < n) :
    packet.advanceAll w
      = { packet with
          receivedBytes := UInt64.ofNat w.length
          payload := packet.payload ++ w } := by
  induction w using List.reverseRecOn with
  | nil => simp [← hrecv]
  | append_singleton w b ih =>
    have hlt' : w.length + 1 < n := by simpa using hlt
    have hnext : UInt64.ofNat w.length + 1 = UInt64.ofNat (w.length + 1) :=
      (UInt64.ofNat_add w.length 1).symm
    -- the counter has not reached the announced length yet
    have hopen : UInt64.ofNat (w.length + 1) ≠ UInt64.ofNat n := by
      rw [Ne, ofNat_eq_ofNat_iff (by omega) hn]
      omega
    rw [advanceAll_snoc, ih (by omega)]
    simp only [advance, h, hlen, hnext, beq_eq_false_iff_ne.mpr hopen, List.append_assoc,
      List.length_append, List.length_singleton]
    simp

/-- The last payload byte closes the frame. -/
theorem advanceAll_payload_closed {packet : MySqlPacket} {n : Nat}
    (h : packet.packetState = .PAYLOAD) (hrecv : packet.receivedBytes = 0)
    (hlen : packet.payloadLength = UInt64.ofNat n) (hn : n ≤ fullLength) {w : List UInt8}
    (hw : w.length = n) (hne : w ≠ []) :
    packet.advanceAll w
      = { packet with
          receivedBytes := UInt64.ofNat n
          payload := packet.payload ++ w
          payloadIsReceived := packet.payloadIsReceived || !packet.payloadNotEnded
          payloadFirstPart := !packet.payloadNotEnded
          packetState := .PAYLOAD_LENGTH_0 } := by
  obtain ⟨w, b, rfl⟩ := (List.eq_nil_or_concat w).resolve_left hne
  rw [List.concat_eq_append] at *
  have hlen' : w.length + 1 = n := by simpa using hw
  have hnext : UInt64.ofNat w.length + 1 = UInt64.ofNat n := by
    rw [← hlen']
    exact (UInt64.ofNat_add w.length 1).symm
  rw [advanceAll_snoc, advanceAll_payload h hrecv hlen hn (by omega)]
  simp [advance, h, hlen, hnext]

/-! ## Walking frames and logical packets

The alphabet is any type whose symbols carry a byte; `bytesOf` are the bytes of a stream. -/

/-- The bytes of a stream of symbols. -/
def bytesOf {α : Type} [Octet α] (xs : List α) : List UInt8 := xs.map Octet.byte

variable {α : Type} [Octet α]

@[simp] theorem bytesOf_nil : bytesOf ([] : List α) = [] := rfl

@[simp] theorem bytesOf_append (xs ys : List α) : bytesOf (xs ++ ys) = bytesOf xs ++ bytesOf ys :=
  List.map_append

@[simp] theorem length_bytesOf (xs : List α) : (bytesOf xs).length = xs.length := List.length_map _

theorem bytesOf_ne_nil {xs : List α} (h : xs ≠ []) : bytesOf xs ≠ [] := by
  simpa [bytesOf] using h

theorem bytesOf_stamped (xs : List StampedByte) : bytesOf xs = xs.map Prod.fst := rfl

theorem bytesOf_bytes (xs : List UInt8) : bytesOf xs = xs := List.map_id' xs

/-- The base fields after a frame. -/
def afterFrame (packet : MySqlPacket) (f : Frame α) : MySqlPacket where
  payloadFirstPart := !decide f.IsFull
  payloadNotEnded := decide f.IsFull
  payloadIsReceived := !decide f.IsFull
  payloadLength := UInt64.ofNat f.payload.length
  sequenceId := Octet.byte f.seq
  receivedBytes := UInt64.ofNat f.payload.length
  packetState := .PAYLOAD_LENGTH_0
  payload := (if packet.payloadFirstPart then [] else packet.payload) ++ bytesOf f.payload

/-- **A whole frame.** The empty frame is closed by its header, any other by its last payload
byte; both restore the same fields. -/
theorem advanceAll_frame {packet : MySqlPacket} (h : packet.packetState = .PAYLOAD_LENGTH_0)
    (f : Frame α) : packet.advanceAll (bytesOf f.encode) = packet.afterFrame f := by
  have hencode : bytesOf f.encode = [Octet.byte f.len0, Octet.byte f.len1, Octet.byte f.len2,
      Octet.byte f.seq] ++ bytesOf f.payload := rfl
  rw [hencode, advanceAll_append, advanceAll_header h, ← f.length_eq]
  by_cases hempty : f.payload = []
  · -- the header byte closes the frame, which is not full
    have hfull : ¬ f.IsFull := by
      rw [Frame.IsFull, hempty, List.length_nil]
      exact Nat.ne_of_lt fullLength_pos
    simp [afterHeader, afterFrame, hempty, Nat.ne_of_lt fullLength_pos, Frame.IsFull]
  · -- the header leads into the payload, whose last byte closes the frame
    have hpos : (f.payload.length == 0) = false := by simpa using hempty
    rw [advanceAll_payload_closed (n := f.payload.length) (by simp [afterHeader, hempty]) rfl rfl
      f.length_le (length_bytesOf _) (bytesOf_ne_nil hempty)]
    simp only [afterHeader, afterFrame, hpos, Bool.false_or]
    rfl

/-- Whole full frames keep the logical packet open. -/
theorem advanceAll_full {packet : MySqlPacket} (h : packet.packetState = .PAYLOAD_LENGTH_0)
    {fs : List (Frame α)} (hfull : ∀ f ∈ fs, f.IsFull) :
    (packet.advanceAll (bytesOf (fs.flatMap Frame.encode))).packetState = .PAYLOAD_LENGTH_0 ∧
      (packet.advanceAll (bytesOf (fs.flatMap Frame.encode))).payloadFirstPart
        = (packet.payloadFirstPart && fs.isEmpty) ∧
      (packet.advanceAll (bytesOf (fs.flatMap Frame.encode))).payloadIsReceived
        = (packet.payloadIsReceived && fs.isEmpty) ∧
      (packet.payloadFirstPart = true → fs ≠ [] →
        (packet.advanceAll (bytesOf (fs.flatMap Frame.encode))).payload
          = bytesOf (fs.flatMap Frame.payload)) := by
  induction fs using List.reverseRecOn with
  | nil => simp [h]
  | append_singleton fs f ih =>
    have hlast : f.IsFull := hfull f (by simp)
    obtain ⟨hstate, hfirst, -, hpayload⟩ := ih fun g hg => hfull g (by simp [hg])
    rw [List.flatMap_append, bytesOf_append, advanceAll_append, List.flatMap_singleton,
      advanceAll_frame hstate f]
    refine ⟨rfl, ?_, ?_, fun hpacket _ => ?_⟩
    · simp [afterFrame, hlast]
    · simp [afterFrame, hlast]
    · simp only [afterFrame, hfirst, hpacket, Bool.true_and]
      by_cases hne : fs = []
      · simp [hne]
      · simp [hne, hpayload hpacket hne]

/-- The base fields after a logical packet, whatever they were before. -/
def closed (m : Message α) : MySqlPacket where
  payloadFirstPart := true
  payloadNotEnded := false
  payloadIsReceived := true
  payloadLength := UInt64.ofNat m.last.payload.length
  sequenceId := Octet.byte m.last.seq
  receivedBytes := UInt64.ofNat m.last.payload.length
  packetState := .PAYLOAD_LENGTH_0
  payload := bytesOf m.payload

/-- **A whole logical packet.** -/
theorem advanceAll_message {packet : MySqlPacket} (h : packet.packetState = .PAYLOAD_LENGTH_0)
    (hfirst : packet.payloadFirstPart = true) (m : Message α) :
    packet.advanceAll (bytesOf m.encode) = closed m := by
  obtain ⟨hstate, hopen, -, hpayload⟩ := advanceAll_full h m.full_isFull
  rw [m.encode_eq, bytesOf_append, advanceAll_append, advanceAll_frame hstate]
  have hlast := m.last_not_isFull
  by_cases hfull : m.full = []
  · simp [afterFrame, closed, hlast, hfirst, hfull, m.payload_eq]
  · -- the closing frame continues the payload collected by the full ones
    have hcontinued : (packet.advanceAll
        (bytesOf (m.full.flatMap Frame.encode))).payloadFirstPart = false := by
      simp [hopen, hfull]
    simp [afterFrame, closed, hlast, hcontinued, m.payload_eq, hpayload hfirst hfull]

/-- Between logical packets: the next byte begins one. -/
def BetweenPackets (packet : MySqlPacket) : Prop :=
  packet.packetState = .PAYLOAD_LENGTH_0 ∧ packet.payloadFirstPart = true

theorem betweenPackets_initial : BetweenPackets ({} : MySqlPacket) := ⟨rfl, rfl⟩

theorem betweenPackets_closed (m : Message α) : BetweenPackets (closed m) := ⟨rfl, rfl⟩

/-- Logical packets lead from one such state to the next. -/
theorem advanceAll_messages {packet : MySqlPacket} (h : packet.BetweenPackets)
    (ms : List (Message α)) (m : Message α) :
    packet.advanceAll (bytesOf ((ms ++ [m]).flatMap Message.encode)) = closed m := by
  induction ms generalizing packet with
  | nil => simpa using advanceAll_message h.1 h.2 m
  | cons m' ms ih =>
    rw [List.cons_append, List.flatMap_cons, bytesOf_append, advanceAll_append,
      advanceAll_message h.1 h.2 m']
    exact ih (betweenPackets_closed m')

theorem betweenPackets_messages {packet : MySqlPacket} (h : packet.BetweenPackets)
    (ms : List (Message α)) :
    BetweenPackets (packet.advanceAll (bytesOf (ms.flatMap Message.encode))) := by
  rcases List.eq_nil_or_concat ms with rfl | ⟨ms, m, rfl⟩
  · exact h
  · rw [List.concat_eq_append, advanceAll_messages h]
    exact betweenPackets_closed m

/-! ## An unfinished frame -/

/-- The base fields inside the payload of a frame, `k` bytes of `n` received. -/
structure InPayload (packet : MySqlPacket) (n k : Nat) (sequenceId : UInt8) : Prop where
  state : packet.packetState = .PAYLOAD
  length : packet.payloadLength = UInt64.ofNat n
  received : packet.receivedBytes = UInt64.ofNat k
  notEnded : packet.payloadNotEnded = decide (n = fullLength)
  sequence : packet.sequenceId = sequenceId
  notReceived : packet.payloadIsReceived = false

/-- The next byte ends the packet exactly when it is the last of a frame that is not full. -/
theorem InPayload.ends_iff {packet : MySqlPacket} {n k : Nat} {s : UInt8}
    (h : packet.InPayload n k s) (hn : n ≤ fullLength) (hk : k < n) :
    packet.ends = true ↔ k + 1 = n ∧ n ≠ fullLength := by
  have hnext : packet.receivedBytes + 1 = UInt64.ofNat (k + 1) := by
    rw [h.received]
    exact (UInt64.ofNat_add k 1).symm
  have hcloses : (packet.receivedBytes + 1 == packet.payloadLength) = decide (k + 1 = n) := by
    rw [hnext, h.length, Bool.eq_iff_iff, beq_iff_eq, decide_eq_true_iff,
      ofNat_eq_ofNat_iff (by omega) hn]
  simp [ends, hcloses, h.notEnded]

theorem InPayload.received_ne_zero_or {packet : MySqlPacket} {n k : Nat} {s : UInt8} {p : Prop}
    (h : packet.InPayload n k s) (hn : n ≤ fullLength) (hk : k < n) (hor : 0 < k ∨ p) :
    packet.receivedBytes ≠ 0 ∨ p := by
  rcases hor with hpos | hp
  · apply Or.inl
    rw [h.received, Ne, ofNat_eq_zero_iff (by omega)]
    omega
  · exact Or.inr hp

/-- A byte that is not the last leaves the packet inside the payload. -/
theorem InPayload.advance_open {packet : MySqlPacket} {n k : Nat} {s : UInt8}
    (h : packet.InPayload n k s) (hn : n ≤ fullLength) (b : UInt8) (hk : k + 1 < n) :
    (packet.advance b).InPayload n (k + 1) s ∧
      (packet.advance b).payloadFirstPart = packet.payloadFirstPart := by
  have hnext : packet.receivedBytes + 1 = UInt64.ofNat (k + 1) := by
    rw [h.received]
    exact (UInt64.ofNat_add k 1).symm
  have hopen : (packet.receivedBytes + 1 == packet.payloadLength) = false := by
    rw [hnext, h.length, beq_eq_false_iff_ne, Ne, ofNat_eq_ofNat_iff (by omega) hn]
    omega
  have hadvance : packet.advance b = { packet with
      payload := packet.payload ++ [b], receivedBytes := packet.receivedBytes + 1 } := by
    simp [advance, h.state, hopen]
  rw [hadvance]
  exact ⟨⟨h.state, h.length, hnext, h.notEnded, h.sequence, h.notReceived⟩, rfl⟩

/-- A header and part of the payload it announces lead inside the payload. -/
theorem advanceAll_partial_payload {packet : MySqlPacket}
    (h : packet.packetState = .PAYLOAD_LENGTH_0) (b0 b1 b2 s : UInt8) {w : List UInt8}
    (hlt : w.length < le24 b0 b1 b2) :
    InPayload (packet.advanceAll (b0 :: b1 :: b2 :: s :: w)) (le24 b0 b1 b2) w.length s ∧
      (packet.advanceAll (b0 :: b1 :: b2 :: s :: w)).payloadFirstPart
        = packet.payloadFirstPart := by
  have hne : le24 b0 b1 b2 ≠ 0 := by omega
  have hsplit : b0 :: b1 :: b2 :: s :: w = [b0, b1, b2, s] ++ w := rfl
  rw [hsplit, advanceAll_append, advanceAll_header h,
    advanceAll_payload (n := le24 b0 b1 b2) (by simp [afterHeader, hne]) rfl rfl
      (le24_le_fullLength _ _ _) hlt]
  exact ⟨⟨by simp [afterHeader, hne], rfl, rfl, rfl, rfl, by simp [afterHeader, hne]⟩,
    by simp [afterHeader, hne]⟩

/-- A packet is not received inside a frame. -/
theorem not_received_of_incomplete {packet : MySqlPacket}
    (h : packet.packetState = .PAYLOAD_LENGTH_0) {rest : List α} (hrest : Incomplete rest)
    (hne : rest ≠ []) :
    (packet.advanceAll (bytesOf rest)).payloadIsReceived = false ∧
      (packet.advanceAll (bytesOf rest)).packetState ≠ .PAYLOAD_LENGTH_0 := by
  cases hrest with
  | header hlt =>
    obtain ⟨hrecv, -, hstate, -⟩ :=
      advanceAll_partial_header h (bytesOf_ne_nil hne) (by rw [length_bytesOf]; exact hlt)
    exact ⟨hrecv, hstate⟩
  | payload l0 l1 l2 s hlt =>
    rename_i w
    obtain ⟨hin, -⟩ := advanceAll_partial_payload h (Octet.byte l0) (Octet.byte l1)
      (Octet.byte l2) (Octet.byte s) (w := bytesOf w) (by rw [length_bytesOf]; exact hlt)
    refine ⟨hin.notReceived, fun hstate => ?_⟩
    exact absurd (hin.state.symm.trans hstate) (by simp)

/-- **Where a stream stands.** Its logical packets and the full frames of an unfinished one lead to
the state its unfinished frame is read from: a length byte is due, of a first frame exactly when
there are no full frames. -/
theorem exists_split_state {packet : MySqlPacket} (h : packet.BetweenPackets) (xs : List α) :
    ∃ (ms : List (Message α)) (fs : List (Frame α)) (rest : List α) (base : MySqlPacket),
      IsSplit xs ms fs rest ∧
      packet.advanceAll (bytesOf xs) = base.advanceAll (bytesOf rest) ∧
      base.packetState = .PAYLOAD_LENGTH_0 ∧ base.payloadFirstPart = fs.isEmpty ∧
      (fs ≠ [] → base.payloadIsReceived = false) := by
  obtain ⟨ms, fs, rest, hsplit⟩ := exists_isSplit xs
  have hms := betweenPackets_messages h ms
  obtain ⟨hstate, hfirst, hreceived, -⟩ := advanceAll_full hms.1 hsplit.full
  refine ⟨ms, fs, rest, _, hsplit, ?_, hstate, ?_, fun hfs => ?_⟩
  · rw [hsplit.eq, bytesOf_append, bytesOf_append, advanceAll_append, advanceAll_append]
  · rw [hfirst, hms.2, Bool.true_and]
  · simp [hreceived, hfs]

/-- **When a packet is received.** From between two logical packets, after a non-empty stream,
exactly after a whole number of logical packets. -/
theorem isReceived_iff {packet : MySqlPacket} (h : packet.BetweenPackets) {xs : List α}
    (hne : xs ≠ []) :
    (packet.advanceAll (bytesOf xs)).payloadIsReceived = true ↔
      ∃ (ms : List (Message α)) (m : Message α), xs = (ms ++ [m]).flatMap Message.encode := by
  constructor
  · intro hrecv
    obtain ⟨ms, fs, rest, base, hsplit, hbase, hstate, -, hopen⟩ := exists_split_state h xs
    rw [hbase] at hrecv
    -- the unfinished frame and the unfinished packet must both be empty
    have hrest : rest = [] := by
      by_contra hrest
      rw [(not_received_of_incomplete hstate hsplit.incomplete hrest).1] at hrecv
      exact absurd hrecv (by decide)
    have hfs : fs = [] := by
      by_contra hfs
      rw [hrest, bytesOf_nil, advanceAll_nil, hopen hfs] at hrecv
      exact absurd hrecv (by decide)
    rcases List.eq_nil_or_concat ms with rfl | ⟨ms', m, rfl⟩
    · exact absurd (by rw [hsplit.eq, hfs, hrest]; rfl) hne
    · exact ⟨ms', m, by rw [hsplit.eq, hfs, hrest]; simp⟩
  · rintro ⟨ms, m, rfl⟩
    rw [advanceAll_messages h]
    rfl

/-- **Between packets** is after a whole number of logical packets, none included. -/
theorem betweenPackets_iff {packet : MySqlPacket} (h : packet.BetweenPackets) {xs : List α} :
    BetweenPackets (packet.advanceAll (bytesOf xs)) ↔
      ∃ ms : List (Message α), xs = ms.flatMap Message.encode := by
  constructor
  · rintro ⟨hstate, hfirst⟩
    obtain ⟨ms, fs, rest, base, hsplit, hbase, hlen0, hopen, -⟩ := exists_split_state h xs
    rw [hbase] at hstate hfirst
    -- an unfinished frame is not at `PAYLOAD_LENGTH_0`, a full one clears the first-part flag
    have hrest : rest = [] := by
      by_contra hrest
      exact (not_received_of_incomplete hlen0 hsplit.incomplete hrest).2 hstate
    have hfs : fs = [] := by
      rw [hrest, bytesOf_nil, advanceAll_nil, hopen] at hfirst
      exact List.isEmpty_iff.mp hfirst
    exact ⟨ms, by rw [hsplit.eq, hfs, hrest]; simp⟩
  · rintro ⟨ms, rfl⟩
    exact betweenPackets_messages h ms

/-- A packet is not received inside the logical packet being read. -/
theorem not_received_inside {packet : MySqlPacket} (h : packet.BetweenPackets) {m : Message α}
    {pre post : List α} (heq : m.encode = pre ++ post) (hpre : pre ≠ []) (hpost : post ≠ []) :
    (packet.advanceAll (bytesOf pre)).payloadIsReceived = false := by
  by_contra hrecv
  obtain ⟨ms, m', hms⟩ := (isReceived_iff h hpre).mp (by simpa using hrecv)
  rw [hms] at heq
  exact hpost (Message.eq_nil_of_messages_append_eq heq.symm)

/-! ## The first payload byte of a logical packet -/

/-- Some logical packets and the header of a frame that is not empty. -/
theorem inPayload_atCommand {packet : MySqlPacket} (h : packet.BetweenPackets)
    (ms : List (Message α)) {l0 l1 l2 : α} (s : α)
    (hpos : 0 < le24 (Octet.byte l0) (Octet.byte l1) (Octet.byte l2)) :
    InPayload (packet.advanceAll (bytesOf (ms.flatMap Message.encode ++ [l0, l1, l2, s])))
        (le24 (Octet.byte l0) (Octet.byte l1) (Octet.byte l2)) 0 (Octet.byte s) ∧
      (packet.advanceAll
        (bytesOf (ms.flatMap Message.encode ++ [l0, l1, l2, s]))).payloadFirstPart = true := by
  have hms := betweenPackets_messages h ms
  obtain ⟨hin, hfirst⟩ := advanceAll_partial_payload hms.1 (Octet.byte l0) (Octet.byte l1)
    (Octet.byte l2) (Octet.byte s) (w := []) (by simpa using hpos)
  rw [bytesOf_append, advanceAll_append]
  exact ⟨hin, hfirst.trans hms.2⟩

/-- **Where a command byte is due.** The next byte is the first payload byte of a logical packet
exactly after some logical packets and the header of a frame that is not empty. -/
theorem atCommand_iff {packet : MySqlPacket} (h : packet.BetweenPackets) {xs : List α} :
    ((packet.advanceAll (bytesOf xs)).packetState = .PAYLOAD ∧
      (packet.advanceAll (bytesOf xs)).receivedBytes = 0 ∧
      (packet.advanceAll (bytesOf xs)).payloadFirstPart = true) ↔
    ∃ (ms : List (Message α)) (l0 l1 l2 s : α),
      xs = ms.flatMap Message.encode ++ [l0, l1, l2, s] ∧
        0 < le24 (Octet.byte l0) (Octet.byte l1) (Octet.byte l2) := by
  constructor
  · rintro ⟨hstate, hrecv, hfirst⟩
    obtain ⟨ms, fs, rest, base, hsplit, hbase, hlen0, hopen, -⟩ := exists_split_state h xs
    rw [hbase] at hstate hrecv hfirst
    cases hsplit.incomplete with
    | header hlt =>
      -- an unfinished header does not reach the payload
      by_cases hrest : rest = []
      · rw [hrest, bytesOf_nil, advanceAll_nil, hlen0] at hstate
        exact absurd hstate (by decide)
      · have hheader := advanceAll_partial_header hlen0 (bytesOf_ne_nil hrest)
          (by rw [length_bytesOf]; exact hlt)
        exact absurd hstate hheader.2.1
    | payload l0 l1 l2 s hlt =>
      rename_i w
      obtain ⟨hin, hsame⟩ := advanceAll_partial_payload hlen0 (Octet.byte l0) (Octet.byte l1)
        (Octet.byte l2) (Octet.byte s) (w := bytesOf w) (by rw [length_bytesOf]; exact hlt)
      -- no payload byte has been counted, and no full frame has come before
      have hw : w = [] := by
        have hzero : UInt64.ofNat w.length = 0 := by
          rw [← length_bytesOf w, ← hin.received]
          exact hrecv
        have hle := le24_le_fullLength (Octet.byte l0) (Octet.byte l1) (Octet.byte l2)
        exact List.length_eq_zero_iff.mp ((ofNat_eq_zero_iff (by omega)).mp hzero)
      have hfs : fs = [] := by
        have hempty := hsame.symm.trans hfirst
        rw [hopen] at hempty
        exact List.isEmpty_iff.mp hempty
      exact ⟨ms, l0, l1, l2, s, by rw [hsplit.eq, hfs, hw]; rfl, by omega⟩
  · rintro ⟨ms, l0, l1, l2, s, rfl, hpos⟩
    obtain ⟨hin, hfirst⟩ := inPayload_atCommand h ms s hpos
    exact ⟨hin.state, hin.received, hfirst⟩

end MySqlPacket

end Proxy
