import MySqlProxy.Packet.Extraction
import MySqlProxy.Packet.ServerWalk

/-!
# Which packets are rejected

A byte stream fed to a fresh packet object, each byte in a connection state of its own, throws at
no more than one byte. For a client packet that is the first payload byte of a logical packet, in
the command phase, naming a valid command under a sequence id other than 0, or a byte for which the
SQL string is refused room (`throwsAt_iff`). As long as the string gets its room, every other byte
of a packet, first or not, passes (`collect_throws_iff`); the first byte of a late continuation
frame is one that does not get it (`collect_throws_at_continuation`). A server packet throws
nowhere.
-/

namespace Proxy

open Framing FromClientFields

/-- The bytes before `x` are collected without a throw, and `x` throws. -/
def Packet.ThrowsAt {σ : Type} [Overrides σ] (packet : Packet σ) (pre : List StampedByte)
    (x : StampedByte) : Prop :=
  Fallible.FailsAt Packet.feed packet pre x

namespace FromClientPacket

/-- A rejected byte follows logical packets and the header of a frame that is not empty. -/
theorem RejectedAt.isSplit {pre : List StampedByte} {x : StampedByte} (h : RejectedAt pre x) :
    ∃ (ms : List (Message StampedByte)) (l0 l1 l2 s : StampedByte),
      IsSplit pre ms [] [l0, l1, l2, s] ∧ Rejected s.1 x := by
  obtain ⟨ms, l0, l1, l2, s, rfl, hpos, hrej⟩ := h
  exact ⟨ms, l0, l1, l2, s, isSplit_header ms s hpos, hrej⟩

/-- No byte of a continuation frame is rejected, and no payload byte after the first. -/
theorem not_rejectedAt_of_deeper {pre : List StampedByte} {ms : List (Message StampedByte)}
    {fs : List (Frame StampedByte)} {rest : List StampedByte} (hsplit : IsSplit pre ms fs rest)
    (hdeep : fs ≠ [] ∨ 4 < rest.length) (x : StampedByte) : ¬ RejectedAt pre x := by
  intro hrej
  obtain ⟨ns, l0, l1, l2, s, hheader, -⟩ := hrej.isSplit
  obtain ⟨-, rfl, rfl⟩ := hsplit.unique hheader
  rcases hdeep with hfs | hlen
  · exact hfs rfl
  · exact absurd hlen (by simp)

/-- The first payload byte of the logical packet that the full frames `fs` and the unfinished
frame `rest` belong to, `x` being the next byte. -/
def firstPayloadByte (fs : List (Frame StampedByte)) (rest : List StampedByte) (x : StampedByte) :
    Option StampedByte :=
  (fs.flatMap Frame.payload ++ rest.drop 4 ++ [x]).head?

/-- No byte of a packet begun in the connection phase is rejected. -/
theorem not_rejectedAt_of_connection {pre : List StampedByte} {ms : List (Message StampedByte)}
    {fs : List (Frame StampedByte)} {rest : List StampedByte} (hsplit : IsSplit pre ms fs rest)
    {x y : StampedByte} (hfirst : firstPayloadByte fs rest x = some y)
    (hy : y.2 = .CONNECTION_PHASE) : ¬ RejectedAt pre x := by
  intro hrej
  obtain ⟨ns, l0, l1, l2, s, hheader, hx⟩ := hrej.isSplit
  obtain ⟨-, rfl, rfl⟩ := hsplit.unique hheader
  -- the rejected byte would be the first of its packet, and handled in the command phase
  obtain rfl : x = y := by simpa [firstPayloadByte] using hfirst
  have hcommand := hx.1
  rw [hy] at hcommand
  exact absurd hcommand (by decide)

section

variable [BasicString.Library]

/-- The rule for the byte `x` after the stream `pre`: it throws if and only if no byte before it did
and it is a rejected command byte; no byte deeper in a packet throws, and none of a packet begun in
the connection phase; and a server packet collects every stream. -/
structure RejectsExactly (pre : List StampedByte) (x : StampedByte) : Prop where
  throws : initial.ThrowsAt pre x ↔
    (∀ pre' y post, pre = pre' ++ y :: post → ¬ initial.ThrowsAt pre' y) ∧ RejectedAt pre x
  deeper : ∀ ms fs rest, IsSplit pre ms fs rest →
    (fs ≠ [] ∨ 4 < rest.length ∨
      ∃ y, firstPayloadByte fs rest x = some y ∧ y.2 = .CONNECTION_PHASE) →
    ¬ initial.ThrowsAt pre x
  server : ¬ FromServerPacket.initial.ThrowsAt pre x

/-- Where a fresh packet throws. -/
theorem throwsAt_iff {pre : List StampedByte} {x : StampedByte} :
    initial.ThrowsAt pre x ↔
      (∀ pre' y post, pre = pre' ++ y :: post → ¬ initial.ThrowsAt pre' y) ∧
        (RejectedAt pre x ∨ RefusedAt pre x) :=
  Fallible.failsAt_iff fun _ hpre => feed_error_iff_rejectedAt hpre x

/-- What is refused throws, and is not rejected. -/
theorem RefusedAt.throwsAt {pre : List StampedByte} {x : StampedByte} (h : RefusedAt pre x) :
    initial.ThrowsAt pre x ∧ ¬ RejectedAt pre x := by
  obtain ⟨packet, failure, hpre, hrefuses⟩ := h
  refine ⟨⟨packet, _, hpre, feed_error_iff.mpr (Or.inr ⟨failure, hrefuses, rfl⟩)⟩, fun hrej => ?_⟩
  exact hrefuses.2.1
    ((rejects_iff_rejectedAt MySqlPacket.betweenPackets_initial hpre x).mpr hrej)

omit [BasicString.Library] in
theorem server_not_throwsAt (pre : List StampedByte) (x : StampedByte) :
    ¬ FromServerPacket.initial.ThrowsAt pre x := by
  rintro ⟨reached, e, -, hx⟩
  have hone := FromServerPacket.feedAll_eq reached [x]
  rw [Packet.feedAll, Fallible.run_singleton, hx] at hone
  exact absurd hone (by simp)

/-- **Exactly the bad packets are rejected**, whatever the connection states along the way, as long
as the SQL string gets the room the byte asks for: only `reserve` and `push_back` add a throw. -/
theorem collect_throws_iff (pre : List StampedByte) (x : StampedByte) :
    RejectsExactly pre x ↔ ¬ RefusedAt pre x := by
  constructor
  · intro hexactly hrefused
    obtain ⟨hthrows, hnot⟩ := hrefused.throwsAt
    exact hnot (hexactly.throws.mp hthrows).2
  · intro hgranted
    have hiff : initial.ThrowsAt pre x ↔
        (∀ pre' y post, pre = pre' ++ y :: post → ¬ initial.ThrowsAt pre' y) ∧
          RejectedAt pre x := by
      rw [throwsAt_iff, or_iff_left hgranted]
    refine ⟨hiff, fun ms fs rest hsplit hcase hthrows => ?_, server_not_throwsAt pre x⟩
    have hrej := (hiff.mp hthrows).2
    rcases hcase with hfs | hlen | ⟨y, hfirst, hy⟩
    · exact not_rejectedAt_of_deeper hsplit (Or.inl hfs) x hrej
    · exact not_rejectedAt_of_deeper hsplit (Or.inr hlen) x hrej
    · exact not_rejectedAt_of_connection hsplit hfirst hy hrej

end

/-- No byte of a logical packet whose first frame has the sequence id 0 is rejected. -/
theorem not_rejectedAt_of_seq_zero {m : Message StampedByte} (hseq : m.first.seq.1 = 0)
    {pre post : List StampedByte} {x : StampedByte} (heq : m.encode = pre ++ x :: post) :
    ¬ RejectedAt pre x := by
  rintro ⟨ms, l0, l1, l2, s, rfl, -, hrej⟩
  have hone : ms.flatMap Message.encode ++ ([l0, l1, l2, s] ++ x :: post)
      = [m].flatMap Message.encode := by
    rw [List.flatMap_singleton, heq, List.append_assoc]
  obtain ⟨tail, htail, hrest⟩ := Message.messages_of_append_eq hone
  cases ms with
  | cons n ms =>
    -- the packet would be complete before the header
    obtain ⟨-, hnil⟩ := List.cons.inj htail
    obtain ⟨-, rfl⟩ := List.append_eq_nil_iff.mp hnil.symm
    exact absurd hrest (by simp)
  | nil =>
    obtain ⟨xs, -, hencode, -⟩ := m.exists_append_first
    rw [heq, Frame.encode] at hencode
    simp only [List.flatMap_nil, List.nil_append, List.cons_append, List.cons.injEq] at hencode
    exact hrej.2.2 (hencode.2.2.2.1 ▸ hseq)

open scoped BasicString.Libstdcxx in
/-- The first frame of a long query gets the room it asks for. -/
theorem feedAll_first_longQuery :
    ∃ reached, initial.feedAll (commandMessage UInt8.ofNat 0x03 longQuery).first.encode
      = .ok reached := by
  have hseq := seq_commandMessage UInt8.ofNat 0x03 longQuery
  have hhead := (commandMessage UInt8.ofNat 0x03 longQuery).head?_payload
  rw [payload_commandMessage, List.head?_cons] at hhead
  generalize (commandMessage UInt8.ofNat 0x03 longQuery).first = f at hseq hhead
  obtain ⟨w, hw⟩ := List.head?_eq_some_iff.mp hhead.symm
  have hle : w.length ≤ 0x7FFFFFFFFFFFFFFE := by
    have hlength := f.length_le
    rw [hw, List.length_cons, fullLength] at hlength
    omega
  obtain ⟨capacity, hgrow⟩ := @BasicString.exists_grow _ (BasicString.Library.shrink 0 15) _ _ hle
    (if_pos (BasicString.createdCapacity_le hle))
  have hgranted : beginCapacity initial.derived.contents initial.derived.sqlString.capacity f
      = .ok capacity := (beginCapacity_sql rfl hw).trans hgrow
  obtain ⟨begun, hbegun, -⟩ := beginFrame_granted (fun x _ hbad => hbad.2.2 hseq) hgranted
  rw [feedAll_frame_first MySqlPacket.betweenPackets_initial, hbegun]
  exact ⟨_, rfl⟩

open scoped BasicString.Libstdcxx in
/-- A byte of a query of 41 full frames throws, behind the first frame, and is no command byte of a
bad packet. -/
theorem collect_throws_at_continuation :
    ∃ pre x post, (commandMessage UInt8.ofNat 0x03 longQuery).encode = pre ++ x :: post ∧
      (commandMessage UInt8.ofNat 0x03 longQuery).first.encode <+: pre ∧
      initial.ThrowsAt pre x ∧ ¬ RejectedAt pre x ∧ ¬ RejectsExactly pre x := by
  obtain ⟨reached, hreached⟩ := feedAll_first_longQuery
  obtain ⟨back, -, hencode, -⟩ := (commandMessage UInt8.ofNat 0x03 longQuery).exists_append_first
  have hthrows : ¬ ∃ packet, reached.feedAll back = .ok packet := by
    rintro ⟨packet, hback⟩
    refine feedAll_longQuery ⟨packet, ?_⟩
    rw [hencode]
    exact Fallible.run_append_ok.mpr ⟨reached, hreached, hback⟩
  have hsome : ¬ ∀ pre x post, back = pre ++ x :: post →
      ¬ Fallible.FailsAt Packet.feed reached pre x := fun hnone =>
    hthrows (Fallible.run_ok_iff.mpr hnone)
  simp only [not_forall, not_not] at hsome
  obtain ⟨pre, x, post, hback, t, e, hpre, hx⟩ := hsome
  have heq : (commandMessage UInt8.ofNat 0x03 longQuery).encode
      = ((commandMessage UInt8.ofNat 0x03 longQuery).first.encode ++ pre) ++ x :: post := by
    rw [hencode, hback, List.append_assoc]
  have hfails : initial.ThrowsAt
      ((commandMessage UInt8.ofNat 0x03 longQuery).first.encode ++ pre) x :=
    ⟨t, e, Fallible.run_append_ok.mpr ⟨reached, hreached, hpre⟩, hx⟩
  have hnot := not_rejectedAt_of_seq_zero (seq_commandMessage _ _ _) heq
  exact ⟨_, x, post, heq, List.prefix_append .., hfails, hnot,
    fun hexactly => hnot (hexactly.throws.mp hfails).2⟩

end FromClientPacket
end Proxy
