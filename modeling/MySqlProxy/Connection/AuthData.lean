import MySqlProxy.Connection.Interleaving
import MySqlProxy.Connection.LogCuts
import MySqlProxy.Connection.LogTruth

/-!
# Authentication data stays out of the log

Two runs whose client streams differ in the payload and the sequence ids of packets begun in the
connection phase, and in nothing else, log the same and throw alike (`auth_data_not_logged`).
Two facts make it so. Packets of the connection phase leave the derived fields as they are, because
the receive mode is still off and no command has been named (`afterMessage_auth`), so that the
fields are the same in both runs at the end of every packet (`run_afterMessage_eq`). And inside a
packet, nothing but these fields matters of what came before it (`feedAll_map_eq`), so that packets
that are the same throw alike.
-/

namespace Proxy

open Framing FromClientFields

/-! ## Packets that differ in authentication data -/

/-- What everybody may know of a frame: its length bytes, and the states its bytes are handled
in. -/
def frameShape (f : Frame StampedByte) :
    (StampedByte × StampedByte × StampedByte) × MySqlConnectionState × List MySqlConnectionState :=
  ((f.len0, f.len1, f.len2), f.seq.2, f.payload.map Prod.snd)

/-- Two logical packets of the same framing that are equal, unless their first payload byte is
handled in the connection phase. -/
structure DiffersInAuth (m m' : Message StampedByte) : Prop where
  shape : m.frames.map frameShape = m'.frames.map frameShape
  eq_of_not_auth : (∀ b rest, m.payload ≠ (b, .CONNECTION_PHASE) :: rest) → m = m'

/-- Two client streams of the same length that are cut out of such packets. -/
def SameButAuth (xs xs' : List StampedByte) : Prop :=
  xs.length = xs'.length ∧
    ∃ ms ms', List.Forall₂ DiffersInAuth ms ms' ∧
      xs <+: ms.flatMap Message.encode ∧ xs' <+: ms'.flatMap Message.encode

theorem states_payload (m : Message StampedByte) :
    m.payload.map Prod.snd = (m.frames.map frameShape).flatMap fun shape => shape.2.2 := by
  rw [Message.payload, List.map_flatMap, List.flatMap_map]
  rfl

theorem states_encode (m : Message StampedByte) :
    m.encode.map Prod.snd = (m.frames.map frameShape).flatMap fun ((b0, b1, b2), seq, payload) =>
      b0.2 :: b1.2 :: b2.2 :: seq :: payload := by
  rw [Message.encode, List.map_flatMap, List.flatMap_map]
  rfl

section DiffersInAuth

variable {m m' : Message StampedByte}

theorem DiffersInAuth.states (h : DiffersInAuth m m') :
    m.payload.map Prod.snd = m'.payload.map Prod.snd := by
  rw [states_payload, states_payload, h.shape]

theorem DiffersInAuth.length_encode (h : DiffersInAuth m m') :
    m.encode.length = m'.encode.length := by
  have hstates : m.encode.map Prod.snd = m'.encode.map Prod.snd := by
    rw [states_encode, states_encode, h.shape]
  simpa using congrArg List.length hstates

theorem DiffersInAuth.auth (h : DiffersInAuth m m') {b : UInt8} {rest : List StampedByte}
    (hpayload : m.payload = (b, .CONNECTION_PHASE) :: rest) :
    ∃ b' rest', m'.payload = (b', .CONNECTION_PHASE) :: rest' := by
  have hstates := h.states
  rw [hpayload, List.map_cons] at hstates
  obtain ⟨⟨b', st⟩, rest', hpayload', hst, -⟩ := List.map_eq_cons_iff.mp hstates.symm
  obtain rfl : st = .CONNECTION_PHASE := hst
  exact ⟨b', rest', hpayload'⟩

theorem DiffersInAuth.symm (h : DiffersInAuth m m') : DiffersInAuth m' m := by
  refine ⟨h.shape.symm, fun hnot => (h.eq_of_not_auth fun b rest hpayload => ?_).symm⟩
  obtain ⟨b', rest', hpayload'⟩ := h.auth hpayload
  exact hnot b' rest' hpayload'

theorem DiffersInAuth.length_last (h : DiffersInAuth m m') :
    m.last.payload.length = m'.last.payload.length := by
  have hshape := h.shape
  rw [Message.frames, Message.frames, List.map_append, List.map_append] at hshape
  have hlast := List.append_inj_right' hshape rfl
  have hstates := congrArg (List.map fun shape => shape.2.2.length) hlast
  simpa [frameShape] using hstates

end DiffersInAuth

theorem forall₂_append_left {α β : Type} {R : α → β → Prop} {xs ys : List α} {zs : List β}
    (h : List.Forall₂ R (xs ++ ys) zs) :
    ∃ xs' ys', zs = xs' ++ ys' ∧ List.Forall₂ R xs xs' ∧ List.Forall₂ R ys ys' := by
  have hxs := List.forall₂_take xs.length h
  have hys := List.forall₂_drop xs.length h
  rw [List.take_left] at hxs
  rw [List.drop_left] at hys
  exact ⟨_, _, (List.take_append_drop _ _).symm, hxs, hys⟩

theorem SameButAuth.symm {xs xs' : List StampedByte} (h : SameButAuth xs xs') :
    SameButAuth xs' xs := by
  obtain ⟨hlen, ms, ms', hms, hxs, hxs'⟩ := h
  refine ⟨hlen.symm, ms', ms, List.Forall₂.flip ?_, hxs', hxs⟩
  exact hms.imp fun _ _ hm => hm.symm

theorem SameButAuth.take {xs xs' : List StampedByte} (h : SameButAuth xs xs') (n : Nat) :
    SameButAuth (xs.take n) (xs'.take n) := by
  obtain ⟨hlen, ms, ms', hms, hxs, hxs'⟩ := h
  refine ⟨by rw [List.length_take, List.length_take, hlen], ms, ms', hms, ?_, ?_⟩
  · exact (List.take_prefix n xs).trans hxs
  · exact (List.take_prefix n xs').trans hxs'

/-- **Where two such streams stand.** Both have ended a packet, or both stand strictly inside
corresponding packets, at the same place. Induction on the packets. -/
theorem SameButAuth.split {xs xs' : List StampedByte} (h : SameButAuth xs xs') :
    (∃ ms ms', List.Forall₂ DiffersInAuth ms ms' ∧ xs = ms.flatMap Message.encode ∧
      xs' = ms'.flatMap Message.encode) ∨
    ∃ ms ms' m m' w w' v v', List.Forall₂ DiffersInAuth ms ms' ∧ DiffersInAuth m m' ∧
      xs = ms.flatMap Message.encode ++ w ∧ xs' = ms'.flatMap Message.encode ++ w' ∧
      m.encode = w ++ v ∧ m'.encode = w' ++ v' ∧ w ≠ [] ∧ v ≠ [] ∧ w.length = w'.length := by
  obtain ⟨hlen, ms, ms', hms, hxs, hxs'⟩ := h
  induction hms generalizing xs xs' with
  | nil => exact Or.inl ⟨[], [], .nil, List.prefix_nil.mp hxs, List.prefix_nil.mp hxs'⟩
  | @cons m m' ms ms' hm hms ih =>
    obtain ⟨more, hmore⟩ := hxs
    obtain ⟨more', hmore'⟩ := hxs'
    rw [List.flatMap_cons] at hmore hmore'
    have hencode := hm.length_encode
    rcases List.append_eq_append_iff.mp hmore with ⟨v, hv, -⟩ | ⟨zs, rfl, hzs⟩
    · -- the streams end in the first packet
      obtain ⟨v', hv'⟩ : ∃ v', m'.encode = xs' ++ v' := by
        have hle : xs'.length ≤ m'.encode.length := by
          rw [← hlen, ← hencode, hv, List.length_append]
          omega
        exact ⟨_, (List.prefix_iff_eq_append.mp
          (List.prefix_of_prefix_length_le ⟨more', hmore'⟩ (List.prefix_append _ _) hle)).symm⟩
      by_cases hnil : xs = []
      · subst hnil
        exact Or.inl ⟨[], [], .nil, rfl, List.length_eq_zero_iff.mp hlen.symm⟩
      · by_cases hend : v = []
        · subst hend
          have hend' : v' = [] := by
            rw [hv, hv', List.length_append, List.length_append, List.length_nil, hlen] at hencode
            exact List.length_eq_zero_iff.mp (by omega)
          refine Or.inl ⟨[m], [m'], .cons hm .nil, ?_, ?_⟩
          · rw [List.flatMap_singleton, hv, List.append_nil]
          · rw [List.flatMap_singleton, hv', hend', List.append_nil]
        · exact Or.inr ⟨[], [], m, m', xs, xs', v, v', .nil, hm, rfl, rfl, hv, hv', hnil, hend,
            hlen⟩
    · -- the first packet is complete
      obtain ⟨zs', rfl, hzs'⟩ : ∃ zs', xs' = m'.encode ++ zs' ∧
          zs' ++ more' = ms'.flatMap Message.encode := by
        have hle : m'.encode.length ≤ xs'.length := by
          rw [← hlen, ← hencode, List.length_append]
          omega
        obtain ⟨zs', rfl⟩ := List.prefix_of_prefix_length_le (List.prefix_append _ _)
          ⟨more', hmore'⟩ hle
        rw [List.append_assoc] at hmore'
        exact ⟨zs', rfl, List.append_cancel_left hmore'⟩
      have hrest : zs.length = zs'.length := by
        rw [List.length_append, List.length_append, hencode] at hlen
        omega
      rcases ih hrest ⟨more, hzs.symm⟩ ⟨more', hzs'⟩ with ⟨ns, ns', hns, rfl, rfl⟩ |
        ⟨ns, ns', n, n', w, w', v, v', hns, hn, rfl, rfl, hinside⟩
      · exact Or.inl ⟨m :: ns, m' :: ns', .cons hm hns, rfl, rfl⟩
      · exact Or.inr ⟨m :: ns, m' :: ns', n, n', w, w', v, v', .cons hm hns, hn,
          (List.append_assoc ..).symm, (List.append_assoc ..).symm, hinside⟩

/-! ## The same packets are logged -/

/-- Packets of the connection phase leave the receive mode off. Induction on the packets from the
right. -/
theorem receiveMode_eq_false {ms : List (Message StampedByte)}
    (h : ∀ x ∈ ms.flatMap Message.encode, x.2 = .CONNECTION_PHASE) : receiveMode ms = false := by
  induction ms using List.reverseRecOn with
  | nil => rfl
  | append_singleton ms m ih =>
    rw [List.flatMap_append, List.flatMap_singleton] at h
    have hmode := ih fun x hx => h x (List.mem_append_left _ hx)
    rw [receiveMode, List.foldl_append, ← receiveMode, hmode, List.foldl_cons, List.foldl_nil,
      modeAfter, modeDuring]
    split
    · rename_i c rest hpayload
      have hmem : (c, MySqlConnectionState.COMMAND_PHASE) ∈ m.encode :=
        mem_encode_of_mem_payload (by simp [hpayload])
      exact absurd (h _ (List.mem_append_right _ hmem)) (by simp)
    · rfl

theorem Settled.left {st : MySqlConnectionState} {xs ys : List StampedByte}
    (h : Settled st (xs ++ ys)) : Settled st xs := by
  obtain ⟨auth, commands, heq, hst⟩ := h
  rcases List.append_eq_append_iff.mp heq with ⟨zs, hauth, -⟩ | ⟨zs, hxs, hcommands⟩
  · -- the cut lies in the connection phase
    obtain ⟨front, back, rfl, rfl, -⟩ := List.map_eq_append_iff.mp hauth
    exact ⟨front, [], (List.append_nil _).symm, fun _ => rfl⟩
  · obtain ⟨front, back, rfl, rfl, -⟩ := List.map_eq_append_iff.mp hcommands
    exact ⟨auth, front, hxs, fun hcon => (List.append_eq_nil_iff.mp (hst hcon)).1⟩

section

variable [BasicString.Library]

/-- A packet begun in the connection phase leaves idle fields as they are. -/
theorem afterMessage_auth {packet : FromClientFields} (hidle : packet.contents.Idle)
    {m : Message StampedByte} {b : UInt8} {rest : List StampedByte}
    (hpayload : m.payload = (b, .CONNECTION_PHASE) :: rest) :
    packet.afterMessage m = .ok packet := by
  refine afterMessage_ok_iff.mpr ⟨?_, (hidle.afterMessage hpayload).symm,
    hidle.messageCapacity hpayload _⟩
  intro x rest' hx hrej
  obtain ⟨rfl, -⟩ := List.cons.inj (hpayload.symm.trans hx)
  exact absurd hrej.1 (by simp)

/-- The fields are idle after packets of the connection phase. -/
theorem idle_of_connection {packet : FromClientFields} {ms : List (Message StampedByte)}
    (hrun : Fallible.run afterMessage initial ms = .ok packet)
    (h : ∀ x ∈ ms.flatMap Message.encode, x.2 = .CONNECTION_PHASE) : packet.contents.Idle := by
  have hmode := Fallible.run_project FromClientFields.sqlDataReceiving modeAfter
    (fun _ _ _ hstep => mode_afterMessage hstep) hrun
  have hcommand := Fallible.run_project FromClientFields.command commandAfter
    (fun _ _ _ hstep => command_afterMessage hstep) hrun
  have hunknown : packet.command = .UNKNOWN := hcommand.trans (lastCommand_eq_unknown h)
  refine ⟨hmode.trans (receiveMode_eq_false h), ?_⟩
  show MySqlCommand.hasSqlField packet.command = false
  rw [hunknown]
  rfl

/-- **The derived fields are the same.** Induction on the packets from the right: one begun in the
connection phase comes after packets of that phase only, which have left the fields idle. -/
theorem run_afterMessage_eq {st : MySqlConnectionState} {ms ms' : List (Message StampedByte)}
    (h : List.Forall₂ DiffersInAuth ms ms') (hsettled : Settled st (ms.flatMap Message.encode)) :
    Fallible.run afterMessage initial ms = Fallible.run afterMessage initial ms' := by
  induction ms using List.reverseRecOn generalizing ms' with
  | nil =>
    obtain rfl := List.forall₂_nil_left_iff.mp h
    rfl
  | append_singleton ms m ih =>
    obtain ⟨ms', tail', rfl, hms, htail⟩ := forall₂_append_left h
    obtain ⟨m', nil', hm, hnil, rfl⟩ := List.forall₂_cons_left_iff.mp htail
    obtain rfl := List.forall₂_nil_left_iff.mp hnil
    rw [List.flatMap_append, List.flatMap_singleton] at hsettled
    have hbefore := ih hms hsettled.left
    by_cases hauth : ∃ b rest, m.payload = (b, .CONNECTION_PHASE) :: rest
    · obtain ⟨b, rest, hpayload⟩ := hauth
      obtain ⟨b', rest', hpayload'⟩ := hm.auth hpayload
      have hphase := hsettled.before_connection
        (mem_encode_of_mem_payload (x := (b, .CONNECTION_PHASE)) (by simp [hpayload])) rfl
      rw [Fallible.run_append, Fallible.run_append, ← hbefore]
      cases hrun : Fallible.run afterMessage initial ms with
      | error e => rfl
      | ok packet =>
        have hidle := idle_of_connection hrun hphase
        show Fallible.run afterMessage packet [m] = Fallible.run afterMessage packet [m']
        rw [Fallible.run_singleton, Fallible.run_singleton, afterMessage_auth hidle hpayload,
          afterMessage_auth hidle hpayload']
    · have heq : m = m' := hm.eq_of_not_auth fun b rest hpayload => hauth ⟨b, rest, hpayload⟩
      rw [Fallible.run_append, Fallible.run_append, hbefore, heq]

/-- What shows at the end of a logical packet. -/
theorem logRecord_messages (ms : List (Message StampedByte)) (m : Message StampedByte) :
    (FromClientPacket.initial.feedAll ((ms ++ [m]).flatMap Message.encode)).map
        FromClientPacket.logRecord
      = (Fallible.run afterMessage initial (ms ++ [m])).map fun derived =>
          FromClientPacket.logRecord ⟨MySqlPacket.closed m, derived⟩ := by
  have hbetween := MySqlPacket.betweenPackets_initial
  have hclosed := MySqlPacket.advanceAll_messages hbetween ms m
  rw [FromClientPacket.feedAll_messages hbetween]
  cases hrun : Fallible.run afterMessage initial (ms ++ [m]) with
  | error e =>
    rw [show Fallible.run afterMessage FromClientPacket.initial.derived (ms ++ [m]) = .error e
      from hrun]
    rfl
  | ok derived =>
    rw [show Fallible.run afterMessage FromClientPacket.initial.derived (ms ++ [m]) = .ok derived
      from hrun]
    simp only [Except.map]
    rw [show FromClientPacket.initial.toMySqlPacket.advanceAll
      (MySqlPacket.bytesOf ((ms ++ [m]).flatMap Message.encode)) = MySqlPacket.closed m
      from hclosed]

omit [BasicString.Library] in
/-- A closed packet shows the length of its last frame and its derived fields. -/
theorem logRecord_closed_eq {m m' : Message StampedByte}
    (h : m.last.payload.length = m'.last.payload.length) (derived : FromClientFields) :
    FromClientPacket.logRecord ⟨MySqlPacket.closed m, derived⟩
      = FromClientPacket.logRecord ⟨MySqlPacket.closed m', derived⟩ := by
  have hname : FromClientPacket.getCommandString ⟨MySqlPacket.closed m, derived⟩
      = FromClientPacket.getCommandString ⟨MySqlPacket.closed m', derived⟩ := by
    simp only [FromClientPacket.getCommandString, MySqlPacket.closed, h]
  unfold FromClientPacket.logRecord
  rw [hname]
  rfl

omit [BasicString.Library] in
/-- The length, the sequence id and the position are the same after a header, whatever packet came
before it. -/
theorem advanceAll_header_eq {base base' : MySqlPacket} (h : base.BetweenPackets)
    (h' : base'.BetweenPackets) (l0 l1 l2 s : UInt8) :
    base.advanceAll [l0, l1, l2, s] = base'.advanceAll [l0, l1, l2, s] := by
  rw [MySqlPacket.advanceAll_header h.1, MySqlPacket.advanceAll_header h'.1,
    MySqlPacket.afterHeader, MySqlPacket.afterHeader, h.2, h'.2]
  rfl

/-- Strictly inside a packet nothing shows. -/
theorem feedAll_inside_packet {packet reached : FromClientPacket}
    (h : packet.toMySqlPacket.BetweenPackets) {m : Message StampedByte} {w v : List StampedByte}
    (hsplit : m.encode = w ++ v) (hw : w ≠ []) (hv : v ≠ [])
    (hfeed : packet.feedAll w = .ok reached) : reached.logRecord = none := by
  refine FromClientPacket.logRecord_of_not_received ?_
  rw [MySqlPacket.isReceived, Packet.feedAll_base hfeed]
  exact MySqlPacket.not_received_inside h hsplit hw hv

/-- Inside a packet, nothing but the derived fields matters of what came before it. -/
theorem feedAll_map_eq {packet packet' : FromClientPacket} (h : packet.toMySqlPacket.BetweenPackets)
    (h' : packet'.toMySqlPacket.BetweenPackets) (hderived : packet.derived = packet'.derived)
    {m : Message StampedByte} {w v : List StampedByte} (hsplit : m.encode = w ++ v) (hw : w ≠ [])
    (hv : v ≠ []) :
    (packet.feedAll w).map FromClientPacket.logRecord
      = (packet'.feedAll w).map FromClientPacket.logRecord := by
  by_cases hlen : w.length ≤ 4
  · -- a header does not throw
    have hfeed := FromClientPacket.feedAll_header h.1 hlen
    have hfeed' := FromClientPacket.feedAll_header h'.1 hlen
    rw [hfeed, hfeed', Except.map, Except.map, feedAll_inside_packet h hsplit hw hv hfeed,
      feedAll_inside_packet h' hsplit hw hv hfeed']
  · obtain ⟨l0, l1, l2, s, rest, rfl⟩ : ∃ l0 l1 l2 s rest, w = [l0, l1, l2, s] ++ rest := by
      match w, hlen with
      | l0 :: l1 :: l2 :: s :: rest, _ => exact ⟨l0, l1, l2, s, rest, rfl⟩
      | [], hlen | [_], hlen | [_, _], hlen | [_, _, _], hlen => exact absurd hlen (by simp)
    have hheader : packet.feedAll [l0, l1, l2, s] = packet'.feedAll [l0, l1, l2, s] := by
      rw [FromClientPacket.feedAll_header h.1 (by simp),
        FromClientPacket.feedAll_header h'.1 (by simp), hderived,
        show MySqlPacket.bytesOf [l0, l1, l2, s] = [l0.1, l1.1, l2.1, s.1] from rfl,
        advanceAll_header_eq h h']
    rw [Packet.feedAll, Packet.feedAll, Fallible.run_append, Fallible.run_append,
      ← Packet.feedAll, ← Packet.feedAll, hheader]

/-- A packet begun in the connection phase: a part of it goes through, and shows nothing, when the
fields are idle or its payload is still to come. -/
theorem feedAll_auth {packet : FromClientPacket} (h : packet.toMySqlPacket.BetweenPackets)
    {m : Message StampedByte} {b : UInt8} {rest : List StampedByte}
    (hpayload : m.payload = (b, .CONNECTION_PHASE) :: rest) {w v : List StampedByte}
    (hsplit : m.encode = w ++ v) (hw : w ≠ []) (hv : v ≠ [])
    (hidle : 4 < w.length → packet.derived.contents.Idle) :
    (packet.feedAll w).map FromClientPacket.logRecord = .ok none := by
  obtain ⟨reached, hreached⟩ : ∃ reached, packet.feedAll w = .ok reached := by
    by_cases hlen : 4 < w.length
    · have hwhole := FromClientPacket.feedAll_message h m
      rw [afterMessage_auth (hidle hlen) hpayload, hsplit] at hwhole
      exact Fallible.run_prefix_ok hwhole
    · exact ⟨_, FromClientPacket.feedAll_header h.1 (Nat.le_of_not_lt hlen)⟩
  rw [hreached, Except.map, feedAll_inside_packet h hsplit hw hv hreached]

omit [BasicString.Library] in
/-- More than a header of a packet holds its first payload byte. -/
theorem mem_of_header_lt {m : Message StampedByte} {x : StampedByte} {rest : List StampedByte}
    (hpayload : m.payload = x :: rest) {w v : List StampedByte} (hsplit : m.encode = w ++ v)
    (hlen : 4 < w.length) : x ∈ w := by
  obtain ⟨xs, -, hencode, -⟩ := m.exists_append_first
  have hhead := m.head?_payload
  rw [hpayload, List.head?_cons] at hhead
  obtain ⟨p, hp⟩ := List.head?_eq_some_iff.mp hhead.symm
  -- the byte behind the four of the header
  have hbyte : m.encode[4]? = some x := by
    rw [hencode, Frame.encode, hp]
    rfl
  rw [hsplit, List.getElem?_append_left hlen] at hbyte
  exact List.mem_of_getElem? hbyte

/-- **Streams that differ in authentication data show the same.** The cases are where they stand:
at the end of a packet, or inside one, which is the same in both or of the connection phase. -/
theorem showsAlike_of_sameButAuth {st : MySqlConnectionState} {xs xs' : List StampedByte}
    (h : SameButAuth xs xs') (hsettled : Settled st xs) :
    Fallible.ShowsAlike Packet.feed FromClientPacket.logRecord FromClientPacket.initial
      FromClientPacket.initial xs xs' := by
  intro n
  have hinitial := MySqlPacket.betweenPackets_initial
  rw [← List.take_append_drop n xs] at hsettled
  have hleft := hsettled.left
  rw [← Packet.feedAll, ← Packet.feedAll]
  rcases (h.take n).split with ⟨ms, ms', hall, hxs, hxs'⟩ |
    ⟨ms, ms', m, m', w, w', v, v', hall, hm, hxs, hxs', hsplit, hsplit', hw, hv, hlen⟩
  · rw [hxs] at hleft
    rw [hxs, hxs']
    rcases List.eq_nil_or_concat ms with rfl | ⟨front, m, rfl⟩
    · obtain rfl := List.forall₂_nil_left_iff.mp hall
      rfl
    · rw [List.concat_eq_append] at hall hleft ⊢
      have hsame := run_afterMessage_eq hall hleft
      obtain ⟨front', tail', rfl, -, htail⟩ := forall₂_append_left hall
      obtain ⟨m', nil', hm, hnil, rfl⟩ := List.forall₂_cons_left_iff.mp htail
      obtain rfl := List.forall₂_nil_left_iff.mp hnil
      rw [logRecord_messages, logRecord_messages, hsame]
      congr 1
      funext derived
      exact logRecord_closed_eq hm.length_last derived
  · rw [hxs] at hleft
    rw [hxs, hxs', Packet.feedAll, Packet.feedAll, Fallible.run_append, Fallible.run_append,
      ← Packet.feedAll, ← Packet.feedAll, FromClientPacket.feedAll_messages hinitial,
      FromClientPacket.feedAll_messages hinitial]
    have hsame := run_afterMessage_eq hall hleft.left
    rw [show FromClientPacket.initial.derived = initial from rfl, ← hsame]
    cases hrun : Fallible.run afterMessage initial ms with
    | error e => rfl
    | ok derived =>
      have hbase := MySqlPacket.betweenPackets_messages hinitial ms
      have hbase' := MySqlPacket.betweenPackets_messages hinitial ms'
      by_cases hauth : ∃ b rest, m.payload = (b, .CONNECTION_PHASE) :: rest
      · obtain ⟨b, rest, hpayload⟩ := hauth
        obtain ⟨b', rest', hpayload'⟩ := hm.auth hpayload
        have hidle : 4 < w.length → derived.contents.Idle := fun hlt =>
          idle_of_connection hrun
            (hleft.before_connection (mem_of_header_lt hpayload hsplit hlt) rfl)
        have hw' : w' ≠ [] := List.ne_nil_of_length_pos (hlen ▸ List.length_pos_iff.mpr hw)
        have hv' : v' ≠ [] := by
          have hencode := hm.length_encode
          have hpos := List.length_pos_iff.mpr hv
          rw [hsplit, hsplit', List.length_append, List.length_append, hlen] at hencode
          exact List.ne_nil_of_length_pos (by omega)
        exact (feedAll_auth hbase hpayload hsplit hw hv hidle).trans
          (feedAll_auth hbase' hpayload' hsplit' hw' hv' (by rw [← hlen]; exact hidle)).symm
      · obtain rfl : m = m' :=
          hm.eq_of_not_auth fun b rest hpayload => hauth ⟨b, rest, hpayload⟩
        obtain ⟨rfl, -⟩ := List.append_inj (hsplit.symm.trans hsplit') hlen
        exact @feedAll_map_eq _ ⟨_, derived⟩ ⟨_, derived⟩ hbase hbase' rfl _ _ _ hsplit hw hv

/-! ## Two runs -/

/-- Two reads of one direction, cut alike, the server's with the same bytes. -/
structure SameButClient (read read' : LoggedRead) : Prop where
  direction : read.fromClientToServer = read'.fromClientToServer
  length : read.bytes.length = read'.bytes.length
  server : read.fromClientToServer = false → read.bytes = read'.bytes

/-- The client stream of a run, every byte stamped with the state it is handled in. -/
def stampedStream (reads : List LoggedRead) : List StampedByte :=
  (chunksFrom logStart reads).flatten

omit [BasicString.Library] in
theorem length_chunks_eq {reads reads' : List LoggedRead}
    (h : List.Forall₂ SameButClient reads reads') (base : MySqlPacket)
    (st : MySqlConnectionState) :
    (clientChunks base st reads).map List.length
      = (clientChunks base st reads').map List.length := by
  induction h generalizing base st with
  | nil => rfl
  | @cons read read' reads reads' hread _ ih =>
    cases hdir : read.fromClientToServer with
    | true =>
      have hdir' : read'.fromClientToServer = true := hread.direction.symm.trans hdir
      rw [clientChunks_cons_client _ hdir, clientChunks_cons_client _ hdir', List.map_cons,
        List.map_cons, ih]
      simp [stamp, hread.length]
    | false =>
      have hdir' : read'.fromClientToServer = false := hread.direction.symm.trans hdir
      rw [clientChunks_cons_server _ hdir, clientChunks_cons_server _ hdir', hread.server hdir]
      exact ih _ _

theorem settled_stampedStream (reads : List LoggedRead) :
    Settled .COMMAND_PHASE (stampedStream reads) := by
  rw [stampedStream, chunksFrom_eq_switched rfl rfl]
  cases switchAfter logStart reads with
  | none =>
    refine ⟨readBytes (clientReads reads), [], ?_, fun _ => rfl⟩
    rw [switchedChunks, flatten_chunks]
    exact (List.append_nil _).symm
  | some k =>
    refine ⟨readBytes ((clientReads reads).take k), readBytes ((clientReads reads).drop k), ?_,
      fun h => absurd h (by decide)⟩
    rw [switchedChunks, List.flatten_append, flatten_chunks, flatten_chunks]

/-- The log of a run is what the sampled feeding has shown. -/
theorem logs_iff {reads : List LoggedRead} {log : List LogRecord} :
    (∃ t, Fallible.run logRead logStart reads = .ok t ∧ t.2.logFile = log) ↔
      (Fallible.sample Packet.feed FromClientPacket.logRecord FromClientPacket.initial
        (chunksFrom logStart reads)).map Prod.snd = .ok log := by
  constructor
  · rintro ⟨t, hrun, rfl⟩
    obtain ⟨packet, seen, hsample, rfl⟩ := run_reads.mp hrun
    rw [show Fallible.sample Packet.feed FromClientPacket.logRecord FromClientPacket.initial
      (chunksFrom logStart reads) = .ok (packet, seen) from hsample]
    rfl
  · intro hmap
    obtain ⟨⟨packet, seen⟩, hsample, rfl⟩ := Fallible.map_ok_iff.mp hmap
    exact ⟨afterReads logStart reads packet seen, run_reads.mpr ⟨packet, seen, hsample, rfl⟩, rfl⟩

/-- **Authentication data never reaches the log.** Two runs with the same server reads, the same
interleaving and the same cutting, whose client streams differ only in the payload and the sequence
ids of packets whose first payload byte is handled in the connection phase, throw at the same read
with the same records, or log the same records. -/
theorem auth_data_not_logged (reads reads' : List LoggedRead)
    (hreads : List.Forall₂ SameButClient reads reads')
    (hclient : SameButAuth (stampedStream reads) (stampedStream reads')) :
    (∀ n e log, ThrowsAtRead reads n e log ↔ ThrowsAtRead reads' n e log) ∧
    (∀ log, (∃ t, Fallible.run logRead logStart reads = .ok t ∧ t.2.logFile = log) ↔
      ∃ t, Fallible.run logRead logStart reads' = .ok t ∧ t.2.logFile = log) := by
  have hshows := showsAlike_of_sameButAuth hclient (settled_stampedStream reads)
  have hlen := length_chunks_eq hreads {} .CONNECTION_PHASE
  constructor
  · intro n e log
    rw [throwsAtRead_iff, throwsAtRead_iff]
    exact ⟨hshows.sampleFailsAt hlen, hshows.symm.sampleFailsAt hlen.symm⟩
  · intro log
    rw [logs_iff, logs_iff, hshows.sample_eq hlen]

end

/-- A login packet of one byte. -/
def login (sequenceId password : UInt8) : Message StampedByte :=
  Message.single
    { len0 := (1, .CONNECTION_PHASE)
      len1 := (0, .CONNECTION_PHASE)
      len2 := (0, .CONNECTION_PHASE)
      seq := (sequenceId, .CONNECTION_PHASE)
      payload := [(password, .CONNECTION_PHASE)]
      length_eq := rfl }
    (Frame.not_isFull_of_lt (show 1 < fullLength by decide))

/-- A login, the server's OK packet and a ping. -/
def loginReads (sequenceId password : UInt8) : List LoggedRead :=
  [clientRead [1, 0, 0, sequenceId, password] (List.cons_ne_nil _ _), serverOk,
    clientRead [1, 0, 0, 0, 0x0E] (List.cons_ne_nil _ _)]

theorem differsInAuth_login (s b s' b' : UInt8) : DiffersInAuth (login s b) (login s' b') :=
  ⟨rfl, fun hnot => absurd rfl (hnot b [])⟩

open scoped BasicString.Libstdcxx in
/-- Two passwords under two sequence ids leave one log. -/
theorem auth_data_not_logged_login :
    ∃ log, (∃ t, Fallible.run logRead logStart (loginReads 1 0x41) = .ok t ∧ t.2.logFile = log) ∧
      ∃ t, Fallible.run logRead logStart (loginReads 9 0x42) = .ok t ∧ t.2.logFile = log := by
  have hreads : List.Forall₂ SameButClient (loginReads 1 0x41) (loginReads 9 0x42) :=
    .cons ⟨rfl, rfl, fun h => absurd h (by decide)⟩
      (.cons ⟨rfl, rfl, fun _ => rfl⟩ (.cons ⟨rfl, rfl, fun _ => rfl⟩ .nil))
  have hstreams : SameButAuth (stampedStream (loginReads 1 0x41))
      (stampedStream (loginReads 9 0x42)) :=
    ⟨rfl, [login 1 0x41, ping], [login 9 0x42, ping],
      .cons (differsInAuth_login 1 0x41 9 0x42) (.cons ⟨rfl, fun _ => rfl⟩ .nil), ⟨[], rfl⟩,
      ⟨[], rfl⟩⟩
  exact ⟨_, ⟨_, rfl, rfl⟩, ((auth_data_not_logged _ _ hreads hstreams).2 _).mp ⟨_, rfl, rfl⟩⟩

end Proxy
