import MySqlProxy.Packet.ClientWalk
import MySqlProxy.Packet.Counters

/-!
# The room a packet asks for

How much room the SQL string is asked for, packet by packet. It depends on the lengths of the frames
alone. A command with an SQL field reserves the data of its first frame; a continuation frame
reserves its payload on top of the capacity there is, not of the characters there are, so that the
capacity outruns the string. Any other packet asks for room only while the receive mode is on, one
byte at a time, and a packet of the connection phase for none.

* **`capacity_le_maxSize`** — the capacity of a reachable packet;
* **`messageCapacity_sql`** — the requests of a command with an SQL field, one or two a frame;
* **`messageCapacity_other`** — those of another command;
* **`Contents.Idle`** — the fields for which nothing is asked.
-/

namespace Proxy

open Framing FromClientFields BasicString

/-! ## Streams in one connection state -/

/-- A stream all of whose bytes are handled in one connection state. -/
def stamp (st : MySqlConnectionState) (bytes : List UInt8) : List StampedByte :=
  bytes.map fun b => (b, st)

theorem map_fst_stamp (st : MySqlConnectionState) (bytes : List UInt8) :
    (stamp st bytes).map Prod.fst = bytes := by
  rw [stamp, List.map_map]
  exact List.map_id' bytes

/-- A logical packet all of whose bytes are handled in one connection state. -/
def stampMessage (st : MySqlConnectionState) (m : Message UInt8) : Message StampedByte :=
  m.map (fun b => (b, st)) fun _ => rfl

theorem encode_stampMessage (st : MySqlConnectionState) (m : Message UInt8) :
    (stampMessage st m).encode = stamp st m.encode := Message.encode_map m

theorem payload_stampMessage (st : MySqlConnectionState) (m : Message UInt8) :
    (stampMessage st m).payload = stamp st m.payload := Message.payload_map m

theorem seq_first_stampMessage (st : MySqlConnectionState) (m : Message UInt8) :
    (stampMessage st m).first.seq.1 = m.first.seq := by
  rw [stampMessage, Message.first_map]
  rfl

theorem length_last_stampMessage (st : MySqlConnectionState) (m : Message UInt8) :
    (stampMessage st m).last.payload.length = m.last.payload.length :=
  List.length_map _

/-- The frames of the payload `c :: rest`, in the command phase. -/
def commandMessage (seq : Nat → UInt8) (c : UInt8) (rest : List UInt8) : Message StampedByte :=
  stampMessage .COMMAND_PHASE (Message.ofPayload seq (c :: rest))

theorem payload_commandMessage (seq : Nat → UInt8) (c : UInt8) (rest : List UInt8) :
    (commandMessage seq c rest).payload
      = (c, .COMMAND_PHASE) :: stamp .COMMAND_PHASE rest := by
  rw [commandMessage, payload_stampMessage, Message.payload_ofPayload]
  rfl

theorem seq_commandMessage (seq : Nat → UInt8) (c : UInt8) (rest : List UInt8) :
    (commandMessage seq c rest).first.seq.1 = seq 0 := by
  rw [commandMessage, seq_first_stampMessage, Message.seq_first_ofPayload]

section

variable [Library]

/-! ## The room of a reachable packet -/

namespace FromClientFields

theorem openCapacity_le_maxSize {capacity capacity' : Nat} {payloadLength : UInt64}
    {x : StampedByte} (hcapacity : capacity ≤ Library.maxSize)
    (h : openCapacity capacity payloadLength x = .ok capacity') : capacity' ≤ Library.maxSize := by
  have hshrunk : Library.shrink 0 capacity ≤ Library.maxSize :=
    Nat.le_trans Library.shrink_le hcapacity
  unfold openCapacity at h
  split at h
  · rw [← Except.ok.inj h]
    exact hcapacity
  · split at h
    · exact grow_le_maxSize hshrunk h
    · rw [← Except.ok.inj h]
      exact hshrunk

theorem continueCapacity_le_maxSize {command : MySqlCommand.Command} {capacity capacity' : Nat}
    {payloadLength : UInt64} {st : MySqlConnectionState} (hcapacity : capacity ≤ Library.maxSize)
    (h : continueCapacity command capacity payloadLength st = .ok capacity') :
    capacity' ≤ Library.maxSize := by
  unfold continueCapacity at h
  split at h
  · exact grow_le_maxSize hcapacity h
  · rw [← Except.ok.inj h]
    exact hcapacity

theorem pushCapacity_le_maxSize {mode : Bool} {size capacity capacity' : Nat}
    (hcapacity : capacity ≤ Library.maxSize) (h : pushCapacity mode size capacity = .ok capacity') :
    capacity' ≤ Library.maxSize := by
  unfold pushCapacity at h
  split at h
  · exact grow_le_maxSize hcapacity h
  · rw [← Except.ok.inj h]
    exact hcapacity

/-- A payload byte keeps the capacity within `max_size()`. -/
theorem capacity_le_of_payloadByte {base : MySqlPacket} {x : StampedByte}
    {packet packet' : FromClientFields} (hcapacity : packet.sqlString.capacity ≤ Library.maxSize)
    (h : packet.payloadByte base x = .ok packet') :
    packet'.sqlString.capacity ≤ Library.maxSize := by
  unfold payloadByte at h
  split at h
  · split at h
    · exact openCapacity_le_maxSize hcapacity (openPacket_ok_iff.mp h).2.2
    · obtain ⟨next, hnext, hcollect⟩ := Fallible.bind_ok_iff.mp h
      have hroom := continueCapacity_le_maxSize hcapacity (continuePacket_ok_iff.mp hnext).2
      exact pushCapacity_le_maxSize hroom (collectData_ok_iff.mp hcollect).2
  · exact pushCapacity_le_maxSize hcapacity (collectData_ok_iff.mp h).2

end FromClientFields

namespace FromClientPacket

theorem capacity_le_of_feed {packet packet' : FromClientPacket} {x : StampedByte}
    (hcapacity : packet.derived.sqlString.capacity ≤ Library.maxSize)
    (h : packet.feed x = .ok packet') : packet'.derived.sqlString.capacity ≤ Library.maxSize := by
  by_cases hstate : packet.packetState = .PAYLOAD
  · rw [feed_payload hstate] at h
    obtain ⟨derived, hbyte, rfl⟩ := Fallible.map_ok_iff.mp h
    have hroom := capacity_le_of_payloadByte hcapacity hbyte
    dsimp only
    split
    · exact hroom
    · exact hroom
  · rw [feed_header hstate] at h
    rw [← Except.ok.inj h]
    exact hcapacity

/-- **The capacity of a reachable packet** is within `max_size()`, so that the argument of `reserve`
does not wrap. -/
theorem capacity_le_maxSize {pre : List StampedByte} {packet : FromClientPacket}
    (h : initial.feedAll pre = .ok packet) :
    packet.derived.sqlString.capacity ≤ Library.maxSize :=
  Fallible.run_invariant (fun _ _ _ hcapacity hfeed => capacity_le_of_feed hcapacity hfeed)
    Library.initialCapacity_le h

end FromClientPacket

/-! ## The requests of an SQL command -/

/-- The capacity after continuation frames of an SQL command, `lengths` being the lengths of their
payloads and `size` the number of characters before them: each frame that is not empty reserves its
payload but one on top of the capacity there is, and then needs the room for it. -/
def continuedCapacity (size capacity : Nat) : List Nat → Except Failure Nat
  | [] => .ok capacity
  | 0 :: lengths => continuedCapacity size capacity lengths
  | (n + 1) :: lengths => do
    let capacity ← grow capacity (capacity + n)
    let capacity ← grow capacity (size + (n + 1))
    continuedCapacity (size + (n + 1)) capacity lengths

theorem continuedCapacity_succ (size capacity n : Nat) (lengths : List Nat) :
    continuedCapacity size capacity ((n + 1) :: lengths)
      = (grow capacity (capacity + n) >>= fun capacity => grow capacity (size + (n + 1))) >>=
        fun capacity => continuedCapacity (size + (n + 1)) capacity lengths := by
  rw [continuedCapacity]
  cases grow capacity (capacity + n) <;> rfl

/-- The capacity after an SQL command with frames of the lengths `lengths`: the string is emptied,
and the first frame reserves its payload but the command byte. -/
def sqlCapacity (capacity : Nat) : List Nat → Except Failure Nat
  | [] => .ok capacity
  | n :: lengths => do
    let capacity ← grow (Library.shrink 0 capacity) (n - 1)
    continuedCapacity (n - 1) capacity lengths

/-- A string of the capacity `capacity` gets all the room an SQL command of `length` bytes asks
for. -/
def Granted (capacity length : Nat) : Prop :=
  ∃ capacity', sqlCapacity capacity (frameLengths length) = .ok capacity'

namespace FromClientFields

omit [Library] in
theorem toNat_reserveLength {n : Nat} (hn : n + 1 ≤ fullLength) :
    (reserveLength (UInt64.ofNat (n + 1))).toNat = n := by
  have hlength := toNat_ofNat_of_le hn
  have hsafe := (Packet.reservesSafely_of_pos (by omega) (hlength.trans_le hn)).1
  rw [hlength] at hsafe
  exact Nat.succ.inj hsafe

/-- No string is so long that what a continuation frame reserves wraps. -/
theorem toNat_reserveMoreLength {capacity n : Nat} (hcapacity : capacity ≤ Library.maxSize)
    (hn : n + 1 ≤ fullLength) :
    (reserveMoreLength (UInt64.ofNat capacity) (UInt64.ofNat (n + 1))).toNat = capacity + n := by
  have hmax : capacity ≤ Packet.STRING_MAX_SIZE := Nat.le_trans hcapacity Library.maxSize_le
  have hlength := toNat_ofNat_of_le hn
  have hroom : (UInt64.ofNat capacity).toNat = capacity := by
    rw [UInt64.toNat_ofNat']
    simp only [Packet.STRING_MAX_SIZE] at hmax
    omega
  have hsafe := (Packet.reservesSafely_of_pos (by omega) (hlength.trans_le hn)).2
    (UInt64.ofNat capacity) (hroom.trans_le hmax)
  rw [hlength, hroom] at hsafe
  omega

/-- A continuation frame of an SQL command. -/
theorem continueFrameCapacity_sql {contents : Contents} {capacity n : Nat} {f : Frame StampedByte}
    (hcommand : MySqlCommand.hasSqlField contents.command = true)
    (hmode : contents.sqlDataReceiving = true) (hsize : contents.sql.length ≤ capacity)
    (hmax : capacity ≤ Library.maxSize) (hstamp : ∀ x ∈ f.payload, x.2 = .COMMAND_PHASE)
    (hn : f.payload.length = n + 1) :
    continueFrameCapacity contents capacity f
      = grow capacity (capacity + n) >>= fun capacity =>
          grow capacity (contents.sql.length + (n + 1)) := by
  obtain ⟨x, rest, hpayload⟩ := List.exists_cons_of_length_eq_add_one hn
  have hstate : x.2 = .COMMAND_PHASE := hstamp x (by simp [hpayload])
  have hle : n + 1 ≤ fullLength := hn ▸ f.length_le
  have hreserve : continueCapacity contents.command capacity (UInt64.ofNat f.payload.length) x.2
      = grow capacity (capacity + n) := by
    rw [continueCapacity, if_pos ⟨hstate, hcommand⟩, hn, toNat_reserveMoreLength hmax hle]
  have hunfold : continueFrameCapacity contents capacity f
      = continueCapacity contents.command capacity (UInt64.ofNat f.payload.length) x.2 >>=
        fun capacity => pushAllCapacity contents.sqlDataReceiving contents.sql.length capacity
          f.payload.length := by
    rw [continueFrameCapacity, hpayload]
  rw [hunfold, hreserve, hn, hmode]
  cases hgrow : grow capacity (capacity + n) with
  | error failure => rfl
  | ok reserved =>
    -- the reserved room falls short of the frame by one byte at most
    have hroom := le_of_grow hgrow
    exact pushed_of_le (Nat.succ_pos n) (by omega)

/-- Continuation frames of an SQL command, of which only the last may not be full. Induction on the
full ones. -/
theorem framesCapacity_sql {contents : Contents} {capacity : Nat}
    (hcommand : MySqlCommand.hasSqlField contents.command = true)
    (hmode : contents.sqlDataReceiving = true) (hsize : contents.sql.length ≤ capacity)
    (hmax : capacity ≤ Library.maxSize) {fs : List (Frame StampedByte)}
    (hfull : ∀ f ∈ fs, f.IsFull) (last : Frame StampedByte)
    (hstamp : ∀ f ∈ fs ++ [last], ∀ x ∈ f.payload, x.2 = .COMMAND_PHASE) :
    framesCapacity contents capacity (fs ++ [last])
      = continuedCapacity contents.sql.length capacity
          ((fs ++ [last]).map fun f => f.payload.length) := by
  induction fs generalizing contents capacity with
  | nil =>
    rw [List.nil_append, framesCapacity, List.map_singleton]
    cases hn : last.payload.length with
    | zero =>
      rw [continueFrameCapacity, List.length_eq_zero_iff.mp hn]
      rfl
    | succ n =>
      rw [continueFrameCapacity_sql hcommand hmode hsize hmax (hstamp last (by simp)) hn,
        continuedCapacity_succ]
      rfl
  | cons f fs ih =>
    have hf : f.IsFull := hfull f (by simp)
    obtain ⟨n, hn⟩ : ∃ n, f.payload.length = n + 1 :=
      Nat.exists_eq_add_one.mpr (hf ▸ fullLength_pos)
    have hnext : contents.continueFrame f = contents.appendData (f.payload.map Prod.fst) :=
      Contents.closeFrame_full hf _
    have hlength : (contents.continueFrame f).sql.length = contents.sql.length + (n + 1) := by
      rw [hnext, Contents.appendData, hmode, if_pos rfl, List.length_append, List.length_map, hn]
    rw [List.cons_append, framesCapacity, List.map_cons, hn,
      continueFrameCapacity_sql hcommand hmode hsize hmax (hstamp f (by simp)) hn,
      continuedCapacity_succ, ← hlength]
    cases hframe : (grow capacity (capacity + n) >>= fun capacity =>
        grow capacity (contents.continueFrame f).sql.length) with
    | error failure => rfl
    | ok pushed =>
      obtain ⟨reserved, hreserve, hpush⟩ := Fallible.bind_ok_iff.mp hframe
      exact ih (by rw [hnext]; exact hcommand) (by rw [hnext]; exact hmode) (le_of_grow hpush)
        (grow_le_maxSize (grow_le_maxSize hmax hreserve) hpush)
        (fun g hg => hfull g (by simp [hg])) fun g hg => hstamp g (by simp [hg])

/-- The first frame of an SQL command. Its data fits in the room it reserves. -/
theorem beginCapacity_sql {contents : Contents} {capacity : Nat} {f : Frame StampedByte} {c : UInt8}
    {w : List StampedByte} (hsql : MySqlCommand.hasSqlField ⟨c⟩ = true)
    (hpayload : f.payload = (c, .COMMAND_PHASE) :: w) :
    beginCapacity contents capacity f = grow (Library.shrink 0 capacity) w.length := by
  have hlength : f.payload.length = w.length + 1 := by rw [hpayload, List.length_cons]
  have hle : w.length + 1 ≤ fullLength := hlength ▸ f.length_le
  have hunfold : beginCapacity contents capacity f
      = openCapacity capacity (UInt64.ofNat f.payload.length) (c, .COMMAND_PHASE) >>=
        fun capacity => pushAllCapacity (contents.startCommand c).sqlDataReceiving 0 capacity
          w.length := by
    rw [beginCapacity, hpayload]
    rfl
  have hreserve : openCapacity capacity (UInt64.ofNat f.payload.length) (c, .COMMAND_PHASE)
      = grow (Library.shrink 0 capacity) w.length := by
    rw [hlength]
    simp only [openCapacity, hsql, if_true, toNat_reserveLength hle]
  have hmode : (contents.startCommand c).sqlDataReceiving = true := by
    simp [Contents.startCommand, hsql]
  rw [hunfold, hreserve, hmode]
  cases hgrow : grow (Library.shrink 0 capacity) w.length with
  | error failure => rfl
  | ok reserved => exact pushed_of_fits (by rw [Nat.zero_add]; exact le_of_grow hgrow)

/-- **The requests of an SQL command**, one for its first frame and two for every other that is not
empty. -/
theorem messageCapacity_sql {contents : Contents} {capacity : Nat}
    (hmax : capacity ≤ Library.maxSize) {c : UInt8} (hsql : MySqlCommand.hasSqlField ⟨c⟩ = true)
    (rest : List UInt8) (seq : Nat → UInt8) :
    messageCapacity contents capacity (commandMessage seq c rest)
      = sqlCapacity capacity (frameLengths (rest.length + 1)) := by
  have hpayload := payload_commandMessage seq c rest
  have hstamp : ∀ f ∈ (commandMessage seq c rest).frames, ∀ x ∈ f.payload,
      x.2 = MySqlConnectionState.COMMAND_PHASE := by
    intro f hf x hx
    have hmem : x ∈ (commandMessage seq c rest).payload := List.mem_flatMap.mpr ⟨f, hf, hx⟩
    rw [hpayload] at hmem
    rcases List.mem_cons.mp hmem with rfl | hmem
    · rfl
    · obtain ⟨b, -, rfl⟩ := List.mem_map.mp hmem
      rfl
  have hlengths := (commandMessage seq c rest).lengths_frames
  have hhead := (commandMessage seq c rest).head?_payload
  rw [hpayload, List.length_cons, stamp, List.length_map] at hlengths
  rw [hpayload, List.head?_cons] at hhead
  generalize commandMessage seq c rest = m at *
  obtain ⟨w, hw⟩ := List.head?_eq_some_iff.mp hhead.symm
  have hlength : m.first.payload.length - 1 = w.length := by rw [hw, List.length_cons]; rfl
  have hframes : m.frames = m.first :: m.frames.tail := m.frames_eq_cons
  rw [← hlengths, hframes, List.map_cons, sqlCapacity, hlength, messageCapacity,
    beginCapacity_sql hsql hw]
  cases hgrow : grow (Library.shrink 0 capacity) w.length with
  | error failure => rfl
  | ok reserved =>
    rcases m.frames_cases with ⟨-, htail, -⟩ | ⟨fs, hfirst, hfull, htail, -⟩
    · rw [htail]
      rfl
    · have hbegin : contents.beginFrame m.first
          = (contents.startCommand c).appendData (w.map Prod.fst) := by
        rw [Contents.beginFrame, hw]
        exact Contents.closeFrame_full hfirst _
      have hmode : (contents.startCommand c).sqlDataReceiving = true := by
        simp [Contents.startCommand, hsql]
      have hsize : (contents.beginFrame m.first).sql.length = w.length := by
        rw [hbegin, Contents.appendData, hmode, if_pos rfl]
        simp [Contents.startCommand]
      rw [htail] at hframes ⊢
      rw [← hsize]
      exact framesCapacity_sql (by rw [hbegin]; exact hsql) (by rw [hbegin]; exact hmode)
        (hsize ▸ le_of_grow hgrow)
        (grow_le_maxSize (Nat.le_trans Library.shrink_le hmax) hgrow) hfull m.last
        fun f hf => hstamp f (by rw [hframes]; exact List.mem_cons_of_mem _ hf)

end FromClientFields

/-! ## The requests of other packets -/

namespace FromClientFields

theorem pushAllCapacity_add (mode : Bool) (size capacity n k : Nat) :
    pushAllCapacity mode size capacity (n + k)
      = pushAllCapacity mode size capacity n >>= fun capacity =>
          pushAllCapacity mode (size + n) capacity k := by
  cases mode with
  | false => rfl
  | true => exact pushed_add size capacity n k

/-- The room for bytes behind those a frame has added. -/
theorem pushAllCapacity_appendData (contents : Contents) (bytes : List UInt8) (capacity n : Nat) :
    pushAllCapacity contents.sqlDataReceiving (contents.appendData bytes).sql.length capacity n
      = pushAllCapacity contents.sqlDataReceiving (contents.sql.length + bytes.length) capacity
          n := by
  cases hmode : contents.sqlDataReceiving with
  | false => rfl
  | true => rw [Contents.appendData, hmode, if_pos rfl, List.length_append]

/-- A continuation frame of a packet whose command has no SQL field. -/
theorem continueFrameCapacity_other {contents : Contents}
    (hcommand : MySqlCommand.hasSqlField contents.command = false) (capacity : Nat)
    (f : Frame StampedByte) :
    continueFrameCapacity contents capacity f
      = pushAllCapacity contents.sqlDataReceiving contents.sql.length capacity
          f.payload.length := by
  unfold continueFrameCapacity
  cases hpayload : f.payload with
  | nil => cases contents.sqlDataReceiving <;> rfl
  | cons x rest => simp [continueCapacity, hcommand, bind, Except.bind]

/-- Continuation frames of such a packet. Induction on the full ones. -/
theorem framesCapacity_other {contents : Contents} {capacity : Nat}
    (hcommand : MySqlCommand.hasSqlField contents.command = false)
    {fs : List (Frame StampedByte)} (hfull : ∀ f ∈ fs, f.IsFull) (last : Frame StampedByte) :
    framesCapacity contents capacity (fs ++ [last])
      = pushAllCapacity contents.sqlDataReceiving contents.sql.length capacity
          ((fs ++ [last]).flatMap Frame.payload).length := by
  induction fs generalizing contents capacity with
  | nil =>
    rw [List.nil_append, framesCapacity, continueFrameCapacity_other hcommand,
      List.flatMap_singleton]
    cases pushAllCapacity contents.sqlDataReceiving contents.sql.length capacity
      last.payload.length <;> rfl
  | cons f fs ih =>
    have hnext : contents.continueFrame f = contents.appendData (f.payload.map Prod.fst) :=
      Contents.closeFrame_full (hfull f (by simp)) _
    have hsame : MySqlCommand.hasSqlField (contents.continueFrame f).command = false := by
      rw [hnext]
      exact hcommand
    rw [List.cons_append, framesCapacity, continueFrameCapacity_other hcommand, List.flatMap_cons,
      List.length_append, pushAllCapacity_add]
    congr 1
    funext room
    rw [ih hsame fun g hg => hfull g (by simp [hg]), hnext, Contents.appendData_mode,
      pushAllCapacity_appendData, List.length_map]

/-- **The requests of a command without an SQL field**: one for each byte of its data, while the
receive mode is on. -/
theorem messageCapacity_other {contents : Contents} {capacity : Nat} {m : Message StampedByte}
    {c : UInt8} {rest : List StampedByte} (hpayload : m.payload = (c, .COMMAND_PHASE) :: rest)
    (hsql : MySqlCommand.hasSqlField ⟨c⟩ = false) :
    messageCapacity contents capacity m
      = pushAllCapacity contents.sqlDataReceiving 0 (Library.shrink 0 capacity) rest.length := by
  have hmode : (contents.startCommand c).sqlDataReceiving = contents.sqlDataReceiving := by
    simp [Contents.startCommand, hsql]
  have hhead := m.head?_payload
  rw [hpayload, List.head?_cons] at hhead
  obtain ⟨w, hw⟩ := List.head?_eq_some_iff.mp hhead.symm
  have hbegin : beginCapacity contents capacity m.first
      = pushAllCapacity contents.sqlDataReceiving 0 (Library.shrink 0 capacity) w.length := by
    rw [← hmode, beginCapacity, hw]
    simp only [openCapacity, hsql, Bool.false_eq_true, if_false]
    rfl
  rw [messageCapacity, hbegin]
  rcases m.frames_cases with ⟨-, htail, hall⟩ | ⟨fs, hfirst, hfull, htail, hall⟩
  · obtain ⟨-, rfl⟩ := List.cons.inj (hpayload.symm.trans (hall.trans hw))
    rw [htail]
    cases pushAllCapacity contents.sqlDataReceiving 0 (Library.shrink 0 capacity) rest.length <;>
      rfl
  · rw [hw, List.cons_append] at hall
    obtain ⟨-, rfl⟩ := List.cons.inj (hpayload.symm.trans hall)
    have hfields : contents.beginFrame m.first
        = (contents.startCommand c).appendData (w.map Prod.fst) := by
      rw [Contents.beginFrame, hw]
      exact Contents.closeFrame_full hfirst _
    rw [htail, List.length_append, pushAllCapacity_add]
    congr 1
    funext room
    rw [framesCapacity_other (by rw [hfields]; exact hsql) hfull, hfields,
      Contents.appendData_mode, pushAllCapacity_appendData, hmode, List.length_map,
      List.flatMap_append, List.flatMap_singleton]
    rfl

end FromClientFields

end

/-! ## Packets that ask for nothing -/

namespace Contents

/-- The receive mode is off, and the command has no SQL field to reserve room for. -/
structure Idle (contents : Contents) : Prop where
  mode : contents.sqlDataReceiving = false
  command : MySqlCommand.hasSqlField contents.command = false

theorem Idle.appendData {contents : Contents} (h : contents.Idle) (bytes : List UInt8) :
    contents.appendData bytes = contents := by
  obtain ⟨command, mode, sql⟩ := contents
  obtain rfl : mode = false := h.mode
  rfl

theorem Idle.closeFrame {contents : Contents} (h : contents.Idle) (f : Frame StampedByte) :
    contents.closeFrame f = contents := by
  have hclosed : contents.dataIsReceived = contents := by
    rw [dataIsReceived, ← h.mode]
  unfold Contents.closeFrame
  split
  · rfl
  · exact hclosed

/-- A packet begun in the connection phase leaves idle fields as they are. -/
theorem Idle.afterMessage {contents : Contents} (h : contents.Idle) {m : Message StampedByte}
    {b : UInt8} {rest : List StampedByte} (hpayload : m.payload = (b, .CONNECTION_PHASE) :: rest) :
    contents.afterMessage m = contents := by
  rw [afterMessage_cons hpayload, ← closeFrame_last]
  show ((contents.appendData _).closeFrame m.last) = contents
  rw [h.appendData, h.closeFrame]

/-- And it asks for no room. -/
theorem Idle.messageCapacity [Library] {contents : Contents} (h : contents.Idle)
    {m : Message StampedByte} {b : UInt8} {rest : List StampedByte}
    (hpayload : m.payload = (b, .CONNECTION_PHASE) :: rest) (capacity : Nat) :
    FromClientFields.messageCapacity contents capacity m = .ok capacity := by
  have hhead := m.head?_payload
  rw [hpayload, List.head?_cons] at hhead
  obtain ⟨w, hw⟩ := List.head?_eq_some_iff.mp hhead.symm
  have hbegin : contents.beginFrame m.first = contents := by
    rw [beginFrame, hw]
    show ((contents.appendData _).closeFrame m.first) = contents
    rw [h.appendData, h.closeFrame]
  have hroom : beginCapacity contents capacity m.first = .ok capacity := by
    rw [beginCapacity, hw]
    simp [openCapacity, opened, pushAllCapacity, h.mode, bind, Except.bind]
  rw [FromClientFields.messageCapacity, hroom, hbegin]
  rcases m.frames_cases with ⟨-, htail, -⟩ | ⟨fs, -, hfull, htail, -⟩
  · rw [htail]
    rfl
  · rw [htail]
    show framesCapacity contents capacity (fs ++ [m.last]) = .ok capacity
    rw [framesCapacity_other h.command hfull, h.mode]
    rfl

end Contents
end Proxy
